import Sproc.Ast.Build
import Sproc.Ast.Decode
import Sproc.Ast.Encode
import Sproc.CommandLine.Directory
import Sproc.CommandLine.Usage
import Sproc.ConfigFile
import Sproc.GoFile
import Sproc.Json.Printer
import Sproc.Main
import Sproc.Proofs.Query.Placeholders
import Sproc.Proofs.Query.Agreement
import Sproc.Proofs.Query.Reading
import Sproc.Proofs.Query.Grouping
import Sproc.Proofs.Faults
import Sproc.Proofs.Lower.Computation
import Sproc.Proofs.Lower.Effect
import Sproc.Proofs.Lower.Discipline
import Sproc.Proofs.Lower.Scheme
import Sproc.Proofs.Lower.Returns
import Sproc.Proofs.Lower.Frame
import Sproc.Proofs.Lower.Fetch
import Sproc.Proofs.Transaction.Paths
import Sproc.Proofs.Transaction.Tracker
import Sproc.Proofs.Transaction.Soundness
import Sproc.Proofs.Transaction.Scoped
import Sproc.Proofs.Go.Failure
import Sproc.Proofs.Go.Mention
import Sproc.Proofs.Go.Reading
import Sproc.Proofs.Go.Unused
import Sproc.Proofs.Names
import Sproc.Proofs.Lower.Idiom
import Sproc.Proofs.Lower.Evaluation
import Sproc.Proofs.Lower.Writing
import Sproc.Proofs.Lower.DataCalls
import Sproc.Proofs.Lower.Leaves
import Sproc.Proofs.Lower.Composition
import Sproc.Proofs.Lower.Prologue
import Sproc.Proofs.Lower.Provision
import Sproc.Proofs.Lower.Routing
import Sproc.Proofs.Lower.Caught
import Sproc.Proofs.Lower.Usage
import Sproc.Proofs.Lower.Condition
import Sproc.Proofs.Go.Spot
import Sproc.Proofs.Go.Layout
import Sproc.Proofs.Lower.Placement
import Sproc.Proofs.Lower.Escape
import Sproc.Proofs.Lower.Nesting
import Sproc.Proofs.Lower.Locals
import Sproc.Proofs.Lower.Entry
import Sproc.Proofs.Lower.Scope
import Sproc.Proofs.Lower.Rebinding
import Sproc.Proofs.Lower.Blocks
import Sproc.Proofs.Lower.Precedence
import Sproc.Proofs.Lower.Stop
import Sproc.Proofs.Lower.Blame
import Sproc.Proofs.Lower.Generator
import Sproc.Proofs.Lower.Generation
import Sproc.Proofs.Lower.Stacks
import Sproc.Proofs.Lower.Task
import Sproc.Proofs.Lower.Balance
import Sproc.Proofs.Cursor.LifeCycle
import Sproc.Proofs.Cursor.Follow
import Sproc.Proofs.Cursor.Verdict
import Sproc.Proofs.Lower.Invariant
import Sproc.Proofs.Cursor.Iterators
import Sproc.Proofs.Ast.Parts
import Sproc.Proofs.Ast.Document
import Sproc.Proofs.Ast.Decoding
import Sproc.Proofs.Ast.RoundTrip
import Sproc.Proofs.Go.Grouping
import Sproc.Proofs.Go.Qualifier
import Sproc.Proofs.Go.Composed
import Sproc.Proofs.Lower.Supply
import Sproc.Proofs.Lower.Fitting
import Sproc.Proofs.Lower.Operation
import Sproc.Proofs.Lower.Drawing
import Sproc.Proofs.Lower.ReadBack
import Sproc.Proofs.Lower.Stocking
import Sproc.Proofs.Lower.Imports
import Sproc.Proofs.Cursor.Sentinel
import Sproc.Proofs.Cursor.Priming
import Sproc.Proofs.Transaction.StraightLine
import Sproc.Proofs.Cursor.Release
import Sproc.Proofs.Variables
import Sproc.Proofs.SymbolStore
import Sproc.Proofs.Lower.Redeclaration
import Sproc.Proofs.Lower.Jumps
import Sproc.Proofs.Cursor.RowLoop
import Sproc.Proofs.Lower.Fallback
import Sproc.Proofs.Lower.Endings
import Sproc.Proofs.Lower.Posting
import Sproc.Proofs.Go.Lines
import Sproc.Proofs.Lower.Numeral
import Sproc.Proofs.Lower.Mixing
import Sproc.Proofs.Lower.Chains
import Sproc.Proofs.Lower.Location
import Sproc.Proofs.Lower.Attribution
import Sproc.Proofs.Go.StringLiteral
import Sproc.Proofs.Query.StringLiteral
import Sproc.Proofs.Query.NameParts
import Sproc.Proofs.Lower.ConstantArithmetic
import Sproc.Proofs.TypeName
import Sproc.Proofs.Identifier.Validity
import Sproc.Proofs.Identifier.Convention
import Sproc.Proofs.Lower.Numbering
