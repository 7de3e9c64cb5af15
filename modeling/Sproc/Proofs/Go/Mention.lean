import Sproc.Go.Stmt

/-!
# What code mentions

The names that an expression or a statement mentions, each with its role. The receiver of a call that
sends a message is told apart from other names, together with the package of the message: clients and
stores are named by the configuration, so their role cannot be read off their names.

## Main definitions

* `Go.Mention`: a name in its role
* `Go.Expr.mentions`, `Go.Stmt.mentions`: what code mentions, with or without the variables that it
  only assigns

## Main results

* `Go.mem_mentions_call`: the mentions of a call that sends no message
* `Go.listMentions_append`: the mentions of statements one after the other
-/

namespace Sproc.Go

/-- A name that code mentions. -/
inductive Mention where
  /-- A variable, a package or a function. -/
  | name (id : String)
  /-- The receiver of a call that sends a message of the given package. -/
  | receiver (id package : String)
  /-- The package of a message. -/
  | message (package : String)
  deriving DecidableEq, Repr

/-- The variable that a mention is about. -/
def Mention.variable? : Mention → Option String
  | .name id => some id
  | .receiver id _ => some id
  | .message _ => none

/-- The receiver and the package of a call that sends a message: the message follows the context. -/
def request? : Expr → List Expr → Option (String × String)
  | .member (.name id) _, [_, .message package _ _] => some (id, package)
  | _, _ => none

mutual

/-- What an expression mentions, in the order of its text. -/
def Expr.mentions : Expr → List Mention
  | .name id => [.name id]
  | .int _ => []
  | .number _ => []
  | .bool _ => []
  | .nil => []
  | .str _ => []
  | .query _ => []
  | .zero _ => []
  | .member owner _ => owner.mentions
  | .call function args =>
    (match request? function args with
      | some (id, package) => [.receiver id package]
      | none => function.mentions) ++ exprMentions args
  | .convert _ operand => operand.mentions
  | .unary _ operand => operand.mentions
  | .binary _ left right => left.mentions ++ right.mentions
  | .chain _ operands => exprMentions operands
  | .paren operand => operand.mentions
  | .choose _ arms otherwise => choiceMentions arms ++ otherwise.mentions
  | .message package _ fields => .message package :: fieldMentions fields
  | .asError operand => operand.mentions
  | .spread items => exprMentions items

/-- What a list of expressions mentions. -/
def exprMentions : List Expr → List Mention
  | [] => []
  | e :: rest => e.mentions ++ exprMentions rest

/-- What the tests and results of a choice mention. -/
def choiceMentions : List (Expr × Expr) → List Mention
  | [] => []
  | (test, result) :: rest => test.mentions ++ (result.mentions ++ choiceMentions rest)

/-- What the fields of a message mention. -/
def fieldMentions : List (String × Expr) → List Mention
  | [] => []
  | (_, value) :: rest => value.mentions ++ fieldMentions rest

end

/-- What an assignment mentions. The targets count only if `targets` is set. -/
def Assign.mentions (targets : Bool) (a : Assign) : List Mention :=
  (if targets then exprMentions a.targets else []) ++ a.value.mentions

/-- What an optional assignment mentions. -/
def initMentions (targets : Bool) : Option Assign → List Mention
  | none => []
  | some a => a.mentions targets

/-- What an optional expression mentions. -/
def optionMentions : Option Expr → List Mention
  | none => []
  | some e => e.mentions

mutual

/-- What a statement mentions. The variables that it assigns count only if `targets` is set; a
declaration does not mention what it declares. -/
def Stmt.mentions (targets : Bool) : Stmt → List Mention
  | .assign a => a.mentions targets
  | .declare _ _ init => optionMentions init
  | .run call => call.mentions
  | .deferCall call => call.mentions
  | .ret values => exprMentions values
  | .panic value => value.mentions
  | .breakLoop => []
  | .continueLoop => []
  | .branch (.mk init test body) others otherwise =>
    initMentions targets init ++ (test.mentions ++ (listMentions targets body ++
      (armMentions targets others ++ elseMentions targets otherwise)))
  | .loop test body => optionMentions test ++ listMentions targets body
  | .closure _ body => listMentions targets body

/-- What a list of statements mentions. -/
def listMentions (targets : Bool) : List Stmt → List Mention
  | [] => []
  | s :: rest => s.mentions targets ++ listMentions targets rest

/-- What the arms of a chain mention. -/
def armMentions (targets : Bool) : List Arm → List Mention
  | [] => []
  | .mk init test body :: rest =>
    initMentions targets init ++ (test.mentions ++ (listMentions targets body ++
      armMentions targets rest))

/-- What an alternative mentions. -/
def elseMentions (targets : Bool) : Option (List Stmt) → List Mention
  | none => []
  | some body => listMentions targets body

end

/-- The variables that statements use: those that they mention other than to assign them. -/
def listUses (body : List Stmt) : List String :=
  (listMentions false body).filterMap Mention.variable?

/-! ## Membership -/

variable {m : Mention} {targets : Bool}

theorem mem_exprMentions {es : List Expr} :
    m ∈ exprMentions es ↔ ∃ e ∈ es, m ∈ e.mentions := by
  induction es with
  | nil => simp [exprMentions]
  | cons e rest ih => simp [exprMentions, ih]

theorem mem_choiceMentions {arms : List (Expr × Expr)} :
    m ∈ choiceMentions arms ↔ ∃ arm ∈ arms, m ∈ arm.1.mentions ∨ m ∈ arm.2.mentions := by
  induction arms with
  | nil => simp [choiceMentions]
  | cons arm rest ih => simp [choiceMentions, ih, or_assoc]

theorem mem_fieldMentions {fields : List (String × Expr)} :
    m ∈ fieldMentions fields ↔ ∃ field ∈ fields, m ∈ field.2.mentions := by
  induction fields with
  | nil => simp [fieldMentions]
  | cons field rest ih => simp [fieldMentions, ih]

/-- A call that sends no message mentions its function and its arguments. -/
theorem mem_mentions_call {function : Expr} {args : List Expr} (h : request? function args = none) :
    m ∈ (Expr.call function args).mentions ↔
      m ∈ function.mentions ∨ ∃ e ∈ args, m ∈ e.mentions := by
  rw [Expr.mentions, h, List.mem_append, mem_exprMentions]

@[simp]
theorem listMentions_append (front back : List Stmt) :
    listMentions targets (front ++ back) =
      listMentions targets front ++ listMentions targets back := by
  induction front with
  | nil => rfl
  | cons s rest ih => simp [listMentions, ih]

theorem mem_listUses {name : String} {body : List Stmt} :
    name ∈ listUses body ↔ ∃ m ∈ listMentions false body, m.variable? = some name :=
  List.mem_filterMap

@[simp]
theorem listUses_append (front back : List Stmt) :
    listUses (front ++ back) = listUses front ++ listUses back := by
  simp [listUses]

theorem listUses_cons (s : Stmt) (rest : List Stmt) :
    listUses (s :: rest) = listUses [s] ++ listUses rest := by
  rw [← listUses_append, List.singleton_append]

end Sproc.Go
