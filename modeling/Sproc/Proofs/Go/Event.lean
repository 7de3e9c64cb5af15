import Sproc.Proofs.Go.Composed

/-!
# What code does with rows and backends

Generated code reaches a backend in three ways: by query text that goes to the database, by a method
that starts a stream of rows, and by a message that goes to a client or to the store. What it then
does with a stream it does by methods of the iterator. This module reads all of these off the code,
in the order of the text.

## Main definitions

* `Go.Event`: a use of a backend or of an iterator
* `Go.Expr.events`, `Go.Stmt.events`, `Go.listEvents`: the events of code

## Main results

* `Go.Expr.Composed.events_eq_nil`: the code of values has no events
* `Go.listEvents_append`: the events of statements one after the other
-/

namespace Sproc

namespace Go

/-- A use of a backend or of an iterator. -/
inductive Event where
  /-- Query text goes to the database. -/
  | query
  /-- A stream of rows is started. -/
  | stream
  /-- A message of a package goes to a receiver. -/
  | request (receiver package : String)
  /-- A method of an iterator is used. -/
  | iterate (id method : String)
  deriving DecidableEq, Repr

/-- The method that starts a stream of rows. -/
def streamMethod : String := "QueryContext"

/-- The methods of iterators. -/
def iteratorMethods : List String := ["Next", "Scan", "Err", "Close"]

/-- The event that lies in the selection of a member. -/
def memberEvents (owner : Expr) (field : String) : List Event :=
  if field = streamMethod then [.stream]
  else match owner with
    | .name id => if field ∈ iteratorMethods then [.iterate id field] else []
    | _ => []

mutual

/-- The events of an expression. -/
def Expr.events : Expr → List Event
  | .name _ => []
  | .int _ => []
  | .number _ => []
  | .bool _ => []
  | .nil => []
  | .str _ => []
  | .query _ => [.query]
  | .zero _ => []
  | .member owner field => memberEvents owner field ++ owner.events
  | .call function args =>
    (match request? function args with
      | some (receiver, package) => [.request receiver package]
      | none => function.events) ++ exprEvents args
  | .convert _ operand => operand.events
  | .unary _ operand => operand.events
  | .binary _ left right => left.events ++ right.events
  | .chain _ operands => exprEvents operands
  | .paren operand => operand.events
  | .choose _ arms otherwise => choiceEvents arms ++ otherwise.events
  | .message _ _ fields => fieldEvents fields
  | .asError operand => operand.events
  | .spread items => exprEvents items

/-- The events of a list of expressions. -/
def exprEvents : List Expr → List Event
  | [] => []
  | e :: rest => e.events ++ exprEvents rest

/-- The events of the tests and results of a choice. -/
def choiceEvents : List (Expr × Expr) → List Event
  | [] => []
  | (test, result) :: rest => test.events ++ (result.events ++ choiceEvents rest)

/-- The events of the fields of a message. -/
def fieldEvents : List (String × Expr) → List Event
  | [] => []
  | (_, value) :: rest => value.events ++ fieldEvents rest

end

/-- The events of an assignment. -/
def Assign.events (a : Assign) : List Event :=
  exprEvents a.targets ++ a.value.events

/-- The events of an optional assignment. -/
def initEvents : Option Assign → List Event
  | none => []
  | some a => a.events

/-- The events of an optional expression. -/
def optionEvents : Option Expr → List Event
  | none => []
  | some e => e.events

mutual

/-- The events of a statement. -/
def Stmt.events : Stmt → List Event
  | .assign a => a.events
  | .declare _ _ init => optionEvents init
  | .run call => call.events
  | .deferCall call => call.events
  | .ret values => exprEvents values
  | .panic value => value.events
  | .breakLoop => []
  | .continueLoop => []
  | .branch (.mk init test body) others otherwise =>
    initEvents init ++ (test.events ++ (listEvents body ++
      (armEvents others ++ elseEvents otherwise)))
  | .loop test body => optionEvents test ++ listEvents body
  | .closure _ body => listEvents body

/-- The events of a list of statements. -/
def listEvents : List Stmt → List Event
  | [] => []
  | s :: rest => s.events ++ listEvents rest

/-- The events of the arms of a chain. -/
def armEvents : List Arm → List Event
  | [] => []
  | .mk init test body :: rest =>
    initEvents init ++ (test.events ++ (listEvents body ++ armEvents rest))

/-- The events of an alternative. -/
def elseEvents : Option (List Stmt) → List Event
  | none => []
  | some body => listEvents body

end

/-! ## Expressions -/

attribute [simp] Expr.events exprEvents choiceEvents fieldEvents Assign.events Stmt.events
  listEvents armEvents elseEvents

@[simp]
theorem initEvents_none : initEvents none = [] := rfl

@[simp]
theorem initEvents_some (a : Assign) : initEvents (some a) = a.events := rfl

@[simp]
theorem optionEvents_none : optionEvents none = [] := rfl

@[simp]
theorem optionEvents_some (e : Expr) : optionEvents (some e) = e.events := rfl

theorem exprEvents_eq_nil {es : List Expr} (h : ∀ e ∈ es, e.events = []) : exprEvents es = [] := by
  induction es with
  | nil => rfl
  | cons e rest ih =>
    rw [exprEvents, h e List.mem_cons_self, List.nil_append]
    exact ih fun e he => h e (List.mem_cons_of_mem _ he)

theorem choiceEvents_eq_nil {arms : List (Expr × Expr)} (htests : ∀ arm ∈ arms, arm.1.events = [])
    (hresults : ∀ arm ∈ arms, arm.2.events = []) : choiceEvents arms = [] := by
  induction arms with
  | nil => rfl
  | cons arm rest ih =>
    rw [choiceEvents, htests arm List.mem_cons_self, hresults arm List.mem_cons_self,
      List.nil_append, List.nil_append]
    exact ih (fun arm harm => htests arm (List.mem_cons_of_mem _ harm))
      fun arm harm => hresults arm (List.mem_cons_of_mem _ harm)

theorem fieldEvents_eq_nil {fields : List (String × Expr)}
    (h : ∀ field ∈ fields, field.2.events = []) : fieldEvents fields = [] := by
  induction fields with
  | nil => rfl
  | cons field rest ih =>
    rw [fieldEvents, h field List.mem_cons_self, List.nil_append]
    exact ih fun field hfield => h field (List.mem_cons_of_mem _ hfield)

@[simp]
theorem exprEvents_append (front back : List Expr) :
    exprEvents (front ++ back) = exprEvents front ++ exprEvents back := by
  induction front with
  | nil => rfl
  | cons e rest ih => simp [ih]

/-- A member that neither starts a stream nor is a method of one. -/
theorem memberEvents_eq_nil {owner : Expr} {field : String} (hstream : field ≠ streamMethod)
    (hmethod : field ∉ iteratorMethods) : memberEvents owner field = [] := by
  unfold memberEvents
  rw [if_neg hstream]
  split
  · exact if_neg hmethod
  · rfl

/-- A call of a function of a package, or of a method, that is neither a stream nor a use of one,
and sends no message. -/
theorem Expr.events_invoke {owner : Expr} {method : String} {args : List Expr}
    (hstream : method ≠ streamMethod) (hmethod : method ∉ iteratorMethods)
    (hrequest : request? (.member owner method) args = none) :
    (Expr.invoke owner method args).events = owner.events ++ exprEvents args := by
  rw [invoke, events, hrequest]
  simp [memberEvents_eq_nil hstream hmethod]

theorem request?_eq_none_of_notMem (function : Expr) {args : List Expr}
    (h : ∀ package type fields, Expr.message package type fields ∉ args) :
    request? function args = none := by
  unfold request?
  split
  · exact absurd (List.mem_cons_of_mem _ List.mem_cons_self) (h _ _ _)
  · rfl

/-- A message follows one other argument. -/
theorem request?_eq_none_of_length (function : Expr) {args : List Expr} (h : args.length ≠ 2) :
    request? function args = none := by
  unfold request?
  split
  · exact absurd rfl h
  · rfl

/-- A value is no message. -/
theorem Expr.not_composed_message {stock : Stock} {primary : Bool} {p : Nat} {package type : String}
    {fields : List (String × Expr)} :
    ¬(Expr.message package type fields).Composed stock primary p := by
  intro h
  generalize heq : Expr.message package type fields = e at h
  induction h with
  | loosen _ _ ih | operand _ ih => exact ih heq
  | _ => cases heq

/-- The code of values has no events. -/
theorem Expr.Composed.events_eq_nil {stock : Stock} {primary : Bool} {p : Nat} {e : Expr}
    (h : e.Composed stock primary p) : e.events = [] := by
  induction h with
  | packaged hfunction _ hargs ih =>
    have hplain : ∀ entry ∈ packageFunctions,
        entry.2 ≠ streamMethod ∧ entry.2 ∉ iteratorMethods := by decide
    obtain ⟨hstream, hmethod⟩ := hplain _ hfunction
    have hrequest (function : Expr) :=
      request?_eq_none_of_notMem function fun _ _ _ hmem => not_composed_message (hargs _ hmem)
    rw [events_invoke hstream hmethod (hrequest _), exprEvents_eq_nil ih]
    rfl
  | method hname _ hargs ihowner ihargs =>
    have hplain : ∀ name ∈ valueMethods, name ≠ streamMethod ∧ name ∉ iteratorMethods := by decide
    obtain ⟨hstream, hmethod⟩ := hplain _ hname
    have hrequest (function : Expr) :=
      request?_eq_none_of_notMem function fun _ _ _ hmem => not_composed_message (hargs _ hmem)
    rw [events_invoke hstream hmethod (hrequest _), ihowner, exprEvents_eq_nil ihargs,
      List.nil_append]
  | len _ ih => simp [request?, ih]
  | convert _ _ ih | not _ ih | minus _ ih | paren _ ih => simpa using ih
  | binary _ _ _ _ ihleft ihright => simp [ihleft, ihright]
  | chain _ _ _ _ ih | row _ _ ih => simpa using exprEvents_eq_nil ih
  | alone _ ih => simp [ih]
  | choose _ _ _ _ ihtests ihresults ihotherwise =>
    simp [choiceEvents_eq_nil ihtests ihresults, ihotherwise]
  | loosen _ _ ih | operand _ ih => exact ih
  | _ => rfl

/-! ## Statements -/

@[simp]
theorem listEvents_append (front back : List Stmt) :
    listEvents (front ++ back) = listEvents front ++ listEvents back := by
  induction front with
  | nil => rfl
  | cons s rest ih => simp [ih]

end Go

end Sproc
