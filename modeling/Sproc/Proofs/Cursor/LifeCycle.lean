import Sproc.Lower.Iteration
import Sproc.Proofs.Faults
import Mathlib.Logic.Function.Basic

/-!
# The life cycle of cursors

A cursor is declared, opened, closed and perhaps opened again, until it is deallocated; rows are
fetched from it while it is open. Read as an automaton, once for each name in small letters, this
accepts the uses of cursors one after the other or refuses one of them.

The uses of a procedure are listed in the order of its text. A statement is known by its path, with
the innermost index first.

## Main definitions

* `CursorAction.next`: the automaton of one cursor
* `CursorUse`, `CursorStates.follow`: the automata of all cursors
* `Statement.cursorUses`, `Procedure.cursorUses`: the uses of cursors in the order of the text
* `firstRefusal`: the first use that is refused
* `CursorTable.states`: the states of a table of cursors

## Main results

* `firstRefusal_eq_some_iff`: what is in front of the first refused use is accepted
* `CursorTable.states_put`, `CursorTable.states_remove`
-/

namespace Sproc

/-- What a statement does with a cursor. -/
inductive CursorAction where
  | declares
  | opens
  | fetches
  | closes
  | deallocates
  deriving DecidableEq, Repr

/-- What becomes of a cursor, or why an action is refused. A cursor without a state is absent. -/
def CursorAction.next : CursorAction → Option CursorState →
    Except CursorProblem (Option CursorState)
  | .declares, none => .ok (some .declared)
  | .declares, some _ => .error .alreadyDeclared
  | _, none => .error .notDeclared
  | .opens, some .opened => .error .alreadyOpen
  | .opens, some _ => .ok (some .opened)
  | .fetches, some .opened => .ok (some .opened)
  | .fetches, some _ => .error .notOpen
  | .closes, some .opened => .ok (some .closed)
  | .closes, some .closed => .error .alreadyClosed
  | .closes, some .declared => .error .neverOpened
  | .deallocates, some _ => .ok none

/-! ## Errors about the life cycle -/

/-- Whether a problem is about the life cycle of a cursor, and not about what it iterates over or
what is done with its rows. -/
def CursorProblem.isLifeCycle : CursorProblem → Bool
  | .noTable | .remote | .rowUsed => false
  | _ => true

theorem CursorProblem.message_injective : Function.Injective message := by
  intro problem problem'
  cases problem <;> cases problem' <;> decide

/-- The automaton refuses for reasons of the life cycle. -/
theorem CursorAction.isLifeCycle_of_next {action : CursorAction} {state : Option CursorState}
    {problem : CursorProblem} (h : action.next state = .error problem) :
    problem.isLifeCycle = true := by
  unfold next at h
  split at h <;> cases h <;> rfl

/-- An error about the life cycle of a cursor. -/
def Error.IsLifeCycle (error : Error) : Prop :=
  ∃ (cursor : String) (problem : CursorProblem), problem.isLifeCycle = true ∧
    error.fault = .cursor cursor problem.message

theorem Error.IsLifeCycle.concernsCursor {error : Error} (h : error.IsLifeCycle) :
    error.fault.concernsCursor = true := by
  obtain ⟨cursor, problem, -, hfault⟩ := h
  rw [hfault]
  rfl

theorem Error.isLifeCycle_cursor {cursor : String} {problem : CursorProblem} {site : Option Site} :
    Error.IsLifeCycle ⟨.cursor cursor problem.message, site⟩ ↔ problem.isLifeCycle = true := by
  constructor
  · rintro ⟨_, problem', hproblem, hfault⟩
    rwa [CursorProblem.message_injective (Fault.cursor.inj hfault).2]
  · exact fun h => ⟨cursor, problem, h, rfl⟩

/-! ## Uses of cursors -/

/-- The use of a cursor by the statement at a path. -/
structure CursorUse where
  path : List Nat
  cursor : String
  action : CursorAction
  deriving DecidableEq, Repr

/-- A use that is refused. -/
structure CursorRefusal where
  use : CursorUse
  problem : CursorProblem
  deriving DecidableEq, Repr

/-- The error that reports a refusal in a procedure. -/
def CursorRefusal.error (refusal : CursorRefusal) (procedure : String) : Error :=
  ⟨.cursor refusal.use.cursor refusal.problem.message,
    some ⟨procedure, renderPath refusal.use.path⟩⟩

/-- The states of all cursors by their names in small letters. -/
abbrev CursorStates := String → Option CursorState

/-- The states behind a use. -/
def CursorUse.apply (use : CursorUse) (states : CursorStates) :
    Except CursorRefusal CursorStates :=
  let name := Text.toLower use.cursor
  match use.action.next (states name) with
  | .ok state => .ok (Function.update states name state)
  | .error problem => .error ⟨use, problem⟩

/-- The states behind some uses, one after the other. -/
def CursorStates.follow (states : CursorStates) (uses : List CursorUse) :
    Except CursorRefusal CursorStates :=
  uses.foldlM (fun states use => use.apply states) states

/-- The first refused use, if no cursor is there at the start. -/
def firstRefusal (uses : List CursorUse) : Option CursorRefusal :=
  match CursorStates.follow (fun _ => none) uses with
  | .ok _ => none
  | .error refusal => some refusal

namespace CursorStates

variable {states : CursorStates}

@[simp]
theorem follow_nil : states.follow [] = .ok states := rfl

theorem follow_append (uses uses' : List CursorUse) :
    states.follow (uses ++ uses') = states.follow uses >>= fun middle => middle.follow uses' :=
  List.foldlM_append

theorem follow_singleton (use : CursorUse) : states.follow [use] = use.apply states := by
  simp [follow]

theorem follow_cons (use : CursorUse) (rest : List CursorUse) :
    states.follow (use :: rest) = use.apply states >>= fun middle => middle.follow rest :=
  List.foldlM_cons

/-- A refused use stands behind uses that are accepted. -/
theorem follow_eq_error_iff {uses : List CursorUse} {refusal : CursorRefusal} :
    states.follow uses = .error refusal ↔ ∃ front rest middle, uses = front ++ refusal.use :: rest ∧
      states.follow front = .ok middle ∧ refusal.use.apply middle = .error refusal := by
  constructor
  · intro h
    induction uses generalizing states with
    | nil => cases h
    | cons use rest ih =>
      rw [follow_cons] at h
      cases happly : use.apply states with
      | error refusal' =>
        obtain rfl : refusal' = refusal := by simpa [happly, bind, Except.bind] using h
        have huse : refusal'.use = use := by
          unfold CursorUse.apply at happly
          dsimp only at happly
          split at happly <;> cases happly
          rfl
        exact ⟨[], rest, states, by rw [huse]; rfl, rfl, huse ▸ happly⟩
      | ok next =>
        rw [happly] at h
        obtain ⟨front, rest', middle, rfl, hfront, hrefused⟩ := ih h
        have hfollow : states.follow (use :: front) = .ok middle := by
          rw [follow_cons, happly]
          exact hfront
        exact ⟨use :: front, rest', middle, rfl, hfollow, hrefused⟩
  · rintro ⟨front, rest, middle, rfl, hfront, hrefused⟩
    rw [follow_append, hfront]
    change middle.follow _ = _
    rw [follow_cons, hrefused]
    rfl

end CursorStates

/-- The first refused use is the one that is refused behind uses that are accepted. -/
theorem firstRefusal_eq_some_iff {uses : List CursorUse} {refusal : CursorRefusal} :
    firstRefusal uses = some refusal ↔ ∃ front rest states, uses = front ++ refusal.use :: rest ∧
      CursorStates.follow (fun _ => none) front = .ok states ∧
      refusal.use.apply states = .error refusal := by
  rw [← CursorStates.follow_eq_error_iff]
  unfold firstRefusal
  split
  next hfollow => simp [hfollow]
  next hfollow => simp [hfollow]

theorem isLifeCycle_of_apply {use : CursorUse} {states : CursorStates} {refusal : CursorRefusal}
    (h : use.apply states = .error refusal) : refusal.problem.isLifeCycle = true := by
  unfold CursorUse.apply at h
  dsimp only at h
  split at h
  · cases h
  next hnext =>
    cases h
    exact CursorAction.isLifeCycle_of_next hnext

/-- A first refusal is reported as an error about the life cycle. -/
theorem isLifeCycle_of_firstRefusal {uses : List CursorUse} {refusal : CursorRefusal}
    (h : firstRefusal uses = some refusal) (procedure : String) :
    (refusal.error procedure).IsLifeCycle := by
  obtain ⟨_, _, states, -, -, hrefused⟩ := firstRefusal_eq_some_iff.mp h
  exact Error.isLifeCycle_cursor.mpr (isLifeCycle_of_apply hrefused)

/-! ## The uses of a procedure -/

namespace Statement

/-- What a statement does with a cursor by itself. -/
def cursorAction? : Statement → Option (String × CursorAction)
  | declareCursor name _ => some (name, .declares)
  | openCursor name => some (name, .opens)
  | fetch f => some (f.cursor, .fetches)
  | closeCursor name => some (name, .closes)
  | deallocate name => some (name, .deallocates)
  | _ => none

/-- The use of a cursor by a statement itself. -/
def ownCursorUses (path : List Nat) (statement : Statement) : List CursorUse :=
  (statement.cursorAction?.map fun (cursor, action) => ⟨path, cursor, action⟩).toList

mutual

/-- The uses of cursors in the statement at a path, in the order of the text. -/
def cursorUses (path : List Nat) : Statement → List CursorUse
  | ifElse _ thenBranch elseBranch =>
    listCursorUses (0 :: path) 0 thenBranch ++ elseCursorUses (1 :: path) elseBranch
  | .while _ body => listCursorUses (0 :: path) 0 body
  | block body => listCursorUses path 0 body
  | tryCatch tryBody catchBody =>
    listCursorUses (0 :: path) 0 tryBody ++ listCursorUses (1 :: path) 0 catchBody
  | statement => ownCursorUses path statement

/-- The same for a list at a path, whose first statement has the given index. -/
def listCursorUses (path : List Nat) (index : Nat) : List Statement → List CursorUse
  | [] => []
  | statement :: rest =>
    cursorUses (index :: path) statement ++ listCursorUses path (index + 1) rest

/-- The same for an alternative at a path. -/
def elseCursorUses (path : List Nat) : Option (List Statement) → List CursorUse
  | none => []
  | some body => listCursorUses path 0 body

end

end Statement

/-- The uses of cursors in a procedure, in the order of the text. -/
def Procedure.cursorUses (procedure : Procedure) : List CursorUse :=
  Statement.listCursorUses [] 0 procedure.body

/-! ## Tables of cursors -/

namespace CursorTable

variable {table : CursorTable} {name : String}

/-- The states of the cursors in a table. -/
def states (table : CursorTable) : CursorStates :=
  fun key => (table.lookup key).map (·.state)

theorem states_toLower (table : CursorTable) (name : String) :
    table.states (Text.toLower name) = (table.get? name).map (·.state) := rfl

theorem lookup_remove (table : CursorTable) (name key : String) :
    (table.remove name).lookup key =
      if key = Text.toLower name then none else table.lookup key := by
  unfold remove
  induction table with
  | nil => simp
  | cons entry rest ih =>
    obtain ⟨first, cursor⟩ := entry
    rw [List.filter_cons, List.lookup_cons]
    grind

/-- A cursor that is forgotten is absent, and the others stay. -/
theorem states_remove (table : CursorTable) (name : String) :
    (table.remove name).states = Function.update table.states (Text.toLower name) none := by
  funext key
  by_cases hkey : key = Text.toLower name <;> simp [states, lookup_remove, Function.update, hkey]

/-- A cursor that is put into a table has its state, and the others stay. -/
theorem states_put (table : CursorTable) (name : String) (cursor : Cursor) :
    (table.put name cursor).states =
      Function.update table.states (Text.toLower name) (some cursor.state) := by
  funext key
  by_cases hkey : key = Text.toLower name
  · simp [states, put, hkey]
  · have hhead : (key == Text.toLower name) = false := by simpa using hkey
    simp [states, put, List.lookup_cons, hhead, lookup_remove, Function.update, hkey]

section Follow

variable {path : List Nat} {action : CursorAction}

theorem follow_accepted {state : Option CursorState}
    (h : action.next ((table.get? name).map (·.state)) = .ok state) :
    table.states.follow [⟨path, name, action⟩] =
      .ok (Function.update table.states (Text.toLower name) state) := by
  rw [CursorStates.follow_singleton, CursorUse.apply]
  simp only [states_toLower, h]

theorem follow_refused {problem : CursorProblem}
    (h : action.next ((table.get? name).map (·.state)) = .error problem) :
    table.states.follow [⟨path, name, action⟩] = .error ⟨⟨path, name, action⟩, problem⟩ := by
  rw [CursorStates.follow_singleton, CursorUse.apply]
  simp only [states_toLower, h]

end Follow

end CursorTable

end Sproc
