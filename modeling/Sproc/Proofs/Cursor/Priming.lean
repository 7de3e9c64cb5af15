import Sproc.Ast.Build
import Sproc.Lower.Iteration
import Sproc.Proofs.Lower.Run
import Sproc.Proofs.Text.Folding

/-!
# The fetch before a loop over a cursor

The fetch before a loop over a cursor leaves no code: the loop takes its row. So the statements
between the two run before the fetch instead of behind it, which changes nothing as long as none of
them uses the cursor or a variable of the row. The check for the variables knows the operands of
statements and the targets of `SET` and of a select list. It does not know the other targets (the
row of another fetch, the status of a call, a variable declared with a first value), nor the offset
of a fetch, and it takes two spellings for one variable only if they agree letter by letter in
ASCII.

## Main definitions

* `Statement.Touches`: a statement reads or assigns a variable by itself, and how
* `Touch.isNoticed`: what the check looks at

## Main results

* `primesLoop_iff_row_untouched`: what holds of the statements between a fetch and its loop
-/

namespace Sproc

/-- The ways in which a statement reads or assigns a variable. -/
inductive Touch where
  /-- The variable is an operand. -/
  | operand
  /-- The variable counts the rows that a fetch passes over. -/
  | offset
  /-- `SET` assigns the variable. -/
  | set
  /-- A select list assigns the variable. -/
  | selected
  /-- The variable is declared with a first value. -/
  | initialized
  /-- A fetch puts a value of its row into the variable. -/
  | fetched
  /-- A call puts the value of an output parameter into the variable. -/
  | passed
  /-- A call puts its status into the variable. -/
  | status
  deriving DecidableEq, Repr

/-- Whether the check before a loop looks for variables that are used in this way. -/
def Touch.isNoticed : Touch → Bool
  | operand | set | selected | passed => true
  | offset | initialized | fetched | status => false

/-- The number of rows that a fetch passes over. -/
def FetchDirection.offset? : FetchDirection → Option Expr
  | absolute offset => some offset
  | relative offset => some offset
  | _ => none

namespace Statement

/-- A statement reads or assigns a variable, the statements inside it apart. -/
inductive Touches : Statement → Touch → String → Prop
  | operand {s : Statement} {name : String} :
    .variable name ∈ s.ownExprs → Touches s .operand name
  | offset {f : Fetch} {offset : Expr} {name : String} :
    f.direction.offset? = some offset → .variable name ∈ offset.walk →
      Touches (.fetch f) .offset name
  | set {name : String} {value : Expr} : Touches (.set name value) .set name
  | selected {query : Select} {name : String} :
    name ∈ query.assigned → Touches (.select query) .selected name
  | initialized {vars : List VarDecl} {var : VarDecl} :
    var ∈ vars → var.init.isSome → Touches (.declare vars) .initialized var.name
  | fetched {f : Fetch} {name : String} : name ∈ f.into → Touches (.fetch f) .fetched name
  | passed {exec : Exec} {arg : ExecArg} {name : String} :
    arg ∈ exec.args → arg.output = true → arg.value = .variable name →
      Touches (.exec exec) .passed name
  | status {exec : Exec} {name : String} :
    exec.returnStatus = some name → Touches (.exec exec) .status name

/-- The check knows the variables that a statement uses in some ways, and no others. -/
theorem mem_ownVariables_iff {s : Statement} {name : String} :
    name ∈ s.ownVariables ↔ ∃ touch, touch.isNoticed = true ∧ s.Touches touch name := by
  constructor
  · intro h
    unfold ownVariables at h
    obtain h | h := List.mem_append.mp h
    · cases s with
      | set target value =>
        rw [List.mem_singleton.mp h]
        exact ⟨.set, rfl, .set⟩
      | select query => exact ⟨.selected, rfl, .selected h⟩
      | _ => cases h
    · obtain ⟨e, he, heq⟩ := List.mem_filterMap.mp h
      split at heq
      · obtain rfl := Option.some.inj heq
        exact ⟨.operand, rfl, .operand he⟩
      · cases heq
  · rintro ⟨touch, hnoticed, htouches⟩
    have hoperand (h : .variable name ∈ s.ownExprs) : name ∈ s.ownVariables :=
      List.mem_append_right _ (List.mem_filterMap.mpr ⟨_, h, rfl⟩)
    cases htouches with
    | operand h => exact hoperand h
    | set => exact List.mem_cons_self
    | selected h => exact List.mem_append_left _ h
    | passed harg _ hvalue =>
      -- An output argument is an operand of the call as well.
      refine hoperand (List.mem_flatMap.mpr ⟨_, harg, ?_⟩)
      rw [hvalue]
      exact List.mem_singleton_self _
    | _ => cases hnoticed

/-- A statement and the statements inside it use some variables in no way that is noticed. -/
theorem usesVariables_eq_false_iff {names : List String} {statement : Statement} :
    statement.usesVariables names = false ↔
      ∀ s ∈ statement.nested, ∀ touch name, s.Touches touch name → touch.isNoticed = true →
        ∀ target ∈ names, Text.sameIgnoringCase target name = false := by
  simp only [usesVariables, List.any_eq_false, Bool.not_eq_true, mem_ownVariables_iff]
  constructor
  · intro h s hs touch name htouches hnoticed
    exact h s hs name ⟨touch, hnoticed, htouches⟩
  · rintro h s hs name ⟨touch, hnoticed, htouches⟩
    exact h s hs touch name htouches hnoticed

end Statement

/-- The statements between a fetch and the loop that takes its row. -/
structure Postpones (fetch : Fetch) (between : List Statement) : Prop where
  noLoop : ∀ s ∈ between, s.isCursorLoop = false
  cursorUnused : ∀ s ∈ between, s.usesCursor fetch.cursor = false
  rowUnused : ∀ s ∈ between, s.usesVariables fetch.into = false

/-- A fetch belongs to a loop exactly if a loop over a cursor follows in the list, and the
statements between them use neither the cursor nor, as far as that is noticed, the row. -/
theorem primesLoop_iff_postpones {fetch : Fetch} {rest : List Statement} {rowUsed : Bool} :
    primesLoop fetch rowUsed rest = .ok true ↔
      rowUsed = false ∧ ∃ between loop after, rest = between ++ loop :: after ∧
        loop.isCursorLoop = true ∧ Postpones fetch between := by
  induction rest generalizing rowUsed with
  | nil => simp [primesLoop]
  | cons statement rest ih =>
    unfold primesLoop
    by_cases hloop : statement.isCursorLoop = true
    · rw [if_pos hloop]
      cases rowUsed with
      | true => simp
      | false =>
        refine iff_of_true rfl ⟨rfl, [], statement, rest, rfl, hloop, ?_, ?_, ?_⟩ <;>
          exact fun _ h => absurd h List.not_mem_nil
    · rw [if_neg hloop]
      by_cases hcursor : statement.usesCursor fetch.cursor = true
      · rw [if_pos hcursor]
        refine iff_of_false (by simp) ?_
        rintro ⟨-, between, loop, after, heq, hisLoop, hbetween⟩
        obtain ⟨rfl, hstatement⟩ | ⟨tail, rfl, -⟩ := List.cons_eq_append_iff.mp heq
        · cases hstatement
          exact hloop hisLoop
        · exact absurd hcursor (by simp [hbetween.cursorUnused statement List.mem_cons_self])
      · rw [if_neg hcursor, ih, Bool.or_eq_false_iff, and_assoc]
        refine and_congr_right fun _ => ?_
        constructor
        · rintro ⟨hrow, between, loop, after, rfl, hisLoop, hbetween⟩
          refine ⟨statement :: between, loop, after, rfl, hisLoop, ?_, ?_, ?_⟩
          · exact List.forall_mem_cons.mpr ⟨by simpa using hloop, hbetween.noLoop⟩
          · exact List.forall_mem_cons.mpr ⟨by simpa using hcursor, hbetween.cursorUnused⟩
          · exact List.forall_mem_cons.mpr ⟨hrow, hbetween.rowUnused⟩
        · rintro ⟨between, loop, after, heq, hisLoop, hbetween⟩
          obtain ⟨rfl, hstatement⟩ | ⟨tail, rfl, hrest⟩ := List.cons_eq_append_iff.mp heq
          · cases hstatement
            exact absurd hisLoop hloop
          · refine ⟨hbetween.rowUnused _ List.mem_cons_self, tail, loop, after, hrest, hisLoop, ?_⟩
            exact ⟨fun s h => hbetween.noLoop s (.tail _ h),
              fun s h => hbetween.cursorUnused s (.tail _ h),
              fun s h => hbetween.rowUnused s (.tail _ h)⟩

/-- What a fetch is moved across. A fetch belongs to a loop if the statements between them do not
use the cursor, and use no variable of the row, except in a way or under a spelling that is not
noticed: a statement may set a variable by another fetch, by the status of a call or by the first
value of its declaration, and it may name it in letters that only the folding of names takes for
the same. -/
theorem primesLoop_iff_row_untouched (fetch : Fetch) (rest : List Statement) :
    primesLoop fetch false rest = .ok true ↔
      ∃ between loop after, rest = between ++ loop :: after ∧ loop.isCursorLoop = true ∧
        (∀ s ∈ between, s.isCursorLoop = false ∧ s.usesCursor fetch.cursor = false) ∧
        ∀ s ∈ Statement.nestedList between, ∀ touch name, s.Touches touch name →
          ∀ target ∈ fetch.into, foldName target = foldName name →
            touch.isNoticed = false ∨ Text.sameIgnoringCase target name = false := by
  rw [primesLoop_iff_postpones]
  constructor
  · rintro ⟨-, between, loop, after, rfl, hloop, hbetween⟩
    refine ⟨between, loop, after, rfl, hloop, ?_, ?_⟩
    · exact fun s h => ⟨hbetween.noLoop s h, hbetween.cursorUnused s h⟩
    intro s hs touch name htouches target htarget _
    obtain ⟨statement, hmem, hs⟩ := Statement.mem_nestedList.mp hs
    by_cases hnoticed : touch.isNoticed = true
    · exact .inr (Statement.usesVariables_eq_false_iff.mp (hbetween.rowUnused _ hmem) s hs touch name
        htouches hnoticed target htarget)
    · exact .inl (by simpa using hnoticed)
  · rintro ⟨between, loop, after, rfl, hloop, hcursor, htouches⟩
    refine ⟨rfl, between, loop, after, rfl, hloop, fun s h => (hcursor s h).1,
      fun s h => (hcursor s h).2, fun statement hmem => ?_⟩
    refine Statement.usesVariables_eq_false_iff.mpr fun s hs touch name hs' hnoticed target ht => ?_
    by_contra hsame
    have hsame : Text.sameIgnoringCase target name = true := by simpa using hsame
    obtain h | h := htouches s (Statement.mem_nestedList.mpr ⟨_, hmem, hs⟩) touch name hs' target ht
      (foldName_eq_of_sameIgnoringCase hsame)
    · rw [hnoticed] at h
      cases h
    · rw [hsame] at h
      cases h

/-- A call that puts its status into the variable of the row is not noticed. -/
example : primesLoop ⟨"c", .next, ["@x"]⟩ false
    [.exec ((Build.exec "usp_Count").statusInto "@x"),
      .while (Build.eq Build.fetchStatus (Build.int 0)) []] = .ok true := by
  decide

/-- An assignment of the variable is. -/
example : primesLoop ⟨"c", .next, ["@x"]⟩ false
    [.set "@X" (Build.int 0), .while (Build.eq Build.fetchStatus (Build.int 0)) []] =
      .error (.cursor "c" CursorProblem.rowUsed.message) := by
  decide

end Sproc
