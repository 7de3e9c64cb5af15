import Sproc.Proofs.Lower.Run
import Mathlib.Logic.Relation

/-!
# Paths through statements

Which ways control may take through the statements of a procedure, and whether a transaction is open
at the end. Nothing is known about conditions: a conditional may take either branch, or none when it
has no alternative, and the body of a loop may run any number of times. Protected statements may be
abandoned in front of any statement, also inside of other statements, and control goes on in the
handler.

## Main definitions

* `Exit`: how control leaves a statement
* `Statement.Ends`, `Statement.ListEnds`: the ways through statements
* `Statement.Repeats`: one more round of a loop
* `Statement.ends`, `Statement.listEnds`, `Statement.heads`: the same, computed

## Main results

* `Statement.ends_iff`, `Statement.listEnds_iff`: the computed ways are the ways through a statement
* `Statement.heads_iff`: a single round shows all flags with which a loop can be reached again
-/

namespace Sproc

/-- How control leaves a statement: to the one behind it, by a jump to the end or the head of a loop,
out of the procedure, or by a failure. -/
inductive Exit where
  | done
  | broke
  | continued
  | left
  | abandoned
  deriving DecidableEq, Repr

namespace Statement

/-- The ways out of a statement that has no statements inside it. An error of a `RAISERROR` may be
handled by continuing behind it. -/
def exits : Statement → List Exit
  | ret _ => [.left]
  | breakLoop => [.broke]
  | continueLoop => [.continued]
  | throw _ => [.abandoned]
  | raiserror _ severity _ => if severity.isInformational then [.done] else [.done, .abandoned]
  | _ => [.done]

/-- Whether a transaction is open behind a statement that has no statements inside it, given whether
one is open in front. -/
def opensAfter : Statement → Bool → Bool
  | beginTransaction _, _ => true
  | commit _, _ => false
  | rollback _, _ => false
  | _, before => before

mutual

/-- There is a way through a statement that starts with a transaction open or not, ends in some way,
and leaves a transaction open or not. -/
def Ends : Statement → Bool → Exit → Bool → Prop
  | ifElse _ thenBranch elseBranch, before, exit, after =>
    ListEnds thenBranch before exit after ∨ ElseEnds elseBranch before exit after
  | .while _ body, before, exit, after =>
    ∃ head, Relation.ReflTransGen
        (fun b m => ListEnds body b .done m ∨ ListEnds body b .continued m) before head ∧
      (exit = .done ∧ (after = head ∨ ListEnds body head .broke after) ∨
        (exit = .left ∨ exit = .abandoned) ∧ ListEnds body head exit after)
  | block body, before, exit, after => ListEnds body before exit after
  | tryCatch tryBody catchBody, before, exit, after =>
    exit ≠ .abandoned ∧ ListEnds tryBody before exit after ∨
      ∃ caught, ListEnds tryBody before .abandoned caught ∧ ListEnds catchBody caught exit after
  | statement, before, exit, after =>
    exit ∈ statement.exits ∧ after = statement.opensAfter before

/-- The same for a list of statements, which may fail in front of each of them. -/
def ListEnds : List Statement → Bool → Exit → Bool → Prop
  | [], before, exit, after => exit = .done ∧ after = before
  | statement :: rest, before, exit, after =>
    exit = .abandoned ∧ after = before ∨
      exit ≠ .done ∧ Ends statement before exit after ∨
        ∃ middle, Ends statement before .done middle ∧ ListEnds rest middle exit after

/-- The same for an alternative; a missing one is passed by. -/
def ElseEnds : Option (List Statement) → Bool → Exit → Bool → Prop
  | none, before, exit, after => exit = .done ∧ after = before
  | some body, before, exit, after => ListEnds body before exit after

end

/-- A loop is reached again behind one round of its body. -/
def Repeats : Statement → Bool → Bool → Prop
  | .while _ body, before, after =>
    ListEnds body before .done after ∨ ListEnds body before .continued after
  | _, _, _ => False

/-! ## Paths, computed -/

/-- Whether a test succeeds with or without an open transaction. -/
def someFlag (test : Bool → Bool) : Bool :=
  test false || test true

@[simp] theorem someFlag_iff {test : Bool → Bool} :
    someFlag test = true ↔ ∃ flag, test flag = true := by
  simp [someFlag]

mutual

/-- Whether there is a way through a statement. One round of a loop is enough to see with which
flags its head can be reached. -/
def ends : Statement → Bool → Exit → Bool → Bool
  | ifElse _ thenBranch elseBranch, before, exit, after =>
    listEnds thenBranch before exit after || elseEnds elseBranch before exit after
  | .while _ body, before, exit, after =>
    someFlag fun head =>
      (head == before || listEnds body before .done head || listEnds body before .continued head) &&
        (exit == .done && (after == head || listEnds body head .broke after) ||
          (exit == .left || exit == .abandoned) && listEnds body head exit after)
  | block body, before, exit, after => listEnds body before exit after
  | tryCatch tryBody catchBody, before, exit, after =>
    exit != .abandoned && listEnds tryBody before exit after ||
      someFlag fun caught =>
        listEnds tryBody before .abandoned caught && listEnds catchBody caught exit after
  | statement, before, exit, after =>
    statement.exits.contains exit && after == statement.opensAfter before

/-- The same for a list of statements. -/
def listEnds : List Statement → Bool → Exit → Bool → Bool
  | [], before, exit, after => exit == .done && after == before
  | statement :: rest, before, exit, after =>
    exit == .abandoned && after == before ||
      (exit != .done && ends statement before exit after ||
        someFlag fun middle => ends statement before .done middle && listEnds rest middle exit after)

/-- The same for an alternative. -/
def elseEnds : Option (List Statement) → Bool → Exit → Bool → Bool
  | none, before, exit, after => exit == .done && after == before
  | some body, before, exit, after => listEnds body before exit after

end

/-- Whether a statement that is reached with one flag may be reached again with another one, or is
reached with this flag in the first place. -/
def heads : Statement → Bool → Bool → Bool
  | .while _ body, before, head =>
    head == before || listEnds body before .done head || listEnds body before .continued head
  | _, before, head => head == before

/-- On two values, what can be reached at all is reached in at most one step. -/
theorem reflTransGen_bool_iff {r : Bool → Bool → Prop} {a b : Bool} :
    Relation.ReflTransGen r a b ↔ b = a ∨ r a b := by
  constructor
  · intro h
    induction h with
    | refl => exact .inl rfl
    | @tail m b _ hstep ih =>
      rcases ih with rfl | hfirst
      · exact .inr hstep
      · -- A value that is neither the first nor the last one of the path does not exist.
        cases a <;> cases m <;> cases b <;> simp_all
  · rintro (rfl | h)
    · exact .refl
    · exact .single h

theorem listEnds_iff_of_forall {statements : List Statement}
    (ih : ∀ s ∈ statements, ∀ before exit after,
      ends s before exit after = true ↔ Ends s before exit after) {before : Bool} {exit : Exit}
    {after : Bool} : listEnds statements before exit after = true ↔
      ListEnds statements before exit after := by
  induction statements generalizing before with
  | nil => simp [listEnds, ListEnds]
  | cons statement rest ihrest =>
    have hrest (middle : Bool) :
        listEnds rest middle exit after = true ↔ ListEnds rest middle exit after :=
      ihrest fun s hs => ih s (.tail _ hs)
    simp [listEnds, ListEnds, ih statement List.mem_cons_self, hrest]

/-- The computed ways through a statement are the ways through it. -/
theorem ends_iff {statement : Statement} {before : Bool} {exit : Exit} {after : Bool} :
    ends statement before exit after = true ↔ Ends statement before exit after := by
  induction statement using Statement.childInduction generalizing before exit after with
  | step statement ih =>
    have hlist (body : List Statement) (hbody : body ∈ statement.children) {before : Bool}
        {exit : Exit} {after : Bool} :
        listEnds body before exit after = true ↔ ListEnds body before exit after :=
      listEnds_iff_of_forall fun s hs before exit after => ih body hbody s hs
    cases statement with
    | ifElse condition thenBranch elseBranch =>
      cases elseBranch with
      | none => simp [ends, Ends, elseEnds, ElseEnds, hlist thenBranch (by simp [children])]
      | some elseBranch =>
        simp [ends, Ends, elseEnds, ElseEnds, hlist thenBranch (by simp [children]),
          hlist elseBranch (by simp [children])]
    | «while» condition body =>
      simp [ends, Ends, reflTransGen_bool_iff, hlist body (by simp [children]), or_assoc]
    | block body => simp [ends, Ends, hlist body (by simp [children])]
    | tryCatch tryBody catchBody =>
      simp [ends, Ends, hlist tryBody (by simp [children]), hlist catchBody (by simp [children])]
    | _ => simp [ends, Ends]

/-- The computed ways through a list of statements are the ways through it. -/
theorem listEnds_iff {statements : List Statement} {before : Bool} {exit : Exit} {after : Bool} :
    listEnds statements before exit after = true ↔ ListEnds statements before exit after :=
  listEnds_iff_of_forall fun _ _ _ _ _ => ends_iff

/-- The computed heads of a statement are the flags with which it is reached again and again. -/
theorem heads_iff {statement : Statement} {before head : Bool} :
    heads statement before head = true ↔
      Relation.ReflTransGen statement.Repeats before head := by
  rw [reflTransGen_bool_iff]
  cases statement <;> simp [heads, Repeats, listEnds_iff, or_assoc]

/-- What is behind a loop that is reached again is behind the loop. -/
theorem Ends.of_repeats {statement : Statement} {before head : Bool} {exit : Exit} {after : Bool}
    (hrepeats : statement.Repeats before head) (h : statement.Ends head exit after) :
    statement.Ends before exit after := by
  cases statement with
  | «while» condition body =>
    obtain ⟨last, hlast, hexit⟩ := h
    exact ⟨last, .head hrepeats hlast, hexit⟩
  | _ => cases hrepeats

end Statement

end Sproc
