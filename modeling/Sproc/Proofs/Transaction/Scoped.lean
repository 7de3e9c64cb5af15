import Sproc.Proofs.Transaction.Soundness

/-!
# Transactions outside of conditionals and loops

What the generation knows about the transaction is right for procedures whose transaction statements
stand outside of all conditionals and loops, in blocks and in the halves of `TRY` statements. Inside
of conditionals and loops nothing happens to the transaction then, and around `TRY` statements the
knowledge is joined as the paths are.

## Main definitions

* `Statement.Calm`: there is no transaction statement inside
* `Statement.Scoped`: transaction statements stand outside of conditionals and loops

## Main results

* `Statement.Scoped.preserving`: knowledge that is right in front of a scoped statement is right
  inside of it and behind it
* `Procedure.trackerSound_of_scoped`: it is right on every path of a procedure with such a body
-/

namespace Sproc

open Lower

namespace TransactionState

variable {state other : TransactionState} {opened : Bool}

/-- Where paths meet, everything is allowed that one of them allows. -/
theorem Allows.join_left (h : state.Allows opened) : (state.join other).Allows opened := by
  intro hcertain
  simp only [join, Bool.or_eq_false_iff, bne_eq_false_iff_eq] at hcertain
  obtain ⟨⟨hstate, -⟩, hsame⟩ := hcertain
  simp [join, ← hsame, h hstate]

theorem Allows.join_right (h : other.Allows opened) : (state.join other).Allows opened := by
  rw [join_comm]
  exact h.join_left

end TransactionState

namespace Statement

/-- Neither a statement nor one inside it starts or ends a transaction. -/
def Calm (statement : Statement) : Prop :=
  ∀ inner ∈ statement.nested, inner.isTransaction = false

/-- Transaction statements stand outside of conditionals and loops. Where a protected body has none
of its own, there is none in the handlers inside it either. -/
inductive Scoped : Statement → Prop
  | calm {statement : Statement} : statement.Calm → Scoped statement
  | transaction {statement : Statement} : statement.isTransaction = true → Scoped statement
  | block {body : List Statement} : (∀ s ∈ body, Scoped s) → Scoped (.block body)
  | tryCatch {tryBody catchBody : List Statement} : (∀ s ∈ tryBody, Scoped s) →
    (∀ s ∈ catchBody, Scoped s) →
    (anyProtected isTransaction tryBody = true ∨ ∀ s ∈ tryBody, s.Calm) →
    Scoped (.tryCatch tryBody catchBody)

/-! ## Statements without transactions -/

theorem Calm.of_mem_children {statement s : Statement} {body : List Statement}
    (h : statement.Calm) (hbody : body ∈ statement.children) (hs : s ∈ body) : s.Calm :=
  fun inner hinner => h inner (mem_nested_of_mem_children hbody hs hinner)

theorem Calm.isTransaction_eq {statement : Statement} (h : statement.Calm) :
    statement.isTransaction = false := by
  refine h statement ?_
  cases statement <;> simp [nested]

theorem handlerTransaction_of_calm {tryBody : List Statement} (h : ∀ s ∈ tryBody, s.Calm)
    (state : TransactionState) : handlerTransaction tryBody state = state := by
  have hnone : anyProtected isTransaction tryBody = false := by
    rw [anyProtected, List.any_eq_false]
    intro inner hinner
    obtain ⟨s, hs, hmem⟩ := mem_listSameHalf.mp hinner
    simp [h s hs inner (mem_nested_of_mem_sameHalf hmem)]
  simp [handlerTransaction, hnone]

/-- No path through a calm statement changes whether a transaction is open. -/
def Keeps (statement : Statement) : Prop :=
  ∀ ⦃before : Bool⦄ ⦃exit : Exit⦄ ⦃after : Bool⦄, statement.Ends before exit after → after = before

theorem ListEnds.eq_of_keeps {statements : List Statement} (ih : ∀ s ∈ statements, Keeps s)
    {before : Bool} {exit : Exit} {after : Bool} (h : ListEnds statements before exit after) :
    after = before := by
  induction statements generalizing before with
  | nil => exact h.2
  | cons statement rest ihrest =>
    rcases h with ⟨-, rfl⟩ | ⟨-, hfirst⟩ | ⟨middle, hfirst, hrest⟩
    · rfl
    · exact ih statement List.mem_cons_self hfirst
    · obtain rfl := ih statement List.mem_cons_self hfirst
      exact ihrest (fun s hs => ih s (.tail _ hs)) hrest

theorem Calm.keeps {statement : Statement} (h : statement.Calm) : statement.Keeps := by
  induction statement using Statement.childInduction with
  | step statement ih =>
    intro before exit after hends
    have hlist {body : List Statement} (hbody : body ∈ statement.children) {before : Bool}
        {exit : Exit} {after : Bool} (hends : ListEnds body before exit after) : after = before :=
      hends.eq_of_keeps fun s hs => ih body hbody s hs (h.of_mem_children hbody hs)
    cases statement with
    | ifElse condition thenBranch elseBranch =>
      rcases hends with hthen | helse
      · exact hlist (by simp [children]) hthen
      · cases elseBranch with
        | none => exact helse.2
        | some elseBranch => exact hlist (by simp [children]) helse
    | «while» condition body =>
      have hbody : body ∈ (Statement.while condition body).children := by simp [children]
      obtain ⟨head, hhead, hexit⟩ := hends
      obtain rfl : head = before := by
        rcases reflTransGen_bool_iff.mp hhead with heq | hround
        · exact heq
        · exact hround.elim (hlist hbody) (hlist hbody)
      rcases hexit with ⟨-, rfl | hbroke⟩ | ⟨-, hleft⟩
      · rfl
      · exact hlist hbody hbroke
      · exact hlist hbody hleft
    | block body => exact hlist (by simp [children]) hends
    | tryCatch tryBody catchBody =>
      rcases hends with ⟨-, htry⟩ | ⟨caught, htry, hcatch⟩
      · exact hlist (by simp [children]) htry
      · obtain rfl := hlist (by simp [children]) htry
        exact hlist (by simp [children]) hcatch
    | beginTransaction | commit | rollback => simpa [isTransaction] using h.isTransaction_eq
    | _ => exact hends.2

theorem listTrack_eq_of_forall {statements : List Statement}
    (ih : ∀ s ∈ statements, ∀ state, s.track state = state) (state : TransactionState) :
    listTrack statements state = state := by
  induction statements with
  | nil => rfl
  | cons statement rest ihrest =>
    rw [listTrack, ih statement List.mem_cons_self]
    exact ihrest fun s hs => ih s (.tail _ hs)

/-- The knowledge does not change along a calm statement. -/
theorem Calm.track_eq {statement : Statement} (h : statement.Calm) (state : TransactionState) :
    statement.track state = state := by
  induction statement using Statement.childInduction generalizing state with
  | step statement ih =>
    have hlist {body : List Statement} (hbody : body ∈ statement.children)
        (state : TransactionState) : listTrack body state = state :=
      listTrack_eq_of_forall (fun s hs => ih body hbody s hs (h.of_mem_children hbody hs)) state
    cases statement with
    | ifElse condition thenBranch elseBranch =>
      rw [track, hlist (by simp [children])]
      cases elseBranch with
      | none => rfl
      | some elseBranch => exact hlist (by simp [children]) state
    | «while» | block => exact hlist (by simp [children]) state
    | tryCatch tryBody catchBody =>
      have hcalm : ∀ s ∈ tryBody, s.Calm := fun s hs => h.of_mem_children (by simp [children]) hs
      rw [track, handlerTransaction_of_calm hcalm, hlist (by simp [children]),
        hlist (by simp [children]), TransactionState.join_self]
    | beginTransaction | commit | rollback => simpa [isTransaction] using h.isTransaction_eq
    | _ => rfl

/-! ## Agreement of scoped statements -/

/-- Knowledge that is right in front of a statement is right inside of it and behind it. -/
structure Preserving (statement : Statement) : Prop where
  again {before after : Bool} : statement.Repeats before after → after = before
  inside {state : TransactionState} {opened : Bool} : state.Allows opened →
    statement.agrees state opened = true
  behind {state : TransactionState} {before after : Bool} : state.Allows before →
    statement.Ends before .done after → (statement.track state).Allows after

theorem listAgrees_of_preserving {statements : List Statement} (ih : ∀ s ∈ statements, Preserving s)
    {state : TransactionState} {opened : Bool} (h : state.Allows opened) :
    listAgrees statements state opened = true := by
  induction statements generalizing state opened with
  | nil => rfl
  | cons statement rest ihrest =>
    have hfirst := ih statement List.mem_cons_self
    rw [listAgrees_cons_iff]
    constructor
    · intro head hhead
      obtain rfl : head = opened := by
        rcases reflTransGen_bool_iff.mp hhead with heq | hrepeats
        · exact heq
        · exact hfirst.again hrepeats
      exact ⟨h, hfirst.inside h⟩
    · intro after hends
      exact ihrest (fun s hs => ih s (.tail _ hs)) (hfirst.behind h hends)

theorem listTrack_allows_of_preserving {statements : List Statement} (ih : ∀ s ∈ statements, Preserving s)
    {state : TransactionState} {before after : Bool} (h : state.Allows before)
    (hends : ListEnds statements before .done after) :
    (listTrack statements state).Allows after := by
  induction statements generalizing state before with
  | nil =>
    obtain ⟨-, rfl⟩ := hends
    exact h
  | cons statement rest ihrest =>
    rcases hends with ⟨hexit, -⟩ | ⟨hexit, -⟩ | ⟨middle, hfirst, hrest⟩
    · cases hexit
    · exact absurd rfl hexit
    · exact ihrest (fun s hs => ih s (.tail _ hs))
        ((ih statement List.mem_cons_self).behind h hfirst) hrest

/-- A part of a calm statement is entered as the statement is reached. -/
theorem Calm.enters_eq {statement : Statement} (h : statement.Calm) {part : Part}
    {before after : Bool} (henters : statement.Enters before part after) : after = before := by
  unfold Enters at henters
  split at henters
  next tryBody catchBody =>
    exact henters.eq_of_keeps fun s hs => (h.of_mem_children (by simp [children]) hs).keeps
  next => exact henters

theorem Calm.partTrack_eq {statement : Statement} (h : statement.Calm) (state : TransactionState)
    (part : Part) : statement.partTrack state part = state := by
  unfold partTrack
  split
  next condition thenBranch elseBranch =>
    exact listTrack_eq_of_forall
      (fun s hs => (h.of_mem_children (by simp [children]) hs).track_eq) state
  next tryBody catchBody =>
    exact handlerTransaction_of_calm (fun s hs => h.of_mem_children (by simp [children]) hs) state
  next => rfl

theorem Calm.repeats_eq {statement : Statement} (h : statement.Calm) {before after : Bool}
    (hrepeats : statement.Repeats before after) : after = before := by
  cases statement with
  | «while» condition body =>
    have hbody : ∀ s ∈ body, s.Keeps :=
      fun s hs => (h.of_mem_children (by simp [children]) hs).keeps
    exact hrepeats.elim (·.eq_of_keeps hbody) (·.eq_of_keeps hbody)
  | _ => cases hrepeats

theorem Calm.preserving {statement : Statement} (h : statement.Calm) : statement.Preserving := by
  induction statement using Statement.childInduction with
  | step statement ih =>
    refine ⟨h.repeats_eq, ?_, ?_⟩
    · intro state opened hallows
      rw [agrees_iff]
      intro part body after hpart henters
      obtain rfl := h.enters_eq henters
      rw [h.partTrack_eq]
      have hbody := mem_children_of_part? hpart
      exact listAgrees_of_preserving
        (fun s hs => ih body hbody s hs (h.of_mem_children hbody hs)) hallows
    · intro state before after hallows hends
      obtain rfl := h.keeps hends
      rwa [h.track_eq]

/-- Behind a transaction statement, it is known whether one is open. -/
theorem preserving_of_isTransaction {statement : Statement}
    (h : statement.isTransaction = true) : statement.Preserving := by
  cases statement with
  | beginTransaction | commit | rollback =>
    refine ⟨False.elim, fun _ => rfl, ?_⟩
    rintro state before after - ⟨-, rfl⟩ -
    rfl
  | _ => cases h

/-- What is known where a handler starts allows all ways in which the protected statements may have
been abandoned. -/
theorem handlerTransaction_allows {tryBody : List Statement} {state : TransactionState}
    {opened caught : Bool}
    (hseen : anyProtected isTransaction tryBody = true ∨ ∀ s ∈ tryBody, s.Calm)
    (hallows : state.Allows opened) (hends : ListEnds tryBody opened .abandoned caught) :
    (handlerTransaction tryBody state).Allows caught := by
  rcases hseen with hany | hcalm
  · rw [handlerTransaction, if_pos hany]
    rintro ⟨⟩
  · obtain rfl := hends.eq_of_keeps fun s hs => (hcalm s hs).keeps
    rwa [handlerTransaction_of_calm hcalm]

/-- Scoped statements preserve the knowledge about the transaction. -/
theorem Scoped.preserving {statement : Statement} (h : statement.Scoped) :
    statement.Preserving := by
  induction h with
  | calm hcalm => exact hcalm.preserving
  | transaction h => exact preserving_of_isTransaction h
  | block _ ih =>
    exact ⟨False.elim, listAgrees_of_preserving ih, listTrack_allows_of_preserving ih⟩
  | tryCatch _ _ hseen ihtry ihcatch =>
    refine ⟨False.elim, ?_, ?_⟩
    · intro state opened hallows
      simp only [agrees, Bool.and_eq_true, everyFlag_iff, listEnds_iff]
      exact ⟨listAgrees_of_preserving ihtry hallows, fun caught hcaught =>
        listAgrees_of_preserving ihcatch (handlerTransaction_allows hseen hallows hcaught)⟩
    · rintro state before after hallows (⟨-, htry⟩ | ⟨caught, htry, hcatch⟩)
      · exact (listTrack_allows_of_preserving ihtry hallows htry).join_left
      · have hcaught := handlerTransaction_allows hseen hallows htry
        exact (listTrack_allows_of_preserving ihcatch hcaught hcatch).join_right

end Statement

/-- The knowledge about the transaction is right on every path of a procedure whose transaction
statements stand outside of conditionals and loops. -/
theorem Procedure.trackerSound_of_scoped {procedure : Procedure} (config : Config)
    (h : ∀ s ∈ procedure.body, s.Scoped) : procedure.TrackerSound config := by
  rintro moment ⟨first, hfirst, hpath⟩
  have hstart : Moment.Agrees ⟨first, false⟩ := by
    rw [Moment.Agrees, hfirst.transaction_eq, hfirst.2.2.2.2]
    exact Statement.listAgrees_of_preserving (fun s hs => (h s hs).preserving) fun _ => rfl
  exact hstart.sound moment hpath

end Sproc
