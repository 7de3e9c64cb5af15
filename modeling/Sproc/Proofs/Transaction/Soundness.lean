import Sproc.Ast.Build
import Sproc.Proofs.Transaction.Paths
import Sproc.Proofs.Transaction.Tracker

/-!
# Is the knowledge about the transaction right?

A path through a procedure reaches its statements with a transaction open or not, while the
generation treats each of them with what it knows about the transaction. The knowledge is sound if
it is right on every path. It follows the text and not the paths: the alternative of a conditional
is entered with what the first branch has left, nothing is joined behind a conditional or a loop, and
a transaction statement in the handler of an inner `TRY` statement is overlooked by the outer one. So
it is not sound for every procedure. Whether it is sound can be computed from the source.

## Main definitions

* `TransactionState.Allows`: what the knowledge says about a path
* `Moment`, `Moment.Next`, `Procedure.Reaches`: the paths of a procedure
* `Procedure.TrackerSound`: the knowledge is right on every path
* `Statement.listAgrees`, `Procedure.trackerAgrees`: the same, computed

## Main results

* `Moment.Next.agrees`: one step along a path keeps the computed agreement
* `Procedure.trackerSound_iff`: the knowledge is sound exactly when the computed agreement holds
-/

namespace Sproc

open Lower

/-- What is known about the transaction allows that one is open, or that none is. -/
def TransactionState.Allows (state : TransactionState) (opened : Bool) : Prop :=
  state.uncertain = false → state.active = opened
  deriving Decidable

/-! ## Paths of a procedure -/

/-- How a part of a statement is entered. The protected statements may have been abandoned anywhere
when the handler is entered. -/
def Statement.Enters : Statement → Bool → Part → Bool → Prop
  | tryCatch tryBody _, before, .catchHalf, after => ListEnds tryBody before .abandoned after
  | _, before, _, after => after = before

/-- A moment of a path: it has reached the statements of a frame, and a transaction is open or
not. -/
structure Moment where
  frame : Frame
  opened : Bool

namespace Moment

/-- A path goes on behind a statement, comes back to a loop, or enters a part of a statement. -/
inductive Next : Moment → Moment → Prop
  | behind {frame next : Frame} {statement : Statement} {rest : List Statement}
    {before after : Bool} : frame.statements = statement :: rest → frame.Step next →
    statement.Ends before .done after → Next ⟨frame, before⟩ ⟨next, after⟩
  | again {frame : Frame} {statement : Statement} {rest : List Statement} {before after : Bool} :
    frame.statements = statement :: rest → statement.Repeats before after →
    Next ⟨frame, before⟩ ⟨frame, after⟩
  | into {frame inner : Frame} {statement : Statement} {rest : List Statement} {part : Part}
    {before after : Bool} : frame.statements = statement :: rest →
    Opens frame.here frame.prepared frame.progress statement part inner →
    statement.Enters before part after → Next ⟨frame, before⟩ ⟨inner, after⟩

/-- The knowledge with which the statement at hand is treated is right. -/
def Tracked (moment : Moment) : Prop :=
  moment.frame.statements ≠ [] → moment.frame.progress.transaction.Allows moment.opened

/-- The knowledge is right from a moment on, however the path goes on. -/
def Sound (moment : Moment) : Prop :=
  ∀ later, Relation.ReflTransGen Next moment later → later.Tracked

theorem Sound.tracked {moment : Moment} (h : moment.Sound) : moment.Tracked :=
  h moment .refl

theorem Sound.later {moment later : Moment} (h : moment.Sound)
    (hpath : Relation.ReflTransGen Next moment later) : later.Sound :=
  fun _ hlater => h _ (hpath.trans hlater)

end Moment

/-- The moments of the paths of a procedure, which start without a transaction. -/
def Procedure.Reaches (procedure : Procedure) (config : Config) (moment : Moment) : Prop :=
  ∃ first, procedure.Begins config first ∧ Relation.ReflTransGen Moment.Next ⟨first, false⟩ moment

/-- The knowledge about the transaction is right on every path of a procedure. -/
def Procedure.TrackerSound (procedure : Procedure) (config : Config) : Prop :=
  ∀ moment, procedure.Reaches config moment → moment.Tracked

/-! ## Agreement, computed -/

namespace Statement

/-- Whether a test succeeds for all flags that are possible. -/
def everyFlag (possible test : Bool → Bool) : Bool :=
  (!possible false || test false) && (!possible true || test true)

theorem everyFlag_iff {possible test : Bool → Bool} :
    everyFlag possible test = true ↔ ∀ flag, possible flag = true → test flag = true := by
  rw [everyFlag, Bool.forall_bool]
  cases possible false <;> cases possible true <;> simp

mutual

/-- Whether the knowledge is right on all paths inside a statement, which is reached with certain
knowledge and with a transaction open or not. -/
def agrees : Statement → TransactionState → Bool → Bool
  | ifElse _ thenBranch elseBranch, state, opened =>
    listAgrees thenBranch state opened &&
      elseAgrees elseBranch (listTrack thenBranch state) opened
  | .while _ body, state, opened => listAgrees body state opened
  | block body, state, opened => listAgrees body state opened
  | tryCatch tryBody catchBody, state, opened =>
    listAgrees tryBody state opened &&
      everyFlag (listEnds tryBody opened .abandoned) fun caught =>
        listAgrees catchBody (handlerTransaction tryBody state) caught
  | _, _, _ => true

/-- Whether the knowledge is right on all paths through a list of statements. -/
def listAgrees : List Statement → TransactionState → Bool → Bool
  | [], _, _ => true
  | statement :: rest, state, opened =>
    (everyFlag (heads statement opened) fun head =>
      decide (state.Allows head) && agrees statement state head) &&
    everyFlag (ends statement opened .done) fun after =>
      listAgrees rest (track statement state) after

/-- The same for an alternative. -/
def elseAgrees : Option (List Statement) → TransactionState → Bool → Bool
  | none, _, _ => true
  | some body, state, opened => listAgrees body state opened

end

variable {statement : Statement} {rest : List Statement} {state : TransactionState} {opened : Bool}

/-- The knowledge is right on a list when it is right each time its first statement is reached,
inside of it, and on the others. -/
theorem listAgrees_cons_iff :
    listAgrees (statement :: rest) state opened = true ↔
      (∀ head, Relation.ReflTransGen statement.Repeats opened head →
        state.Allows head ∧ agrees statement state head = true) ∧
      ∀ after, statement.Ends opened .done after →
        listAgrees rest (statement.track state) after = true := by
  simp only [listAgrees, Bool.and_eq_true, everyFlag_iff, heads_iff, ends_iff, decide_eq_true_iff]

/-- The knowledge is right inside a statement when it is right in all its parts. -/
theorem agrees_iff :
    agrees statement state opened = true ↔
      ∀ part body after, statement.part? part = some body → statement.Enters opened part after →
        listAgrees body (statement.partTrack state part) after = true := by
  constructor
  · intro h part body after hpart henters
    unfold part? at hpart
    split at hpart
    case h_1 =>
      obtain rfl := Option.some.inj hpart
      obtain rfl : after = opened := henters
      simp only [agrees, Bool.and_eq_true] at h
      exact h.1
    case h_2 =>
      subst hpart
      obtain rfl : after = opened := henters
      simp only [agrees, Bool.and_eq_true] at h
      exact h.2
    case h_3 | h_4 =>
      obtain rfl := Option.some.inj hpart
      obtain rfl : after = opened := henters
      exact h
    case h_5 =>
      obtain rfl := Option.some.inj hpart
      obtain rfl : after = opened := henters
      simp only [agrees, Bool.and_eq_true] at h
      exact h.1
    case h_6 =>
      obtain rfl := Option.some.inj hpart
      simp only [agrees, Bool.and_eq_true, everyFlag_iff, listEnds_iff] at h
      exact h.2 after henters
    case h_7 => cases hpart
  · intro h
    cases statement with
    | ifElse condition thenBranch elseBranch =>
      have hthen := h .thenBranch thenBranch opened rfl rfl
      cases elseBranch with
      | none =>
        simp only [agrees, elseAgrees, Bool.and_true]
        exact hthen
      | some elseBranch =>
        have helse := h .elseBranch elseBranch opened rfl rfl
        simp only [agrees, elseAgrees, Bool.and_eq_true]
        exact ⟨hthen, helse⟩
    | «while» condition body => exact h .body body opened rfl rfl
    | block body => exact h .body body opened rfl rfl
    | tryCatch tryBody catchBody =>
      simp only [agrees, Bool.and_eq_true, everyFlag_iff, listEnds_iff]
      exact ⟨h .tryHalf tryBody opened rfl rfl, fun caught hcaught =>
        h .catchHalf catchBody caught rfl hcaught⟩
    | _ => rfl

end Statement

/-- Whether the knowledge about the transaction is right on every path of a procedure. -/
def Procedure.trackerAgrees (procedure : Procedure) : Bool :=
  Statement.listAgrees procedure.body {} false

namespace Moment

/-- The computed agreement holds from a moment on. -/
def Agrees (moment : Moment) : Prop :=
  Statement.listAgrees moment.frame.statements moment.frame.progress.transaction moment.opened = true

theorem Agrees.tracked {moment : Moment} (h : moment.Agrees) : moment.Tracked := by
  intro hstatements
  obtain ⟨statement, rest, hcons⟩ := List.exists_cons_of_ne_nil hstatements
  rw [Agrees, hcons, Statement.listAgrees_cons_iff] at h
  exact (h.1 moment.opened .refl).1

/-- One step along a path keeps the computed agreement. -/
theorem Next.agrees {moment next : Moment} (h : moment.Next next) (hagrees : moment.Agrees) :
    next.Agrees := by
  cases h with
  | behind hstatements hstep hends =>
    rw [Agrees, hstatements, Statement.listAgrees_cons_iff] at hagrees
    rw [Agrees, hstep.transaction_eq hstatements, hstep.statements_eq hstatements]
    exact hagrees.2 _ hends
  | again hstatements hrepeats =>
    rw [Agrees, hstatements, Statement.listAgrees_cons_iff] at hagrees ⊢
    exact ⟨fun head hhead => hagrees.1 head (.head hrepeats hhead),
      fun after hends => hagrees.2 after (hends.of_repeats hrepeats)⟩
  | into hstatements hopens henters =>
    rw [Agrees, hstatements, Statement.listAgrees_cons_iff] at hagrees
    rw [Agrees, hopens.transaction_eq]
    have hparts := Statement.agrees_iff.mp (hagrees.1 _ .refl).2
    exact hparts _ _ _ hopens.part?_eq henters

theorem Agrees.sound {moment : Moment} (h : moment.Agrees) : moment.Sound := by
  intro later hpath
  have hlater : later.Agrees := by
    induction hpath with
    | refl => exact h
    | tail _ hnext ih => exact hnext.agrees ih
  exact hlater.tracked

/-- A statement agrees with the knowledge wherever the knowledge is sound from it on. -/
def Covers (statement : Statement) : Prop :=
  ∀ ⦃frame : Frame⦄ ⦃opened : Bool⦄ ⦃rest : List Statement⦄,
    frame.statements = statement :: rest → frame.Succeeds → Sound ⟨frame, opened⟩ →
      statement.agrees frame.progress.transaction opened = true

theorem Sound.agrees_of {statements : List Statement} (ih : ∀ s ∈ statements, Covers s)
    {frame : Frame} {opened : Bool} (hstatements : frame.statements = statements)
    (hframe : frame.Succeeds) (hsound : Sound ⟨frame, opened⟩) : Agrees ⟨frame, opened⟩ := by
  induction statements generalizing frame opened with
  | nil => simp [Agrees, hstatements, Statement.listAgrees]
  | cons statement rest ihrest =>
    rw [Agrees, hstatements, Statement.listAgrees_cons_iff]
    constructor
    · intro head hhead
      have hpath : Relation.ReflTransGen Next ⟨frame, opened⟩ ⟨frame, head⟩ :=
        hhead.lift (Moment.mk frame) fun _ _ => .again hstatements
      have hsound' := hsound.later hpath
      exact ⟨hsound'.tracked (by simp [hstatements]),
        ih statement List.mem_cons_self hstatements hframe hsound'⟩
    · intro after hends
      obtain ⟨next, hstep, hnext⟩ := hframe.exists_step hstatements
      have hsound' := hsound.later (.single (.behind hstatements hstep hends))
      have hagrees := ihrest (fun s hs => ih s (.tail _ hs)) (hstep.statements_eq hstatements)
        hnext hsound'
      rwa [Agrees, hstep.transaction_eq hstatements, hstep.statements_eq hstatements] at hagrees

theorem covers (statement : Statement) : Covers statement := by
  induction statement using Statement.childInduction with
  | step statement ih =>
    intro frame opened rest hstatements hframe hsound
    rw [Statement.agrees_iff]
    intro part body after hpart henters
    obtain ⟨inner, hopens, rfl, hinner⟩ := hframe.exists_opens hstatements hpart
    have hsound' := hsound.later (.single (.into hstatements hopens henters))
    have hagrees := Sound.agrees_of (ih _ (Statement.mem_children_of_part? hpart)) rfl hinner hsound'
    rwa [Agrees, hopens.transaction_eq] at hagrees

/-- Where the knowledge is sound, the computed agreement holds. -/
theorem Sound.agrees {frame : Frame} {opened : Bool} (hframe : frame.Succeeds)
    (hsound : Sound ⟨frame, opened⟩) : Agrees ⟨frame, opened⟩ :=
  Sound.agrees_of (fun s _ => covers s) rfl hframe hsound

end Moment

/-- The knowledge about the transaction is right on every path of a procedure exactly when the
computed agreement holds. -/
theorem Procedure.trackerSound_iff {procedure : Procedure} {config : Config}
    {lowered : LoweredProcedure} (h : procedure.lower config = .ok lowered) :
    procedure.TrackerSound config ↔ procedure.trackerAgrees = true := by
  obtain ⟨first, hfirst, hsucceeds⟩ := Procedure.exists_begins h
  have hagrees : Moment.Agrees ⟨first, false⟩ ↔ procedure.trackerAgrees = true := by
    rw [Moment.Agrees, hfirst.transaction_eq, hfirst.2.2.2.2, Procedure.trackerAgrees]
  rw [← hagrees]
  constructor
  · intro hsound
    exact Moment.Sound.agrees hsucceeds fun later hpath => hsound later ⟨first, hfirst, hpath⟩
  · rintro hagrees moment ⟨first', hfirst', hpath⟩
    obtain rfl := hfirst.unique hfirst'
    exact hagrees.sound moment hpath

/-- A transaction is started in a branch and ended behind it. -/
def Procedure.startsInBranch : Procedure where
  name := "usp_Flag"
  params := [Build.input "@flag" "INT" none]
  body := [Build.ifThen (Build.eq (Build.var "flag") (Build.int 1)) [.beginTransaction none],
    .commit none]

/-- A transaction is started and ended in protected statements, and taken back in the handler. -/
def Procedure.startsInTry : Procedure where
  name := "usp_Guarded"
  params := []
  body := [.tryCatch [.beginTransaction none, .commit none] [.rollback none]]

/-- A path reaches the `COMMIT` of `Procedure.startsInBranch` without the transaction that the
generation takes for granted there, while it is right about `Procedure.startsInTry`. -/
theorem Procedure.not_trackerSound_startsInBranch :
    ((Procedure.startsInBranch.lower {}).isOk = true ∧
      ¬ Procedure.startsInBranch.TrackerSound {}) ∧
    (Procedure.startsInTry.lower {}).isOk = true ∧ Procedure.startsInTry.TrackerSound {} := by
  have hbranch : (Procedure.startsInBranch.lower {}).isOk = true := by decide +kernel
  have htry : (Procedure.startsInTry.lower {}).isOk = true := by decide +kernel
  refine ⟨⟨hbranch, ?_⟩, htry, ?_⟩
  · obtain ⟨lowered, hlower⟩ := Procedure.exists_lower_eq_ok hbranch
    rw [Procedure.trackerSound_iff hlower]
    decide +kernel
  · obtain ⟨lowered, hlower⟩ := Procedure.exists_lower_eq_ok htry
    rw [Procedure.trackerSound_iff hlower]
    decide +kernel

end Sproc
