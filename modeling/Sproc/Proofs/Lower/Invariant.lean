import Sproc.Proofs.Lower.Entry

/-!
# Invariants of variables and cursors

A property of the variables and cursors that are known holds at every moment of a generation once it
holds without cursors and outlasts two things: the declaration of a variable, and the statements that
are about cursors. Nothing else changes what is known of either, wherever a statement stands.

## Main definitions

* `Invariant`, `Invariant.effect`
* `Invariant.Outlasts`: a statement about a cursor does not break an invariant

## Main results

* `Invariant.hasEffect_lowerStatement`: no statement breaks an invariant if those about cursors in it
  do not
* `Invariant.holds_of_visits`: an invariant holds in every frame of a procedure
-/

namespace Sproc

/-- A property of variables and cursors that outlasts declarations of variables. -/
structure Invariant where
  holds : SymbolTable → CursorTable → Prop
  declares {symbols symbols' : SymbolTable} {cursors : CursorTable} {name type : String}
    {kind : SymbolKind} {symbol : Symbol} :
    symbols.declare name type kind = .ok (symbol, symbols') → holds symbols cursors →
      holds symbols' cursors

namespace Invariant

variable (I : Invariant)

/-- Whether the invariant holds of what is known. -/
def Holds (p : Progress) : Prop :=
  I.holds p.symbols p.cursors

/-- A step does not break the invariant. -/
def effect : Effect where
  relates before after := I.Holds before → I.Holds after

/-- The discipline of the invariant, which asks for nothing about what is written. -/
def discipline : Discipline where
  keeps := I.Holds
  writes _ := True
  stable _ _ hsymbols hcursors _ hholds := by
    rwa [Holds, ← hsymbols, ← hcursors]

theorem permissive_discipline : I.discipline.Permissive :=
  fun _ => trivial

theorem lasting_discipline : I.discipline.Lasting :=
  fun _ _ _ _ _ _ hdeclare hholds => I.declares hdeclare hholds

theorem ignoresTransaction_discipline : I.discipline.IgnoresTransaction :=
  fun _ _ hholds => hholds

variable {I}

theorem holds_congr {p q : Progress} (hsymbols : q.symbols = p.symbols)
    (hcursors : q.cursors = p.cursors) (h : I.Holds p) : I.Holds q := by
  rwa [Holds, hsymbols, hcursors]

instance : I.effect.Tolerant where
  annotated hannotated := holds_congr hannotated.symbols hannotated.cursors
  trans h h' hholds := h' (h hholds)
  behind _ _ := trivial
  plain _ := trivial

/-- A statement about a cursor does not break the invariant, wherever it stands. -/
def Outlasts (I : Invariant) (s : Statement) : Prop :=
  s.isCursorUse = true → ∀ (c : Context) (rest : List Statement) (prepared : Option Fetch),
    (Lower.lowerStatement rest prepared s).HasEffect c I.effect

end Invariant

namespace Lower

open Invariant

variable {α : Type} {I : Invariant} {c : Context}

theorem HasEffect.keepsInvariant {step : Lower α} (h : step.HasEffect c I.discipline.effect) :
    step.HasEffect c I.effect :=
  h.mono (fun heffect hholds => (heffect hholds).1) fun _ => trivial

/-! ## Steps that break no invariant -/

theorem keepsInvariant_modify {change : Progress → Progress}
    (hsymbols : ∀ p, (change p).symbols = p.symbols) (hcursors : ∀ p, (change p).cursors = p.cursors) :
    (modify change : Lower PUnit).HasEffect c I.effect := by
  refine .of_not_fails not_fails_modify fun {before} _ _ hruns => ?_
  obtain rfl := runs_modify.mp hruns
  exact holds_congr (hsymbols before) (hcursors before)

theorem keepsInvariant_emit (s : Go.Stmt) : (emit s).HasEffect c I.effect :=
  keepsInvariant_modify (fun _ => rfl) fun _ => rfl

theorem keepsInvariant_setTransaction (transaction : TransactionState) :
    (setTransaction transaction).HasEffect c I.effect :=
  keepsInvariant_modify (fun _ => rfl) fun _ => rfl

/-- A Go block changes what its statements change. -/
theorem keepsInvariant_block {step : Lower Unit} (h : step.HasEffect c I.effect) :
    (block step).HasEffect c I.effect where
  runs _ _ _ hruns hholds := by
    obtain ⟨inner, hinner, -, rfl⟩ := runs_block.mp hruns
    have hopened : I.Holds _ := h hinner (holds_congr rfl rfl hholds)
    exact holds_congr rfl rfl hopened
  fails _ _ _ _ := trivial

theorem keepsInvariant_emitIf (init : Option Go.Assign) (test : Go.Expr) {step : Lower Unit}
    (h : step.HasEffect c I.effect) : (emitIf init test step).HasEffect c I.effect :=
  hasEffect_bind (keepsInvariant_block h) fun _ => keepsInvariant_emit _

theorem keepsInvariant_located {step : Lower α} (h : step.HasEffect c I.effect) :
    (located step).HasEffect c I.effect :=
  hasEffect_located h fun _ => trivial

theorem keepsInvariant_lowerCondition (condition : Expr) :
    (lowerCondition condition).HasEffect c I.effect :=
  (hasEffect_lowerCondition I.permissive_discipline.regular.forms condition).keepsInvariant

theorem keepsInvariant_emitLoopTest (condition : Expr) :
    (emitLoopTest condition).HasEffect c I.effect :=
  (hasEffect_emitLoopTest I.permissive_discipline.regular.forms condition
    (hasEffect_emitBreak trivial)).keepsInvariant

theorem keepsInvariant_emitGuarded (init : Go.Assign) :
    (emitGuarded init).HasEffect c I.effect :=
  (hasEffect_emitGuarded I.permissive_discipline.regular.forms init).keepsInvariant

theorem keepsInvariant_fetchIterator (fetch : Fetch) :
    (fetchIterator fetch).HasEffect c I.effect :=
  hasEffect_fetchIterator (fun _ _ _ => trivial) fetch

/-! ## Statements that hold others -/

/-- A list of statements breaks no invariant if its members do not. -/
theorem keepsInvariant_lowerStatements_of {statements : List Statement}
    (h : ∀ s ∈ statements, ∀ (c : Context) (rest : List Statement) (prepared : Option Fetch),
      (lowerStatement rest prepared s).HasEffect c I.effect)
    (index : Nat) (prepared : Option Fetch) :
    (lowerStatements index prepared statements).HasEffect c I.effect := by
  induction statements generalizing index prepared with
  | nil => exact hasEffect_pure _
  | cons statement rest ih =>
    rw [List.forall_mem_cons] at h
    rw [lowerStatements]
    refine hasEffect_bind (hasEffect_within (keepsInvariant_located (h.1 _ _ _))) fun prepared => ?_
    exact ih h.2 _ prepared

theorem keepsInvariant_branch {statements : List Statement}
    (h : ∀ c, (lowerStatements 0 none statements).HasEffect c I.effect) (index : Nat) :
    (block (within (Context.enter index) (lowerStatements 0 none statements))).HasEffect c I.effect :=
  keepsInvariant_block (hasEffect_within (h _))

/-- An alternative that continues a chain writes its conditional as a part of another one, and
changes what the conditional changes. -/
theorem keepsInvariant_lowerElse {elseBranch : Option (List Statement)}
    (h : ∀ body ∈ elseBranch, ∀ s ∈ body, ∀ (c : Context) (rest : List Statement)
      (prepared : Option Fetch), (lowerStatement rest prepared s).HasEffect c I.effect) :
    (lowerElse elseBranch).HasEffect c I.effect := by
  cases elseBranch with
  | none => exact hasEffect_pure _
  | some body =>
    have hbody := h body rfl
    cases hchain : Statement.continuesChain body with
    | false =>
      rw [lowerElse_of_not_continuesChain hchain]
      refine hasEffect_bind (keepsInvariant_branch (fun _ => ?_) 1) fun _ => hasEffect_pure _
      exact keepsInvariant_lowerStatements_of hbody 0 none
    | true =>
      obtain ⟨condition, thenBranch, otherwise, rfl, hhoist⟩ := Statement.continuesChain_iff.mp hchain
      rw [lowerElse_of_continuesChain hhoist]
      refine hasEffect_within (keepsInvariant_located ?_)
      refine hasEffect_bind ⟨fun before chain after hruns => ?_, fun _ _ _ _ => trivial⟩ fun _ =>
        hasEffect_pure _
      have hstatement : (lowerStatement [] none (.ifElse condition thenBranch otherwise)).Runs
          ((Context.enter 0 ∘ Context.enter 1) c) before none (after.wrote (.branch chain.1 chain.2.1 chain.2.2)) := by
        rw [lowerStatement_ifElse]
        simp only [runs_bind, runs_emit, runs_pure]
        exact ⟨chain, after, hruns, (), _, rfl, trivial, rfl⟩
      intro hholds
      have hafter : I.Holds (after.wrote (.branch chain.1 chain.2.1 chain.2.2)) :=
        hbody _ List.mem_cons_self _ [] none hstatement hholds
      exact holds_congr rfl rfl hafter

theorem keepsInvariant_lowerChain {condition : Expr} {thenBranch : List Statement}
    {elseBranch : Option (List Statement)}
    (hthen : ∀ c, (lowerStatements 0 none thenBranch).HasEffect c I.effect)
    (helse : (lowerElse elseBranch).HasEffect c I.effect) :
    (lowerChain condition thenBranch elseBranch).HasEffect c I.effect := by
  refine hasEffect_bind (keepsInvariant_lowerCondition condition) fun test => ?_
  refine hasEffect_bind (keepsInvariant_branch hthen 0) fun body => ?_
  exact hasEffect_bind helse fun _ => hasEffect_pure _

theorem keepsInvariant_lowerWhile (condition : Expr) {body : Lower Unit}
    (hbody : ∀ c, body.HasEffect c I.effect) :
    (lowerWhile condition body).HasEffect c I.effect := by
  unfold lowerWhile
  split
  · have hround : (emitLoopTest condition >>= fun _ => body).HasEffect c.enterLoop I.effect :=
      hasEffect_bind (keepsInvariant_emitLoopTest condition) fun _ => hbody _
    exact hasEffect_bind (hasEffect_within (keepsInvariant_block hround)) fun _ =>
      keepsInvariant_emit _
  · refine hasEffect_bind (keepsInvariant_lowerCondition condition) fun test => ?_
    exact hasEffect_bind (hasEffect_within (keepsInvariant_block (hbody _))) fun _ =>
      keepsInvariant_emit _

theorem keepsInvariant_lowerFetchLoop (prepared : Option Fetch) (rest : Option Expr)
    (statements : List Statement) {body : Lower Unit} (hbody : ∀ c, body.HasEffect c I.effect) :
    (lowerFetchLoop prepared rest statements body).HasEffect c I.effect := by
  unfold lowerFetchLoop
  split
  · exact hasEffect_unsupported _ _
  next fetch _ =>
    refine hasEffect_within ?_
    refine hasEffect_bind (keepsInvariant_fetchIterator fetch) fun iterator => ?_
    refine hasEffect_bind (hasEffect_goNames _) fun targets => ?_
    have hround : (emitRound iterator targets rest).HasEffect
        (inCursorLoop fetch (c.enter 0)) I.effect :=
      (hasEffect_emitRound I.permissive_discipline.regular.forms iterator targets rest
        (hasEffect_emitBreak trivial)).keepsInvariant
    have hrounds := hasEffect_bind hround fun _ => hbody _
    refine hasEffect_bind (hasEffect_within (keepsInvariant_block hrounds)) fun statements => ?_
    exact hasEffect_bind (keepsInvariant_emit _) fun _ => keepsInvariant_emitGuarded _

theorem keepsInvariant_emitRecover (catchBody : List Statement) {handler : Lower Unit}
    (hhandler : ∀ c, handler.HasEffect c I.effect) :
    (emitRecover catchBody handler).HasEffect c I.effect := by
  have hstart : (emitHandlerStart catchBody).HasEffect c I.effect :=
    (hasEffect_emitHandlerStart I.permissive_discipline.basic id catchBody).keepsInvariant
  have hcaught := hasEffect_bind hstart fun _ => hasEffect_within (hhandler (inHandler c))
  exact hasEffect_bind (keepsInvariant_block (keepsInvariant_emitIf _ _ hcaught)) fun _ =>
    keepsInvariant_emit _

theorem keepsInvariant_lowerTryCatch (tryBody catchBody : List Statement)
    {attempt handler : Lower Unit} (hattempt : ∀ c, attempt.HasEffect c I.effect)
    (hhandler : ∀ c, handler.HasEffect c I.effect) :
    (lowerTryCatch tryBody catchBody attempt handler).HasEffect c I.effect := by
  refine hasEffect_bind hasEffect_get fun p => ?_
  refine hasEffect_bind
    (hasEffect_returnFlag? I.permissive_discipline.regular.forms tryBody).keepsInvariant fun flag => ?_
  refine hasEffect_bind (keepsInvariant_setTransaction _) fun _ => ?_
  refine hasEffect_bind (keepsInvariant_block ?_) fun literal => ?_
  · refine hasEffect_bind (keepsInvariant_emitRecover catchBody hhandler) fun _ => ?_
    refine hasEffect_bind hasEffect_get fun _ => ?_
    refine hasEffect_bind (keepsInvariant_setTransaction _) fun _ => ?_
    refine hasEffect_bind (hasEffect_within (hattempt _)) fun _ => ?_
    exact hasEffect_bind hasEffect_get fun _ => keepsInvariant_setTransaction _
  · refine hasEffect_bind (keepsInvariant_emit _) fun _ => ?_
    exact (I.permissive_discipline.emitWayOut flag catchBody).keepsInvariant

/-- A statement that holds no others breaks no invariant that outlasts what it does to cursors. -/
theorem keepsInvariant_lowerLeaf {s : Statement} (h : I.Outlasts s) (hchildren : s.children = [])
    (rest : List Statement) (prepared : Option Fetch) :
    (lowerStatement rest prepared s).HasEffect c I.effect := by
  cases huse : s.isCursorUse with
  | true => exact h huse c rest prepared
  | false =>
    exact (I.permissive_discipline.lowerLeaf I.lasting_discipline rest prepared
      (fun hcursor => absurd (huse.symm.trans hcursor) Bool.false_ne_true)
      (fun _ => I.ignoresTransaction_discipline) hchildren).keepsInvariant

/-- No statement breaks an invariant that outlasts what the statements in it do to cursors. -/
theorem keepsInvariant_lowerStatement (s : Statement) (h : ∀ inner ∈ s.nested, I.Outlasts inner) :
    ∀ (c : Context) (rest : List Statement) (prepared : Option Fetch),
      (lowerStatement rest prepared s).HasEffect c I.effect := by
  induction s using Statement.childInduction with
  | step s ih =>
    have hparts : ∀ body ∈ s.children, ∀ inner ∈ body, ∀ (c : Context) (rest : List Statement)
        (prepared : Option Fetch), (lowerStatement rest prepared inner).HasEffect c I.effect :=
      fun body hbody inner hinner => ih body hbody inner hinner fun other hother =>
        h other (Statement.mem_nested_of_mem_children hbody hinner hother)
    have hlists : ∀ body ∈ s.children, ∀ c, (lowerStatements 0 none body).HasEffect c I.effect :=
      fun body hbody c => keepsInvariant_lowerStatements_of (hparts body hbody) 0 none
    intro c rest prepared
    cases s with
    | ifElse condition thenBranch elseBranch =>
      rw [lowerStatement_ifElse]
      have helse : (lowerElse elseBranch).HasEffect c I.effect :=
        keepsInvariant_lowerElse fun body hbody =>
          hparts body (List.mem_cons_of_mem _ (Option.mem_toList.mpr hbody))
      refine hasEffect_bind (keepsInvariant_lowerChain (hlists _ List.mem_cons_self) helse)
        fun chain => ?_
      exact hasEffect_bind (keepsInvariant_emit _) fun _ => hasEffect_pure _
    | «while» condition body =>
      have hbody := hlists body List.mem_cons_self
      rw [lowerStatement]
      cases sentinelRest? condition with
      | none =>
        exact hasEffect_bind (keepsInvariant_lowerWhile condition fun _ => hasEffect_within (hbody _))
          fun _ => hasEffect_pure _
      | some more =>
        exact hasEffect_bind (keepsInvariant_lowerFetchLoop prepared more body hbody) fun _ =>
          hasEffect_pure _
    | block body =>
      rw [lowerStatement]
      exact hasEffect_bind (hlists _ List.mem_cons_self c) fun _ => hasEffect_pure _
    | tryCatch tryBody catchBody =>
      rw [lowerStatement]
      exact hasEffect_bind (keepsInvariant_lowerTryCatch tryBody catchBody
        (hlists _ List.mem_cons_self) (hlists _ (List.mem_cons_of_mem _ List.mem_cons_self)))
        fun _ => hasEffect_pure _
    | _ => exact keepsInvariant_lowerLeaf (h _ (Statement.mem_nested_self _)) rfl rest prepared

theorem keepsInvariant_lowerStatements {statements : List Statement}
    (h : ∀ s ∈ Statement.nestedList statements, I.Outlasts s) (index : Nat)
    (prepared : Option Fetch) :
    (lowerStatements index prepared statements).HasEffect c I.effect :=
  keepsInvariant_lowerStatements_of (fun s hs => keepsInvariant_lowerStatement s fun inner hinner =>
    h inner (Statement.mem_nestedList.mpr ⟨s, hs, hinner⟩)) index prepared

end Lower

open Lower

namespace Invariant

variable {I : Invariant}

/-- An invariant that holds in front of a statement holds at the start of each of its parts. -/
theorem holds_of_opens {c : Context} {prepared : Option Fetch} {p : Progress}
    {statement : Statement} {part : Part} {frame : Frame}
    (h : Opens c prepared p statement part frame)
    (houtlasts : ∀ s ∈ statement.nested, I.Outlasts s) (hholds : I.Holds p) :
    I.Holds frame.progress := by
  have hregular (c : Context) : I.discipline.Regular c := I.permissive_discipline.regular
  have hinner {body : List Statement} (hbody : body ∈ statement.children) (c : Context) :
      (lowerStatements 0 none body).HasEffect c I.effect := by
    refine keepsInvariant_lowerStatements (fun s hs => houtlasts s ?_) 0 none
    obtain ⟨member, hmember, hs⟩ := Statement.mem_nestedList.mp hs
    exact Statement.mem_nested_of_mem_children hbody hmember hs
  cases h with
  | @thenBranch _ _ _ _ tested htest =>
    have htested : I.Holds tested := keepsInvariant_lowerCondition _ htest hholds
    exact holds_congr rfl rfl htested
  | @elseBranch condition thenBranch elseBranch test body tested passed htest hthen =>
    have htested : I.Holds tested := keepsInvariant_lowerCondition _ htest hholds
    have hpassed : I.Holds passed :=
      keepsInvariant_branch (hinner List.mem_cons_self) 0 hthen htested
    unfold elseStart
    split
    · exact hpassed
    · exact holds_congr rfl rfl hpassed
  | @loop _ _ _ tested _ _ htest =>
    have htested : I.Holds tested := keepsInvariant_lowerCondition _ htest hholds
    exact holds_congr rfl rfl htested
  | testedLoop _ _ htest =>
    exact keepsInvariant_emitLoopTest _ htest (holds_congr rfl rfl hholds)
  | @cursorLoop _ _ _ fetch iterator targets found named started _ _ hiterator htargets hround =>
    have hfound : I.Holds found := keepsInvariant_fetchIterator _ hiterator hholds
    have hnamed : I.effect found named := hasEffect_goNames _ htargets
    have hrounds : I.effect named.opened started :=
      (hasEffect_emitRound (hregular _).forms _ _ _ (hasEffect_emitBreak trivial)).keepsInvariant hround
    exact hrounds (holds_congr rfl rfl (hnamed hfound))
  | block => exact hholds
  | @catchHalf tryBody catchBody flag flagged started hflag hstart =>
    have hflagged : I.Holds flagged :=
      (hasEffect_returnFlag? (hregular _).forms _).keepsInvariant hflag hholds
    exact (hasEffect_emitHandlerStart (hregular (inHandler c)).toBasic id catchBody).keepsInvariant
      hstart (holds_congr rfl rfl hflagged)
  | @tryHalf tryBody catchBody flag flagged handled hflag hrecover =>
    have hflagged : I.Holds flagged :=
      (hasEffect_returnFlag? (hregular _).forms _).keepsInvariant hflag hholds
    have hcatch := hinner (List.mem_cons_of_mem _ List.mem_cons_self)
    have hhandled : I.Holds handled :=
      keepsInvariant_emitRecover catchBody hcatch hrecover (holds_congr rfl rfl hflagged)
    exact holds_congr rfl rfl hhandled

/-- The statements of a frame that the generation goes on to are statements of the frame before. -/
theorem nestedList_subset_of_next {frame next : Frame} (h : frame.Next next) :
    Statement.nestedList next.statements ⊆ Statement.nestedList frame.statements := by
  intro s hs
  obtain ⟨member, hmember, hnested⟩ := Statement.mem_nestedList.mp hs
  cases h with
  | behind hstep =>
    cases hstep with
    | mk => exact Statement.mem_nestedList.mpr ⟨member, List.mem_cons_of_mem _ hmember, hnested⟩
  | into hstatements hopens =>
    have hchildren := Statement.mem_children_of_part? hopens.part?_eq
    rw [hstatements]
    exact Statement.mem_nestedList.mpr
      ⟨_, List.mem_cons_self, Statement.mem_nested_of_mem_children hchildren hmember hnested⟩

/-- The statements of every frame are statements of the procedure. -/
theorem nestedList_subset_of_visits {procedure : Procedure} {config : Config} {frame : Frame}
    (h : procedure.Visits config frame) :
    Statement.nestedList frame.statements ⊆ procedure.statements := by
  obtain ⟨first, hfirst, hpath⟩ := h
  induction hpath with
  | refl => rw [hfirst.2.2.2.2]; exact fun _ hs => hs
  | tail _ hnext ih => exact fun s hs => ih (nestedList_subset_of_next hnext hs)

/-- An invariant that holds in a frame holds in the frames that the generation goes on to. -/
theorem holds_of_next {frame next : Frame} (h : frame.Next next)
    (houtlasts : ∀ s ∈ Statement.nestedList frame.statements, I.Outlasts s)
    (hholds : I.Holds frame.progress) : I.Holds next.progress := by
  cases h with
  | behind hstep =>
    cases hstep with
    | mk hruns =>
      refine keepsInvariant_lowerStatement _ (fun s hs => houtlasts s ?_) _ _ _ hruns hholds
      exact Statement.mem_nestedList.mpr ⟨_, List.mem_cons_self, hs⟩
  | into hstatements hopens =>
    refine holds_of_opens hopens (fun s hs => houtlasts s ?_) hholds
    exact Statement.mem_nestedList.mpr ⟨_, hstatements ▸ List.mem_cons_self, hs⟩

/-- An invariant that holds without cursors, and outlasts what the statements of a procedure do to
them, holds in every frame of the procedure. -/
theorem holds_of_visits {procedure : Procedure} {config : Config} {frame : Frame}
    (h : procedure.Visits config frame) (hempty : ∀ symbols, I.holds symbols [])
    (houtlasts : ∀ s ∈ procedure.statements, I.Outlasts s) : I.Holds frame.progress := by
  obtain ⟨first, ⟨-, hentry, -, -, hbody⟩, hpath⟩ := h
  have hkept : lowerEntry.HasEffect first.context I.discipline.effect :=
    hasEffect_lowerEntry I.permissive_discipline.regular I.permissive_discipline.releasing id
      I.lasting_discipline
  have hfirst : I.Holds first.progress := hkept.keepsInvariant hentry (hempty _)
  have hstatements : ∀ s ∈ Statement.nestedList first.statements, I.Outlasts s := by
    rw [hbody]
    exact houtlasts
  have hall : I.Holds frame.progress ∧
      ∀ s ∈ Statement.nestedList frame.statements, I.Outlasts s := by
    induction hpath with
    | refl => exact ⟨hfirst, hstatements⟩
    | tail _ hnext ih =>
      exact ⟨holds_of_next hnext ih.2 ih.1, fun s hs =>
        ih.2 s (nestedList_subset_of_next hnext hs)⟩
  exact hall.1

end Invariant

end Sproc
