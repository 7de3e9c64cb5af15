import Mathlib.Data.List.Perm.Subperm
import Sproc.Proofs.Lower.Sending

/-!
# What steps have delivered

A data statement is sent to the backend of its table before the code that reaches the backend is
written, and the statements of a block are written long before the block itself is. A triple keeps
account of this: a step is taken where some events are due, makes contacts with backends and
iterators, and leaves events that are owed. What it has written, with what it owes, are the events
that were due and those of its contacts, and the warnings about forced backends are those of its
contacts.

A step is known by the contacts that it names. Those of statements it makes exactly; those of
queries inside expressions it makes at most once each, since a function may ignore an argument.
Those of cursors it does not name.

## Main definitions

* `Contact`, `Contact.events`, `Contact.forcings`: what is done with a backend or an iterator
* `Contact.Fulfils`: the contacts that were named have been made
* `Charter`: the cursors and iterators that may be used
* `Charter.Delivered`: the account of a step
* `Lower.Carries`, `Lower.Delivers`: triples for it

## Main results

* `carries_bind`, `carries_block`, `carries_making`: sequences, blocks, and contacts
* `delivers_backendFor_bind`: the choice of a backend makes a contact
* `delivers_hoistExists`, `delivers_hoistScalar`: queries inside expressions
-/

namespace Sproc

open Go

/-- What generated code is to do with a backend or with an iterator. -/
inductive Contact where
  /-- A data statement on a table, with the number of messages that it takes on a remote backend. -/
  | data (table : TableRef) (messages : Nat)
  /-- A cursor is declared over a table. -/
  | cursor (table : TableRef)
  /-- A procedure is called. -/
  | call
  /-- A query over a table inside an expression. -/
  | hoisted (table : TableRef)
  /-- A cursor over a table is opened. -/
  | rows (table : TableRef)
  /-- A method of an iterator is used. -/
  | step (iterator method : String)
  deriving DecidableEq, Repr

/-- How the backend of a table is reached. -/
def Config.tableEvents (config : Config) (table : TableRef) (messages : Nat) : List Event :=
  (config.backendOf (some table)).1.events config (config.clientOf table) messages

namespace Contact

/-- The events of a contact. -/
def events (config : Config) : Contact → List Event
  | .data table messages => config.tableEvents table messages
  | .cursor _ => []
  | .call => config.backend.events config config.execClient 1
  | .hoisted table => config.tableEvents table 1
  | .rows table =>
    (if (config.backendOf (some table)).1 = .sql then [.stream] else []) ++
      config.tableEvents table 1
  | .step iterator method => [.iterate iterator method]

/-- The table for which a contact makes the choice of a backend. -/
def table? : Contact → Option TableRef
  | .data table _ | .cursor table | .hoisted table => some table
  | _ => none

/-- The warnings that come with a contact: one for a table that lives for one call only, if the
backend for such tables is not the usual one. -/
def forcings (config : Config) (contact : Contact) : List String :=
  match contact.table? with
  | some table =>
    if table.isTransient ∧ config.fallback ≠ config.backend then [forcing table] else []
  | none => []

/-- Whether a contact is that of a statement. -/
def isStatement : Contact → Bool
  | .data _ _ | .cursor _ | .call => true
  | _ => false

/-- Whether a contact is that of a query inside an expression. -/
def isHoisted : Contact → Bool
  | .hoisted _ => true
  | _ => false

/-- Whether a contact is one with the rows of a cursor. -/
def isIteration : Contact → Bool
  | .rows _ | .step _ _ => true
  | _ => false

/-- The contacts that were named have been made: those of statements all, and those of queries
inside expressions at most once each. -/
structure Fulfils (made named : List Contact) : Prop where
  statements : (made.filter (·.isStatement)).Perm (named.filter (·.isStatement))
  queries : (made.filter (·.isHoisted)).Subperm (named.filter (·.isHoisted))

namespace Fulfils

variable {made named made' named' : List Contact}

theorem of_perm (h : made.Perm named) : Fulfils made named :=
  ⟨h.filter _, (h.filter _).subperm⟩

theorem refl (made : List Contact) : Fulfils made made :=
  of_perm (.refl _)

theorem trans (h : Fulfils made named) (h' : Fulfils named named') : Fulfils made named' :=
  ⟨h.statements.trans h'.statements, h.queries.trans h'.queries⟩

theorem append (h : Fulfils made named) (h' : Fulfils made' named') :
    Fulfils (made ++ made') (named ++ named') := by
  refine ⟨?_, ?_⟩
  · simpa only [List.filter_append] using h.statements.append h'.statements
  · simpa only [List.filter_append] using h.queries.append h'.queries

/-- Contacts with the rows of cursors are not named. -/
theorem of_iterations (h : ∀ contact ∈ made, contact.isIteration = true) : Fulfils made [] := by
  have hfilter {p : Contact → Bool} (hp : ∀ contact : Contact, contact.isIteration = true →
      p contact = false) : made.filter p = [] :=
    List.filter_eq_nil_iff.mpr fun contact hcontact => by simp [hp contact (h contact hcontact)]
  refine ⟨?_, ?_⟩
  · rw [hfilter fun contact hcontact => by cases contact <;> simp_all [isIteration, isStatement]]
    rfl
  · rw [hfilter fun contact hcontact => by cases contact <;> simp_all [isIteration, isHoisted]]
    exact List.nil_subperm

end Fulfils

end Contact

/-- The uses of cursors that may be made, and the cursors, by their names in small letters, whose
iterators may be used. -/
structure Charter where
  allows : Contact → Prop
  serves : String → Prop
  plain {contact : Contact} : contact.isIteration = false → allows contact
  steps {key : String} : serves key → ∀ iterator method, allows (.step iterator method)

namespace Charter

variable (L : Charter)

/-- What is known about a cursor: its query is over a table, whose backend it is read from, and it
may be opened if it may be used. -/
structure Sited (config : Config) (key : String) (cursor : Cursor) : Prop where
  source : ∃ table, cursor.query.source = some table ∧
    cursor.backend = (config.backendOf (some table)).1 ∧ (L.serves key → L.allows (.rows table))
  remote : cursor.backend ≠ .rpc

/-- The same for all cursors. -/
def Sites (config : Config) (cursors : CursorTable) : Prop :=
  ∀ entry ∈ cursors, L.Sited config entry.1 entry.2

/-- The account of a step: what it has written and what is owed are the events that were due and
those of the contacts it has made. -/
structure Delivered (config : Config) (due owed : List Event) (contacts : List Contact)
    (before after : Progress) : Prop where
  sites : L.Sites config after.cursors
  made : ∃ (made : List Contact) (added : List Stmt), after.output = before.output ++ added ∧
    listEvents added ++ owed = due ++ made.flatMap (·.events config) ∧
    forcings after.warnings = forcings before.warnings ++ made.flatMap (·.forcings config) ∧
    (∀ contact ∈ made, L.allows contact) ∧ Contact.Fulfils made contacts

variable {L} {config : Config} {due owed left : List Event} {contacts more : List Contact}
  {before middle after : Progress}

/-- A step that makes no contact. -/
theorem Delivered.of_silent {added : List Stmt} (hsites : L.Sites config after.cursors)
    (houtput : after.output = before.output ++ added) (hevents : listEvents added ++ owed = due)
    (hforcings : forcings after.warnings = forcings before.warnings) :
    L.Delivered config due owed [] before after :=
  ⟨hsites, [], added, houtput, by simp [hevents], by simp [hforcings], nofun, .refl _⟩

theorem Delivered.trans (h : L.Delivered config due owed contacts before middle)
    (h' : L.Delivered config owed left more middle after) :
    L.Delivered config due left (contacts ++ more) before after := by
  obtain ⟨-, made, added, houtput, hevents, hforcings, hallows, hcontacts⟩ := h
  obtain ⟨hsites, made', added', houtput', hevents', hforcings', hallows', hcontacts'⟩ := h'
  refine ⟨hsites, made ++ made', added ++ added', ?_, ?_, ?_, ?_, hcontacts.append hcontacts'⟩
  · rw [houtput', houtput, List.append_assoc]
  · rw [listEvents_append, List.append_assoc, hevents', ← List.append_assoc, hevents,
      List.flatMap_append, List.append_assoc]
  · rw [hforcings', hforcings, List.flatMap_append, List.append_assoc]
  · exact List.forall_mem_append.mpr ⟨hallows, hallows'⟩

/-- The contacts may be named in another way. -/
theorem Delivered.fulfils (h : L.Delivered config due owed contacts before after)
    (hcontacts : Contact.Fulfils contacts more) :
    L.Delivered config due owed more before after := by
  obtain ⟨hsites, made, added, houtput, hevents, hforcings, hallows, hmade⟩ := h
  exact ⟨hsites, made, added, houtput, hevents, hforcings, hallows, hmade.trans hcontacts⟩

end Charter

namespace Lower

variable {α β : Type} {L : Charter} {c : Context} {due owed rest : List Event}
  {contacts more : List Contact}

/-! ## Accounts -/

/-- A step, taken where some events are due, makes contacts, those of statements among them as
given, and what is owed behind it is as `Q` says. -/
def Carries (step : Lower α) (L : Charter) (c : Context) (due : List Event)
    (contacts : List Contact) (Q : α → List Event → Prop) : Prop :=
  ∀ ⦃before value after⦄, step.Runs c before value after → L.Sites c.config before.cursors →
    ∃ owed, Q value owed ∧ L.Delivered c.config due owed contacts before after

/-- Behind the step, nothing is owed. -/
def Delivers (step : Lower α) (L : Charter) (c : Context) (due : List Event)
    (contacts : List Contact) : Prop :=
  step.Carries L c due contacts fun _ owed => owed = []

variable {P : α → Prop} {Q : α → List Event → Prop} {R : β → List Event → Prop}

theorem Carries.mono {step : Lower α} {Q' : α → List Event → Prop}
    (h : step.Carries L c due contacts Q) (hQ : ∀ value owed, Q value owed → Q' value owed) :
    step.Carries L c due contacts Q' := by
  intro before value after hruns hsites
  obtain ⟨owed, hvalue, hdelivered⟩ := h hruns hsites
  exact ⟨owed, hQ value owed hvalue, hdelivered⟩

theorem Carries.fulfils {step : Lower α} (h : step.Carries L c due contacts Q)
    (hcontacts : Contact.Fulfils contacts more) : step.Carries L c due more Q := by
  intro before value after hruns hsites
  obtain ⟨owed, hvalue, hdelivered⟩ := h hruns hsites
  exact ⟨owed, hvalue, hdelivered.fulfils hcontacts⟩

/-- Code is written where its events are due. -/
theorem Sends.settles {step : Lower α} (h : step.Sends c due P)
    (hQ : ∀ value, P value → Q value rest) : step.Carries L c (due ++ rest) [] Q := by
  intro before value after hruns hsites
  obtain ⟨hcursors, hforcings, hP, added, houtput, hevents⟩ := h hruns
  exact ⟨rest, hQ value hP, .of_silent (hcursors ▸ hsites) houtput (by rw [hevents]) hforcings⟩

/-- Code without events. -/
theorem Sends.carries {step : Lower α} (h : step.Sends c [] P)
    (hQ : ∀ value, P value → Q value due) : step.Carries L c due [] Q :=
  h.settles hQ

theorem Sends.delivers {step : Lower α} (h : step.Sends c due P) : step.Delivers L c due [] := by
  have hsettles : step.Carries L c (due ++ []) [] fun _ owed => owed = [] :=
    h.settles fun _ _ => rfl
  rwa [List.append_nil] at hsettles

theorem carries_pure {value : α} (h : Q value due) : (pure value : Lower α).Carries L c due [] Q :=
  (sends_pure (P := fun value => Q value due) h).carries fun _ => id

/-- What the first step owes is due where the second one is taken. -/
theorem carries_bind {step : Lower α} {next : α → Lower β} (h : step.Carries L c due contacts Q)
    (hnext : ∀ value owed, Q value owed → (next value).Carries L c owed more R) :
    (step >>= next).Carries L c due (contacts ++ more) R := by
  intro before value after hruns hsites
  obtain ⟨first, middle, hfirst, hrest⟩ := runs_bind.mp hruns
  obtain ⟨owed, hQ, hdelivered⟩ := h hfirst hsites
  obtain ⟨left, hR, hdelivered'⟩ := hnext first owed hQ hrest hdelivered.sites
  exact ⟨left, hR, hdelivered.trans hdelivered'⟩

/-- A first step without contacts of statements. -/
theorem carries_first_bind {step : Lower α} {next : α → Lower β} (h : step.Carries L c due [] Q)
    (hnext : ∀ value owed, Q value owed → (next value).Carries L c owed contacts R) :
    (step >>= next).Carries L c due contacts R :=
  carries_bind h hnext

/-- A last step without contacts of statements. -/
theorem carries_bind_last {step : Lower α} {next : α → Lower β}
    (h : step.Carries L c due contacts Q)
    (hnext : ∀ value owed, Q value owed → (next value).Carries L c owed [] R) :
    (step >>= next).Carries L c due contacts R :=
  List.append_nil contacts ▸ carries_bind h hnext

theorem carries_sends_bind {step : Lower α} {next : α → Lower β} (h : step.Sends c [] P)
    (hnext : ∀ value, P value → (next value).Carries L c due contacts R) :
    (step >>= next).Carries L c due contacts R :=
  carries_first_bind (h.carries (Q := fun value owed => owed = due ∧ P value) fun _ hP => ⟨rfl, hP⟩)
    fun value _ hvalue => hvalue.1 ▸ hnext value hvalue.2

/-- A step that has delivered everything, with one behind it that does so as well. -/
theorem delivers_bind {step : Lower α} {next : α → Lower β} (h : step.Delivers L c due contacts)
    (hnext : ∀ value, (next value).Delivers L c [] more) :
    (step >>= next).Delivers L c due (contacts ++ more) :=
  carries_bind h fun value owed howed => by
    subst howed
    exact hnext value

theorem delivers_first_bind {step : Lower α} {next : α → Lower β} (h : step.Delivers L c due [])
    (hnext : ∀ value, (next value).Delivers L c [] contacts) :
    (step >>= next).Delivers L c due contacts :=
  delivers_bind h hnext

theorem carries_read_bind {next : Context → Lower α} (h : (next c).Carries L c due contacts Q) :
    (read >>= next).Carries L c due contacts Q := by
  intro before value after hruns
  obtain ⟨_, _, hread, hnext⟩ := runs_bind.mp hruns
  obtain ⟨rfl, rfl⟩ := runs_read.mp hread
  exact h hnext

theorem carries_get_bind {next : Progress → Lower α}
    (h : ∀ p, (next p).Carries L c due contacts Q) : (get >>= next).Carries L c due contacts Q := by
  intro before value after hruns
  obtain ⟨_, _, hget, hnext⟩ := runs_bind.mp hruns
  obtain ⟨rfl, rfl⟩ := runs_get.mp hget
  exact h _ hnext

theorem carries_of_not_runs {step : Lower α}
    (h : ∀ {before value after}, ¬step.Runs c before value after) :
    step.Carries L c due contacts Q :=
  fun _ _ _ hruns => absurd hruns h

theorem carries_unsupported {construct detail : String} :
    (unsupported construct detail : Lower α).Carries L c due contacts Q :=
  carries_of_not_runs not_runs_unsupported

theorem carries_unsupported_bind {construct detail : String} {next : β → Lower α} :
    (unsupported construct detail >>= next).Carries L c due contacts Q := by
  refine carries_of_not_runs fun hruns => ?_
  obtain ⟨_, _, hfailure, -⟩ := runs_bind.mp hruns
  exact not_runs_unsupported hfailure

theorem carries_fail {fault : Fault} : (fail fault : Lower α).Carries L c due contacts Q :=
  carries_of_not_runs not_runs_fail

/-- What stands behind a failure is never done. -/
theorem carries_when {test : Prop} [Decidable test] {stop : Lower β} {next : Lower α}
    (hstop : ∀ {before value after}, ¬stop.Runs c before value after)
    (h : next.Carries L c due contacts Q) :
    (if test then stop >>= fun _ => next else next).Carries L c due contacts Q := by
  split
  · refine carries_of_not_runs fun hruns => ?_
    obtain ⟨_, _, hfailure, -⟩ := runs_bind.mp hruns
    exact hstop hfailure
  · exact h

theorem carries_within {change : Context → Context} {step : Lower α}
    (hconfig : (change c).config = c.config) (h : step.Carries L (change c) due contacts Q) :
    (within change step).Carries L c due contacts Q := by
  intro before value after hruns
  have hinner := h (runs_within.mp hruns)
  rwa [hconfig] at hinner

theorem carries_located {step : Lower α} (h : step.Carries L c due contacts Q) :
    (located step).Carries L c due contacts Q :=
  fun _ _ _ hruns => h (runs_located.mp hruns)

/-- A block owes the events of its statements, behind what was due before. -/
theorem carries_block {step : Lower Unit} (h : step.Delivers L c [] contacts) (rest : List Event) :
    (block step).Carries L c rest contacts fun body owed => owed = rest ++ listEvents body := by
  intro before body after hruns hsites
  obtain ⟨inner, hinner, rfl, rfl⟩ := runs_block.mp hruns
  obtain ⟨_, rfl, hafter, made, added, houtput, hevents, hforcings, hmade⟩ := h hinner hsites
  obtain rfl : inner.output = added := houtput
  refine ⟨_, rfl, hafter, made, [], (List.append_nil _).symm, ?_, hforcings, hmade⟩
  rw [List.append_nil, List.nil_append] at hevents
  rw [hevents, listEvents, List.nil_append]

/-- A conditional whose test has no events, and what is done under it. -/
theorem delivers_emitIf {init : Option Go.Assign} {test : Go.Expr} {step : Lower Unit}
    (hinit : initEvents init = []) (htest : test.events = []) (h : step.Delivers L c [] contacts) :
    (emitIf init test step).Delivers L c [] contacts := by
  refine carries_bind_last (carries_block h []) fun body owed howed => (sends_emit ?_).delivers
  simp [hinit, htest, howed]

/-! ## Contacts -/

/-- Contacts that make no choice of a backend are made together, and their events are due. -/
theorem carries_making {step : Lower α} (made : List Contact) {events : List Event}
    {named : List Contact} (hevents : made.flatMap (·.events c.config) = events)
    (hforcings : made.flatMap (·.forcings c.config) = []) (hnamed : Contact.Fulfils made named)
    (hallows : ∀ contact ∈ made, L.allows contact)
    (h : step.Carries L c (due ++ events) contacts Q) :
    step.Carries L c due (named ++ contacts) Q := by
  intro before value after hruns hsites
  obtain ⟨owed, hvalue, hafter, later, added, houtput, hlisted, hwarnings, hlater, hcontacts⟩ :=
    h hruns hsites
  refine ⟨owed, hvalue, hafter, made ++ later, added, houtput, ?_, ?_, ?_, hnamed.append hcontacts⟩
  · rw [hlisted, List.flatMap_append, hevents, List.append_assoc]
  · rw [hwarnings, List.flatMap_append, hforcings, List.nil_append]
  · exact List.forall_mem_append.mpr ⟨hallows, hlater⟩

/-- Uses of an iterator are contacts. -/
theorem carries_using {step : Lower α} {iterator : String} (methods : List String)
    (hallows : ∀ method, L.allows (.step iterator method))
    (h : step.Carries L c (due ++ methods.map (.iterate iterator)) contacts Q) :
    step.Carries L c due contacts Q := by
  have hnamed : Contact.Fulfils (methods.map (Contact.step iterator)) [] :=
    .of_iterations (by simp [Contact.isIteration])
  have hevents : (methods.map (Contact.step iterator)).flatMap (·.events c.config) =
      methods.map (.iterate iterator) := by
    simp only [List.flatMap_map, Contact.events]
    exact List.map_eq_flatMap.symm
  have hforcings : (methods.map (Contact.step iterator)).flatMap (·.forcings c.config) = [] := by
    simp [List.flatMap_map, Contact.forcings, Contact.table?]
  exact carries_making _ hevents hforcings hnamed (by simpa using fun method _ => hallows method) h

/-- A contact is made, and its events are due from then on. -/
theorem carries_backendFor {table : TableRef} (contact : Contact)
    (hcontact : contact.table? = some table) :
    (backendFor table).Carries L c [] [contact] fun backend owed =>
      backend = (c.config.backendOf (some table)).1 ∧ owed = contact.events c.config := by
  intro before backend after hruns hsites
  obtain ⟨hbackend, hannotated, hforcings⟩ := runs_backendFor hruns
  refine ⟨_, ⟨hbackend, rfl⟩, hannotated.cursors ▸ hsites, [contact], [], ?_, ?_, ?_, ?_, .refl _⟩
  · rw [hannotated.output, List.append_nil]
  · simp
  · rw [hforcings, List.flatMap_singleton, Contact.forcings, hcontact]
    by_cases htransient : table.isTransient = true <;> simp [Config.backendOf, htransient]
  · refine List.forall_mem_singleton.mpr (L.plain ?_)
    cases contact with
    | call | rows _ | step _ _ => cases hcontact
    | _ => rfl

/-- The backend of a table is chosen, and the code for it follows. -/
theorem delivers_backendFor_bind {table : TableRef} (contact : Contact) {messages : Nat}
    {next : Backend → Lower α} (hcontact : contact.table? = some table)
    (hevents : contact.events c.config = c.config.tableEvents table messages)
    (h : ∀ backend, (next backend).Sends c
      (backend.events c.config (c.config.clientOf table) messages) fun _ => True) :
    (backendFor table >>= next).Delivers L c [] [contact] := by
  refine carries_bind_last (carries_backendFor contact hcontact) fun backend owed howed => ?_
  have hsends : (next backend).Delivers L c owed [] := by
    rw [howed.2, hevents, Config.tableEvents, ← howed.1]
    exact (h backend).delivers
  exact hsends

/-! ## Queries inside expressions -/

/-- A query for a single value, which is only possible on the database. -/
theorem delivers_hoistScalar (query : Select) (table : TableRef) (hint : Option GoType) :
    (hoistScalar query table hint).Delivers L c [] [.hoisted table] := by
  refine delivers_backendFor_bind (.hoisted table) rfl rfl fun backend => ?_
  have hquery {type : GoType} : (do
      importType type
      let target ← fresh "scalar"
      emit (.declare target (.value type) none)
      let rendered ← renderQuery fun dialect resolver => Query.ofSelect dialect resolver query
      emitScan rendered [target] false
      return .ofType (.name target) type : Lower Value).Sends c [.query] fun _ => True := by
    refine sends_first_bind (sends_computed (hasEffect_importType _)) fun _ _ => ?_
    refine sends_first_bind (sends_fresh _) fun target _ => ?_
    refine sends_first_bind (sends_emit rfl) fun _ _ => ?_
    refine sends_first_bind (sends_renderQuery (.select query)) fun rendered hargs => ?_
    exact sends_bind_last (sends_emitScan hargs _ _) fun _ _ => sends_pure trivial
  cases backend with
  | sql =>
    rw [if_neg (by simp)]
    split
    · exact sends_of_not_runs not_runs_unsupported
    · exact hquery
  | mock | rpc =>
    rw [if_pos (by simp)]
    refine sends_of_not_runs fun hruns => ?_
    obtain ⟨_, _, hfailure, -⟩ := runs_bind.mp hruns
    exact not_runs_unsupported hfailure

/-- The test whether a query has rows. -/
theorem delivers_hoistExists (query : Select) :
    (hoistExists query).Delivers L c [] (query.source.map .hoisted).toList := by
  unfold hoistExists
  split
  next hsource =>
    rw [hsource]
    exact (sends_pure (P := fun _ => True) trivial).delivers
  next table hsource =>
    rw [hsource]
    refine carries_sends_bind (sends_fresh _) fun target _ => ?_
    refine carries_sends_bind (sends_emit rfl) fun _ _ => ?_
    refine delivers_backendFor_bind (.hoisted table) rfl rfl fun backend => ?_
    cases backend with
    | sql =>
      refine sends_first_bind (sends_renderQuery (.probe query)) fun probe hargs => ?_
      refine sends_first_bind sends_handle fun owner howner => ?_
      obtain ⟨id, rfl⟩ := howner
      exact sends_bind_last (sends_emitGuarded (events_scan id hargs [target])) fun _ _ =>
        sends_pure trivial
    | mock | rpc =>
      exact sends_bind_last (sends_requestExists (by decide) query table target) fun _ _ =>
        sends_pure trivial

end Lower

end Sproc
