import Sproc.Ast.Build
import Sproc.Proofs.Go.Message
import Sproc.Proofs.Lower.Extraction
import Sproc.Proofs.Lower.Scheme

/-!
# Requests carry statements

A data statement that goes to a service or to the store becomes one message, or one for each row of
an insertion. Each part of the statement is carried by a field of its message, or a warning says that
it is not, so nothing is lost without a word: the fields of a request and the warnings about it are
together as many as the parts of the statement. Calls, checks and the reading of a response build no
further messages and give no such warnings.

## Main definitions

* `Lower.Posts`: a step writes code with the given messages
* `Statement.requestParts`: the parts that each request of a statement is to carry
* `Lower.Request`, `Lower.Carried`: a request that carries its parts

## Main results

* `posts_emitCall`, `posts_emitCallWith`: calls with one message
* `Statement.requests_carry_parts`: the requests of a statement
-/

namespace Sproc

open Go

namespace Lower

variable {α β : Type} {c : Context}

/-! ## Code and its messages -/

/-- A step writes code with the given messages, gives no warning about parts that are left out, and
its result is as `P` says. -/
def Posts (step : Lower α) (c : Context) (messages : List MessageFields) (P : α → Prop) : Prop :=
  ∀ ⦃before value after⦄, step.Runs c before value after →
    skips after.warnings = skips before.warnings ∧ P value ∧
      ∃ added, after.output = before.output ++ added ∧ listMessages added = messages

section Posts

variable {P : α → Prop} {Q : β → Prop} {messages : List MessageFields}

theorem posts_pure {value : α} (h : P value) : (pure value : Lower α).Posts c [] P := by
  intro before value' after hruns
  obtain ⟨rfl, rfl⟩ := runs_pure.mp hruns
  exact ⟨rfl, h, [], (List.append_nil _).symm, rfl⟩

/-- A first step without messages. -/
theorem posts_first_bind {step : Lower α} {next : α → Lower β} (h : step.Posts c [] P)
    (hnext : ∀ value, P value → (next value).Posts c messages Q) :
    (step >>= next).Posts c messages Q := by
  intro before value after hruns
  obtain ⟨first, middle, hfirst, hrest⟩ := runs_bind.mp hruns
  obtain ⟨hskips, hP, added, houtput, hnone⟩ := h hfirst
  obtain ⟨hskips', hQ, more, hmore, hmessages⟩ := hnext first hP hrest
  refine ⟨hskips'.trans hskips, hQ, added ++ more, by rw [hmore, houtput, List.append_assoc], ?_⟩
  rw [listMessages_append, hnone, List.nil_append, hmessages]

/-- A last step without messages. -/
theorem posts_bind_last {step : Lower α} {next : α → Lower β} (h : step.Posts c messages P)
    (hnext : ∀ value, P value → (next value).Posts c [] Q) :
    (step >>= next).Posts c messages Q := by
  intro before value after hruns
  obtain ⟨first, middle, hfirst, hrest⟩ := runs_bind.mp hruns
  obtain ⟨hskips, hP, added, houtput, hmessages⟩ := h hfirst
  obtain ⟨hskips', hQ, more, hmore, hnone⟩ := hnext first hP hrest
  refine ⟨hskips'.trans hskips, hQ, added ++ more, by rw [hmore, houtput, List.append_assoc], ?_⟩
  rw [listMessages_append, hmessages, hnone, List.append_nil]

/-- What is done with the context is done with the one at hand. -/
theorem posts_read_bind {next : Context → Lower α} (h : (next c).Posts c messages P) :
    (read >>= next).Posts c messages P := by
  intro before value after hruns
  obtain ⟨_, _, hread, hnext⟩ := runs_bind.mp hruns
  obtain ⟨rfl, rfl⟩ := runs_read.mp hread
  exact h hnext

theorem posts_get_bind {next : Progress → Lower α} (h : ∀ p, (next p).Posts c messages P) :
    (get >>= next).Posts c messages P := by
  intro before value after hruns
  obtain ⟨_, _, hget, hnext⟩ := runs_bind.mp hruns
  obtain ⟨rfl, rfl⟩ := runs_get.mp hget
  exact h _ hnext

/-- A change that concerns neither what is written nor the warnings. -/
theorem posts_modify {change : Progress → Progress} (houtput : ∀ p, (change p).output = p.output)
    (hwarnings : ∀ p, (change p).warnings = p.warnings) :
    (modify change : Lower PUnit).Posts c [] fun _ => True := by
  intro before value after hruns
  obtain rfl := runs_modify.mp hruns
  exact ⟨by rw [hwarnings], trivial, [], by rw [houtput, List.append_nil], rfl⟩

theorem posts_emit {s : Stmt} (h : s.messages = messages) :
    (emit s).Posts c messages fun _ => True := by
  intro before value after hruns
  obtain rfl := runs_emit.mp hruns
  exact ⟨rfl, trivial, [s], rfl, by simp [h]⟩

/-- A block is not written yet. -/
theorem posts_block {step : Lower Unit} (h : step.Posts c messages fun _ => True) :
    (block step).Posts c [] fun body => listMessages body = messages := by
  intro before body after hruns
  obtain ⟨inner, hinner, rfl, rfl⟩ := runs_block.mp hruns
  obtain ⟨hskips, -, added, houtput, hmessages⟩ := h hinner
  obtain rfl : inner.output = added := houtput
  exact ⟨hskips, hmessages, [], (List.append_nil _).symm, rfl⟩

end Posts

/-! ## Ways out -/

variable {messages : List MessageFields}

theorem posts_importSpec (spec : String) : (importSpec spec).Posts c [] fun _ => True :=
  posts_modify (fun _ => rfl) fun _ => rfl

theorem posts_emitIf {init : Option Go.Assign} {test : Go.Expr} {step : Lower Unit}
    (htest : test.messages = []) (h : step.Posts c [] fun _ => True) :
    (emitIf init test step).Posts c (initMessages init) fun _ => True :=
  posts_first_bind (posts_block h) fun body hbody => posts_emit (by simp [htest, hbody])

theorem posts_resultValues {status error : Go.Expr} (hstatus : status.messages = [])
    (herror : error.messages = []) :
    (resultValues status error).Posts c [] fun values => exprMessages values = [] := by
  refine posts_read_bind (posts_get_bind fun p => posts_pure (exprMessages_eq_nil ?_))
  intro e he
  simp only [List.mem_append, List.mem_filterMap, List.mem_ite_nil_right, List.mem_singleton] at he
  rcases he with (⟨_, _, he⟩ | ⟨_, rfl⟩) | ⟨_, rfl⟩
  · obtain ⟨symbol, -, rfl⟩ := Option.map_eq_some_iff.mp he
    rfl
  · exact hstatus
  · exact herror

theorem posts_emitAcknowledge : emitAcknowledge.Posts c [] fun _ => True := by
  refine posts_read_bind ?_
  dsimp only
  split
  · exact posts_first_bind (posts_importSpec _) fun _ _ => posts_emit rfl
  · exact posts_first_bind (posts_importSpec _) fun _ _ => posts_emit rfl

theorem posts_errorExit : errorExit.Posts c [] fun _ => True := by
  refine posts_read_bind ?_
  cases c.exitScope with
  | body => exact posts_first_bind (posts_resultValues rfl rfl) fun _ hvalues => posts_emit hvalues
  | tryHalf => exact posts_emit rfl
  | catchHalf => exact posts_first_bind posts_emitAcknowledge fun _ _ => posts_emit rfl

theorem posts_emitGuarded {init : Go.Assign} (h : init.messages = messages) :
    (emitGuarded init).Posts c messages fun _ => True := by
  have hguard : (emitGuarded init).Posts c (initMessages (some init)) fun _ => True :=
    posts_emitIf rfl posts_errorExit
  rwa [initMessages, h] at hguard

theorem posts_emitChecked {success : Lower Unit} (h : success.Posts c [] fun _ => True) :
    (emitChecked success).Posts c [] fun _ => True := by
  refine posts_first_bind (posts_block posts_errorExit) fun failure hfailure => posts_read_bind ?_
  split
  · exact posts_first_bind (posts_block h) fun rest hrest =>
      posts_emit (by simp [failed, err, hfailure, hrest])
  · exact posts_first_bind (posts_emit (by simp [failed, err, hfailure])) fun _ _ => h

/-! ## Calls -/

theorem posts_bindLocal (name : String) (type : Go.TypeExpr) :
    (bindLocal name type).Posts c [] fun _ => True := by
  intro before define after hruns
  obtain ⟨-, -, rfl⟩ | ⟨-, -, -, rfl⟩ | ⟨-, -, rfl⟩ := runs_bindLocal hruns
  · exact ⟨rfl, trivial, [], (List.append_nil _).symm, rfl⟩
  · exact ⟨rfl, trivial, [], (List.append_nil _).symm, rfl⟩
  · exact ⟨rfl, trivial, [_], rfl, rfl⟩

theorem posts_mockPackage : mockPackage.Posts c [] fun _ => True :=
  posts_read_bind (posts_first_bind (posts_importSpec _) fun _ _ => posts_pure trivial)

theorem posts_rpcPackage : rpcPackage.Posts c [] fun _ => True :=
  posts_read_bind (posts_first_bind (posts_importSpec _) fun _ _ => posts_pure trivial)

theorem posts_remoteCall (backend : Backend) (client : ClientRef) (method : String)
    (fields : Fields) :
    (remoteCall backend client method fields).Posts c [] fun call => call.1.messages = [fields] := by
  unfold remoteCall
  split
  · exact posts_first_bind posts_mockPackage fun _ _ => posts_pure rfl
  · exact posts_first_bind posts_rpcPackage fun _ _ => posts_pure rfl

theorem posts_runtimeCall {function : String} {args : List Go.Expr} (h : exprMessages args = []) :
    (runtimeCall function args).Posts c [] fun call => call.messages = [] := by
  refine posts_first_bind (posts_read_bind (posts_importSpec _)) fun _ _ => posts_pure ?_
  simp [Go.Expr.runtime, Go.Expr.invoke, h]

theorem posts_emitOneRow : emitOneRow.Posts c [] fun _ => True :=
  posts_emit rfl

theorem posts_emitReads (id : String) (reads : Reads) :
    (emitReads (.name id) reads).Posts c [] fun _ => True := by
  induction reads with
  | nil => exact posts_pure trivial
  | cons read rest ih => exact posts_first_bind (posts_emit rfl) fun _ _ => ih

theorem posts_emitCall (backend : Backend) (client : ClientRef) (method : String)
    (fields : Fields) : (emitCall backend client method fields).Posts c [fields] fun _ => True := by
  refine posts_first_bind (posts_remoteCall ..) fun call hcall => posts_read_bind ?_
  have hinit : (assignTo [.name "_", err] call.1).messages = [fields] := by
    simp [assignTo, err, hcall]
  split
  · exact posts_bind_last (posts_emit hinit) fun _ _ => posts_emitChecked posts_emitOneRow
  · exact posts_emitGuarded hinit

theorem posts_emitCallWith (backend : Backend) (client : ClientRef) (method : String)
    (fields : Fields) {onResponse : Go.Expr → Lower Unit}
    (h : ∀ id, (onResponse (.name id)).Posts c [] fun _ => True) :
    (emitCallWith backend client method fields onResponse).Posts c [fields] fun _ => True := by
  refine posts_first_bind (posts_remoteCall ..) fun call hcall => ?_
  refine posts_first_bind (P := fun _ => True) (posts_get_bind fun _ => posts_pure trivial)
    fun response _ => ?_
  refine posts_first_bind (posts_bindLocal _ _) fun define _ => ?_
  refine posts_bind_last (posts_emit ?_) fun _ _ => posts_emitChecked (h response)
  simp [err, hcall]

/-- Calls declare no variables of the procedure. -/
theorem symbols_emitCall {backend : Backend} {client : ClientRef} {method : String} {fields : Fields}
    {before after : Progress} (h : (emitCall backend client method fields).Runs c before () after) :
    after.symbols = before.symbols :=
  ((Scheme.permissive_keeping (· = before.symbols) c).regular.call _ _ _ _ h rfl).1

/-! ## Requests -/

/-- A request: its fields, and the notes about what it leaves out. -/
structure Request where
  fields : Fields
  notes : List String

/-- How many parts a request accounts for. -/
def Request.size (request : Request) : Nat :=
  request.fields.length + request.notes.length

/-- A request carries the parts of a statement. Each part in its turn fills a field or is left out
with a note, so that fields and notes are together as many as the parts. The fields have distinct
names: those that the parts ask for in their order, each at its first occurrence, and with the value
of the part that asks for it first. -/
structure Carried (c : Context) (symbols : SymbolTable) (parts : List Part) (request : Request) :
    Prop where
  extracts : Extracts c symbols [] parts request.fields request.notes
  size_eq : request.size = parts.length
  nodup : (request.fields.map (·.1)).Nodup
  names_eq : request.fields.map (·.1) = (parts.filterMap Part.field?).eraseDups
  first {front back : List Part} {part : Part} {name : String} : parts = front ++ part :: back →
    part.field? = some name → (∀ earlier ∈ front, earlier.field? ≠ some name) →
    ∃ code, part.HasCode c symbols code ∧ (name, code) ∈ request.fields

theorem Extracts.carried {symbols : SymbolTable} {parts : List Part} {fields : Fields}
    {notes : List String} (h : Extracts c symbols [] parts fields notes) :
    Carried c symbols parts ⟨fields, notes⟩ where
  extracts := h
  size_eq := by simpa [Request.size] using h.length_add_length
  nodup := h.nodup_names List.nodup_nil
  names_eq := by simpa using h.names_eq
  first hparts hfield hfront := (hparts ▸ h).first hfield hfront (by simp)

/-- Between two moments of a generation, requests are made that carry the given parts, and beside the
notes about them there are only the notes in front of them and behind them. -/
def Requested (c : Context) (before after : Progress) (parts : List (List Part))
    (front back : List String) : Prop :=
  ∃ added requests, after.output = before.output ++ added ∧
    listMessages added = requests.map Request.fields ∧
    List.Forall₂ (Carried c before.symbols) parts requests ∧
    skips after.warnings =
      skips before.warnings ++ (front ++ requests.flatMap Request.notes ++ back)

variable {before middle after : Progress}

theorem Requested.none (houtput : after.output = before.output)
    (hskips : skips after.warnings = skips before.warnings) : Requested c before after [] [] [] :=
  ⟨[], [], by simp [houtput], rfl, .nil, by simp [hskips]⟩

theorem Requested.append {parts more : List (List Part)}
    (h : Requested c before middle parts [] []) (hsymbols : middle.symbols = before.symbols)
    (h' : Requested c middle after more [] []) : Requested c before after (parts ++ more) [] [] := by
  obtain ⟨added, requests, houtput, hmessages, hcarried, hskips⟩ := h
  obtain ⟨added', requests', houtput', hmessages', hcarried', hskips'⟩ := h'
  rw [hsymbols] at hcarried'
  refine ⟨added ++ added', requests ++ requests', ?_, ?_, List.rel_append hcarried hcarried', ?_⟩
  · rw [houtput', houtput, List.append_assoc]
  · rw [listMessages_append, hmessages, hmessages', List.map_append]
  · simp [hskips', hskips]

/-- What is asked for where nothing has changed but imports and other warnings. -/
theorem Requested.behind {parts : List (List Part)} {front back : List String}
    (h : Requested c middle after parts front back) (hannotated : before.Annotated middle)
    {notes : List String} (hskips : skips middle.warnings = skips before.warnings ++ notes) :
    Requested c before after parts (notes ++ front) back := by
  obtain ⟨added, requests, houtput, hmessages, hcarried, hskips'⟩ := h
  refine ⟨added, requests, by rw [houtput, hannotated.output], hmessages,
    hannotated.symbols ▸ hcarried, ?_⟩
  rw [hskips', hskips]
  simp

/-- A call with the fields that were extracted is the request for their parts. -/
theorem Extracted.requested {α : Type} {call : Lower α} {value : α} {P : α → Prop} {fields : Fields}
    {parts : List Part} {started : Progress} {back : List String}
    (h : Extracted c before middle [] fields parts) (hannotated : before.Annotated started)
    (hskips : skips started.warnings = skips middle.warnings ++ back)
    (hcall : call.Posts c [fields] P) (hruns : call.Runs c started value after) :
    Requested c before after [parts] [] back := by
  obtain ⟨notes, hextracts, hnotes⟩ := h
  obtain ⟨hskips', -, added, houtput, hmessages⟩ := hcall hruns
  refine ⟨added, [⟨fields, notes⟩], by rw [houtput, hannotated.output], hmessages,
    .cons hextracts.carried .nil, ?_⟩
  rw [hskips', hskips, hnotes]
  simp

/-! ## Statements -/

/-- The notes about the joins of a query, which no request can carry. -/
def joinNotes (joins : List Join) : List String :=
  joins.map fun join => s!"JOIN on {join.table.name} cannot be expressed as remote fields"

/-- The note about an item of a select list that assigns something else than a column. -/
def itemNote? (item : SelectItem) : Option String :=
  match item.assignTo, columnName? item.expr with
  | some target, none => some s!"select item too complex for remote field: {target}"
  | _, _ => none

theorem skips_warnJoins {joins : List Join} (h : (warnJoins joins).Runs c before () after) :
    skips after.warnings = skips before.warnings ++ joinNotes joins := by
  induction joins generalizing before with
  | nil =>
    obtain ⟨-, rfl⟩ := runs_pure.mp h
    simp [joinNotes]
  | cons join rest ih =>
    obtain ⟨_, warned, hwarn, hrest⟩ := runs_bind.mp h
    rw [ih hrest, skips_warnSkipped hwarn, List.append_assoc]
    rfl

theorem skips_itemReads {items : List SelectItem} {reads : Reads}
    (h : (itemReads items).Runs c before reads after) :
    skips after.warnings = skips before.warnings ++ items.filterMap itemNote? := by
  induction items generalizing before reads with
  | nil =>
    obtain ⟨-, rfl⟩ := runs_pure.mp h
    simp
  | cons item rest ih =>
    obtain ⟨expr, aliasName, target⟩ := item
    cases target with
    | none =>
      rw [List.filterMap_cons_none rfl]
      exact ih h
    | some target =>
      unfold itemReads at h
      obtain ⟨symbol, found, hlookup, hitem⟩ := runs_bind.mp h
      have hfound : found = before := by
        simp only [lookup, runs_bind, runs_get, runs_ofExcept] at hlookup
        grind
      subst hfound
      cases hcolumn : columnName? expr with
      | some column =>
        rw [hcolumn] at hitem
        obtain ⟨others, middle, hrest, hpure⟩ := runs_bind.mp hitem
        obtain ⟨-, rfl⟩ := runs_pure.mp hpure
        rw [List.filterMap_cons_none (by simp [itemNote?, hcolumn])]
        exact ih hrest
      | none =>
        rw [hcolumn] at hitem
        obtain ⟨_, warned, hwarn, hrest⟩ := runs_bind.mp hitem
        rw [ih hrest, skips_warnSkipped hwarn, List.append_assoc,
          List.filterMap_cons_some (by simp [itemNote?, hcolumn]; rfl)]
        rfl

theorem runs_tableMethod {table : TableRef} {kind : DmlKind} {single : Bool}
    {found : ClientRef × String} (h : (tableMethod table kind single).Runs c before found after) :
    after = before := by
  simp only [tableMethod, runs_bind, runs_read, runs_pure] at h
  grind

theorem requested_requestSelect {backend : Backend} {query : Select} {table : TableRef}
    (h : (requestSelect backend query table).Runs c before () after) :
    Requested c before after [filterParts query.filter] (joinNotes query.joins)
      (if query.assignsVariables then query.items.filterMap itemNote? else []) := by
  unfold requestSelect at h
  obtain ⟨_, joined, hjoins, hquery⟩ := runs_bind.mp h
  obtain ⟨⟨client, method⟩, found, hmethod, hquery⟩ := runs_bind.mp hquery
  obtain ⟨fields, filtered, hfilter, hcall⟩ := runs_bind.mp hquery
  rw [runs_tableMethod hmethod] at hfilter
  have hfields := (hasEffect_filterFields query.filter).annotated hfilter
  suffices hrest : Requested c joined after [filterParts query.filter] []
      (if query.assignsVariables then query.items.filterMap itemNote? else []) by
    simpa using hrest.behind ((hasEffect_warnJoins _).annotated hjoins) (skips_warnJoins hjoins)
  split at hcall
  next hassigns =>
    obtain ⟨reads, started, hreads, hcall⟩ := runs_bind.mp hcall
    have hitems := (hasEffect_itemReads query.items).annotated hreads
    have hresponse (id : String) : (do
        emitReads (.name id) reads
        if (← read).survey.tracksRowCount then
          emitOneRow : Lower Unit).Posts c [] fun _ => True := by
      refine posts_first_bind (posts_emitReads id reads) fun _ _ => posts_read_bind ?_
      split
      · exact posts_emitOneRow
      · exact posts_pure trivial
    rw [if_pos hassigns]
    exact (extracted_filterFields hfilter).requested (hfields.trans hitems) (skips_itemReads hreads)
      (posts_emitCallWith _ _ _ _ hresponse) hcall
  next hassigns =>
    have hresponse (id : String) : (do
        emit (.run (← runtimeCall "EmitMessage" [ctx, .name id])) : Lower Unit).Posts c []
          fun _ => True :=
      posts_first_bind (posts_runtimeCall rfl) fun _ hnone => posts_emit hnone
    rw [if_neg hassigns]
    exact (extracted_filterFields hfilter).requested hfields (List.append_nil _).symm
      (posts_emitCallWith _ _ _ _ hresponse) hcall

theorem requested_requestDelete {backend : Backend} {delete : Delete}
    (h : (requestDelete backend delete).Runs c before () after) :
    Requested c before after [filterParts delete.filter] [] [] := by
  obtain ⟨⟨client, method⟩, found, hmethod, hquery⟩ := runs_bind.mp h
  obtain ⟨fields, filtered, hfilter, hcall⟩ := runs_bind.mp hquery
  rw [runs_tableMethod hmethod] at hfilter
  exact (extracted_filterFields hfilter).requested
    ((hasEffect_filterFields delete.filter).annotated hfilter) (List.append_nil _).symm
    (posts_emitCall ..) hcall

theorem requested_requestUpdate {backend : Backend} {update : Update}
    (h : (requestUpdate backend update).Runs c before () after) :
    Requested c before after [filterParts update.filter ++ valueParts "SET"
      (update.assignments.map fun a => (a.column, a.value))] [] [] := by
  obtain ⟨⟨client, method⟩, found, hmethod, hquery⟩ := runs_bind.mp h
  obtain ⟨known, filtered, hfilter, hquery⟩ := runs_bind.mp hquery
  obtain ⟨fields, filled, hadd, hcall⟩ := runs_bind.mp hquery
  rw [runs_tableMethod hmethod] at hfilter
  have hfiltered := (hasEffect_filterFields update.filter).annotated hfilter
  have hfilled := (hasEffect_addFields ..).annotated hadd
  exact ((extracted_filterFields hfilter).trans hfiltered (extracted_addFields hadd)).requested
    (hfiltered.trans hfilled) (List.append_nil _).symm (posts_emitCall ..) hcall

theorem requested_requestRows {backend : Backend} {client : ClientRef} {method : String}
    {columns : List String} {rows : List (List Expr)}
    (h : (requestRows backend client method columns rows).Runs c before () after) :
    Requested c before after (rows.map fun row => valueParts "VALUES" (columns.zip row)) [] [] := by
  induction rows generalizing before with
  | nil =>
    obtain ⟨-, rfl⟩ := runs_pure.mp h
    exact .none rfl rfl
  | cons row rest ih =>
    obtain ⟨fields, filled, hadd, hcalls⟩ := runs_bind.mp h
    obtain ⟨_, called, hcall, hrest⟩ := runs_bind.mp hcalls
    have hfilled := (hasEffect_addFields ..).annotated hadd
    have hfirst : Requested c before called [valueParts "VALUES" (columns.zip row)] [] [] :=
      (extracted_addFields hadd).requested hfilled (List.append_nil _).symm (posts_emitCall ..) hcall
    exact hfirst.append ((symbols_emitCall hcall).trans hfilled.symbols) (ih hrest)

theorem requested_requestInsert {backend : Backend} {insert : Insert}
    (h : (requestInsert backend insert).Runs c before () after) :
    ∃ rows, insert.source = .values rows ∧ Requested c before after
      (rows.map fun row => valueParts "VALUES" (insert.columns.zip row)) [] [] := by
  unfold requestInsert at h
  dsimp only at h
  split at h
  · obtain ⟨_, _, hfail, -⟩ := runs_bind.mp h
    exact absurd hfail not_runs_fail
  · split at h
    · exact absurd h not_runs_fail
    next rows hsource =>
      obtain ⟨⟨client, method⟩, found, hmethod, hrows⟩ := runs_bind.mp h
      obtain rfl := runs_tableMethod hmethod
      exact ⟨rows, hsource, requested_requestRows hrows⟩

theorem runs_lookup {name : String} {symbol : Symbol} (h : (lookup name).Runs c before symbol after) :
    after = before := by
  simp only [lookup, runs_bind, runs_get, runs_ofExcept] at h
  grind

theorem requested_requestExec {backend : Backend} {exec : Exec}
    (h : (requestExec backend exec).Runs c before () after) :
    Requested c before after [argParts 1 exec.args] [] [] := by
  obtain ⟨method, found, hmethod, hargs⟩ := runs_bind.mp h
  obtain ⟨-, rfl⟩ := runs_ofExcept.mp hmethod
  obtain ⟨⟨fields, reads⟩, filled, hfill, hreads⟩ := runs_bind.mp hargs
  have hfilled := (hasEffect_requestArgs ..).annotated hfill
  have hsends {call : Lower Unit} (hcall : call.Posts c [fields] fun _ => True)
      (hruns : call.Runs c filled () after) : Requested c found after [argParts 1 exec.args] [] [] :=
    (extracted_requestArgs hfill).requested hfilled (List.append_nil _).symm hcall hruns
  have hcalls (reads : Reads) : (do
      let client := (← read).config.execClient
      if reads.isEmpty then
        emitCall backend client method fields
      else
        emitCallWith backend client method fields fun response =>
          emitReads response reads : Lower Unit).Posts c [fields] fun _ => True := by
    refine posts_read_bind ?_
    dsimp only
    split
    · exact posts_emitCall ..
    · exact posts_emitCallWith _ _ _ _ fun id => posts_emitReads id reads
  dsimp only at hreads
  split at hreads
  · obtain ⟨symbol, looked, hlookup, hcall⟩ := runs_bind.mp hreads
    rw [runs_lookup hlookup] at hcall
    exact hsends (hcalls _) hcall
  · exact hsends (hcalls _) hreads

end Lower

namespace Statement

open Lower

/-- The parts that each request of a data statement is to carry. An insertion makes a request for
each of its rows, every other statement a single one. An update gives its filter before its
values. -/
def requestParts : Statement → List (List Lower.Part)
  | select query => [filterParts query.filter]
  | insert ⟨_, columns, .values rows⟩ =>
    rows.map fun row => valueParts "VALUES" (columns.zip row)
  | update ⟨_, assignments, filter⟩ =>
    [filterParts filter ++ valueParts "SET" (assignments.map fun a => (a.column, a.value))]
  | delete ⟨_, filter⟩ => [filterParts filter]
  | exec call => [argParts 1 call.args]
  | _ => []

/-- How many conditions, values and arguments there are for each request of a data statement. -/
def requestSizes : Statement → List Nat
  | select query => [((query.filter.map Expr.conjuncts).getD []).length]
  | insert ⟨_, _, .values rows⟩ => rows.map List.length
  | update ⟨_, assignments, filter⟩ =>
    [((filter.map Expr.conjuncts).getD []).length + assignments.length]
  | delete ⟨_, filter⟩ => [((filter.map Expr.conjuncts).getD []).length]
  | exec call => [call.args.length]
  | _ => []

/-- The backend that carries out a data statement. -/
def receiver? (config : Config) : Statement → Option Backend
  | select query => query.source.map fun table => (config.backendOf (some table)).1
  | insert i => some (config.backendOf (some i.table)).1
  | update u => some (config.backendOf (some u.table)).1
  | delete d => some (config.backendOf (some d.table)).1
  | exec _ => some config.backend
  | _ => none

/-- The notes about the joins of a query stand in front of those about its request. -/
def notesInFront : Statement → List String
  | select query => joinNotes query.joins
  | _ => []

/-- The notes about what a query assigns stand behind those about its request. -/
def notesBehind : Statement → List String
  | select query => if query.assignsVariables then query.items.filterMap itemNote? else []
  | _ => []

theorem map_size_eq {c : Context} {symbols : SymbolTable} {parts : List (List Lower.Part)}
    {requests : List Request} (h : List.Forall₂ (Carried c symbols) parts requests) :
    requests.map Request.size = parts.map List.length := by
  induction h with
  | nil => rfl
  | cons hfirst _ ih => rw [List.map_cons, List.map_cons, hfirst.size_eq, ih]

theorem length_argParts (position : Nat) (args : List ExecArg) :
    (argParts position args).length = args.length := by
  induction args generalizing position with
  | nil => rfl
  | cons arg rest ih => rw [argParts, List.length_cons, List.length_cons, ih]

/-- Every condition, value and argument is a part of its request. Of an insertion this is so where
each row has a value for each column. -/
theorem map_length_requestParts {statement : Statement}
    (hrows : ∀ i rows, statement = insert i → i.source = .values rows →
      ∀ row ∈ rows, row.length = i.columns.length) :
    statement.requestParts.map List.length = statement.requestSizes := by
  cases statement with
  | insert i =>
    obtain ⟨table, columns, source⟩ := i
    cases source with
    | query _ => rfl
    | «values» rows =>
      rw [requestParts, requestSizes, List.map_map]
      refine List.map_congr_left fun row hrow => ?_
      have hlength := hrows _ rows rfl rfl row hrow
      simp [valueParts, hlength]
  | exec call => simp [requestParts, requestSizes, length_argParts]
  | select | update | delete => simp [requestParts, requestSizes, filterParts, valueParts]
  | _ => rfl

variable {c : Context} {before after : Progress}

/-- The choice of a backend says nothing about parts that are left out. -/
theorem skips_backendFor {table : TableRef} {backend : Backend}
    (h : (backendFor table).Runs c before backend after) :
    skips after.warnings = skips before.warnings := by
  obtain ⟨c, _, hread, hnext⟩ := runs_bind.mp h
  obtain ⟨rfl, rfl⟩ := runs_read.mp hread
  generalize c.config.backendOf (some table) = choice at hnext
  obtain ⟨chosen, forced⟩ := choice
  cases forced with
  | true =>
    obtain ⟨_, _, hwarn, hpure⟩ := runs_bind.mp hnext
    obtain ⟨-, rfl⟩ := runs_pure.mp hpure
    obtain ⟨-, path, hwarnings⟩ := annotated_warn hwarn
    rw [hwarnings, skips_append, skips_other (by decide), List.append_nil]
  | false =>
    obtain ⟨-, rfl⟩ := runs_pure.mp hnext
    rfl

/-- A statement on a table makes its requests behind the choice of a backend. -/
theorem requested_backendFor {table : TableRef} {next : Backend → Lower Unit}
    {parts : List (List Lower.Part)} {front back : List String} {chosen : Backend}
    (hchosen : (c.config.backendOf (some table)).1 = chosen)
    (hnext : ∀ {started : Progress}, (next chosen).Runs c started () after →
      Requested c started after parts front back)
    (h : (backendFor table >>= next).Runs c before () after) :
    Requested c before after parts front back := by
  obtain ⟨backend, started, hbackend, hrest⟩ := runs_bind.mp h
  obtain ⟨heq, hannotated, -⟩ := runs_backendFor hbackend
  obtain rfl := heq.trans hchosen
  have hskips : skips started.warnings = skips before.warnings ++ [] := by
    rw [skips_backendFor hbackend, List.append_nil]
  exact (hnext hrest).behind hannotated hskips

/-- A step whose own result is not asked for. -/
theorem runs_of_runs_return {α : Type} {step : Lower Unit} {value result : α}
    (h : (do
      step
      return value : Lower α).Runs c before result after) : step.Runs c before () after := by
  obtain ⟨_, _, hstep, hpure⟩ := runs_bind.mp h
  obtain ⟨-, rfl⟩ := runs_pure.mp hpure
  exact hstep

theorem requested_of_runs {statement : Statement} {rest : List Statement}
    {prepared result : Option Fetch} {backend : Backend}
    (hreceiver : statement.receiver? c.config = some backend) (hremote : backend ≠ .sql)
    (h : (lowerStatement rest prepared statement).Runs c before result after) :
    Requested c before after statement.requestParts statement.notesInFront statement.notesBehind := by
  cases statement with
  | select query =>
    rw [lowerStatement] at h
    have hselect := runs_of_runs_return h
    obtain ⟨table, hsource, hbackend⟩ := Option.map_eq_some_iff.mp hreceiver
    unfold lowerSelect at hselect
    rw [hsource] at hselect
    refine requested_backendFor hbackend (fun hrun => ?_) hselect
    cases backend with
    | sql => exact absurd rfl hremote
    | mock | rpc => exact requested_requestSelect hrun
  | insert i =>
    rw [lowerStatement] at h
    refine requested_backendFor (Option.some.inj hreceiver) (fun {started} hrun => ?_)
      (runs_of_runs_return h)
    have hinsert : (requestInsert backend i).Runs c started () after := by
      cases backend with
      | sql => exact absurd rfl hremote
      | mock | rpc => exact hrun
    obtain ⟨table, columns, source⟩ := i
    obtain ⟨rows, rfl, hrows⟩ := requested_requestInsert hinsert
    exact hrows
  | update u =>
    rw [lowerStatement] at h
    refine requested_backendFor (Option.some.inj hreceiver) (fun hrun => ?_) (runs_of_runs_return h)
    cases backend with
    | sql => exact absurd rfl hremote
    | mock | rpc => exact requested_requestUpdate hrun
  | delete d =>
    rw [lowerStatement] at h
    refine requested_backendFor (Option.some.inj hreceiver) (fun hrun => ?_) (runs_of_runs_return h)
    cases backend with
    | sql => exact absurd rfl hremote
    | mock | rpc => exact requested_requestDelete hrun
  | exec call =>
    rw [lowerStatement] at h
    obtain ⟨_, _, hread, hrun⟩ := runs_bind.mp (runs_of_runs_return h)
    obtain ⟨rfl, rfl⟩ := runs_read.mp hread
    rw [show Config.backend _ = backend from Option.some.inj hreceiver] at hrun
    cases backend with
    | sql => exact absurd rfl hremote
    | mock | rpc => exact requested_requestExec hrun
  | _ => cases hreceiver

/-- **Requests carry statements.** A data statement that goes to a service or to the store, wherever
it stands, is written as code whose messages are the requests for its parts, in their order. Each
request carries its parts: every condition of a filter, every assigned or inserted value and every
argument fills a field or is noted as left out. The notes of the requests are the warnings about
parts that are left out, but for those of a query about its joins and about what it assigns. So for
each request the fields and the warnings about it are together as many as the conditions, values and
arguments. -/
theorem requests_carry_parts {statement : Statement} {rest : List Statement}
    {prepared result : Option Fetch} {backend : Backend}
    (hreceiver : statement.receiver? c.config = some backend) (hremote : backend ≠ .sql)
    (hrows : ∀ i rows, statement = insert i → i.source = .values rows →
      ∀ row ∈ rows, row.length = i.columns.length)
    (h : (lowerStatement rest prepared statement).Runs c before result after) :
    ∃ added requests, after.output = before.output ++ added ∧
      listMessages added = requests.map Request.fields ∧
      List.Forall₂ (Carried c before.symbols) statement.requestParts requests ∧
      requests.map Request.size = statement.requestSizes ∧
      skips after.warnings = skips before.warnings ++ (statement.notesInFront ++
        requests.flatMap Request.notes ++ statement.notesBehind) := by
  obtain ⟨added, requests, houtput, hmessages, hcarried, hskips⟩ :=
    requested_of_runs hreceiver hremote h
  refine ⟨added, requests, houtput, hmessages, hcarried, ?_, hskips⟩
  rw [← map_length_requestParts hrows, map_size_eq hcarried]

open Build in
/-- An update with six parts. A comparison, NULL and a sum fill no field, and the second value of a
column does not either. -/
def amend : Statement :=
  .update ⟨⟨"Orders", none⟩,
    [⟨"status", text "open"⟩, ⟨"note", null⟩, ⟨"total", add (col "total") (int 1)⟩, ⟨"id", int 5⟩],
    some (and (eq (col "id") (int 7)) (gt (col "total") (int 3)))⟩

/-- A context in which statements go to services. -/
def serviceContext : Context where
  config := { backend := .rpc }
  procedure := { name := "usp_Amend" }
  functionName := "Amend"
  verb := none
  survey := {}

/-- The request of `amend` has two fields and four notes. -/
theorem amend_request_carries_parts : ∃ result after, ∃ request : Request,
    (lowerStatement [] none amend).Runs serviceContext {} result after ∧
      listMessages after.output = [request.fields] ∧
      request.fields.map (·.1) = ["Id", "Status"] ∧ request.size = 6 ∧
      skips after.warnings = request.notes := by
  have hok : ((lowerStatement [] none amend).execute serviceContext {}).1.isOk = true := by
    decide +kernel
  obtain ⟨result, after, hruns⟩ | ⟨error, after, hfails⟩ :=
    runs_or_fails (lowerStatement [] none amend) serviceContext {}
  · have hreceiver : amend.receiver? serviceContext.config = some .rpc := by decide +kernel
    obtain ⟨added, requests, houtput, hmessages, hcarried, hsizes, hskips⟩ :=
      requests_carry_parts hreceiver (by decide) (by rintro i rows ⟨⟩) hruns
    obtain ⟨request, _, hcarries, hnone, rfl⟩ := List.forall₂_cons_left_iff.mp hcarried
    obtain rfl := List.forall₂_nil_left_iff.mp hnone
    have hadded : after.output = added := houtput
    refine ⟨result, after, request, hruns, hadded ▸ hmessages, ?_, List.head_eq_of_cons_eq hsizes, ?_⟩
    · rw [hcarries.names_eq]
      decide +kernel
    · simpa [notesInFront, notesBehind, amend, skips] using hskips
  · rw [hfails] at hok
    cases hok

end Statement

end Sproc
