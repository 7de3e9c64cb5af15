import Sproc.Proofs.Lower.Hoisting

/-!
# Data statements and cursors

A data statement makes one contact with the backend of its table, and a procedure call one with the
usual backend. The declaration of a cursor makes one for the choice of its backend; what is done
with its rows later are contacts of their own, which depend on where the cursor is opened.

## Main definitions

* `Select.contacts`: the contacts of a query as a statement

## Main results

* `delivers_lowerSelect`, `delivers_lowerInsert`, `delivers_lowerUpdate`, `delivers_lowerDelete`,
  `delivers_lowerExec`: data statements
* `delivers_declareCursor`, `delivers_openCursor`, `delivers_fetchRow`, `delivers_lowerCursorLoop`:
  cursors
-/

namespace Sproc

open Go
open Contact (hoists)

/-- The contacts of a query that is a statement: one for its table, or those of its items. -/
def Select.contacts (query : Select) : List Contact :=
  match query.source with
  | some table => [.data table 1]
  | none => hoists (itemSources query.items)

namespace Lower

variable {α β : Type} {L : Charter} {c : Context} {due : List Event} {contacts : List Contact}
  {P : α → Prop} {Q : α → List Event → Prop} {R : β → List Event → Prop}

/-! ## Assignments -/

theorem delivers_assignVariable (name : String) (value : Expr) :
    (assignVariable name value).Delivers L c [] (hoists value.sources) := by
  refine carries_sends_bind (sends_computed (hasEffect_lookup _)) fun symbol _ => ?_
  exact carries_value_bind_last (carries_lowerValue value _) fun e he =>
    (sends_emitAssign he.events_eq_nil).delivers

theorem delivers_assignItems (items : List SelectItem) :
    (assignItems items).Delivers L c [] (hoists (itemSources items)) := by
  induction items with
  | nil => exact delivers_computed (hasEffect_pure _)
  | cons item rest ih =>
    obtain ⟨expr, label, target⟩ := item
    cases target with
    | none => exact carries_unsupported
    | some target =>
      rw [itemSources, Contact.hoists_append]
      exact delivers_bind (delivers_assignVariable target expr) fun _ => ih

theorem carries_rowValues (items : List SelectItem) :
    (rowValues items).Carries L c [] (hoists (itemSources items)) fun values owed =>
      owed = [] ∧ exprEvents values = [] := by
  have hdelivers : (rowValues items).Delivers L c [] (hoists (itemSources items)) := by
    induction items with
    | nil => exact delivers_computed (hasEffect_pure _)
    | cons item rest ih =>
      obtain ⟨expr, label, target⟩ := item
      rw [itemSources, Contact.hoists_append]
      refine delivers_bind (delivers_lowerExpr expr none) fun value => ?_
      refine delivers_first_bind (delivers_computed (hasEffect_rowValue value)) fun _ => ?_
      exact delivers_bind_computed ih fun _ => hasEffect_pure _
  refine (hdelivers.drawing (drawsOn_rowValues Stock.own_everything items)).mono ?_
  exact fun _ _ hvalues =>
    ⟨hvalues.1, exprEvents_eq_nil fun e he => (hvalues.2 e he).events_eq_nil⟩

/-! ## Data statements -/

/-- A query without table makes contacts only for the queries inside it. -/
theorem delivers_lowerValues (query : Select) :
    (lowerValues query).Delivers L c [] (hoists (itemSources query.items)) := by
  have hcount : (do
      if (← read).survey.tracksRowCount then
        emitOneRow : Lower Unit).Sends c [] fun _ => True := by
    refine sends_read_bind ?_
    split
    · exact sends_emitOneRow
    · exact sends_pure trivial
  unfold lowerValues
  split
  · refine carries_bind_last (delivers_assignItems query.items) fun _ owed howed => ?_
    rw [howed]
    exact hcount.delivers
  · refine carries_value_bind_last (carries_rowValues query.items) fun values hvalues => ?_
    refine carries_sends_bind (sends_runtimeCall (by decide) (by decide) rfl) fun call hcall => ?_
    have hcall : (Go.Stmt.run call).events = [] := by
      rw [Stmt.events, hcall]
      simp [ctx, hvalues]
    exact (sends_first_bind (sends_emit hcall) fun _ _ => hcount).delivers

theorem delivers_lowerSelect (query : Select) :
    (lowerSelect query).Delivers L c [] query.contacts := by
  unfold lowerSelect
  unfold Select.contacts
  cases query.source with
  | none => exact delivers_lowerValues query
  | some table =>
    refine delivers_backendFor_bind (.data table 1) rfl rfl fun backend => ?_
    cases backend with
    | sql => exact sends_lowerQuery query
    | mock | rpc => exact sends_requestSelect (by decide) query table

theorem delivers_lowerInsert (insert : Insert) :
    (lowerInsert insert).Delivers L c [] [.data insert.table insert.messages] := by
  refine delivers_backendFor_bind (.data insert.table insert.messages) rfl rfl fun backend => ?_
  cases backend with
  | sql => exact sends_first_bind (sends_renderQuery (.insert insert)) fun _ hargs =>
      sends_emitExec hargs true
  | mock | rpc => exact sends_requestInsert (by decide) insert

theorem delivers_lowerUpdate (update : Update) :
    (lowerUpdate update).Delivers L c [] [.data update.table 1] := by
  refine delivers_backendFor_bind (.data update.table 1) rfl rfl fun backend => ?_
  cases backend with
  | sql => exact sends_first_bind (sends_renderQuery (.update update)) fun _ hargs =>
      sends_emitExec hargs false
  | mock | rpc => exact sends_requestUpdate (by decide) update

theorem delivers_lowerDelete (delete : Delete) :
    (lowerDelete delete).Delivers L c [] [.data delete.table 1] := by
  refine delivers_backendFor_bind (.data delete.table 1) rfl rfl fun backend => ?_
  cases backend with
  | sql => exact sends_first_bind (sends_renderQuery (.delete delete)) fun _ hargs =>
      sends_emitExec hargs false
  | mock | rpc => exact sends_requestDelete (by decide) delete

/-- A procedure call goes to the usual backend. -/
theorem delivers_lowerExec (exec : Exec) : (lowerExec exec).Delivers L c [] [.call] := by
  have hcall : (lowerExec exec).Sends c (Contact.call.events c.config) fun _ => True := by
    refine sends_read_bind ?_
    rw [Contact.events]
    cases c.config.backend with
    | sql => exact sends_callDatabase exec
    | mock | rpc => exact sends_requestExec (by decide) exec
  exact carries_making [.call] (List.append_nil _) rfl (.refl _)
    (List.forall_mem_singleton.mpr (L.plain rfl)) hcall.delivers

/-! ## Cursors -/

/-- What is known about a cursor is known behind the look for it. -/
theorem carries_getCursor_bind {name : String} {next : Cursor → Lower α}
    (h : ∀ cursor, L.Sited c.config (Text.toLower name) cursor →
      (next cursor).Carries L c due contacts Q) :
    (getCursor name >>= next).Carries L c due contacts Q := by
  intro before value after hruns hsites
  obtain ⟨cursor, _, hget, hnext⟩ := runs_bind.mp hruns
  obtain ⟨hcursor, rfl⟩ := runs_getCursor.mp hget
  exact h cursor (hsites _ (CursorTable.mem_of_get? hcursor)) hnext hsites

theorem delivers_putCursor {name : String} {cursor : Cursor}
    (h : L.Sited c.config (Text.toLower name) cursor) :
    (putCursor name cursor).Delivers L c [] [] := by
  intro before value after hruns hsites
  obtain rfl := runs_modify.mp hruns
  exact ⟨[], rfl, .of_silent (CursorTable.forall_mem_put hsites h) (List.append_nil _).symm rfl rfl⟩

/-- A cursor is declared over a table that is not behind a client. -/
theorem delivers_declareCursor {name : String} {query : Select}
    (hserves : ∀ table, query.source = some table → L.serves (Text.toLower name) →
      L.allows (.rows table)) :
    (declareCursor name query).Delivers L c []
      (query.source.map Contact.cursor).toList := by
  refine carries_get_bind fun p => carries_when not_runs_fail ?_
  split
  · exact carries_fail
  next table hsource =>
    rw [hsource]
    refine carries_bind_last (carries_backendFor (.cursor table) rfl) fun backend owed howed => ?_
    obtain ⟨hbackend, rfl⟩ := howed
    by_cases hremote : backend = .rpc
    · rw [if_pos hremote]
      refine carries_of_not_runs fun hruns => ?_
      obtain ⟨_, _, hfailure, -⟩ := runs_bind.mp hruns
      exact not_runs_fail hfailure
    · rw [if_neg hremote]
      refine carries_sends_bind (sends_computed (hasEffect_iteratorName _)) fun iterator _ => ?_
      exact delivers_putCursor ⟨⟨table, hsource, hbackend, hserves table hsource⟩, hremote⟩

/-- The rows of a cursor come from the backend of its table. -/
theorem sends_rowsCall {key : String} {cursor : Cursor} (h : L.Sited c.config key cursor) :
    (rowsCall cursor).Sends c [] fun call => ∃ table,
      cursor.backend = (c.config.backendOf (some table)).1 ∧
      (L.serves key → L.allows (.rows table)) ∧
      call.events = (Contact.rows table).events c.config := by
  obtain ⟨⟨table, hsource, hbackend, hallows⟩, hremote⟩ := h
  unfold rowsCall
  rw [hsource]
  cases hcursor : cursor.backend with
  | rpc => exact absurd hcursor hremote
  | mock =>
    refine (sends_requestRowsOf cursor.query table).mono fun call hcall =>
      ⟨table, hcursor ▸ hbackend, hallows, ?_⟩
    rw [hcall, Contact.events, Config.tableEvents, ← hbackend, hcursor]
    rfl
  | sql =>
    refine sends_first_bind (sends_renderQuery (.select cursor.query)) fun query hargs => ?_
    refine sends_first_bind sends_handle fun owner howner =>
      sends_pure ⟨table, hcursor ▸ hbackend, hallows, ?_⟩
    obtain ⟨id, rfl⟩ := howner
    rw [Contact.events, Config.tableEvents, ← hbackend, hcursor]
    exact events_dataCall_stream id hargs

/-- A cursor that is opened starts a stream, which is released here or at function entry. -/
theorem delivers_openCursor {name : String} (hserves : L.serves (Text.toLower name)) :
    (openCursor name).Delivers L c [] [] := by
  refine carries_getCursor_bind fun cursor hsited => carries_when not_runs_fail ?_
  refine carries_sends_bind (sends_rowsCall hsited) fun call hcall => ?_
  obtain ⟨table, -, hallows, hcall⟩ := hcall
  refine carries_sends_bind (sends_computed (hasEffect_iteratorType _)) fun type _ => ?_
  refine carries_sends_bind (sends_bindLocal _ _) fun define _ => ?_
  have hput : (putCursor name { cursor with state := .opened }).Delivers L c [] [] :=
    delivers_putCursor ⟨hsited.source, hsited.remote⟩
  have hreleased : (emitChecked (emit (.deferCall
      (.invoke (.name cursor.iterator) "Close" [])))).Delivers L c [] [] :=
    carries_using ["Close"] (L.steps hserves _) (sends_emitChecked (sends_emit rfl)).delivers
  have hassign : (emit (.assign ⟨[.name cursor.iterator, err], define, call⟩)).Delivers L c
      ([] ++ (Contact.rows table).events c.config) [] :=
    (sends_emit (by simp [err, hcall])).delivers
  have hopened : (emit (.assign ⟨[.name cursor.iterator, err], define, call⟩)).Delivers L c [] [] :=
    carries_making [.rows table] (List.append_nil _) rfl
      (.of_iterations (List.forall_mem_singleton.mpr rfl))
      (List.forall_mem_singleton.mpr (hallows hserves)) hassign
  refine delivers_first_bind hopened fun _ => carries_read_bind ?_
  split
  · exact delivers_first_bind (sends_emitIf sends_errorExit).delivers fun _ => hput
  · exact delivers_first_bind hreleased fun _ => hput

/-- What is done with the iterator of a fetch is done with that of a cursor. -/
theorem carries_fetchIterator_bind {fetch : Fetch} {next : Go.Expr → Lower α}
    (h : ∀ iterator, (next (.name iterator)).Carries L c due contacts Q) :
    (fetchIterator fetch >>= next).Carries L c due contacts Q := by
  intro before value after hruns hsites
  obtain ⟨iterator, _, hfetch, hnext⟩ := runs_bind.mp hruns
  obtain ⟨rfl, cursor, -, -, rfl⟩ := runs_fetchIterator hfetch
  exact h _ hnext hsites

theorem sends_emitRow (iterator : String) (targets : List String) :
    (emitRow (.name iterator) targets).Sends c [.iterate iterator "Scan"] fun _ => True := by
  refine sends_emitGuarded ?_
  have hrequest : request? (.member (.name iterator) "Scan") (addresses targets) = none := by
    refine request?_eq_none_of_notMem _ fun package type fields hmem => ?_
    obtain ⟨target, -, htarget⟩ := List.mem_map.mp hmem
    cases htarget
  have hmember : memberEvents (.name iterator) "Scan" = [.iterate iterator "Scan"] := rfl
  simp [assignTo, err, Expr.invoke, hrequest, hmember, exprEvents_addresses]

/-- A fetch uses its iterator, unless the loop around it does. -/
theorem delivers_fetchRow {fetch : Fetch}
    (h : L.serves (Text.toLower fetch.cursor) ∨ Text.toLower fetch.cursor ∈ c.looping) :
    (fetchRow fetch).Delivers L c [] [] := by
  refine carries_fetchIterator_bind fun iterator => carries_read_bind ?_
  split
  · exact (sends_pure (P := fun _ => True) trivial).delivers
  next hlooping =>
    have hserves := h.resolve_right fun hmem => hlooping (List.contains_iff_mem.mpr hmem)
    refine carries_sends_bind (sends_computed (hasEffect_goNames _)) fun targets _ => ?_
    refine carries_using ["Next", "Scan"] (L.steps hserves iterator) ?_
    exact (sends_emitIf (sends_emitRow iterator targets)).delivers

theorem delivers_closeCursor (name : String) : (closeCursor name).Delivers L c [] [] := by
  refine carries_getCursor_bind fun cursor hsited => ?_
  split
  · exact delivers_putCursor ⟨hsited.source, hsited.remote⟩
  · exact carries_fail
  · exact carries_fail

theorem delivers_deallocateCursor (name : String) : (deallocateCursor name).Delivers L c [] [] := by
  refine carries_getCursor_bind fun cursor _ => ?_
  intro before value after hruns hsites
  obtain rfl := runs_modify.mp hruns
  have hleft : L.Sites c.config (before.cursors.remove name) :=
    fun entry hentry => hsites entry (CursorTable.remove_subset hentry)
  exact ⟨[], rfl, .of_silent hleft (List.append_nil _).symm rfl rfl⟩

theorem delivers_emitLoopTest (condition : Expr) :
    (emitLoopTest condition).Delivers L c [] (hoists condition.sources) := by
  refine carries_value_bind_last (carries_lowerValue condition .bool) fun test htest => ?_
  have hbreak : (emitIf none (.unary .not (.paren test)) (emit .breakLoop)).Sends c
      ([] ++ (test.events ++ [])) fun _ => True :=
    sends_emitIf (sends_emit rfl)
  rw [htest.events_eq_nil] at hbreak
  exact hbreak.delivers

/-- A loop over the rows of a cursor, whose body is taken inside the loop. -/
theorem delivers_lowerCursorLoop {fetch : Fetch} {rest : Option Expr} {body : Lower Unit}
    (hserves : L.serves (Text.toLower fetch.cursor))
    (hbody : body.Delivers L (inCursorLoop fetch c) [] contacts) :
    (lowerCursorLoop fetch rest body).Delivers L c []
      (hoists (optionSources rest) ++ contacts) := by
  refine carries_fetchIterator_bind fun iterator => ?_
  refine carries_sends_bind (sends_computed (hasEffect_goNames _)) fun targets _ => ?_
  have hrow {c : Context} : (emitRow (.name iterator) targets).Delivers L c [] [] :=
    carries_using ["Scan"] (L.steps hserves iterator) (sends_emitRow iterator targets).delivers
  have hround {c : Context} : (emitRound (.name iterator) targets rest).Delivers L c []
      (hoists (optionSources rest)) := by
    refine delivers_first_bind hrow fun _ => ?_
    cases rest with
    | none => exact delivers_computed (hasEffect_pure _)
    | some condition => exact delivers_emitLoopTest condition
  -- The advance of the loop is written together with the rounds behind it.
  refine carries_using ["Next"] (L.steps hserves iterator) ?_
  have hrounds : (within (inCursorLoop fetch) (block do
      emitRound (.name iterator) targets rest
      body)).Carries L c [.iterate iterator "Next"] (hoists (optionSources rest) ++ contacts)
        fun statements owed => owed = [Event.iterate iterator "Next"] ++ listEvents statements :=
    carries_within rfl (carries_block (delivers_bind hround fun _ => hbody) _)
  refine carries_bind_last hrounds fun statements owed howed => ?_
  have hloop : (emit (.loop (some (.invoke (.name iterator) "Next" [])) statements)).Delivers L c
      owed [] := by
    rw [howed]
    exact (sends_emit rfl).delivers
  refine delivers_first_bind hloop fun _ => ?_
  exact carries_using ["Err"] (L.steps hserves iterator) (sends_emitGuarded rfl).delivers

end Lower

end Sproc
