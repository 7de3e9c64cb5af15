import Sproc.Proofs.Cursor.Follow
import Sproc.Proofs.Lower.Invariant

/-!
# Iterators of cursors

A cursor is known by its name in small letters, and its iterator by the words of the name as it is
spelled. The name of the iterator avoids the variables that are known when the cursor is declared:
it is marked when one of them has it. Neither the iterators of other cursors nor later variables are
looked at. So two cursors have one iterator exactly when their names have the same words and both
iterators are marked or neither is, and an iterator has the name of a variable exactly when the
variable came later, or when the mark leads to it.

## Main definitions

* `SymbolTable.iteratorFor`: the iterator of a cursor that is declared among some variables
* `Procedure.DeclaresCursor`: the declaration that a live cursor comes from

## Main results

* `Procedure.exists_declaresCursor`: every live cursor has been declared in the procedure, among some
  of the variables that are known
* `Procedure.iterators_shared_iff`: which live cursors have one iterator, and which iterators have the
  name of a variable
-/

namespace Sproc

open Lower

/-! ## Names of iterators -/

namespace SymbolTable

/-- Whether the plain name of an iterator is taken by a variable, so that the iterator is marked. -/
def marksIterator (table : SymbolTable) (cursor : String) : Bool :=
  table.isTaken (Identifier.camelCase cursor ++ "Rows")

/-- The iterator of a cursor that is declared among some variables. -/
def iteratorFor (table : SymbolTable) (cursor : String) : String :=
  let base := Identifier.camelCase cursor ++ "Rows"
  if table.marksIterator cursor then base ++ "Gen" else base

theorem isTaken_iff {table : SymbolTable} {goName : String} :
    table.isTaken goName = true ↔ ∃ symbol ∈ table.symbols, symbol.goName = goName := by
  simp [isTaken]

theorem iteratorFor_of_marks {table : SymbolTable} {cursor : String}
    (h : table.marksIterator cursor = true) :
    table.iteratorFor cursor = Identifier.camelCase cursor ++ "RowsGen" := by
  rw [iteratorFor, if_pos h]
  exact String.append_assoc

theorem iteratorFor_of_not_marks {table : SymbolTable} {cursor : String}
    (h : table.marksIterator cursor = false) :
    table.iteratorFor cursor = Identifier.camelCase cursor ++ "Rows" := by
  rw [iteratorFor, h]
  rfl

/-- The mark tells iterators apart, and without it the words of the cursors do. -/
theorem iteratorFor_eq_iff {table table' : SymbolTable} {cursor cursor' : String} :
    table.iteratorFor cursor = table'.iteratorFor cursor' ↔
      Identifier.camelCase cursor = Identifier.camelCase cursor' ∧
        table.marksIterator cursor = table'.marksIterator cursor' := by
  have happend {s t ending : String} : s ++ ending = t ++ ending ↔ s = t := by
    simp [← String.toList_inj]
  -- The endings differ in their last letters.
  have hapart (s t : String) : s ++ "Rows" ≠ t ++ "RowsGen" := fun h => by
    simpa using congrArg (fun text => text.toList.getLast?) h
  cases hmarks : table.marksIterator cursor <;> cases hmarks' : table'.marksIterator cursor'
  · rw [iteratorFor_of_not_marks hmarks, iteratorFor_of_not_marks hmarks', happend]
    simp
  · rw [iteratorFor_of_not_marks hmarks, iteratorFor_of_marks hmarks']
    simp [hapart]
  · rw [iteratorFor_of_marks hmarks, iteratorFor_of_not_marks hmarks']
    simp [(hapart _ _).symm]
  · rw [iteratorFor_of_marks hmarks, iteratorFor_of_marks hmarks', happend]
    simp

end SymbolTable

/-- The names under which a procedure declares cursors. -/
def Procedure.cursorNames (procedure : Procedure) : List String :=
  procedure.statements.filterMap fun
    | .declareCursor name _ => some name
    | _ => none

/-- A live cursor with its key, the name under which it has been declared, and the variables that
were known there, which are the first ones of those that are known now. -/
structure Procedure.DeclaresCursor (procedure : Procedure) (symbols : SymbolTable)
    (entry : String × Cursor) (name : String) (known : SymbolTable) : Prop where
  declared : name ∈ procedure.cursorNames
  key : entry.1 = Text.toLower name
  front : known.symbols <+: symbols.symbols
  iterator : entry.2.iterator = known.iteratorFor name

/-! ## What uses do to the cursors -/

namespace Lower

variable {c : Context} {p after : Progress}

/-- A step behind a test that stops is only taken where the test fails. -/
theorem runs_unless {α β : Type} {test : Prop} [Decidable test] {stop : Lower α} {next : α → Lower β}
    {go : Lower β} {value : β} (hstop : ∀ {p value after}, ¬stop.Runs c p value after)
    (h : (if test then stop >>= next else go).Runs c p value after) :
    ¬test ∧ go.Runs c p value after := by
  split at h
  · obtain ⟨_, _, hfault, -⟩ := runs_bind.mp h
    exact absurd hfault hstop
  next htest => exact ⟨htest, h⟩

/-- A declaration remembers a cursor with its query, whose iterator avoids the variables that are
known. -/
theorem runs_declareCursor {name : String} {query : Select}
    (h : (declareCursor name query).Runs c p () after) :
    ∃ cursor : Cursor, cursor.query = query ∧ cursor.iterator = p.symbols.iteratorFor name ∧
      after.symbols = p.symbols ∧ after.cursors = p.cursors.put name cursor := by
  obtain ⟨_, _, hget, h⟩ := runs_bind.mp h
  obtain ⟨rfl, rfl⟩ := runs_get.mp hget
  obtain ⟨-, h⟩ := runs_unless not_runs_fail h
  cases hsource : query.source with
  | none =>
    rw [hsource] at h
    exact absurd h not_runs_fail
  | some table =>
    rw [hsource] at h
    obtain ⟨backend, chosen, hbackend, h⟩ := runs_bind.mp h
    have hchosen := (hasEffect_backendFor _).annotated hbackend
    obtain ⟨-, h⟩ := runs_unless not_runs_fail h
    obtain ⟨iterator, _, hname, hput⟩ := runs_bind.mp h
    obtain ⟨rfl, rfl⟩ := runs_localName hname
    obtain rfl := runs_modify.mp hput
    rw [← hchosen.symbols, ← hchosen.cursors]
    exact ⟨_, rfl, rfl, rfl, rfl⟩

/-- A cursor is opened by a call whose result is assigned to the iterator, and a check of the call. Only
then is the cursor known to be open. -/
theorem runs_openCursor {name : String} (h : (openCursor name).Runs c p () after) :
    ∃ cursor call called type typed define bound checked,
      p.cursors.get? name = some cursor ∧ cursor.state ≠ .opened ∧
      (rowsCall cursor).Runs c p call called ∧
      (iteratorType cursor.backend).Runs c called type typed ∧
      (bindLocal cursor.iterator type).Runs c typed define bound ∧
      (if c.survey.releasesAtEntry name then emitIf none failed errorExit
        else emitChecked (emit (.deferCall (.invoke (.name cursor.iterator) "Close" [])))).Runs c
          (bound.wrote (.assign ⟨[.name cursor.iterator, err], define, call⟩)) () checked ∧
      after = { checked with
        cursors := checked.cursors.put name { cursor with state := .opened } } := by
  obtain ⟨cursor, _, hget, hrest⟩ := runs_bind.mp h
  obtain ⟨hcursor, rfl⟩ := runs_getCursor.mp hget
  obtain ⟨hclosed, hrest⟩ := runs_unless not_runs_fail hrest
  obtain ⟨call, called, hcall, hrest⟩ := runs_bind.mp hrest
  obtain ⟨type, typed, htype, hrest⟩ := runs_bind.mp hrest
  obtain ⟨define, bound, hbind, hrest⟩ := runs_bind.mp hrest
  obtain ⟨_, _, hassign, hrest⟩ := runs_bind.mp hrest
  obtain rfl := runs_emit.mp hassign
  obtain ⟨_, _, hread, hrest⟩ := runs_bind.mp hrest
  obtain ⟨rfl, rfl⟩ := runs_read.mp hread
  refine ⟨cursor, call, called, type, typed, define, bound, ?_⟩
  split at hrest
  next hentry =>
    obtain ⟨_, checked, hcheck, hput⟩ := runs_bind.mp hrest
    rw [if_pos hentry]
    exact ⟨checked, hcursor, hclosed, hcall, htype, hbind, hcheck, runs_modify.mp hput⟩
  next hentry =>
    obtain ⟨_, checked, hcheck, hput⟩ := runs_bind.mp hrest
    rw [if_neg hentry]
    exact ⟨checked, hcursor, hclosed, hcall, htype, hbind, hcheck, runs_modify.mp hput⟩

end Lower

/-- The discipline of steps that leave variables and cursors alone, whatever they write. -/
def Discipline.settled (symbols : SymbolTable) (cursors : CursorTable) : Discipline where
  keeps p := p.symbols = symbols ∧ p.cursors = cursors
  writes _ := True
  stable _ _ hsymbols hcursors _ hkeeps := ⟨hsymbols ▸ hkeeps.1, hcursors ▸ hkeeps.2⟩

namespace Lower

variable {c : Context} {p after : Progress}

/-- Opening a cursor changes nothing about variables and cursors but that the cursor is open. -/
theorem settled_openCursor {name : String} (h : (openCursor name).Runs c p () after) :
    ∃ cursor, p.cursors.get? name = some cursor ∧ cursor.state ≠ .opened ∧
      after.symbols = p.symbols ∧
      after.cursors = p.cursors.put name { cursor with state := .opened } := by
  obtain ⟨cursor, call, called, type, typed, define, bound, checked, hcursor, hclosed, hcall, htype,
    hbind, hcheck, rfl⟩ := runs_openCursor h
  have hcalled := (hasEffect_rowsCall cursor).annotated hcall
  have htyped := (hasEffect_iteratorType _).annotated htype
  have hbound : bound.symbols = p.symbols ∧ bound.cursors = p.cursors := by
    rw [← hcalled.symbols, ← hcalled.cursors, ← htyped.symbols, ← htyped.cursors]
    obtain ⟨-, -, rfl⟩ | ⟨-, -, -, rfl⟩ | ⟨-, -, rfl⟩ := runs_bindLocal hbind <;> exact ⟨rfl, rfl⟩
  have hregular : (Discipline.settled p.symbols p.cursors).Regular c :=
    Discipline.Permissive.regular fun _ => trivial
  have hchecked : checked.symbols = p.symbols ∧ checked.cursors = p.cursors := by
    split at hcheck
    · exact (hasEffect_emitIf hregular.toBasic _ _ hregular.exit hcheck hbound).1
    · exact (hregular.checked
        (hasEffect_emit_plain hregular.toBasic rfl rfl (fun _ => rfl) rfl) hcheck hbound).1
  exact ⟨cursor, hcursor, hclosed, hchecked.1, congrArg (CursorTable.put · name _) hchecked.2⟩

theorem settled_closeCursor {name : String} (h : (closeCursor name).Runs c p () after) :
    ∃ cursor, p.cursors.get? name = some cursor ∧ after.symbols = p.symbols ∧
      after.cursors = p.cursors.put name { cursor with state := .closed } := by
  obtain ⟨cursor, _, hget, hrest⟩ := runs_bind.mp h
  obtain ⟨hcursor, rfl⟩ := runs_getCursor.mp hget
  split at hrest
  · obtain rfl := runs_modify.mp hrest
    exact ⟨cursor, hcursor, rfl, rfl⟩
  · exact absurd hrest not_runs_fail
  · exact absurd hrest not_runs_fail

end Lower

/-! ## The cursors of a procedure -/

namespace Procedure

variable {procedure : Procedure} {config : Config} {frame : Frame}

/-- Every live cursor comes from a declaration of the procedure. -/
def cursorsDeclared (procedure : Procedure) : Invariant where
  holds symbols cursors :=
    ∀ entry ∈ cursors, ∃ name known, procedure.DeclaresCursor symbols entry name known
  declares hdeclare h entry hentry := by
    obtain ⟨name, known, hfrom⟩ := h entry hentry
    obtain ⟨-, -, rfl⟩ := SymbolTable.declare_eq_ok_iff.mp hdeclare
    exact ⟨name, known, hfrom.declared, hfrom.key, hfrom.front.trans (List.prefix_append _ _),
      hfrom.iterator⟩

/-- A use of a cursor that changes at most the state of the cursor. -/
theorem holds_put_of_iterator_eq {p after : Progress} {name : String} {cursor cursor' : Cursor}
    (hcursor : p.cursors.get? name = some cursor) (hsymbols : after.symbols = p.symbols)
    (hcursors : after.cursors = p.cursors.put name cursor')
    (hiterator : cursor'.iterator = cursor.iterator)
    (h : procedure.cursorsDeclared.Holds p) : procedure.cursorsDeclared.Holds after := by
  rw [Invariant.Holds, hsymbols, hcursors]
  obtain ⟨original, known, hfrom⟩ := h _ (CursorTable.mem_of_get? hcursor)
  exact CursorTable.forall_mem_put h
    ⟨original, known, hfrom.declared, hfrom.key, hfrom.front, hiterator.trans hfrom.iterator⟩

/-- The statements of a procedure about cursors keep to what is declared in it. -/
theorem outlasts_cursorsDeclared {s : Statement} (h : s ∈ procedure.statements) :
    procedure.cursorsDeclared.Outlasts s := by
  intro huse c rest prepared
  cases s with
  | declareCursor name query =>
    rw [lowerStatement]
    refine hasEffect_bind (.of_runs fun hruns hholds => ?_) fun _ => hasEffect_pure _
    obtain ⟨cursor, -, hiterator, hsymbols, hcursors⟩ := runs_declareCursor hruns
    rw [Invariant.Holds, hsymbols, hcursors]
    have hmem : name ∈ procedure.cursorNames := List.mem_filterMap.mpr ⟨_, h, rfl⟩
    exact CursorTable.forall_mem_put hholds
      ⟨name, _, hmem, rfl, List.prefix_refl _, hiterator⟩
  | openCursor name =>
    rw [lowerStatement]
    refine hasEffect_bind (.of_runs fun hruns hholds => ?_) fun _ => hasEffect_pure _
    obtain ⟨cursor, hcursor, -, hsymbols, hcursors⟩ := settled_openCursor hruns
    exact holds_put_of_iterator_eq hcursor hsymbols hcursors rfl hholds
  | closeCursor name =>
    rw [lowerStatement]
    refine hasEffect_bind (.of_runs fun hruns hholds => ?_) fun _ => hasEffect_pure _
    obtain ⟨cursor, hcursor, hsymbols, hcursors⟩ := settled_closeCursor hruns
    exact holds_put_of_iterator_eq hcursor hsymbols hcursors rfl hholds
  | deallocate name =>
    rw [lowerStatement]
    refine hasEffect_bind (.of_runs fun hruns hholds => ?_) fun _ => hasEffect_pure _
    obtain ⟨_, _, hget, hmodify⟩ := runs_bind.mp hruns
    obtain ⟨-, rfl⟩ := runs_getCursor.mp hget
    obtain rfl := runs_modify.mp hmodify
    exact fun entry hentry => hholds entry (CursorTable.remove_subset hentry)
  | fetch f =>
    rw [lowerStatement]
    refine hasEffect_bind (hasEffect_ofExcept_cursor (fun _ _ _ => trivial) _) fun primes => ?_
    split
    · exact hasEffect_pure _
    · have hregular : procedure.cursorsDeclared.discipline.Regular c :=
        (Invariant.permissive_discipline _).regular
      exact hasEffect_bind (hasEffect_fetchRow hregular.forms (fun _ _ _ _ => trivial) f).keepsInvariant
        fun _ => hasEffect_pure _
  | _ => cases huse

/-- Every live cursor has been declared in the procedure, among some of the variables that are
known. -/
theorem exists_declaresCursor (h : procedure.Visits config frame) {entry : String × Cursor}
    (hentry : entry ∈ frame.progress.cursors) :
    ∃ name known, procedure.DeclaresCursor frame.progress.symbols entry name known :=
  Invariant.holds_of_visits h (fun _ => List.forall_mem_nil _)
    (fun _ => outlasts_cursorsDeclared) entry hentry

end Procedure

/-- A variable has the name of the iterator of a cursor: either it takes the plain name behind the
declaration of the cursor, where no variable had it, or one had the plain name and the variable has the
marked one. -/
inductive Symbol.NamesIterator (symbol : Symbol) (cursor : String) (known : SymbolTable) : Prop
  | plain : symbol.goName = Identifier.camelCase cursor ++ "Rows" → symbol ∉ known.symbols →
    known.marksIterator cursor = false → NamesIterator symbol cursor known
  | marked : symbol.goName = Identifier.camelCase cursor ++ "RowsGen" →
    known.marksIterator cursor = true → NamesIterator symbol cursor known

theorem Symbol.namesIterator_iff {symbol : Symbol} {cursor : String} {known : SymbolTable} :
    symbol.NamesIterator cursor known ↔ known.iteratorFor cursor = symbol.goName := by
  constructor
  · rintro (⟨hname, -, hmarks⟩ | ⟨hname, hmarks⟩)
    · rw [SymbolTable.iteratorFor_of_not_marks hmarks, hname]
    · rw [SymbolTable.iteratorFor_of_marks hmarks, hname]
  · intro hname
    cases hmarks : known.marksIterator cursor with
    | true =>
      rw [SymbolTable.iteratorFor_of_marks hmarks] at hname
      exact .marked hname.symm hmarks
    | false =>
      rw [SymbolTable.iteratorFor_of_not_marks hmarks] at hname
      refine .plain hname.symm (fun hmem => ?_) hmarks
      have htaken : known.marksIterator cursor = true :=
        SymbolTable.isTaken_iff.mpr ⟨symbol, hmem, hname.symm⟩
      exact absurd (hmarks.symm.trans htaken) Bool.false_ne_true

/-- At every moment each live cursor comes from a declaration, which gave it a name and looked at the
variables that were known. Two live cursors have one iterator exactly when their names have the same
words and both iterators are marked or neither is. An iterator has the name of a variable exactly when
the variable was declared behind the cursor, or when the mark leads to it. -/
theorem Procedure.iterators_shared_iff {procedure : Procedure} {config : Config} {frame : Frame}
    (h : procedure.Visits config frame) :
    ∃ (name : String × Cursor → String) (known : String × Cursor → SymbolTable),
      (∀ entry ∈ frame.progress.cursors, procedure.DeclaresCursor frame.progress.symbols entry
        (name entry) (known entry)) ∧
      (∀ first ∈ frame.progress.cursors, ∀ second ∈ frame.progress.cursors,
        first.2.iterator = second.2.iterator ↔
          Identifier.camelCase (name first) = Identifier.camelCase (name second) ∧
            (known first).marksIterator (name first) =
              (known second).marksIterator (name second)) ∧
      ∀ entry ∈ frame.progress.cursors, ∀ symbol ∈ frame.progress.symbols.symbols,
        entry.2.iterator = symbol.goName ↔ symbol.NamesIterator (name entry) (known entry) := by
  have horigin : ∀ entry : String × Cursor, ∃ name known, entry ∈ frame.progress.cursors →
      procedure.DeclaresCursor frame.progress.symbols entry name known := by
    intro entry
    by_cases hentry : entry ∈ frame.progress.cursors
    · obtain ⟨name, known, hfrom⟩ := exists_declaresCursor h hentry
      exact ⟨name, known, fun _ => hfrom⟩
    · exact ⟨"", {}, fun hmem => absurd hmem hentry⟩
  choose name known hfrom using horigin
  refine ⟨name, known, hfrom, fun first hfirst second hsecond => ?_, fun entry hentry symbol _ => ?_⟩
  · rw [(hfrom first hfirst).iterator, (hfrom second hsecond).iterator,
      SymbolTable.iteratorFor_eq_iff]
  · rw [(hfrom entry hentry).iterator, Symbol.namesIterator_iff]

open Build in
/-- A procedure with two cursors whose names differ, but have the same words. -/
def Procedure.pair : Procedure where
  name := "usp_Pair"
  params := []
  body := [
    .declareCursor "a_b" ((select [col "id"]).readFrom ⟨"t", none⟩),
    .declareCursor "aB" ((select [col "id"]).readFrom ⟨"u", none⟩),
    declare "x" "INT", .openCursor "a_b", .openCursor "aB", .fetch ⟨"a_b", .next, ["@x"]⟩]

/-- The cursors of `Procedure.pair` have one iterator, since their names have the same words: a fetch
from the first advances the second. -/
theorem Procedure.pair_iterators_shared :
    ∃ frame, Procedure.pair.Visits {} frame ∧
      frame.progress.cursors.map (fun entry => (entry.1, entry.2.iterator)) =
        [("ab", "aBRows"), ("a_b", "aBRows")] ∧
      ∃ (name : String × Cursor → String) (known : String × Cursor → SymbolTable),
        (∀ entry ∈ frame.progress.cursors, Procedure.pair.DeclaresCursor frame.progress.symbols entry
          (name entry) (known entry)) ∧
        ∀ first ∈ frame.progress.cursors, ∀ second ∈ frame.progress.cursors,
          Identifier.camelCase (name first) = Identifier.camelCase (name second) := by
  have hframe : (((Procedure.pair.begin? {}).bind Frame.behind?).bind Frame.behind?).map
      (fun frame => frame.progress.cursors.map fun entry => (entry.1, entry.2.iterator)) =
        some [("ab", "aBRows"), ("a_b", "aBRows")] := by
    decide +kernel
  obtain ⟨frame, hsome, hcursors⟩ := Option.map_eq_some_iff.mp hframe
  obtain ⟨second, hsecond, hlast⟩ := Option.bind_eq_some_iff.mp hsome
  obtain ⟨first, hfirst, hmiddle⟩ := Option.bind_eq_some_iff.mp hsecond
  have hvisits : Procedure.pair.Visits {} frame :=
    ⟨first, Procedure.begins_of_begin? hfirst, .tail
      (.single (.behind (Frame.step_of_behind? hmiddle))) (.behind (Frame.step_of_behind? hlast))⟩
  obtain ⟨name, known, hfrom, hshared, -⟩ := Procedure.iterators_shared_iff hvisits
  refine ⟨frame, hvisits, hcursors, name, known, hfrom, fun first hfirst second hsecond => ?_⟩
  have hone : ∀ entry ∈ frame.progress.cursors, entry.2.iterator = "aBRows" := by
    intro entry hentry
    have hmem := List.mem_map_of_mem (f := fun entry => (entry.1, entry.2.iterator)) hentry
    rw [hcursors] at hmem
    simp only [List.mem_cons, Prod.mk.injEq, List.not_mem_nil, or_false] at hmem
    rcases hmem with ⟨-, hiterator⟩ | ⟨-, hiterator⟩ <;> exact hiterator
  exact ((hshared first hfirst second hsecond).mp
    ((hone first hfirst).trans (hone second hsecond).symm)).1

end Sproc
