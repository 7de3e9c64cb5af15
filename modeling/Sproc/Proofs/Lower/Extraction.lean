import Sproc.Proofs.Lower.Effect

/-!
# The fields of a request

A request carries what a statement says about single columns: the conditions of its filter, the
values that it assigns or inserts, and the arguments of a call. Each of these parts fills a field, or
is left out with a warning, and nothing else happens to it. Which of the two depends on the part
alone and on the fields that are there already, so the fields of a request are those of the parts
that can fill one, each at its first occurrence.

## Main definitions

* `Lower.Part`: a part of a statement
* `Lower.Part.Taken`: a part fills a field or is left out
* `Lower.Extracts`: the parts of a request, its fields, and the notes about what was left out

## Main results

* `Extracts.length_add_length`, `Extracts.names_eq`, `Extracts.first`: the fields that come out
* `runs_addField`: one part
* `extracts_filterFields`, `extracts_addFields`, `extracts_requestArgs`: the parts of statements
-/

namespace Sproc

/-- The messages of the warnings about parts of statements that no request carries. -/
def skips (warnings : List Warning) : List String :=
  (warnings.filter (·.kind = .skippedField)).map (·.message)

@[simp]
theorem skips_append (front back : List Warning) : skips (front ++ back) = skips front ++ skips back := by
  simp [skips]

@[simp]
theorem skips_skipped (path message : String) : skips [⟨.skippedField, path, message⟩] = [message] := rfl

@[simp]
theorem skips_other {kind : WarningKind} (h : kind ≠ .skippedField) (path message : String) :
    skips [⟨kind, path, message⟩] = [] := by
  simp [skips, h]

namespace Lower

/-! ## Parts -/

/-- A part of a statement that a request is to carry. -/
inductive Part where
  /-- A value that a clause of the statement gives a column. -/
  | value (clause column : String) (expr : Expr)
  /-- A condition that gives no column a value. -/
  | condition (expr : Expr)

/-- A condition of a filter. -/
def Part.ofCondition (condition : Expr) : Part :=
  match columnTest? condition with
  | some (column, expr) => .value "WHERE" column expr
  | none => .condition condition

/-- The field that a part can fill: that of its column, if the value is not NULL and simple
enough. -/
def Part.field? : Part → Option String
  | .value _ column expr =>
    if expr.isNullLiteral || (fieldValue? expr).isNone then none
    else some (Identifier.fieldName column)
  | .condition _ => none

/-- What is said about a value that is left out. One that could fill a field is only left out where
the field is filled already. -/
def valueNote (clause column : String) (expr : Expr) : String :=
  let field := Identifier.fieldName column
  if expr.isNullLiteral then s!"NULL {clause} value left unset in remote request: {column}"
  else if (fieldValue? expr).isNone then
    s!"{clause} expression too complex for remote field: {column}"
  else s!"duplicate remote field {field} dropped"

/-- What is said about a condition that is left out: it is named after its first column. -/
def conditionNote (condition : Expr) : String :=
  let column := (condition.walk.findSome? columnName?).getD "predicate"
  s!"WHERE expression too complex for remote field: {column}"

/-- What is said about a part that is left out. -/
def Part.note : Part → String
  | .value clause column expr => valueNote clause column expr
  | .condition expr => conditionNote expr

/-- The code of the value of a part, where the given variables are known. -/
def Part.HasCode (c : Context) (symbols : SymbolTable) (code : Go.Expr) : Part → Prop
  | .value _ _ expr => ∃ evaluate before value after, fieldValue? expr = some evaluate ∧
      before.symbols = symbols ∧ evaluate.Runs c before value after ∧ value.code = code
  | .condition _ => False

/-- A part fills a field behind the others, or it is left out and a note says so. -/
inductive Part.Taken (c : Context) (symbols : SymbolTable) (kept : Fields) (part : Part) :
    Fields → List String → Prop
  | filled {name : String} {code : Go.Expr} (hfield : part.field? = some name)
      (hfresh : name ∉ kept.map (·.1)) (hcode : part.HasCode c symbols code) :
      Taken c symbols kept part (kept ++ [(name, code)]) []
  | leftOut (hfield : ∀ name ∈ part.field?, name ∈ kept.map (·.1)) :
      Taken c symbols kept part kept [part.note]

/-- The parts of a request one after the other, the fields behind those that are there already, and
the notes about what was left out. -/
inductive Extracts (c : Context) (symbols : SymbolTable) :
    Fields → List Part → Fields → List String → Prop
  | done {kept : Fields} : Extracts c symbols kept [] kept []
  | next {kept middle fields : Fields} {part : Part} {rest : List Part} {notes more : List String} :
      part.Taken c symbols kept middle notes → Extracts c symbols middle rest fields more →
      Extracts c symbols kept (part :: rest) fields (notes ++ more)

namespace Extracts

variable {c : Context} {symbols : SymbolTable} {kept middle fields : Fields}
  {parts front back : List Part} {notes more : List String}

theorem single {part : Part} (h : part.Taken c symbols kept fields notes) :
    Extracts c symbols kept [part] fields notes := by
  simpa using Extracts.next h .done

theorem append (h : Extracts c symbols kept front middle notes)
    (h' : Extracts c symbols middle back fields more) :
    Extracts c symbols kept (front ++ back) fields (notes ++ more) := by
  induction h with
  | done => exact h'
  | next htaken _ ih =>
    rw [List.cons_append, List.append_assoc]
    exact .next htaken (ih h')

/-- Every part is counted once, as a field or as a note. -/
theorem length_add_length (h : Extracts c symbols kept parts fields notes) :
    fields.length + notes.length = kept.length + parts.length := by
  induction h with
  | done => simp
  | next htaken _ ih =>
    cases htaken with
    | filled => simp at ih ⊢; omega
    | leftOut => simp at ih ⊢; omega

/-- The names of the new fields are those that the parts ask for, each at its first occurrence,
without those of the fields that are there already. -/
theorem names_eq (h : Extracts c symbols kept parts fields notes) :
    fields.map (·.1) = kept.map (·.1) ++
      ((parts.filterMap Part.field?).filter (· ∉ kept.map (·.1))).eraseDups := by
  induction h with
  | done => simp
  | @next kept middle fields part rest notes more htaken _ ih =>
    cases htaken with
    | @filled name code hfield hfresh hcode =>
      have hsame (other : String) : (!other == name && decide (other ∉ kept.map (·.1))) =
          decide (other ∉ (kept ++ [(name, code)]).map (·.1)) := by
        simp only [List.map_append]
        grind
      rw [ih, List.filterMap_cons_some hfield, List.filter_cons_of_pos (by simpa using hfresh),
        List.eraseDups_cons, List.filter_filter, List.filter_congr fun other _ => hsame other,
        List.map_append, List.append_assoc]
      rfl
    | leftOut hfield =>
      rw [ih]
      cases hname : part.field? with
      | none => rw [List.filterMap_cons_none hname]
      | some name =>
        rw [List.filterMap_cons_some hname, List.filter_cons_of_neg]
        simpa using hfield name hname

/-- Fields stay as they are once they are there. -/
theorem prefix_fields (h : Extracts c symbols kept parts fields notes) : kept <+: fields := by
  induction h with
  | done => exact List.prefix_refl _
  | next htaken _ ih =>
    cases htaken with
    | filled => exact (List.prefix_append _ _).trans ih
    | leftOut => exact ih

/-- No two fields have the same name. -/
theorem nodup_names (h : Extracts c symbols kept parts fields notes)
    (hkept : (kept.map (·.1)).Nodup) : (fields.map (·.1)).Nodup := by
  induction h with
  | done => exact hkept
  | next htaken _ ih =>
    cases htaken with
    | @filled name code _ hfresh _ =>
      refine ih ?_
      rw [List.map_append]
      refine List.nodup_append.mpr ⟨hkept, by simp, fun other hother last hlast heq => ?_⟩
      obtain rfl : last = name := List.mem_singleton.mp hlast
      exact hfresh (heq ▸ hother)
    | leftOut => exact ih hkept

/-- Of the parts that can fill a field, the first one does. -/
theorem first {part : Part} {name : String}
    (h : Extracts c symbols kept (front ++ part :: back) fields notes)
    (hfield : part.field? = some name) (hfront : ∀ earlier ∈ front, earlier.field? ≠ some name)
    (hkept : name ∉ kept.map (·.1)) :
    ∃ code, part.HasCode c symbols code ∧ (name, code) ∈ fields := by
  induction front generalizing kept notes with
  | nil =>
    obtain _ | ⟨htaken, hrest⟩ := h
    cases htaken with
    | filled hfield' _ hcode =>
      obtain rfl := Option.some.inj (hfield.symm.trans hfield')
      exact ⟨_, hcode, hrest.prefix_fields.subset (by simp)⟩
    | leftOut hfield' => exact absurd (hfield' name hfield) hkept
  | cons earlier front ih =>
    obtain _ | ⟨htaken, hrest⟩ := h
    have hfront' : ∀ other ∈ front, other.field? ≠ some name := fun other hother =>
      hfront other (List.mem_cons_of_mem _ hother)
    cases htaken with
    | filled hearlier _ _ =>
      refine ih hrest hfront' ?_
      have hne := hfront earlier List.mem_cons_self
      rw [hearlier] at hne
      simpa [hkept] using fun heq => hne (congrArg some heq.symm)
    | leftOut => exact ih hrest hfront' hkept

end Extracts

/-! ## Values of fields -/

variable {c : Context} {before after : Progress}

/-- The functions for the current time import their package. -/
theorem clock_of_mem {name : String} (h : name ∈ fieldClocks) :
    (∀ inCatch procedure, errorIntrinsic? inCatch procedure name = none) ∧
      ∃ code, Builtin.ofName? name = some (.clock code) := by
  simp only [fieldClocks, List.mem_cons, List.not_mem_nil, or_false] at h
  rcases h with rfl | rfl | rfl | rfl | rfl <;> exact ⟨fun _ _ => rfl, _, rfl⟩

/-- The evaluation of a value that is simple enough for a field gives no warning. -/
theorem warnings_of_fieldValue? {expr : Expr} {evaluate : Lower Value} {value : Value}
    (h : fieldValue? expr = some evaluate) (hruns : evaluate.Runs c before value after) :
    after.warnings = before.warnings := by
  unfold fieldValue? at h
  split at h
  case h_6 name =>
    rw [Option.ite_none_right_eq_some] at h
    obtain ⟨hclock, h⟩ := h
    obtain rfl := Option.some.inj h
    obtain ⟨hintrinsic, code, hbuiltin⟩ := clock_of_mem (List.contains_iff_mem.mp hclock)
    simp only [lowerFunction, runs_bind, runs_read] at hruns
    obtain ⟨_, _, ⟨rfl, rfl⟩, hruns⟩ := hruns
    rw [hintrinsic, hbuiltin] at hruns
    obtain ⟨_, _, himport, hpure⟩ := runs_bind.mp hruns
    obtain ⟨-, rfl⟩ := runs_pure.mp hpure
    obtain rfl := runs_modify.mp himport
    rfl
  case h_7 => cases h
  all_goals
    obtain rfl := Option.some.inj h
    simp only [lowerVariable, lowerGlobal, lookup, runs_bind, runs_get, runs_ofExcept, runs_pure] at hruns
    grind

theorem skips_warnSkipped {message : String} (h : (warnSkipped message).Runs c before () after) :
    skips after.warnings = skips before.warnings ++ [message] := by
  obtain ⟨-, path, hwarnings⟩ := annotated_warn h
  rw [hwarnings, skips_append, skips_skipped]

/-- Between two moments of a generation the given parts are extracted, and the new warnings about
parts that are left out are the notes about them. -/
def Extracted (c : Context) (before after : Progress) (kept fields : Fields) (parts : List Part) :
    Prop :=
  ∃ notes, Extracts c before.symbols kept parts fields notes ∧
    skips after.warnings = skips before.warnings ++ notes

namespace Extracted

variable {middle : Progress} {kept known fields : Fields} {front back : List Part}

theorem nil (hwarnings : skips after.warnings = skips before.warnings) :
    Extracted c before after kept kept [] :=
  ⟨[], .done, by rw [hwarnings, List.append_nil]⟩

theorem trans (h : Extracted c before middle kept known front)
    (hannotated : before.Annotated middle) (h' : Extracted c middle after known fields back) :
    Extracted c before after kept fields (front ++ back) := by
  obtain ⟨notes, hfront, hskips⟩ := h
  obtain ⟨more, hback, hskips'⟩ := h'
  rw [hannotated.symbols] at hback
  exact ⟨notes ++ more, hfront.append hback, by rw [hskips', hskips, List.append_assoc]⟩

end Extracted

/-- A value fills a field or is left out. -/
theorem extracted_addField {clause column : String} {expr : Expr} {kept fields : Fields}
    (h : (addField clause kept column expr).Runs c before fields after) :
    Extracted c before after kept fields [.value clause column expr] := by
  unfold addField at h
  dsimp only at h
  split at h
  next hnull =>
    obtain ⟨_, _, hwarn, hpure⟩ := runs_bind.mp h
    obtain ⟨rfl, rfl⟩ := runs_pure.mp hpure
    have htaken : (Part.value clause column expr).Taken c before.symbols fields fields
        [(Part.value clause column expr).note] := .leftOut (by simp [Part.field?, hnull])
    refine ⟨_, .single htaken, ?_⟩
    simpa [Part.note, valueNote, hnull] using skips_warnSkipped hwarn
  next hnull =>
    split at h
    next hcomplex =>
      obtain ⟨_, _, hwarn, hpure⟩ := runs_bind.mp h
      obtain ⟨rfl, rfl⟩ := runs_pure.mp hpure
      have htaken : (Part.value clause column expr).Taken c before.symbols fields fields
          [(Part.value clause column expr).note] := .leftOut (by simp [Part.field?, hcomplex])
      refine ⟨_, .single htaken, ?_⟩
      simpa [Part.note, valueNote, hnull, hcomplex] using skips_warnSkipped hwarn
    next evaluate hevaluate =>
      obtain ⟨value, evaluated, hvalue, h⟩ := runs_bind.mp h
      have hwarnings := warnings_of_fieldValue? hevaluate hvalue
      have hfield : (Part.value clause column expr).field? = some (Identifier.fieldName column) := by
        simp [Part.field?, hnull, hevaluate]
      split at h
      next hany =>
        obtain ⟨_, _, hwarn, hpure⟩ := runs_bind.mp h
        obtain ⟨rfl, rfl⟩ := runs_pure.mp hpure
        have htaken : (Part.value clause column expr).Taken c before.symbols fields fields
            [(Part.value clause column expr).note] := by
          refine .leftOut fun name hname => ?_
          obtain rfl := Option.some.inj (hfield.symm.trans hname)
          simpa using hany
        refine ⟨_, .single htaken, ?_⟩
        rw [← hwarnings]
        simpa [Part.note, valueNote, hnull, hevaluate] using skips_warnSkipped hwarn
      next hany =>
        obtain ⟨rfl, rfl⟩ := runs_pure.mp h
        have hcode : (Part.value clause column expr).HasCode c before.symbols value.code :=
          ⟨evaluate, before, value, after, hevaluate, rfl, hvalue, rfl⟩
        refine ⟨_, .single (.filled hfield (by simpa using hany) hcode), ?_⟩
        rw [hwarnings, List.append_nil]

/-! ## The parts of statements -/

/-- The parts of a filter: the conditions that it requires together. -/
def filterParts (filter : Option Expr) : List Part :=
  ((filter.map Expr.conjuncts).getD []).map Part.ofCondition

/-- The values that a clause gives columns. -/
def valueParts (clause : String) (columns : List (String × Expr)) : List Part :=
  columns.map fun column => .value clause column.1 column.2

/-- The arguments of a call, the first of which stands at the given position. Those without a name
are named after their position. -/
def argParts (position : Nat) : List ExecArg → List Part
  | [] => []
  | arg :: rest =>
    .value "argument" (arg.name.getD s!"Arg{position}") arg.value :: argParts (position + 1) rest

theorem extracted_addFields {clause : String} {columns : List (String × Expr)} {kept fields : Fields}
    (h : (addFields clause kept columns).Runs c before fields after) :
    Extracted c before after kept fields (valueParts clause columns) := by
  induction columns generalizing kept before with
  | nil =>
    obtain ⟨rfl, rfl⟩ := runs_pure.mp h
    exact .nil rfl
  | cons column rest ih =>
    obtain ⟨known, middle, hfirst, hrest⟩ := runs_bind.mp h
    exact (extracted_addField hfirst).trans ((hasEffect_addField ..).annotated hfirst) (ih hrest)

theorem extracted_addConditions {conditions : List Expr} {kept fields : Fields}
    (h : (addConditions kept conditions).Runs c before fields after) :
    Extracted c before after kept fields (conditions.map Part.ofCondition) := by
  induction conditions generalizing kept before with
  | nil =>
    obtain ⟨rfl, rfl⟩ := runs_pure.mp h
    exact .nil rfl
  | cons condition rest ih =>
    rw [List.map_cons, ← List.singleton_append]
    unfold addConditions at h
    split at h
    next column value htest =>
      have hpart : Part.ofCondition condition = .value "WHERE" column value := by
        rw [Part.ofCondition, htest]
      obtain ⟨known, middle, hfirst, hrest⟩ := runs_bind.mp h
      rw [hpart]
      exact (extracted_addField hfirst).trans ((hasEffect_addField ..).annotated hfirst) (ih hrest)
    next htest =>
      have hpart : Part.ofCondition condition = .condition condition := by
        rw [Part.ofCondition, htest]
      obtain ⟨_, middle, hwarn, hrest⟩ := runs_bind.mp h
      have htaken : (Part.condition condition).Taken c before.symbols kept kept
          [(Part.condition condition).note] := .leftOut (by simp [Part.field?])
      have hfirst : Extracted c before middle kept kept [.condition condition] :=
        ⟨_, .single htaken, skips_warnSkipped hwarn⟩
      rw [hpart]
      exact hfirst.trans ((hasEffect_warnSkipped _).annotated hwarn) (ih hrest)

theorem extracted_filterFields {filter : Option Expr} {fields : Fields}
    (h : (filterFields filter).Runs c before fields after) :
    Extracted c before after [] fields (filterParts filter) :=
  extracted_addConditions h

theorem warnings_outputVariable {arg : ExecArg} {found : String × String}
    (h : (outputVariable arg).Runs c before found after) : after.warnings = before.warnings := by
  unfold outputVariable at h
  split at h
  · simp only [lookup, runs_bind, runs_get, runs_ofExcept, runs_pure] at h
    grind
  · exact absurd h not_runs_unsupported

theorem extracted_requestArgs {callee : String} {position : Nat} {args : List ExecArg}
    {kept : Fields} {reads : Reads} {request : Fields × Reads}
    (h : (requestArgs callee position kept reads args).Runs c before request after) :
    Extracted c before after kept request.1 (argParts position args) := by
  induction args generalizing position kept reads before with
  | nil =>
    obtain ⟨rfl, rfl⟩ := runs_pure.mp h
    exact .nil rfl
  | cons arg rest ih =>
    -- Whether the argument has a name, it is an output, or both, the rest is the same.
    have hargument {field : String} {started middle : Progress} {known : Fields}
        (hfield : field = arg.name.getD s!"Arg{position}")
        (hstart : before.Annotated started) (hskips : skips started.warnings = skips before.warnings)
        (hadd : (addField "argument" kept field arg.value).Runs c started known middle)
        (hrest : (if arg.output = true then do
            let result ← outputVariable arg
            requestArgs callee (position + 1) known
              (reads ++ [(result.2, Identifier.fieldName (arg.name.getD result.1))]) rest
          else requestArgs callee (position + 1) known reads rest).Runs c middle request after) :
        Extracted c before after kept request.1 (argParts position (arg :: rest)) := by
      subst hfield
      have hadded := (hasEffect_addField ..).annotated hadd
      have hfirst : Extracted c before middle kept known
          [.value "argument" (arg.name.getD s!"Arg{position}") arg.value] := by
        obtain ⟨notes, hextracts, hnotes⟩ := extracted_addField hadd
        exact ⟨notes, hstart.symbols ▸ hextracts, by rw [hnotes, hskips]⟩
      refine hfirst.trans (hstart.trans hadded) ?_
      split at hrest
      · obtain ⟨_, found, hfound, hrest⟩ := runs_bind.mp hrest
        obtain ⟨notes, hextracts, hnotes⟩ := ih hrest
        have hannotated := (hasEffect_outputVariable arg).annotated hfound
        refine ⟨notes, hannotated.symbols ▸ hextracts, ?_⟩
        rw [hnotes, warnings_outputVariable hfound]
      · exact ih hrest
    unfold requestArgs at h
    dsimp only at h
    split at h
    next name hname =>
      rw [pure_bind] at h
      obtain ⟨known, middle, hadd, hrest⟩ := runs_bind.mp h
      exact hargument (by rw [hname]; rfl) (.refl _) rfl hadd hrest
    next hname =>
      obtain ⟨_, warned, hwarn, h⟩ := runs_bind.mp h
      rw [pure_bind] at h
      obtain ⟨known, middle, hadd, hrest⟩ := runs_bind.mp h
      obtain ⟨hannotated, path, hwarnings⟩ := annotated_warn hwarn
      refine hargument (by rw [hname]; rfl) hannotated ?_ hadd hrest
      rw [hwarnings, skips_append, skips_other (by decide), List.append_nil]

end Lower

end Sproc
