import Sproc.Proofs.Ast.Decoding
import Sproc.Proofs.Lower.Frame

/-!
# Documents and procedures

Writing the document of a procedure and reading it gives the procedure back. The one limit is that
of integers: a reader takes a constant only if it fits a signed word of 64 bits, so what can be read
holds no others, and a procedure that holds others cannot be read back.

Each reader is inverted once: from what it gives back, the readers of the parts give the parts back.

## Main definitions

* `Procedure.IntegersFit`: every integer constant of a procedure fits

## Main results

* `Procedure.document_round_trip`: what is written is read back, and what is read can be written and
  read again
-/

namespace Sproc

open Decode

/-! ## Documents of values that fit -/

/-- An expression is read back from its document. -/
theorem expr?_expr {e : Expr} {depth : Nat} (h : IntegersFit e.walk)
    (hdepth : (Encode.expr e).depth < depth) : Decode.expr? depth (Encode.expr e) = some e := by
  induction depth generalizing e with
  | zero => omega
  | succ depth ih =>
    obtain ⟨hliteral, hparts⟩ := integersFit_walk.mp h
    refine Decode.expr?_expr_succ hliteral fun part hpart => ih (hparts part hpart) ?_
    have := Encode.depth_part_lt hpart
    omega

theorem Expr.ofJson?_toJson {e : Expr} (h : IntegersFit e.walk) : Expr.ofJson? e.toJson = some e :=
  expr?_expr h (Nat.lt_succ_self _)

theorem Select.ofJson?_toJson {query : Select} (h : IntegersFit query.walk) :
    Select.ofJson? query.toJson = some query := by
  refine Decode.select?_select fun e he => Expr.ofJson?_toJson ?_
  intro n hn
  exact h n (by rw [Select.walk_eq]; exact List.mem_flatMap_of_mem he hn)

/-! ## Values that can be read -/

section Readers

variable {α : Type} {read : Json → Option α} {e : Expr}

/-- What a reader can give back. -/
def Reads (read : Json → Option α) (value : α) : Prop :=
  ∃ json, read json = some value

theorem Reads.of_mapM {items : List Json} {list : List α} (h : items.mapM read = some list) :
    ∀ a ∈ list, Reads read a := by
  induction items generalizing list with
  | nil => simp_all
  | cons item rest ih =>
    simp only [List.mapM_cons, Option.bind_eq_bind, Option.bind_eq_some_iff, Option.pure_def,
      Option.some.injEq] at h
    obtain ⟨a, ha, list, hlist, rfl⟩ := h
    exact List.forall_mem_cons.mpr ⟨⟨item, ha⟩, ih hlist⟩

theorem Reads.of_list? {json : Json} {list : List α} (h : list? read json = some list) :
    ∀ a ∈ list, Reads read a := by
  obtain ⟨items, -, h⟩ := Option.bind_eq_some_iff.mp h
  exact Reads.of_mapM h

theorem Reads.of_required? {name : String} {fields : List (String × Json)} {value : α}
    (h : Json.required? name read fields = some value) : Reads read value := by
  obtain ⟨json, -, h⟩ := Option.bind_eq_some_iff.mp h
  exact ⟨json, h⟩

theorem Reads.of_defaulted? {name : String} {absent : α} {fields : List (String × Json)} {value : α}
    (h : Json.defaulted? name absent read fields = some value) :
    value = absent ∨ Reads read value := by
  rw [Json.defaulted?] at h
  split at h
  · exact .inr ⟨_, h⟩
  · exact .inl (Option.some.inj h).symm

theorem Reads.of_nullable? {json : Json} {value : Option α}
    (h : Json.nullable? read json = some value) : ∀ a ∈ value, Reads read a := by
  cases json
  case null =>
    cases h
    simp
  all_goals
    obtain ⟨a, ha, rfl⟩ := Option.map_eq_some_iff.mp h
    rintro _ ⟨⟩
    exact ⟨_, ha⟩

theorem Reads.of_optional? {name : String} {fields : List (String × Json)} {value : Option α}
    (h : Json.optional? name read fields = some value) : ∀ a ∈ value, Reads read a := by
  obtain rfl | ⟨json, h⟩ := Reads.of_defaulted? h
  · simp
  · exact Reads.of_nullable? h

theorem eq_of_unit? {value result : α} {content : Option Json}
    (h : unit? value content = some result) : result = value := by
  unfold unit? at h
  split at h
  · exact (Option.some.inj h).symm
  · exact (Option.some.inj h).symm
  · cases h

theorem fits_of_int64? {json : Json} {n : Int} (h : json.int64? = some n) : fitsInt64 n = true := by
  unfold Json.int64? at h
  split at h
  · split at h
    · cases h
      assumption
    · cases h
  · cases h

theorem fits_of_literal? {json : Json} {n : Int} (h : literal? json = some (.int n)) :
    fitsInt64 n = true := by
  simp only [literal?, Option.bind_eq_bind, Option.bind_eq_some_iff] at h
  obtain ⟨⟨tag, content⟩, -, h⟩ := h
  split at h
  · obtain ⟨m, hm, h⟩ := Option.bind_eq_some_iff.mp h
    cases h
    exact fits_of_int64? hm
  · simp [Option.bind_eq_some_iff] at h
  · simp [Option.bind_eq_some_iff] at h
  · simp [Option.bind_eq_some_iff] at h
  · cases eq_of_unit? h
  · cases h

theorem Reads.of_branch? {json : Json} {branch : CaseBranch} {read : Json → Option Expr}
    (h : branch? read json = some branch) :
    Reads read branch.test ∧ Reads read branch.result := by
  simp only [branch?, Option.bind_eq_bind, Option.bind_eq_some_iff, Option.pure_def,
    Option.some.injEq] at h
  obtain ⟨fields, -, test, htest, result, hresult, rfl⟩ := h
  exact ⟨.of_required? htest, .of_required? hresult⟩

theorem Reads.of_item? {json : Json} {item : SelectItem} {read : Json → Option Expr}
    (h : item? read json = some item) :
    Reads read item.expr := by
  simp only [item?, Option.bind_eq_bind, Option.bind_eq_some_iff, Option.pure_def,
    Option.some.injEq] at h
  obtain ⟨fields, -, e, he, aliasName, -, assignTo, -, rfl⟩ := h
  exact .of_required? he

theorem Reads.of_join? {json : Json} {join : Join} {read : Json → Option Expr}
    (h : join? read json = some join) :
    Reads read join.condition := by
  simp only [join?, Option.bind_eq_bind, Option.bind_eq_some_iff, Option.pure_def,
    Option.some.injEq] at h
  obtain ⟨fields, -, kind, -, ref, -, condition, hcondition, rfl⟩ := h
  exact .of_required? hcondition

theorem Reads.of_order? {json : Json} {order : OrderBy} {read : Json → Option Expr}
    (h : order? read json = some order) :
    Reads read order.expr := by
  simp only [order?, Option.bind_eq_bind, Option.bind_eq_some_iff, Option.pure_def,
    Option.some.injEq] at h
  obtain ⟨fields, -, e, he, descending, -, rfl⟩ := h
  exact .of_required? he

/-- The entries of a list that may be left out. -/
theorem Reads.of_defaulted_list? {name : String} {fields : List (String × Json)} {list : List α}
    (h : Json.defaulted? name [] (list? read) fields = some list) : ∀ a ∈ list, Reads read a := by
  obtain rfl | ⟨json, h⟩ := Reads.of_defaulted? h
  · simp
  · exact Reads.of_list? h

theorem Reads.of_select? {json : Json} {query : Select} {read : Json → Option Expr}
    (h : select? read json = some query) :
    ∀ part ∈ query.parts, Reads read part := by
  simp only [select?, Option.bind_eq_bind, Option.bind_eq_some_iff, Option.pure_def,
    Option.some.injEq] at h
  obtain ⟨fields, -, top, htop, distinct, -, items, hitems, source, -, joins, hjoins, filter,
    hfilter, groupBy, hgroup, orderBy, horder, rfl⟩ := h
  simp only [Select.parts, List.mem_append, List.mem_map, Option.mem_toList]
  rintro part (hpart | ⟨item, hitem, rfl⟩ | ⟨join, hjoin, rfl⟩ | hpart | hpart | ⟨order, hmem, rfl⟩)
  · exact Reads.of_optional? htop part hpart
  · obtain ⟨json, hitems⟩ := Reads.of_required? hitems
    obtain ⟨json, hitem⟩ := Reads.of_list? hitems item hitem
    exact Reads.of_item? hitem
  · obtain ⟨json, hjoin⟩ := Reads.of_defaulted_list? hjoins join hjoin
    exact Reads.of_join? hjoin
  · exact Reads.of_optional? hfilter part hpart
  · exact Reads.of_defaulted_list? hgroup part hpart
  · obtain ⟨json, horder⟩ := Reads.of_defaulted_list? horder order hmem
    exact Reads.of_order? horder

/-- What is read one level deeper: an integer that fits, or parts that can be read. -/
theorem Reads.of_expr?_succ {depth : Nat} {e : Expr} {json : Json}
    (h : expr? (depth + 1) json = some e) :
    (∀ n, e = .literal (.int n) → fitsInt64 n = true) ∧
      ∀ part ∈ e.parts, Reads (expr? depth) part := by
  have hset {e : Expr} (hliteral : ∀ value, e ≠ .literal value)
      (hparts : ∀ part ∈ e.parts, Reads (expr? depth) part) :
      (∀ n, e = .literal (.int n) → fitsInt64 n = true) ∧
        ∀ part ∈ e.parts, Reads (expr? depth) part :=
    ⟨fun n hn => absurd hn (hliteral _), hparts⟩
  rw [expr?] at h
  simp only [Option.bind_eq_bind, Option.bind_eq_some_iff] at h
  obtain ⟨⟨tag, content⟩, -, h⟩ := h
  -- one case for each tag
  split at h
  case h_5 =>
    obtain rfl := eq_of_unit? h
    exact hset (by simp) (by simp [Expr.parts])
  case h_16 => cases h
  all_goals simp only [Option.bind_eq_some_iff, Option.pure_def, Option.some.injEq] at h
  case h_1 =>
    obtain ⟨value, hvalue, rfl⟩ := h
    refine ⟨fun n hn => fits_of_literal? (hvalue.trans ?_), by simp [Expr.parts]⟩
    rw [Expr.literal.inj hn]
  case h_2 | h_3 | h_4 =>
    obtain ⟨_, -, rfl⟩ := h
    exact hset (by simp) (by simp [Expr.parts])
  case h_6 =>
    obtain ⟨fields, -, op, -, operand, hoperand, rfl⟩ := h
    exact hset (by simp) (by simpa [Expr.parts] using Reads.of_required? hoperand)
  case h_7 =>
    obtain ⟨fields, -, op, -, left, hleft, right, hright, rfl⟩ := h
    exact hset (by simp)
      (by simpa [Expr.parts] using ⟨Reads.of_required? hleft, Reads.of_required? hright⟩)
  case h_8 =>
    obtain ⟨fields, -, operand, hoperand, negated, -, rfl⟩ := h
    exact hset (by simp) (by simpa [Expr.parts] using Reads.of_required? hoperand)
  case h_9 =>
    obtain ⟨fields, -, operand, hoperand, list, hlist, negated, -, rfl⟩ := h
    obtain ⟨json, hlist⟩ := Reads.of_required? hlist
    exact hset (by simp)
      (List.forall_mem_cons.mpr ⟨Reads.of_required? hoperand, Reads.of_list? hlist⟩)
  case h_10 =>
    obtain ⟨fields, -, operand, hoperand, low, hlow, high, hhigh, negated, -, rfl⟩ := h
    exact hset (by simp) (by
      simpa [Expr.parts] using
        ⟨Reads.of_required? hoperand, Reads.of_required? hlow, Reads.of_required? hhigh⟩)
  case h_11 =>
    obtain ⟨fields, -, name, -, args, hargs, rfl⟩ := h
    exact hset (by simp) (Reads.of_defaulted_list? hargs)
  case h_12 =>
    obtain ⟨fields, -, operand, hoperand, type, -, rfl⟩ := h
    exact hset (by simp) (by simpa [Expr.parts] using Reads.of_required? hoperand)
  case h_13 =>
    obtain ⟨fields, -, branches, hbranches, otherwise, hotherwise, rfl⟩ := h
    refine hset (by simp) ?_
    simp only [Expr.parts, List.mem_append, List.mem_flatMap, Option.mem_toList]
    rintro part (⟨branch, hbranch, hpart⟩ | hpart)
    · obtain ⟨json, hbranches⟩ := Reads.of_required? hbranches
      obtain ⟨json, hbranch⟩ := Reads.of_list? hbranches branch hbranch
      obtain ⟨htest, hresult⟩ := Reads.of_branch? hbranch
      obtain rfl | rfl : part = branch.test ∨ part = branch.result := by simpa using hpart
      · exact htest
      · exact hresult
    · exact Reads.of_optional? hotherwise part hpart
  case h_14 | h_15 =>
    obtain ⟨query, hquery, rfl⟩ := h
    exact hset (by simp) (Reads.of_select? hquery)

/-- The integers of an expression that can be read fit. -/
theorem Reads.fits {depth : Nat} (h : Reads (expr? depth) e) : IntegersFit e.walk := by
  induction depth generalizing e with
  | zero =>
    obtain ⟨json, h⟩ := h
    cases h
  | succ depth ih =>
    obtain ⟨json, h⟩ := h
    obtain ⟨hliteral, hparts⟩ := Reads.of_expr?_succ h
    exact integersFit_walk.mpr ⟨hliteral, fun part hpart => ih (hparts part hpart)⟩

theorem Reads.fits_of_ofJson? (h : Reads Expr.ofJson? e) : IntegersFit e.walk := by
  obtain ⟨json, h⟩ := h
  exact Reads.fits ⟨json, h⟩

theorem Reads.of_varDecl? {json : Json} {v : VarDecl} (h : varDecl? json = some v) :
    ∀ e ∈ v.init, Reads Expr.ofJson? e := by
  simp only [varDecl?, Option.bind_eq_bind, Option.bind_eq_some_iff, Option.pure_def,
    Option.some.injEq] at h
  obtain ⟨fields, -, name, -, type, -, init, hinit, rfl⟩ := h
  exact Reads.of_optional? hinit

theorem Reads.of_insert? {json : Json} {i : Insert} (h : insert? json = some i) :
    ∀ e ∈ (Statement.insert i).parts, Reads Expr.ofJson? e := by
  simp only [insert?, Option.bind_eq_bind, Option.bind_eq_some_iff, Option.pure_def,
    Option.some.injEq] at h
  obtain ⟨fields, -, ref, -, columns, -, source, hsource, rfl⟩ := h
  obtain ⟨json, hsource⟩ := Reads.of_required? hsource
  simp only [insertSource?, Option.bind_eq_bind, Option.bind_eq_some_iff] at hsource
  obtain ⟨⟨tag, content⟩, -, hsource⟩ := hsource
  split at hsource
  · obtain ⟨rows, hrows, h⟩ := Option.bind_eq_some_iff.mp hsource
    cases h
    intro e he
    obtain ⟨row, hrow, he⟩ := List.mem_flatten.mp he
    obtain ⟨json, hrow⟩ := Reads.of_list? hrows row hrow
    exact Reads.of_list? hrow e he
  · obtain ⟨query, hquery, h⟩ := Option.bind_eq_some_iff.mp hsource
    cases h
    exact Reads.of_select? hquery
  · cases hsource

theorem Reads.of_update? {json : Json} {u : Update} (h : update? json = some u) :
    ∀ e ∈ (Statement.update u).parts, Reads Expr.ofJson? e := by
  simp only [update?, Option.bind_eq_bind, Option.bind_eq_some_iff, Option.pure_def,
    Option.some.injEq] at h
  obtain ⟨fields, -, ref, -, assignments, hassignments, filter, hfilter, rfl⟩ := h
  obtain ⟨json, hassignments⟩ := Reads.of_required? hassignments
  simp only [Statement.parts, List.mem_append, List.mem_map, Option.mem_toList]
  rintro e (⟨a, ha, rfl⟩ | he)
  · obtain ⟨json, ha⟩ := Reads.of_list? hassignments a ha
    simp only [assignment?, Option.bind_eq_bind, Option.bind_eq_some_iff, Option.pure_def,
      Option.some.injEq] at ha
    obtain ⟨fields, -, column, -, value, hvalue, rfl⟩ := ha
    exact Reads.of_required? hvalue
  · exact Reads.of_optional? hfilter e he

theorem Reads.of_delete? {json : Json} {d : Delete} (h : delete? json = some d) :
    ∀ e ∈ (Statement.delete d).parts, Reads Expr.ofJson? e := by
  simp only [delete?, Option.bind_eq_bind, Option.bind_eq_some_iff, Option.pure_def,
    Option.some.injEq] at h
  obtain ⟨fields, -, ref, -, filter, hfilter, rfl⟩ := h
  exact fun e he => Reads.of_optional? hfilter e (Option.mem_toList.mp he)

theorem Reads.of_exec? {json : Json} {e : Exec} (h : exec? json = some e) :
    ∀ value ∈ (Statement.exec e).parts, Reads Expr.ofJson? value := by
  simp only [exec?, Option.bind_eq_bind, Option.bind_eq_some_iff, Option.pure_def,
    Option.some.injEq] at h
  obtain ⟨fields, -, name, -, args, hargs, status, -, rfl⟩ := h
  intro value hvalue
  obtain ⟨a, ha, rfl⟩ := List.mem_map.mp hvalue
  obtain ⟨json, ha⟩ := Reads.of_defaulted_list? hargs a ha
  simp only [execArg?, Option.bind_eq_bind, Option.bind_eq_some_iff, Option.pure_def,
    Option.some.injEq] at ha
  obtain ⟨fields, -, name, -, value, hread, output, -, rfl⟩ := ha
  exact Reads.of_required? hread

theorem Reads.of_fetch? {json : Json} {f : Fetch} (h : fetch? json = some f) :
    ∀ e ∈ (Statement.fetch f).parts, Reads Expr.ofJson? e := by
  simp only [fetch?, Option.bind_eq_bind, Option.bind_eq_some_iff, Option.pure_def,
    Option.some.injEq] at h
  obtain ⟨fields, -, cursor, -, direction, hdirection, into, -, rfl⟩ := h
  obtain rfl | ⟨json, hdirection⟩ := Reads.of_defaulted? hdirection
  · simp [Statement.parts]
  · simp only [fetchDirection?, Option.bind_eq_bind, Option.bind_eq_some_iff] at hdirection
    obtain ⟨⟨tag, content⟩, -, hdirection⟩ := hdirection
    split at hdirection
    case h_5 | h_6 =>
      obtain ⟨offset, hoffset, h⟩ := Option.bind_eq_some_iff.mp hdirection
      cases h
      simpa [Statement.parts] using ⟨_, hoffset⟩
    case h_7 => cases hdirection
    all_goals
      obtain rfl := eq_of_unit? hdirection
      simp [Statement.parts]

theorem Reads.of_throwArgs? {json : Json} {args : Option ThrowArgs}
    (h : Json.nullable? throwArgs? json = some args) :
    ∀ e ∈ (Statement.throw args).parts, Reads Expr.ofJson? e := by
  cases args with
  | none => simp [Statement.parts]
  | some args =>
    obtain ⟨json, h⟩ := Reads.of_nullable? h args rfl
    simp only [throwArgs?, Option.bind_eq_bind, Option.bind_eq_some_iff, Option.pure_def,
      Option.some.injEq] at h
    obtain ⟨fields, -, number, hnumber, message, hmessage, state, hstate, rfl⟩ := h
    simpa [Statement.parts] using
      ⟨Reads.of_required? hnumber, Reads.of_required? hmessage, Reads.of_required? hstate⟩

/-- What is read one level deeper: a statement whose expressions and inner statements can be
read. -/
theorem Reads.of_statement?_succ {depth : Nat} {s : Statement} {json : Json}
    (h : statement? (depth + 1) json = some s) :
    (∀ e ∈ s.parts, Reads Expr.ofJson? e) ∧
      ∀ body ∈ s.children, ∀ t ∈ body, Reads (statement? depth) t := by
  have hleaf {s : Statement} (hparts : ∀ e ∈ s.parts, Reads Expr.ofJson? e)
      (hchildren : s.children = []) :
      (∀ e ∈ s.parts, Reads Expr.ofJson? e) ∧
        ∀ body ∈ s.children, ∀ t ∈ body, Reads (statement? depth) t :=
    ⟨hparts, by simp [hchildren]⟩
  rw [statement?] at h
  simp only [Option.bind_eq_bind, Option.bind_eq_some_iff] at h
  obtain ⟨⟨tag, content⟩, -, h⟩ := h
  -- one case for each tag
  split at h
  case h_9 | h_10 =>
    obtain rfl := eq_of_unit? h
    exact hleaf (by simp [Statement.parts]) rfl
  case h_28 => cases h
  all_goals simp only [Option.bind_eq_some_iff, Option.pure_def, Option.some.injEq] at h
  case h_1 =>
    obtain ⟨vars, hvars, rfl⟩ := h
    refine hleaf (fun e he => ?_) rfl
    obtain ⟨v, hv, he⟩ := List.mem_flatMap.mp he
    obtain ⟨json, hv⟩ := Reads.of_list? hvars v hv
    exact Reads.of_varDecl? hv e (Option.mem_toList.mp he)
  case h_2 =>
    obtain ⟨fields, -, name, -, query, hquery, rfl⟩ := h
    obtain ⟨json, hquery⟩ := Reads.of_required? hquery
    exact hleaf (Reads.of_select? hquery) rfl
  case h_3 =>
    obtain ⟨fields, -, target, -, value, hvalue, rfl⟩ := h
    exact hleaf (by simpa [Statement.parts] using Reads.of_required? hvalue) rfl
  case h_4 =>
    obtain ⟨fields, -, condition, hcondition, thenBranch, hthen, elseBranch, helse, rfl⟩ := h
    refine ⟨by simpa [Statement.parts] using Reads.of_required? hcondition, ?_⟩
    simp only [Statement.children, List.forall_mem_cons, Option.mem_toList]
    obtain ⟨json, hthen⟩ := Reads.of_required? hthen
    refine ⟨Reads.of_list? hthen, fun body hbody => ?_⟩
    obtain ⟨json, helse⟩ := Reads.of_optional? helse body hbody
    exact Reads.of_list? helse
  case h_5 =>
    obtain ⟨fields, -, condition, hcondition, body, hbody, rfl⟩ := h
    obtain ⟨json, hbody⟩ := Reads.of_required? hbody
    exact ⟨by simpa [Statement.parts] using Reads.of_required? hcondition,
      by simpa [Statement.children] using Reads.of_list? hbody⟩
  case h_6 =>
    obtain ⟨body, hbody, rfl⟩ := h
    exact ⟨by simp [Statement.parts], by simpa [Statement.children] using Reads.of_list? hbody⟩
  case h_7 =>
    obtain ⟨value, hvalue, rfl⟩ := h
    exact hleaf (fun e he => Reads.of_nullable? hvalue e (Option.mem_toList.mp he)) rfl
  case h_8 =>
    obtain ⟨value, hvalue, rfl⟩ := h
    exact hleaf (by simpa [Statement.parts] using ⟨_, hvalue⟩) rfl
  case h_11 =>
    obtain ⟨query, hquery, rfl⟩ := h
    exact hleaf (Reads.of_select? hquery) rfl
  case h_12 =>
    obtain ⟨i, hi, rfl⟩ := h
    exact hleaf (Reads.of_insert? hi) rfl
  case h_13 =>
    obtain ⟨u, hu, rfl⟩ := h
    exact hleaf (Reads.of_update? hu) rfl
  case h_14 =>
    obtain ⟨d, hd, rfl⟩ := h
    exact hleaf (Reads.of_delete? hd) rfl
  case h_15 =>
    obtain ⟨e, he, rfl⟩ := h
    exact hleaf (Reads.of_exec? he) rfl
  case h_16 =>
    obtain ⟨text, htext, rfl⟩ := h
    exact hleaf (by simpa [Statement.parts] using ⟨_, htext⟩) rfl
  case h_18 =>
    obtain ⟨f, hf, rfl⟩ := h
    exact hleaf (Reads.of_fetch? hf) rfl
  case h_17 | h_19 | h_20 | h_21 | h_22 | h_23 | h_24 =>
    obtain ⟨_, -, rfl⟩ := h
    exact hleaf (by simp [Statement.parts]) rfl
  case h_25 =>
    obtain ⟨fields, -, tryBody, htry, catchBody, hcatch, rfl⟩ := h
    obtain ⟨json, htry⟩ := Reads.of_required? htry
    obtain ⟨json, hcatch⟩ := Reads.of_required? hcatch
    exact ⟨by simp [Statement.parts],
      by simpa [Statement.children] using ⟨Reads.of_list? htry, Reads.of_list? hcatch⟩⟩
  case h_26 =>
    obtain ⟨fields, -, message, hmessage, severity, hseverity, state, hstate, rfl⟩ := h
    refine hleaf ?_ rfl
    simpa [Statement.parts] using
      ⟨Reads.of_required? hmessage, Reads.of_required? hseverity, Reads.of_required? hstate⟩
  case h_27 =>
    obtain ⟨args, hargs, rfl⟩ := h
    exact hleaf (Reads.of_throwArgs? hargs) rfl

end Readers

/-! ## Statements and procedures -/

/-- Every integer constant of a statement, those of the statements inside it among them, fits a
signed word of 64 bits. -/
def Statement.IntegersFit (statement : Statement) : Prop :=
  ∀ inner ∈ statement.nested, ∀ e ∈ inner.parts, Sproc.IntegersFit e.walk

theorem statement?_statement {s : Statement} {depth : Nat} (h : s.IntegersFit)
    (hdepth : (Encode.statement s).depth < depth) :
    statement? depth (Encode.statement s) = some s := by
  induction depth generalizing s with
  | zero => omega
  | succ depth ih =>
    have hparts e (he : e ∈ s.parts) : Readable e :=
      Expr.ofJson?_toJson (h s s.mem_nested_self e he)
    refine statement?_statement_succ hparts fun body hbody t ht => ih (fun inner hinner => ?_) ?_
    · exact h inner (Statement.mem_nested_of_mem_children hbody ht hinner)
    · have := Encode.depth_child_lt hbody ht
      omega

/-- A statement is read back from its document. -/
theorem Statement.ofJson?_toJson {s : Statement} (h : s.IntegersFit) :
    Statement.ofJson? s.toJson = some s :=
  statement?_statement h (Nat.lt_succ_self _)

theorem Reads.statement_fits {depth : Nat} {s : Statement} (h : Reads (statement? depth) s) :
    s.IntegersFit := by
  induction depth generalizing s with
  | zero =>
    obtain ⟨json, h⟩ := h
    cases h
  | succ depth ih =>
    obtain ⟨json, h⟩ := h
    obtain ⟨hparts, hchildren⟩ := Reads.of_statement?_succ h
    intro inner hinner
    obtain rfl | ⟨part, body, hbody, t, ht, hinner⟩ := Statement.mem_nested hinner
    · exact fun e he => (hparts e he).fits_of_ofJson?
    · exact ih (hchildren body (Statement.mem_children_of_part? hbody) t ht) inner hinner

theorem Reads.parameter_fits {parameter : Parameter} (h : Reads parameter? parameter) :
    ∀ e ∈ parameter.default, Sproc.IntegersFit e.walk := by
  obtain ⟨json, h⟩ := h
  simp only [parameter?, Option.bind_eq_bind, Option.bind_eq_some_iff, Option.pure_def,
    Option.some.injEq] at h
  obtain ⟨fields, -, name, -, type, -, direction, -, default, hdefault, rfl⟩ := h
  exact fun e he => (Reads.of_optional? hdefault e he).fits_of_ofJson?

theorem parameter?_parameter {parameter : Parameter}
    (h : ∀ e ∈ parameter.default, Sproc.IntegersFit e.walk) :
    parameter? (Encode.parameter parameter) = some parameter := by
  obtain ⟨name, type, direction, default⟩ := parameter
  have hdirection : choice? directionOfId? (Encode.direction direction) = some direction := by
    cases direction <;> rfl
  have hdefault := nullable?_optionalExpr fun e he => Expr.ofJson?_toJson (h e he)
  simp [parameter?, Encode.parameter, Json.record?, Json.required?, Json.optional?,
    Json.defaulted?, Json.str?, hdirection, hdefault]

namespace Procedure

/-- Every integer constant of a procedure fits a signed word of 64 bits: those of the default values
of its parameters and those of its statements. -/
def IntegersFit (procedure : Procedure) : Prop :=
  (∀ parameter ∈ procedure.params, ∀ e ∈ parameter.default, Sproc.IntegersFit e.walk) ∧
    ∀ statement ∈ procedure.body, statement.IntegersFit

/-- A procedure is read back from its document. -/
theorem ofJson?_toJson {procedure : Procedure} (h : procedure.IntegersFit) :
    ofJson? procedure.toJson = some procedure := by
  obtain ⟨name, params, body⟩ := procedure
  obtain ⟨hparams, hbody⟩ := h
  have hparams : list? parameter? (.arr (params.map Encode.parameter)) = some params :=
    list?_map fun parameter hmem => parameter?_parameter (hparams parameter hmem)
  have hbody : list? Statement.ofJson? (.arr (Encode.statements body)) = some body := by
    rw [Encode.statements_eq_map]
    exact list?_map fun s hs => Statement.ofJson?_toJson (hbody s hs)
  simp [ofJson?, toJson, Encode.procedure, Json.record?, Json.required?, Json.defaulted?,
    Json.str?, hparams, hbody]

/-- A procedure that is read from some document has integers that fit. -/
theorem integersFit_of_ofJson? {procedure : Procedure} {json : Json}
    (h : ofJson? json = some procedure) : procedure.IntegersFit := by
  simp only [ofJson?, Option.bind_eq_bind, Option.bind_eq_some_iff, Option.pure_def,
    Option.some.injEq] at h
  obtain ⟨fields, -, name, -, params, hparams, body, hbody, rfl⟩ := h
  constructor
  · intro parameter hparameter
    exact (Reads.of_defaulted_list? hparams parameter hparameter).parameter_fits
  · intro s hs
    obtain ⟨json, hread⟩ := Reads.of_defaulted_list? hbody s hs
    exact Reads.statement_fits ⟨json, hread⟩

end Procedure

/-- A procedure is read back from the document written for it exactly if its integers fit a signed
word of 64 bits, and a procedure that was read from any document at all is read again from the
document written for it. -/
theorem Procedure.document_round_trip :
    (∀ procedure : Procedure,
      Procedure.ofJson? procedure.toJson = some procedure ↔ procedure.IntegersFit) ∧
    ∀ (json : Json) (procedure : Procedure), Procedure.ofJson? json = some procedure →
      Procedure.ofJson? procedure.toJson = some procedure :=
  ⟨fun _ => ⟨integersFit_of_ofJson?, ofJson?_toJson⟩,
    fun _ _ h => ofJson?_toJson (integersFit_of_ofJson? h)⟩

/-- A procedure given by position, whose one statement is an alternative with null for its content:
it can be written in full and read again. -/
theorem Procedure.document_round_trip_positional :
    Procedure.ofJson? (.arr [.str "Stop", .arr [], .arr [.obj [("break", .null)]]]) =
        some ⟨"Stop", [], [.breakLoop]⟩ ∧
      Procedure.ofJson? (Procedure.mk "Stop" [] [.breakLoop]).toJson =
        some ⟨"Stop", [], [.breakLoop]⟩ := by
  have hread : Procedure.ofJson? (.arr [.str "Stop", .arr [], .arr [.obj [("break", .null)]]]) =
      some ⟨"Stop", [], [.breakLoop]⟩ := rfl
  exact ⟨hread, Procedure.document_round_trip.2 _ _ hread⟩

end Sproc
