import Sproc.Ast.Encode
import Sproc.Proofs.Ast.Parts

/-!
# The shape of documents

Documents of lists hold the documents of the entries, what may be absent is null or the document of
what is there, and the document of an expression or statement is deeper than those of everything
directly inside it. The depth is what limits a reader, so a reader that has levels for a document
has one level less for each document inside.

## Main results

* `Encode.exprs_eq_map`, `Encode.statements_eq_map` and the like: documents of lists
* `Encode.depth_part_lt`, `Encode.depth_child_lt`: what stands inside is less deep
-/

namespace Sproc

namespace Encode

/-- An arm of a case. -/
def branch (b : CaseBranch) : Json :=
  .obj [("when", expr b.test), ("then", expr b.result)]

/-- An entry of a select list. -/
def item (i : SelectItem) : Json :=
  .obj [("expr", expr i.expr), ("alias", optionalText i.aliasName),
    ("assign_to", optionalText i.assignTo)]

/-- A join. -/
def join (j : Join) : Json :=
  .obj [("kind", joinKind j.kind), ("table", table j.table), ("on", expr j.condition)]

/-- An entry of an ordering. -/
def order (o : OrderBy) : Json :=
  .obj [("expr", expr o.expr), ("descending", .bool o.descending)]

theorem exprs_eq_map (list : List Expr) : exprs list = list.map expr := by
  induction list <;> simp_all [exprs]

theorem branches_eq_map (list : List CaseBranch) : branches list = list.map branch := by
  induction list with
  | nil => rfl
  | cons branch rest ih =>
    obtain ⟨test, result⟩ := branch
    simp [branches, ih, Encode.branch]

theorem items_eq_map (list : List SelectItem) : items list = list.map item := by
  induction list with
  | nil => rfl
  | cons item rest ih =>
    obtain ⟨e, aliasName, assignTo⟩ := item
    simp [items, ih, Encode.item]

theorem joins_eq_map (list : List Join) : joins list = list.map join := by
  induction list with
  | nil => rfl
  | cons join rest ih =>
    obtain ⟨kind, ref, condition⟩ := join
    simp [joins, ih, Encode.join]

theorem orders_eq_map (list : List OrderBy) : orders list = list.map order := by
  induction list with
  | nil => rfl
  | cons order rest ih =>
    obtain ⟨e, descending⟩ := order
    simp [orders, ih, Encode.order]

theorem statements_eq_map (list : List Statement) : statements list = list.map statement := by
  induction list <;> simp_all [statements]

theorem optionalExpr_eq_elim (e : Option Expr) : optionalExpr e = e.elim .null expr := by
  cases e <;> rfl

theorem optionalText_eq_elim (s : Option String) : optionalText s = s.elim .null Json.str := by
  cases s <;> rfl

theorem optionalTable_eq_elim (t : Option TableRef) : optionalTable t = t.elim .null table := by
  cases t <;> rfl

theorem optionalStatements_eq_elim (body : Option (List Statement)) :
    optionalStatements body = body.elim .null fun list => .arr (list.map statement) := by
  cases body <;> simp [optionalStatements, statements_eq_map]

theorem expr_ne_null (e : Expr) : expr e ≠ .null := by
  cases e <;> simp [expr, tagged]

end Encode

/-! ## Depth -/

theorem Json.depth_le_depthItems {items : List Json} {item : Json} (h : item ∈ items) :
    item.depth ≤ Json.depthItems items := by
  induction items with
  | nil => simp at h
  | cons first rest ih =>
    rw [Json.depthItems]
    rcases List.mem_cons.mp h with rfl | h
    · exact Nat.le_max_left _ _
    · exact Nat.le_trans (ih h) (Nat.le_max_right _ _)

theorem Json.depth_le_depthFields {fields : List (String × Json)} {name : String} {value : Json}
    (h : (name, value) ∈ fields) : value.depth ≤ Json.depthFields fields := by
  induction fields with
  | nil => simp at h
  | cons first rest ih =>
    obtain ⟨_, _⟩ := first
    rw [Json.depthFields]
    rcases List.mem_cons.mp h with h | h
    · cases h
      exact Nat.le_max_left _ _
    · exact Nat.le_trans (ih h) (Nat.le_max_right _ _)

theorem Json.depth_lt_of_item {items : List Json} {item : Json} (h : item ∈ items) :
    item.depth < (Json.arr items).depth := by
  rw [Json.depth]
  exact Nat.lt_succ_of_le (Json.depth_le_depthItems h)

theorem Json.depth_lt_of_field {fields : List (String × Json)} (name : String) {value : Json}
    (h : (name, value) ∈ fields) : value.depth < (Json.obj fields).depth := by
  rw [Json.depth]
  exact Nat.lt_succ_of_le (Json.depth_le_depthFields h)

/-- A part of the content of an alternative is less deep than the alternative. -/
theorem Encode.depth_lt_tagged {part content : Json} {tag : String}
    (h : part.depth < content.depth) : part.depth < (Encode.tagged tag content).depth :=
  Nat.lt_trans h (Json.depth_lt_of_field tag (by simp))

variable {e part : Expr}

theorem Encode.depth_lt_exprs {list : List Expr} (h : part ∈ list) :
    (Encode.expr part).depth < (Json.arr (Encode.exprs list)).depth := by
  rw [Encode.exprs_eq_map]
  exact Json.depth_lt_of_item (List.mem_map_of_mem h)

theorem Encode.depth_part_lt_select {query : Select} (h : part ∈ query.parts) :
    (Encode.expr part).depth < (Encode.select query).depth := by
  obtain ⟨top, distinct, items, source, joins, filter, groupBy, orderBy⟩ := query
  simp only [Select.parts, List.mem_append, List.mem_map, Option.mem_toList] at h
  rw [Encode.select, Encode.items_eq_map, Encode.joins_eq_map, Encode.orders_eq_map]
  obtain rfl | ⟨i, hi, rfl⟩ | ⟨j, hj, rfl⟩ | rfl | h | ⟨o, ho, rfl⟩ := h
  · exact Json.depth_lt_of_field "top" (by simp [Encode.optionalExpr])
  · calc (Encode.expr i.expr).depth
      _ < (Encode.item i).depth := Json.depth_lt_of_field "expr" (by simp)
      _ < (Json.arr (items.map Encode.item)).depth := Json.depth_lt_of_item (List.mem_map_of_mem hi)
      _ < _ := Json.depth_lt_of_field "items" (by simp)
  · calc (Encode.expr j.condition).depth
      _ < (Encode.join j).depth := Json.depth_lt_of_field "on" (by simp)
      _ < (Json.arr (joins.map Encode.join)).depth := Json.depth_lt_of_item (List.mem_map_of_mem hj)
      _ < _ := Json.depth_lt_of_field "joins" (by simp)
  · exact Json.depth_lt_of_field "where" (by simp [Encode.optionalExpr])
  · exact Nat.lt_trans (Encode.depth_lt_exprs h) (Json.depth_lt_of_field "group_by" (by simp))
  · calc (Encode.expr o.expr).depth
      _ < (Encode.order o).depth := Json.depth_lt_of_field "expr" (by simp)
      _ < (Json.arr (orderBy.map Encode.order)).depth :=
        Json.depth_lt_of_item (List.mem_map_of_mem ho)
      _ < _ := Json.depth_lt_of_field "order_by" (by simp)

/-- The document of an expression is deeper than those of its parts. -/
theorem Encode.depth_part_lt (h : part ∈ e.parts) :
    (Encode.expr part).depth < (Encode.expr e).depth := by
  cases e with
  | literal _ | «variable» _ | global _ | column _ | star => simp [Expr.parts] at h
  | unary _ operand | isNull operand _ | cast operand _ =>
    obtain rfl : part = operand := by simpa [Expr.parts] using h
    exact Encode.depth_lt_tagged (Json.depth_lt_of_field "expr" (by simp))
  | binary _ left right =>
    obtain rfl | rfl : part = left ∨ part = right := by simpa [Expr.parts] using h
    · exact Encode.depth_lt_tagged (Json.depth_lt_of_field "left" (by simp))
    · exact Encode.depth_lt_tagged (Json.depth_lt_of_field "right" (by simp))
  | inList operand list negated =>
    obtain rfl | h := List.mem_cons.mp h
    · exact Encode.depth_lt_tagged (Json.depth_lt_of_field "expr" (by simp))
    · exact Encode.depth_lt_tagged
        (Nat.lt_trans (Encode.depth_lt_exprs h) (Json.depth_lt_of_field "list" (by simp)))
  | between operand low high _ =>
    obtain rfl | rfl | rfl : part = operand ∨ part = low ∨ part = high := by
      simpa [Expr.parts] using h
    · exact Encode.depth_lt_tagged (Json.depth_lt_of_field "expr" (by simp))
    · exact Encode.depth_lt_tagged (Json.depth_lt_of_field "low" (by simp))
    · exact Encode.depth_lt_tagged (Json.depth_lt_of_field "high" (by simp))
  | function name args =>
    have h : part ∈ args := h
    exact Encode.depth_lt_tagged
      (Nat.lt_trans (Encode.depth_lt_exprs h) (Json.depth_lt_of_field "args" (by simp)))
  | case branches otherwise =>
    simp only [Expr.parts, List.mem_append, List.mem_flatMap, Option.mem_toList] at h
    rw [Encode.expr, Encode.branches_eq_map]
    obtain ⟨b, hb, h⟩ | rfl := h
    · have hpart : (Encode.expr part).depth < (Encode.branch b).depth := by
        obtain rfl | rfl : part = b.test ∨ part = b.result := by simpa using h
        · exact Json.depth_lt_of_field "when" (by simp)
        · exact Json.depth_lt_of_field "then" (by simp)
      refine Encode.depth_lt_tagged ?_
      calc (Encode.expr part).depth
        _ < (Encode.branch b).depth := hpart
        _ < (Json.arr (branches.map Encode.branch)).depth :=
          Json.depth_lt_of_item (List.mem_map_of_mem hb)
        _ < _ := Json.depth_lt_of_field "branches" (by simp)
    · exact Encode.depth_lt_tagged
        (Json.depth_lt_of_field "else_value" (by simp [Encode.optionalExpr]))
  | «exists» query | subquery query =>
    exact Encode.depth_lt_tagged (Encode.depth_part_lt_select h)

/-- The document of a statement is deeper than those of the statements in its branches and
bodies. -/
theorem Encode.depth_child_lt {s t : Statement} {body : List Statement} (hbody : body ∈ s.children)
    (ht : t ∈ body) : (Encode.statement t).depth < (Encode.statement s).depth := by
  have hlist : (Encode.statement t).depth < (Json.arr (Encode.statements body)).depth := by
    rw [Encode.statements_eq_map]
    exact Json.depth_lt_of_item (List.mem_map_of_mem ht)
  cases s with
  | ifElse condition thenBranch elseBranch =>
    rw [Statement.children, List.mem_cons, Option.mem_toList] at hbody
    obtain rfl | rfl := hbody
    · exact Encode.depth_lt_tagged
        (Nat.lt_trans hlist (Json.depth_lt_of_field "then_branch" (by simp)))
    · exact Encode.depth_lt_tagged (Nat.lt_trans hlist
        (Json.depth_lt_of_field "else_branch" (by simp [Encode.optionalStatements])))
  | «while» condition inner =>
    obtain rfl := List.mem_singleton.mp hbody
    exact Encode.depth_lt_tagged (Nat.lt_trans hlist (Json.depth_lt_of_field "body" (by simp)))
  | block inner =>
    obtain rfl := List.mem_singleton.mp hbody
    exact Encode.depth_lt_tagged hlist
  | tryCatch tryBody catchBody =>
    obtain rfl | rfl : body = tryBody ∨ body = catchBody := by
      simpa [Statement.children] using hbody
    · exact Encode.depth_lt_tagged
        (Nat.lt_trans hlist (Json.depth_lt_of_field "try_body" (by simp)))
    · exact Encode.depth_lt_tagged
        (Nat.lt_trans hlist (Json.depth_lt_of_field "catch_body" (by simp)))
  | _ => cases hbody

end Sproc
