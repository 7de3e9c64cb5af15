import Sproc.Ast.Build
import Sproc.Lower.Iteration

/-!
# Conditions of loops over cursors

The condition of a loop over a cursor asks for the success of the last fetch and may ask for more. It
is a tree of conjunctions, and the question for the fetch can stand anywhere in the tree. Splitting
the question off is sound in the logic of T-SQL, where a condition may also be unknown: conjunction
is associative and commutative there too, so one conjunct may be moved in front of all others.

## Main definitions

* `Truth`, `Expr.truth`: the truth value of a condition, from those of its conjuncts
* `Expr.Joins`: a condition is a tree of conjunctions over a list of conditions
* `Expr.SplitsAt`: exactly one conjunct of a condition asks for the success of the last fetch

## Main results

* `Expr.Joins.truth_eq`: only the conjuncts matter, and not how they are grouped
* `Expr.sentinel_split_exact`: when a condition is split, and what the rest of it says
-/

namespace Sproc

/-- The truth values of T-SQL. -/
inductive Truth where
  | holds
  | unknown
  | fails
  deriving DecidableEq, Repr

namespace Truth

/-- A conjunction fails if an operand fails, and otherwise is unknown if an operand is. -/
def and : Truth → Truth → Truth
  | holds, b => b
  | unknown, fails => fails
  | unknown, _ => unknown
  | fails, _ => fails

@[simp]
theorem holds_and (a : Truth) : holds.and a = a := rfl

@[simp]
theorem and_holds (a : Truth) : a.and holds = a := by
  cases a <;> rfl

theorem and_assoc (a b c : Truth) : (a.and b).and c = a.and (b.and c) := by
  cases a <;> cases b <;> cases c <;> rfl

theorem and_left_comm (a b c : Truth) : a.and (b.and c) = b.and (a.and c) := by
  cases a <;> cases b <;> cases c <;> rfl

/-- The conjunction of a list. -/
def all (values : List Truth) : Truth :=
  values.foldr and holds

@[simp]
theorem all_cons (a : Truth) (rest : List Truth) : all (a :: rest) = a.and (all rest) := rfl

theorem all_append (front back : List Truth) : all (front ++ back) = (all front).and (all back) := by
  induction front with
  | nil => rfl
  | cons a front ih => rw [List.cons_append, all_cons, all_cons, ih, and_assoc]

/-- One value of a conjunction may be moved to its front. -/
theorem all_append_cons (front : List Truth) (a : Truth) (back : List Truth) :
    all (front ++ a :: back) = a.and (all (front ++ back)) := by
  rw [all_append, all_cons, and_left_comm, all_append]

end Truth

namespace Expr

/-- A condition that is no conjunction. -/
def IsConjunct (e : Expr) : Prop :=
  ∀ left right, e ≠ .binary .and left right

/-- A condition is a tree of conjunctions whose leaves, from left to right, are some conditions. -/
inductive Joins : Expr → List Expr → Prop
  | leaf {e : Expr} : e.IsConjunct → Joins e [e]
  | node {left right : Expr} {front back : List Expr} :
    Joins left front → Joins right back → Joins (.binary .and left right) (front ++ back)

/-- A condition says that the last fetch has succeeded. -/
inductive IsFetchTest : Expr → Prop
  | status : IsFetchTest (.binary .eq (.global .fetchStatus) (.literal (.int 0)))
  | zero : IsFetchTest (.binary .eq (.literal (.int 0)) (.global .fetchStatus))

/-- The truth value of a condition whose conjuncts have the given ones. -/
def truth (value : Expr → Truth) : Expr → Truth
  | .binary .and left right => (left.truth value).and (right.truth value)
  | e => value e

/-- Exactly one conjunct of a condition asks for the success of the last fetch. -/
structure SplitsAt (condition : Expr) (front : List Expr) (sentinel : Expr) (back : List Expr) :
    Prop where
  joins : condition.Joins (front ++ sentinel :: back)
  test : sentinel.IsFetchTest
  others : ∀ part ∈ front ++ back, ¬part.IsFetchTest

/-- A conjunct has the truth value that it is given. -/
theorem truth_of_isConjunct {e : Expr} (h : e.IsConjunct) (value : Expr → Truth) :
    e.truth value = value e := by
  unfold truth
  split
  · exact absurd rfl (h _ _)
  · rfl

theorem isSentinel_iff {e : Expr} : e.isSentinel = true ↔ e.IsFetchTest := by
  constructor
  · intro h
    unfold isSentinel at h
    split at h
    · exact .status
    · exact .zero
    · cases h
  · rintro (_ | _) <;> rfl

namespace Joins

variable {e : Expr} {parts : List Expr}

theorem isConjunct (h : e.Joins parts) : ∀ part ∈ parts, part.IsConjunct := by
  induction h with
  | leaf he => simpa using he
  | node _ _ ihleft ihright =>
    intro part hpart
    exact (List.mem_append.mp hpart).elim (ihleft part) (ihright part)

/-- The leaves of a tree of conjunctions are its conjuncts. -/
theorem conjuncts_eq (h : e.Joins parts) : e.conjuncts = parts := by
  induction h with
  | leaf he => exact conjuncts.eq_2 _ he
  | node _ _ ihleft ihright => rw [conjuncts, ihleft, ihright]

/-- A tree of conjunctions has the truth value of its conjuncts, however they are grouped. -/
theorem truth_eq (h : e.Joins parts) (value : Expr → Truth) :
    e.truth value = Truth.all (parts.map value) := by
  induction h with
  | leaf he => simp [truth_of_isConjunct he, Truth.all]
  | node _ _ ihleft ihright => rw [truth, ihleft, ihright, List.map_append, Truth.all_append]

end Joins

theorem joins_conjuncts (e : Expr) : e.Joins e.conjuncts := by
  induction e using conjuncts.induct with
  | case1 left right ihleft ihright => exact .node ihleft ihright
  | case2 e he => exact conjuncts.eq_2 e he ▸ .leaf he

theorem joins_foldl {first : Expr} {front rest : List Expr} (hfirst : first.Joins front)
    (hrest : ∀ part ∈ rest, part.IsConjunct) :
    (rest.foldl (fun condition next => .binary .and condition next) first).Joins (front ++ rest) := by
  induction rest generalizing first front with
  | nil => simpa using hfirst
  | cons next rest ih =>
    have hnext : next.Joins [next] := .leaf (hrest next List.mem_cons_self)
    simpa using ih (hfirst.node hnext) fun part hpart => hrest part (List.mem_cons_of_mem _ hpart)

/-- The conjunction of conjuncts has exactly these, in their order. -/
theorem joins_andAll? {parts : List Expr} {e : Expr} (hparts : ∀ part ∈ parts, part.IsConjunct)
    (h : andAll? parts = some e) : e.Joins parts := by
  cases parts with
  | nil => cases h
  | cons first rest =>
    obtain rfl := Option.some.inj h
    have hfirst : first.Joins [first] := .leaf (hparts first List.mem_cons_self)
    exact joins_foldl hfirst fun part hpart => hparts part (List.mem_cons_of_mem _ hpart)

theorem andAll?_eq_none_iff {parts : List Expr} : andAll? parts = none ↔ parts = [] := by
  cases parts <;> simp [andAll?]

end Expr

/-- A member that satisfies a test is the only one exactly when one is counted. -/
theorem countP_eq_one_iff {α : Type} {p : α → Bool} {list : List α} :
    list.countP p = 1 ↔ ∃ front a back, list = front ++ a :: back ∧ p a = true ∧
      ∀ b ∈ front ++ back, p b = false := by
  constructor
  · intro h
    obtain ⟨a, ha, hpa⟩ := List.countP_pos_iff.mp (h ▸ Nat.one_pos)
    obtain ⟨front, back, rfl⟩ := List.append_of_mem ha
    have hothers : (front ++ back).countP p = 0 := by
      simp only [List.countP_append, List.countP_cons_of_pos hpa] at h ⊢
      omega
    exact ⟨front, a, back, rfl, hpa, fun b hb => by
      simpa using List.countP_eq_zero.mp hothers b hb⟩
  · rintro ⟨front, a, back, rfl, hpa, hothers⟩
    have h : (front ++ back).countP p = 0 :=
      List.countP_eq_zero.mpr fun b hb => by simp [hothers b hb]
    simp only [List.countP_append, List.countP_cons_of_pos hpa] at h ⊢
    omega

namespace Expr

/-- Only the question for the last fetch is left out of the conjuncts. -/
theorem filter_others {front back : List Expr} {sentinel : Expr}
    (htest : sentinel.isSentinel = true) (hothers : ∀ part ∈ front ++ back, part.isSentinel = false) :
    (front ++ sentinel :: back).filter (!·.isSentinel) = front ++ back := by
  have hkept : (front ++ back).filter (!·.isSentinel) = front ++ back :=
    List.filter_eq_self.mpr fun part hpart => by simp [hothers part hpart]
  simpa [htest] using hkept

/-- A condition is split exactly where one of its conjuncts asks for the last fetch, and what is left
is the conjunction of the others. -/
theorem sentinelRest?_eq_some_iff {condition : Expr} {rest : Option Expr} :
    sentinelRest? condition = some rest ↔ ∃ front sentinel back,
      condition.SplitsAt front sentinel back ∧ rest = andAll? (front ++ back) := by
  unfold sentinelRest?
  simp only [Option.ite_none_right_eq_some, Option.some.injEq, countP_eq_one_iff]
  constructor
  · rintro ⟨⟨front, sentinel, back, hparts, htest, hothers⟩, rfl⟩
    refine ⟨front, sentinel, back, ⟨hparts ▸ condition.joins_conjuncts, isSentinel_iff.mp htest,
      fun part hpart => ?_⟩, by rw [hparts, filter_others htest hothers]⟩
    rw [← isSentinel_iff, hothers part hpart]
    exact Bool.false_ne_true
  · rintro ⟨front, sentinel, back, ⟨hjoins, htest, hothers⟩, rfl⟩
    have htest := isSentinel_iff.mpr htest
    have hothers : ∀ part ∈ front ++ back, part.isSentinel = false := fun part hpart =>
      Bool.eq_false_iff.mpr fun h => hothers part hpart (isSentinel_iff.mp h)
    exact ⟨⟨front, sentinel, back, hjoins.conjuncts_eq, htest, hothers⟩,
      by rw [hjoins.conjuncts_eq, filter_others htest hothers]⟩

/-- The condition of a loop over a cursor is split exactly when one of its conjuncts, and no other,
asks for the success of the last fetch, however the conjunctions are grouped. Whatever the conjuncts
are worth, the condition is worth that question together with the rest, and the rest has the other
conjuncts in their order. -/
theorem sentinel_split_exact (condition : Expr) :
    ((sentinelRest? condition).isSome = true ↔
      ∃ front sentinel back, condition.SplitsAt front sentinel back) ∧
    ∀ rest ∈ sentinelRest? condition, ∃ front sentinel back,
      condition.SplitsAt front sentinel back ∧
      (∀ value, condition.truth value =
        (value sentinel).and (rest.elim .holds fun e => e.truth value)) ∧
      (rest = none ↔ front ++ back = []) ∧ ∀ e ∈ rest, e.Joins (front ++ back) := by
  refine ⟨?_, fun rest hrest => ?_⟩
  · simp only [Option.isSome_iff_exists, sentinelRest?_eq_some_iff]
    exact ⟨fun ⟨_, front, sentinel, back, h, _⟩ => ⟨front, sentinel, back, h⟩,
      fun ⟨front, sentinel, back, h⟩ => ⟨_, front, sentinel, back, h, rfl⟩⟩
  · obtain ⟨front, sentinel, back, h, rfl⟩ := sentinelRest?_eq_some_iff.mp hrest
    have hconjuncts : ∀ part ∈ front ++ back, part.IsConjunct := fun part hpart =>
      h.joins.isConjunct part (by grind)
    refine ⟨front, sentinel, back, h, fun value => ?_, andAll?_eq_none_iff, fun e he =>
      joins_andAll? hconjuncts he⟩
    have hrest : (andAll? (front ++ back)).elim .holds (fun e => e.truth value) =
        Truth.all ((front ++ back).map value) := by
      cases hall : andAll? (front ++ back) with
      | none => rw [andAll?_eq_none_iff.mp hall]; rfl
      | some e => exact (joins_andAll? hconjuncts hall).truth_eq value
    rw [hrest, h.joins.truth_eq, List.map_append, List.map_cons, Truth.all_append_cons,
      List.map_append]

open Build in
/-- The question for the last fetch between two other conjuncts, with its operands exchanged: the two
others are the rest, and they are grouped anew. -/
theorem sentinel_between_conjuncts :
    let condition := and (gt (var "a") (int 1)) (and (eq (int 0) fetchStatus) (lt (var "b") (int 2)))
    some (and (gt (var "a") (int 1)) (lt (var "b") (int 2))) ∈ sentinelRest? condition ∧
      ∃ front sentinel back, condition.SplitsAt front sentinel back ∧
        (∀ value, condition.truth value =
          (value sentinel).and ((and (gt (var "a") (int 1)) (lt (var "b") (int 2))).truth value)) ∧
        (and (gt (var "a") (int 1)) (lt (var "b") (int 2))).Joins (front ++ back) := by
  intro condition
  have hrest : some (and (gt (var "a") (int 1)) (lt (var "b") (int 2))) ∈
      sentinelRest? condition := rfl
  obtain ⟨front, sentinel, back, hsplits, htruth, -, hjoins⟩ :=
    (sentinel_split_exact condition).2 _ hrest
  exact ⟨hrest, front, sentinel, back, hsplits, htruth, hjoins _ rfl⟩

end Expr

end Sproc
