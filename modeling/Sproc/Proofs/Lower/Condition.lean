import Sproc.Proofs.Lower.Run
import Sproc.Proofs.Names

/-!
# The meaning of conditions

A condition over integer variables, integer constants and bits becomes Go text that means the same:
whatever values the variables have, the text, as Go reads it, has the truth value of the condition.
Constants are folded, membership in a list and in an interval are written out as comparisons, bits
compared with a constant stand for themselves, and parentheses are left away where the strengths of
the operators allow it; none of this changes the meaning.

The meaning of a value is said together with how it is read, so every step of the lowering has one
lemma: operands that are read and mean something make a value that is read and means the rest.

## Main definitions

* `Expr.number`, `Expr.holds`: the meaning of integer expressions and conditions
* `Expr.IsTerm`, `Expr.IsCondition`: the conditions that are dealt with
* `SymbolTable.goEnv`: the values of the Go variables
* `Lower.Computes`, `Lower.Decides`: values that mean a number or a truth value

## Main results

* `Lower.exists_computes`: integer expressions become values that mean their number
* `Lower.exists_decides`: conditions become values that mean their truth
* `Lower.condition_meaning`: the text of a condition is read and means the same
-/

namespace Sproc

/-! ## Meaning -/

/-- Values of variables, by the keys of the variables. -/
abbrev Valuation := String → Int

namespace BinaryOp

/-- The result of a sum, a difference or a product. -/
def combines : BinaryOp → Int → Int → Int
  | .add, m, n => m + n
  | .sub, m, n => m - n
  | .mul, m, n => m * n
  | _, _, _ => 0

/-- The truth of a comparison. -/
def compares : BinaryOp → Int → Int → Bool
  | .eq, m, n => m == n
  | .notEq, m, n => m != n
  | .lt, m, n => m < n
  | .ltEq, m, n => m ≤ n
  | .gt, m, n => n < m
  | .gtEq, m, n => n ≤ m
  | _, _, _ => false

/-- The truth of a conjunction or disjunction. -/
def joins : BinaryOp → Bool → Bool → Bool
  | .and, s, t => s && t
  | .or, s, t => s || t
  | _, _, _ => false

end BinaryOp

namespace Expr

/-- The number that an integer expression stands for. -/
def number (a : Valuation) : Expr → Int
  | .literal (.int n) => n
  | .variable name => a (foldName name)
  | .binary op left right => op.combines (left.number a) (right.number a)
  | _ => 0

/-- The truth of a condition. -/
def holds (a : Valuation) : Expr → Bool
  | .binary op left right =>
    if op.isLogical then op.joins (left.holds a) (right.holds a)
    else op.compares (left.number a) (right.number a)
  | .unary .not operand => !operand.holds a
  | .between operand low high negated =>
    (low.number a ≤ operand.number a && operand.number a ≤ high.number a) != negated
  | .inList operand list negated => (list.any fun e => operand.number a == e.number a) != negated
  | _ => false

/-- All numbers that occur in an expression fit a word of 32 bits. -/
def Fits (a : Valuation) (e : Expr) : Prop :=
  ∀ inner ∈ e.walk, Go.IsWord (inner.number a)

/-- Integer expressions: constants, variables, and sums, differences and products of these. -/
inductive IsTerm (table : SymbolTable) : Expr → Prop
  | literal (n : Int) : IsTerm table (.ofInt n)
  | variable {name : String} {symbol : Symbol} : table.get? name = some symbol →
    symbol.type.go = .int32 → IsTerm table (.variable name)
  | binary {op : BinaryOp} {left right : Expr} : op ∈ [.add, .sub, .mul] → IsTerm table left →
    IsTerm table right → IsTerm table (.binary op left right)

/-- Variables of one bit. -/
inductive IsBit (table : SymbolTable) : Expr → Prop
  | variable {name : String} {symbol : Symbol} : table.get? name = some symbol →
    symbol.type.go = .bool → IsBit table (.variable name)

/-- Conditions over integer expressions and bits. -/
inductive IsCondition (table : SymbolTable) : Expr → Prop
  | logical {op : BinaryOp} {left right : Expr} : op ∈ [.and, .or] → IsCondition table left →
    IsCondition table right → IsCondition table (.binary op left right)
  | not {operand : Expr} : IsCondition table operand → IsCondition table (.unary .not operand)
  | comparison {op : BinaryOp} {left right : Expr} : op.isComparison = true →
    left.IsTerm table → right.IsTerm table → IsCondition table (.binary op left right)
  | between {operand low high : Expr} (negated : Bool) : operand.IsTerm table →
    low.IsTerm table → high.IsTerm table → IsCondition table (.between operand low high negated)
  | inList {operand : Expr} {list : List Expr} (negated : Bool) : operand.IsTerm table →
    list ≠ [] → (∀ e ∈ list, e.IsTerm table) → IsCondition table (.inList operand list negated)
  | bits {op : BinaryOp} {left right : Expr} : op ∈ [.eq, .notEq] → left.IsBit table →
    right.IsBit table → IsCondition table (.binary op left right)
  | bitConst {op : BinaryOp} {left : Expr} {n : Int} : op ∈ [.eq, .notEq] → left.IsBit table →
    n ∈ [0, 1] → IsCondition table (.binary op left (.ofInt n))
  | constBit {op : BinaryOp} {right : Expr} {n : Int} : op ∈ [.eq, .notEq] → n ∈ [0, 1] →
    right.IsBit table → IsCondition table (.binary op (.ofInt n) right)

end Expr

namespace SymbolTable

/-- An assignment gives variables of one bit the values 0 and 1 only. -/
def Assigns (table : SymbolTable) (a : Valuation) : Prop :=
  ∀ symbol ∈ table.symbols, symbol.type.go = .bool → a symbol.key ∈ [0, 1]

/-- The value of a Go variable. -/
def goEnv (table : SymbolTable) (a : Valuation) (goName : String) : Option Go.Datum := do
  let symbol ← table.symbols.find? (·.goName == goName)
  match symbol.type.go with
  | .int32 => some (.int (a symbol.key))
  | .bool => some (.bool (a symbol.key != 0))
  | _ => none

theorem goEnv_goName {table : SymbolTable} (h : table.Built) {name : String} {symbol : Symbol}
    (hget : table.get? name = some symbol) (a : Valuation) :
    table.goEnv a symbol.goName =
      match symbol.type.go with
      | .int32 => some (.int (a (foldName name)))
      | .bool => some (.bool (a (foldName name) != 0))
      | _ => none := by
  have hkey : symbol.key = foldName name := by simpa using List.find?_some hget
  rw [goEnv, h.find?_goName (List.mem_of_find?_eq_some hget), ← hkey]
  rfl

end SymbolTable

namespace Lower

/-! ## Values that mean something -/

variable {table : SymbolTable} {valid : Valuation → Prop}

/-- A value means a number for all valid assignments: it is a constant with that number, or its code
is read and evaluates to the number. -/
inductive Computes (table : SymbolTable) (valid : Valuation → Prop) (number : Valuation → Int) :
    Value → Prop
  | const (n : Int) : (∀ a, number a = n) → (∀ a, valid a → Go.IsWord n) →
    Computes table valid number (.ofInt n)
  | code {code : Go.Expr} {strength : Nat} {t : Go.Term} : 1 ≤ strength →
    code.ReadsAs strength t → (∀ a, valid a → t.eval (table.goEnv a) = some (.int (number a))) →
    Computes table valid number ⟨code, .typed .int32, strength⟩

/-- A value means a truth value for all valid assignments: its code is read and evaluates to the
truth value. -/
structure Decides (table : SymbolTable) (valid : Valuation → Prop) (truth : Valuation → Bool)
    (v : Value) : Prop where
  kind : v.kind = .typed .bool
  positive : 1 ≤ v.strength
  reads : ∃ t, v.code.ReadsAs v.strength t ∧
    ∀ a, valid a → t.eval (table.goEnv a) = some (.bool (truth a))

/-- A value that is read stays so where parentheses are put around it. -/
theorem readsAs_wrapped {v : Value} {t : Go.Term} (h : v.code.ReadsAs v.strength t)
    (hpositive : 1 ≤ v.strength) {least : Nat} (hleast : least ≤ 10) :
    (v.wrapped least).ReadsAs least t := by
  unfold Value.wrapped
  split
  · exact (h.loosen hpositive).paren.loosen hleast
  next hnot => exact h.loosen (Nat.not_lt.mp hnot)

namespace Computes

variable {number m n : Valuation → Int} {v l r : Value}

theorem reads (h : Computes table valid number v) : 1 ≤ v.strength ∧
    ∃ t, v.code.ReadsAs v.strength t ∧
      ∀ a, valid a → t.eval (table.goEnv a) = some (.int (number a)) := by
  cases h with
  | const k hnumber hword =>
    obtain ⟨t, hreads, heval⟩ := Go.Expr.ReadsAs.int k
    refine ⟨?_, t, hreads, fun a ha => ?_⟩
    · unfold Value.ofInt Value.unary Value.atomic
      dsimp only
      split <;> omega
    · rw [heval _ (hword a ha), hnumber]
  | code hpositive hreads heval => exact ⟨hpositive, _, hreads, heval⟩

theorem kind (h : Computes table valid number v) :
    v.kind = .typed .int32 ∨ ∃ k, v.kind = .intConst k := by
  cases h with
  | const k => exact .inr ⟨k, rfl⟩
  | code => exact .inl rfl

/-- Integers keep their code where they are brought to 32 bits. -/
theorem coerce_eq (h : Computes table valid number v) :
    coerce v .int32 = pure ⟨v.code, .typed .int32, v.strength⟩ := by
  cases h with
  | const k => rfl
  | code => rfl

/-- A constant means its number whatever the valuation. -/
theorem eq_of_kind (h : Computes table valid number v) {k : Int} (hk : v.kind = .intConst k)
    (a : Valuation) : number a = k := by
  cases h with
  | const k' hnumber =>
    obtain rfl : k' = k := ValueKind.intConst.inj hk
    exact hnumber a
  | code => cases hk

end Computes

/-- Sums, differences and products of constants are exact. -/
theorem eq_of_foldInt? {op : BinaryOp} (hop : op ∈ [.add, .sub, .mul]) {x y k : Int}
    (h : foldInt? op x y = some k) : op.combines x y = k := by
  simp only [List.mem_cons, List.not_mem_nil, or_false] at hop
  rcases hop with rfl | rfl | rfl
  all_goals
    simp only [foldInt?, Option.ite_none_right_eq_some, Option.some.injEq] at h
    exact h.2

/-- The Go operator of a sum, a difference or a product. -/
theorem arithmetic_operator {op : BinaryOp} (hop : op ∈ [.add, .sub, .mul]) :
    Go.strength? op.goSymbol = some op.precedence ∧ ∀ x y : Int, Go.IsWord (op.combines x y) →
      Go.applyOperator op.goSymbol (.int x) (.int y) = some (.int (op.combines x y)) := by
  simp only [List.mem_cons, List.not_mem_nil, or_false] at hop
  rcases hop with rfl | rfl | rfl
  all_goals
    refine ⟨rfl, fun x y hword => ?_⟩
    rw [← Go.wrap32_of_isWord hword]
    rfl

/-- The types that a condition hints at. -/
def hints : List (Option GoType) :=
  [none, some .bool, some .int32]

namespace Computes

variable {m n : Valuation → Int} {l r : Value}

/-- An operation that is not carried out at once is an operation on words of 32 bits. -/
theorem numericArithmetic_eq (hl : Computes table valid m l) (hr : Computes table valid n r)
    (op : BinaryOp) {hint : Option GoType} (hhint : hint ∈ hints) :
    numericArithmetic op l r hint = pure ⟨.binary op.goSymbol (l.wrapped op.precedence)
      (r.wrapped (op.precedence + 1)), .typed .int32, op.precedence⟩ := by
  have hdecimal : usesDecimal l r = false := by
    rcases hl.kind with hl | ⟨x, hl⟩ <;> rcases hr.kind with hr | ⟨y, hr⟩ <;>
      simp [usesDecimal, Value.hasType, Value.isDecimalConst, hl, hr]
  have htype : arithmeticType l r hint = .int32 := by
    simp only [hints, List.mem_cons, List.not_mem_nil, or_false] at hhint
    rcases hl.kind with hl | ⟨x, hl⟩ <;> rcases hr.kind with hr | ⟨y, hr⟩ <;>
      rcases hhint with rfl | rfl | rfl <;>
      simp [arithmeticType, Value.goType?, Value.isDecimalConst, hl, hr, GoType.widen]
      <;> rfl
  have hmod : (op = .mod && GoType.isFloat .int32) = false := by simp [GoType.isFloat]
  rw [numericArithmetic, hdecimal, if_neg (by decide), htype]
  dsimp only
  rw [hl.coerce_eq, pure_bind, hr.coerce_eq, pure_bind, hmod, if_neg (by decide)]
  rfl

/-- Arithmetic on values that mean numbers is a value that means the result. -/
theorem exists_arithmetic (hl : Computes table valid m l) (hr : Computes table valid n r)
    {op : BinaryOp} (hop : op ∈ [.add, .sub, .mul]) {hint : Option GoType} (hhint : hint ∈ hints)
    (hword : ∀ a, valid a → Go.IsWord (op.combines (m a) (n a))) :
    ∃ v, arithmetic op l r hint = pure v ∧
      Computes table valid (fun a => op.combines (m a) (n a)) v := by
  unfold arithmetic
  split
  next k hfold =>
    unfold foldValues? at hfold
    split at hfold
    next x y hx hy =>
      have hexact (a : Valuation) : op.combines (m a) (n a) = k := by
        rw [hl.eq_of_kind hx, hr.eq_of_kind hy, eq_of_foldInt? hop hfold]
      exact ⟨_, rfl, .const k hexact fun a ha => hexact a ▸ hword a ha⟩
    next => cases hfold
  next =>
    have hnumber : (!l.isNumber || !r.isNumber) = false := by
      rcases hl.kind with hl | ⟨x, hl⟩ <;> rcases hr.kind with hr | ⟨y, hr⟩ <;>
        simp [Value.isNumber, hl, hr, GoType.isNumeric, GoType.isInteger]
    obtain ⟨hlpositive, t, hlreads, hleval⟩ := hl.reads
    obtain ⟨hrpositive, u, hrreads, hreval⟩ := hr.reads
    obtain ⟨hstrength, happly⟩ := arithmetic_operator hop
    have hbounds := Go.strength?_bounds hstrength
    rw [hnumber, if_neg (by decide), hl.numericArithmetic_eq hr op hhint]
    refine ⟨_, rfl, .code hbounds.1 (.binary hstrength (readsAs_wrapped hlreads hlpositive ?_)
      (readsAs_wrapped hrreads hrpositive ?_)) fun a ha => ?_⟩
    · omega
    · omega
    · rw [Go.Term.eval, hleval a ha, hreval a ha]
      exact happly _ _ (hword a ha)

theorem isString_eq {number : Valuation → Int} {v : Value} (h : Computes table valid number v) :
    v.isString = false := by
  rcases h.kind with h | ⟨k, h⟩ <;> simp [Value.isString, h]

theorem goType?_or_mem {number : Valuation → Int} {v : Value} (h : Computes table valid number v)
    {hint : Option GoType} (hhint : hint ∈ hints) : v.goType?.or hint ∈ hints := by
  rcases h.kind with h | ⟨k, h⟩
  · simp [Value.goType?, h, hints]
  · simpa [Value.goType?, h] using hhint

end Computes

/-! ## Integer expressions -/

variable {c : Context} {p : Progress}

theorem runs_lowerVariable {name : String} {symbol : Symbol} (hget : p.symbols.get? name = some symbol) :
    (lowerVariable name).Runs c p (.ofType (.name symbol.goName) symbol.type.go) p := by
  simp only [lowerVariable, lookup, runs_bind, runs_get, runs_ofExcept, runs_pure]
  exact ⟨symbol, p, ⟨p, p, ⟨rfl, rfl⟩, SymbolTable.lookup_eq_ok_iff.mpr hget, rfl⟩, rfl, rfl⟩

/-- An arithmetic operator is applied to the values of its operands. -/
theorem runs_lowerBinary_arithmetic {op : BinaryOp} (hop : op ∈ [.add, .sub, .mul])
    {left right : Pending} {hint : Option GoType} {l r v : Value} (hleft : (left none).Runs c p l p)
    (hright : (right (l.goType?.or hint)).Runs c p r p)
    (hstring : (l.isString || r.isString) = false) (hv : arithmetic op l r hint = pure v) :
    (lowerBinary op left right hint).Runs c p v p := by
  have hclass : op.isLogical = false ∧ op ≠ .like ∧ op ≠ .notLike ∧ op.isComparison = false := by
    simp only [List.mem_cons, List.not_mem_nil, or_false] at hop
    rcases hop with rfl | rfl | rfl <;> decide
  obtain ⟨hlogical, hlike, hnotLike, hcomparison⟩ := hclass
  rw [lowerBinary, hlogical, if_neg (by decide), runs_bind]
  refine ⟨l, p, hleft, ?_⟩
  rw [runs_bind]
  refine ⟨r, p, hright, ?_⟩
  rw [if_neg (by simp [hlike, hnotLike]), hcomparison, if_neg (by decide),
    if_neg (by simp [hstring]), hv, runs_pure]
  exact ⟨rfl, rfl⟩

/-- The valuations under which all numbers of an expression fit. -/
def Admissible (table : SymbolTable) (e : Expr) (a : Valuation) : Prop :=
  table.Assigns a ∧ e.Fits a

theorem Admissible.part {e inner : Expr} (h : inner.walk ⊆ e.walk) {a : Valuation}
    (ha : Admissible table e a) : Admissible table inner a :=
  ⟨ha.1, fun part hpart => ha.2 part (h hpart)⟩

theorem Computes.mono {valid' : Valuation → Prop} {number : Valuation → Int} {v : Value}
    (h : Computes table valid number v) (hvalid : ∀ a, valid' a → valid a) :
    Computes table valid' number v := by
  cases h with
  | const n hnumber hword => exact .const n hnumber fun a ha => hword a (hvalid a ha)
  | code hpositive hreads heval => exact .code hpositive hreads fun a ha => heval a (hvalid a ha)

/-- An integer expression becomes a value that means its number. -/
theorem exists_computes (hbuilt : p.symbols.Built) {e : Expr} (he : e.IsTerm p.symbols)
    {hint : Option GoType} (hhint : hint ∈ hints) :
    ∃ v, (lowerExpr e hint).Runs c p v p ∧
      Computes p.symbols (Admissible p.symbols e) (fun a => e.number a) v := by
  induction he generalizing hint with
  | literal n =>
    refine ⟨.ofInt n, ?_, .const n (fun _ => rfl) fun a ha => ha.2 (.ofInt n) (by simp [Expr.ofInt, Expr.walk])⟩
    rw [Expr.ofInt, lowerExpr, runs_pure]
    exact ⟨rfl, rfl⟩
  | @«variable» name symbol hget htype =>
    refine ⟨_, ?_, .code (by decide) (.name (hbuilt.isName symbol (List.mem_of_find?_eq_some hget))) fun a _ => ?_⟩
    · rw [lowerExpr, ← htype]
      exact runs_lowerVariable hget
    · rw [Go.Term.eval, SymbolTable.goEnv_goName hbuilt hget, htype]
      rfl
  | @binary op left right hop _ _ ihleft ihright =>
    obtain ⟨l, hleft, hl⟩ := @ihleft none (by decide)
    obtain ⟨r, hright, hr⟩ := ihright (hl.goType?_or_mem hhint)
    have hleftPart : left.walk ⊆ (Expr.binary op left right).walk :=
      List.subset_cons_of_subset _ (List.subset_append_left _ _)
    have hrightPart : right.walk ⊆ (Expr.binary op left right).walk :=
      List.subset_cons_of_subset _ (List.subset_append_right _ _)
    replace hl : Computes p.symbols (Admissible p.symbols (.binary op left right)) _ l :=
      hl.mono fun a => Admissible.part hleftPart
    replace hr : Computes p.symbols (Admissible p.symbols (.binary op left right)) _ r :=
      hr.mono fun a => Admissible.part hrightPart
    obtain ⟨v, harithmetic, hv⟩ := hl.exists_arithmetic hr hop hhint fun a ha =>
      ha.2 (.binary op left right) (by simp [Expr.walk])
    refine ⟨v, ?_, hv⟩
    rw [lowerExpr]
    exact runs_lowerBinary_arithmetic hop hleft hright (by simp [hl.isString_eq, hr.isString_eq])
      harithmetic

/-! ## Truth values -/

/-- The Go operator of a conjunction or disjunction. -/
theorem logical_operator {op : BinaryOp} (hop : op ∈ [.and, .or]) :
    op.goSymbol ∈ ["||", "&&"] ∧ Go.strength? op.goSymbol = some op.precedence ∧
      ∀ x y : Bool, Go.applyOperator op.goSymbol (.bool x) (.bool y) =
        some (.bool (op.joins x y)) := by
  simp only [List.mem_cons, List.not_mem_nil, or_false] at hop
  rcases hop with rfl | rfl <;> exact ⟨by decide, rfl, fun _ _ => rfl⟩

namespace Decides

variable {truth s t : Valuation → Bool} {v : Value}

theorem mono {valid' : Valuation → Prop} (h : Decides table valid truth v)
    (hvalid : ∀ a, valid' a → valid a) : Decides table valid' truth v := by
  obtain ⟨hkind, hpositive, t, hreads, heval⟩ := h
  exact ⟨hkind, hpositive, t, hreads, fun a ha => heval a (hvalid a ha)⟩

theorem congr {truth' : Valuation → Bool} (h : Decides table valid truth v)
    (htruth : ∀ a, valid a → truth a = truth' a) : Decides table valid truth' v := by
  obtain ⟨hkind, hpositive, t, hreads, heval⟩ := h
  exact ⟨hkind, hpositive, t, hreads, fun a ha => htruth a ha ▸ heval a ha⟩

/-- Truth values stay what they are where a truth value is asked for. -/
theorem coerce_eq (h : Decides table valid truth v) : coerce v .bool = pure v := by
  have hnull : (v.kind == .null) = false := by rw [h.kind]; rfl
  have hbool : v.hasType .bool = true := by rw [Value.hasType, h.kind]; rfl
  rw [coerce, hnull, hbool]
  rfl

theorem negated (h : Decides table valid truth v) :
    Decides table valid (fun a => !truth a) v.negated := by
  obtain ⟨hkind, hpositive, t, hreads, heval⟩ := h
  have hunary : 1 ≤ Value.unary := by decide
  refine ⟨rfl, hunary, _, (readsAs_wrapped hreads hpositive (by decide)).not, fun a ha => ?_⟩
  rw [Go.Term.eval, heval a ha]
  rfl

/-- Conjunctions and disjunctions of operands that are read at the strength of the operator. -/
theorem join {op : BinaryOp} (hop : op ∈ [.and, .or]) {left right : Go.Expr}
    (hl : ∃ x, left.ReadsAs op.precedence x ∧
      ∀ a, valid a → x.eval (table.goEnv a) = some (.bool (s a)))
    (hr : ∃ y, right.ReadsAs op.precedence y ∧
      ∀ a, valid a → y.eval (table.goEnv a) = some (.bool (t a))) :
    Decides table valid (fun a => op.joins (s a) (t a))
      (.ofBool (.binary op.goSymbol left right) op.precedence) := by
  obtain ⟨x, hxreads, hxeval⟩ := hl
  obtain ⟨y, hyreads, hyeval⟩ := hr
  obtain ⟨hlogical, hstrength, happly⟩ := logical_operator hop
  obtain ⟨whole, hreads, heval⟩ := Go.Expr.ReadsAs.join hlogical hstrength hxreads hyreads
  refine ⟨rfl, (Go.strength?_bounds hstrength).1, whole, hreads, fun a ha => ?_⟩
  rw [heval, Go.Term.eval, hxeval a ha, hyeval a ha]
  exact happly _ _

/-- Operands of a conjunction or disjunction are put into parentheses where they need them. -/
theorem exists_wrapped (h : Decides table valid truth v) {least : Nat} (hleast : least ≤ 10) :
    ∃ t, (v.wrapped least).ReadsAs least t ∧
      ∀ a, valid a → t.eval (table.goEnv a) = some (.bool (truth a)) := by
  obtain ⟨-, hpositive, t, hreads, heval⟩ := h
  exact ⟨t, readsAs_wrapped hreads hpositive hleast, heval⟩

end Decides

/-! ## Comparisons -/

/-- The Go operator of a comparison. -/
theorem comparison_operator {op : BinaryOp} (hop : op.isComparison = true) :
    Go.strength? op.goSymbol = some 3 ∧
      ∀ x y : Int, Go.applyOperator op.goSymbol (.int x) (.int y) =
        some (.bool (op.compares x y)) := by
  cases op <;> first | exact ⟨rfl, fun _ _ => rfl⟩ | cases hop

namespace Computes

variable {m n : Valuation → Int} {l r : Value}

theorem compare_eq (hl : Computes table valid m l) (hr : Computes table valid n r)
    (op : BinaryOp) : compare op l r = pure (comparison op l r) := by
  unfold compare compareNumbers
  rcases hl.kind with hl | ⟨x, hl⟩ <;> rcases hr.kind with hr | ⟨y, hr⟩ <;>
    simp [Value.goType?, Value.isNumber, usesDecimal, Value.hasType, Value.isDecimalConst, hl, hr,
      GoType.isNumeric, GoType.isInteger]

/-- A comparison of values that mean numbers means the comparison of the numbers. -/
theorem decides_comparison (hl : Computes table valid m l) (hr : Computes table valid n r)
    {op : BinaryOp} (hop : op.isComparison = true) :
    Decides table valid (fun a => op.compares (m a) (n a)) (comparison op l r) := by
  obtain ⟨hlpositive, t, hlreads, hleval⟩ := hl.reads
  obtain ⟨hrpositive, u, hrreads, hreval⟩ := hr.reads
  obtain ⟨hstrength, happly⟩ := comparison_operator hop
  have hleft := readsAs_wrapped hlreads hlpositive (by decide : 4 ≤ 10)
  have hright := readsAs_wrapped hrreads hrpositive (by decide : 4 ≤ 10)
  refine ⟨rfl, (Go.strength?_bounds hstrength).1, .binary op.goSymbol t u,
    .binary hstrength (hleft.loosen (by decide : 3 ≤ 4)) hright, fun a ha => ?_⟩
  rw [Go.Term.eval, hleval a ha, hreval a ha]
  exact happly _ _

end Computes

/-- A comparison is made between the values of its operands. -/
theorem runs_lowerBinary_comparison {op : BinaryOp} (hop : op.isComparison = true)
    {left right : Pending} {hint : Option GoType} {l r v : Value} (hleft : (left none).Runs c p l p)
    (hright : (right (l.goType?.or hint)).Runs c p r p) (hv : compare op l r = pure v) :
    (lowerBinary op left right hint).Runs c p v p := by
  have hclass : op.isLogical = false ∧ op ≠ .like ∧ op ≠ .notLike := by
    cases op <;> first | decide | cases hop
  obtain ⟨hlogical, hlike, hnotLike⟩ := hclass
  rw [lowerBinary, hlogical, if_neg (by decide), runs_bind]
  refine ⟨l, p, hleft, ?_⟩
  rw [runs_bind]
  refine ⟨r, p, hright, ?_⟩
  rw [if_neg (by simp [hlike, hnotLike]), hop, if_pos rfl, hv, runs_pure]
  exact ⟨rfl, rfl⟩

/-! ## Bits -/

/-- A variable of one bit is a truth value that says whether it is set. -/
theorem exists_bit (hbuilt : p.symbols.Built) {e : Expr} (he : e.IsBit p.symbols)
    (hint : Option GoType) : ∃ v, (lowerExpr e hint).Runs c p v p ∧
      Decides p.symbols p.symbols.Assigns (fun a => e.number a != 0) v ∧
      ∀ a, p.symbols.Assigns a → e.number a ∈ [0, 1] := by
  obtain ⟨hget, htype⟩ := he
  next name symbol =>
  have hmem := List.mem_of_find?_eq_some hget
  have hkey : symbol.key = foldName name := by simpa using List.find?_some hget
  refine ⟨.ofType (.name symbol.goName) .bool, ?_, ⟨rfl, ?_, _, .name (hbuilt.isName symbol hmem),
    fun a _ => ?_⟩, fun a ha => ?_⟩
  · rw [lowerExpr, ← htype]
    exact runs_lowerVariable hget
  · exact (by decide : 1 ≤ Value.atomic)
  · rw [Go.Term.eval, SymbolTable.goEnv_goName hbuilt hget, htype]
    rfl
  · rw [Expr.number, ← hkey]
    exact ha symbol hmem htype

/-- Equality and inequality of truth values. -/
def sameTruth (op : BinaryOp) (s t : Bool) : Bool :=
  if op = .eq then s == t else s != t

/-- Bits are equal exactly when both or none are set. -/
theorem compares_bits {op : BinaryOp} (hop : op ∈ [.eq, .notEq]) {x y : Int} (hx : x ∈ [0, 1])
    (hy : y ∈ [0, 1]) : sameTruth op (x != 0) (y != 0) = op.compares x y := by
  simp only [List.mem_cons, List.not_mem_nil, or_false] at hop hx hy
  rcases hop with rfl | rfl <;> rcases hx with rfl | rfl <;> rcases hy with rfl | rfl <;> rfl

theorem compare_eq_compareBool (op : BinaryOp) {l r : Value} (hl : l.kind ≠ .null)
    (hr : r.kind ≠ .null) (hbool : l.goType? = some .bool ∨ r.goType? = some .bool) :
    compare op l r = compareBool op l r := by
  have heither : (l.goType? == some .bool || r.goType? == some .bool) = true := by
    simpa using hbool
  rw [compare, if_neg (by simpa using hr), if_neg (by simpa using hl), if_pos heither]

theorem isEquality {op : BinaryOp} (hop : op ∈ [.eq, .notEq]) :
    (op ≠ .eq && op ≠ .notEq) = false := by
  simp only [List.mem_cons, List.not_mem_nil, or_false] at hop
  rcases hop with rfl | rfl <;> rfl

namespace Decides

variable {s t : Valuation → Bool} {l r : Value}

theorem goType?_eq (h : Decides table valid s l) : l.goType? = some .bool := by
  rw [Value.goType?, h.kind]

theorem kind_ne_null (h : Decides table valid s l) : l.kind ≠ .null := by
  rw [h.kind]
  exact nofun

theorem bitConst?_eq (h : Decides table valid s l) : bitConst? l = none := by
  rw [bitConst?, h.kind]

/-- Truth values are compared by the operators of Go. -/
theorem exists_compare (hl : Decides table valid s l) (hr : Decides table valid t r)
    {op : BinaryOp} (hop : op ∈ [.eq, .notEq]) : ∃ v, compare op l r = pure v ∧
      Decides table valid (fun a => sameTruth op (s a) (t a)) v := by
  refine ⟨comparison op l r, ?_, ?_⟩
  · rw [compare_eq_compareBool op hl.kind_ne_null hr.kind_ne_null (.inl hl.goType?_eq),
      compareBool, isEquality hop, if_neg (by decide), hl.bitConst?_eq, hr.bitConst?_eq]
    dsimp only
    rw [hl.coerce_eq, pure_bind, hr.coerce_eq, pure_bind]
  obtain ⟨x, hleft, hxeval⟩ := hl.exists_wrapped (by decide : 4 ≤ 10)
  obtain ⟨y, hright, hyeval⟩ := hr.exists_wrapped (by decide : 4 ≤ 10)
  have hoperator : Go.strength? op.goSymbol = some 3 ∧ ∀ x y : Bool,
      Go.applyOperator op.goSymbol (.bool x) (.bool y) = some (.bool (sameTruth op x y)) := by
    simp only [List.mem_cons, List.not_mem_nil, or_false] at hop
    rcases hop with rfl | rfl <;> exact ⟨rfl, fun _ _ => rfl⟩
  obtain ⟨hstrength, happly⟩ := hoperator
  refine ⟨rfl, (Go.strength?_bounds hstrength).1, .binary op.goSymbol x y,
    .binary hstrength (hleft.loosen (by decide : 3 ≤ 4)) hright, fun a ha => ?_⟩
  rw [Go.Term.eval, hxeval a ha, hyeval a ha]
  exact happly _ _

/-- A truth value compared with a constant is itself or its negation. -/
theorem exists_compare_const (hl : Decides table valid s l) {op : BinaryOp}
    (hop : op ∈ [.eq, .notEq]) (n : Int) : ∃ v, compare op l (.ofInt n) = pure v ∧
      compare op (.ofInt n) l = pure v ∧
      Decides table valid (fun a => sameTruth op (s a) (n != 0)) v := by
  have hconst : compareConst op l (n != 0) =
      pure (if (n != 0) == (op == .eq) then l else l.negated) := by
    rw [compareConst, hl.coerce_eq, pure_bind]
  have hint : (Value.ofInt n).kind ≠ .null := nofun
  have hbit : bitConst? (.ofInt n) = some (n != 0) := rfl
  refine ⟨if (n != 0) == (op == .eq) then l else l.negated, ?_, ?_, ?_⟩
  · rw [compare_eq_compareBool op hl.kind_ne_null hint (.inl hl.goType?_eq), compareBool,
      isEquality hop, if_neg (by decide), hl.bitConst?_eq, hbit]
    exact hconst
  · rw [compare_eq_compareBool op hint hl.kind_ne_null (.inr hl.goType?_eq), compareBool,
      isEquality hop, if_neg (by decide), hl.bitConst?_eq, hbit]
    exact hconst
  · have hcases : op = .eq ∨ op = .notEq := by simpa using hop
    cases hset : (n != 0) <;> rcases hcases with rfl | rfl
    · exact hl.negated.congr fun a _ => by simp [sameTruth]
    · exact hl.congr fun a _ => by simp [sameTruth]
    · exact hl.congr fun a _ => by simp [sameTruth]
    · exact hl.negated.congr fun a _ => by simp [sameTruth]

end Decides

/-! ## Lists and intervals -/

/-- The operator that joins the comparisons with the members of a list. -/
def memberOperator (negated : Bool) : BinaryOp :=
  if negated then .and else .or

theorem memberOperator_mem (negated : Bool) : memberOperator negated ∈ [.and, .or] := by
  cases negated <;> decide

/-- The comparison with each member of a list. -/
def memberComparison (negated : Bool) : BinaryOp :=
  if negated then .notEq else .eq

theorem memberComparison_compares (negated : Bool) (x y : Int) :
    (memberComparison negated).compares x y = ((x == y) != negated) := by
  cases negated
  · exact (Bool.xor_false _).symm
  · exact (Bool.xor_true _).symm

/-- Values that mean the comparisons of a number with the members of a list, as strong as
comparisons are. -/
abbrev DecideMembers (table : SymbolTable) (valid : Valuation → Prop) (negated : Bool)
    (subject : Valuation → Int) : List Expr → List Value → Prop :=
  List.Forall₂ fun e v => v.strength = Value.comparison ∧
    Decides table valid (fun a => (subject a == e.number a) != negated) v

/-- The truth of one comparison joined with that of the others. -/
theorem joins_member (negated s t : Bool) :
    (memberOperator negated).joins (s != negated) (t != negated) = ((s || t) != negated) := by
  cases negated <;> cases s <;> cases t <;> rfl

/-- Comparisons with the members of a list, joined, are read as one truth value. -/
theorem exists_chain {negated : Bool} {subject : Valuation → Int} {e : Expr} {list : List Expr}
    {v : Value} {tests : List Value}
    (h : DecideMembers table valid negated subject (e :: list) (v :: tests)) :
    ∃ t, (Go.Expr.chain (memberOperator negated).goSymbol ((v :: tests).map
        (·.wrapped (memberOperator negated).precedence))).ReadsAs
          (memberOperator negated).precedence t ∧
      ∀ a, valid a → t.eval (table.goEnv a) =
        some (.bool (((e :: list).any fun e => subject a == e.number a) != negated)) := by
  have hprecedence : (memberOperator negated).precedence ≤ 10 := by cases negated <;> decide
  induction tests generalizing e list v with
  | nil =>
    obtain ⟨⟨-, hv⟩, hnil⟩ := List.forall₂_cons.mp h
    obtain rfl := List.forall₂_nil_right_iff.mp hnil
    obtain ⟨t, hreads, heval⟩ := hv.exists_wrapped hprecedence
    refine ⟨t, hreads.congr (Go.Expr.render_chain_singleton _ _), fun a ha => ?_⟩
    simpa using heval a ha
  | cons next rest ih =>
    obtain ⟨⟨-, hv⟩, hrest⟩ := List.forall₂_cons.mp h
    obtain ⟨e', list', hnext, hothers, rfl⟩ := List.forall₂_cons_right_iff.mp hrest
    obtain ⟨x, hreads, heval⟩ := hv.exists_wrapped hprecedence
    obtain ⟨y, hreads', heval'⟩ := ih hrest
    -- The first comparison is joined with the chain of the others.
    obtain ⟨hlogical, hstrength, happly⟩ := logical_operator (memberOperator_mem negated)
    obtain ⟨whole, hwhole, hjoin⟩ := Go.Expr.ReadsAs.join hlogical hstrength hreads hreads'
    refine ⟨whole, hwhole.congr (Go.Expr.render_chain_cons _ _ _ _), fun a ha => ?_⟩
    rw [hjoin, Go.Term.eval, heval a ha, heval' a ha]
    exact (happly _ _).trans (congrArg (some ∘ Go.Datum.bool) (joins_member negated _ _))

/-- Membership in a list means that the number is among those of the members. -/
theorem decides_lowerMember {negated : Bool} {subject : Valuation → Int} {list : List Expr}
    {tests : List Value} (hne : list ≠ [])
    (h : DecideMembers table valid negated subject list tests) :
    Decides table valid (fun a => (list.any fun e => subject a == e.number a) != negated)
      (lowerMember negated tests) := by
  have heq : lowerMember negated tests =
      .ofBool (.chain (memberOperator negated).goSymbol
          (tests.map (·.wrapped (memberOperator negated).precedence)))
        (if tests.length > 1 then (memberOperator negated).precedence else Value.comparison) := by
    cases negated <;> rfl
  obtain ⟨e, list, rfl⟩ := List.exists_cons_of_ne_nil hne
  obtain ⟨v, tests, ⟨hstrength, hv⟩, hrest, rfl⟩ := List.forall₂_cons_left_iff.mp h
  rw [heq]
  by_cases hlength : (v :: tests).length > 1
  · obtain ⟨t, hreads, heval⟩ := exists_chain h
    rw [if_pos hlength]
    have hpositive : 1 ≤ (memberOperator negated).precedence := by cases negated <;> decide
    exact ⟨rfl, hpositive, t, hreads, heval⟩
  · -- A single comparison stands for itself, and needs no parentheses.
    obtain rfl : tests = [] := by
      apply List.eq_nil_of_length_eq_zero
      rw [List.length_cons] at hlength
      omega
    obtain rfl := List.forall₂_nil_right_iff.mp hrest
    have hplain : v.wrapped (memberOperator negated).precedence = v.code := by
      rw [Value.wrapped, hstrength]
      cases negated <;> rfl
    obtain ⟨-, -, t, hreads, heval⟩ := hv
    rw [if_neg hlength]
    refine ⟨rfl, (by decide : 1 ≤ Value.comparison), t, ?_, fun a ha => ?_⟩
    · rw [hstrength] at hreads
      apply hreads.congr
      rw [Value.ofBool, List.map_singleton, hplain, Go.Expr.render_chain_singleton]
    · simpa using heval a ha

/-- A number is compared with each member of a list. -/
theorem exists_members (hbuilt : p.symbols.Built) (negated : Bool) {subject : Value}
    {number : Valuation → Int} (hsubject : Computes p.symbols valid number subject)
    {list : List Expr} (hlist : ∀ e ∈ list, e.IsTerm p.symbols)
    (hvalid : ∀ e ∈ list, ∀ a, valid a → Admissible p.symbols e a) :
    ∃ tests, (lowerMembers (memberComparison negated) subject list).Runs c p tests p ∧
      DecideMembers p.symbols valid negated number list tests := by
  have hhint : subject.goType? ∈ hints := by
    simpa using hsubject.goType?_or_mem (show none ∈ hints by decide)
  have hcomparison : (memberComparison negated).isComparison = true := by cases negated <;> rfl
  induction list with
  | nil =>
    refine ⟨[], ?_, .nil⟩
    rw [lowerMembers, runs_pure]
    exact ⟨rfl, rfl⟩
  | cons e rest ih =>
    obtain ⟨hterm, hrest⟩ := List.forall_mem_cons.mp hlist
    obtain ⟨hadmissible, hvalid'⟩ := List.forall_mem_cons.mp hvalid
    obtain ⟨v, hv, hcomputes⟩ := exists_computes (c := c) hbuilt hterm hhint
    obtain ⟨tests, htests, hdecide⟩ := ih hrest hvalid'
    have hmember := hsubject.decides_comparison (hcomputes.mono hadmissible) hcomparison
    refine ⟨comparison (memberComparison negated) subject v :: tests, ?_,
      .cons ⟨rfl, hmember.congr fun a _ => memberComparison_compares negated _ _⟩ hdecide⟩
    rw [lowerMembers, runs_bind]
    refine ⟨v, p, hv, ?_⟩
    rw [hsubject.compare_eq (hcomputes.mono hadmissible), pure_bind, runs_bind]
    exact ⟨tests, p, htests, runs_pure.mpr ⟨rfl, rfl⟩⟩

/-- Membership in an interval means that the number lies between the bounds. -/
theorem exists_between {m l h : Valuation → Int} {subject low high : Value}
    (hsubject : Computes table valid m subject) (hlow : Computes table valid l low)
    (hhigh : Computes table valid h high) (negated : Bool) :
    ∃ v, lowerBetween negated subject low high = pure v ∧
      Decides table valid (fun a => (l a ≤ m a && m a ≤ h a) != negated) v := by
  have hlower : Decides table valid (fun a => BinaryOp.gtEq.compares (m a) (l a)) _ :=
    hsubject.decides_comparison hlow rfl
  have hupper : Decides table valid (fun a => BinaryOp.ltEq.compares (m a) (h a)) _ :=
    hsubject.decides_comparison hhigh rfl
  have hboth : Decides table valid (fun a => BinaryOp.and.joins _ _) _ :=
    Decides.join (by decide) (hlower.exists_wrapped (by decide)) (hupper.exists_wrapped (by decide))
  rw [lowerBetween, hsubject.compare_eq hlow, pure_bind, hsubject.compare_eq hhigh, pure_bind]
  refine ⟨_, rfl, ?_⟩
  cases negated with
  | false => exact hboth.congr fun a _ => by simp [BinaryOp.joins, BinaryOp.compares]
  | true => exact hboth.negated.congr fun a _ => by simp [BinaryOp.joins, BinaryOp.compares]

/-! ## Conditions -/

/-- A conjunction or disjunction joins the values of its operands. -/
theorem exists_logical {op : BinaryOp} (hop : op ∈ [.and, .or]) {left right : Pending} {l r : Value}
    {s t : Valuation → Bool} (hleft : (left (some .bool)).Runs c p l p)
    (hright : (right (some .bool)).Runs c p r p) (hl : Decides p.symbols valid s l)
    (hr : Decides p.symbols valid t r) (hint : Option GoType) :
    ∃ v, (lowerBinary op left right hint).Runs c p v p ∧
      Decides p.symbols valid (fun a => op.joins (s a) (t a)) v := by
  have hlogical : op.isLogical = true := by
    simp only [List.mem_cons, List.not_mem_nil, or_false] at hop
    rcases hop with rfl | rfl <;> rfl
  have hprecedence : op.precedence ≤ 10 := by
    have := Go.strength?_bounds (logical_operator hop).2.1
    omega
  refine ⟨_, ?_, Decides.join hop (hl.exists_wrapped hprecedence) (hr.exists_wrapped hprecedence)⟩
  rw [lowerBinary, if_pos hlogical, lowerLogical, runs_bind]
  refine ⟨l, p, hleft, ?_⟩
  rw [hl.coerce_eq, pure_bind, runs_bind]
  refine ⟨r, p, hright, ?_⟩
  rw [hr.coerce_eq, pure_bind, runs_pure]
  exact ⟨rfl, rfl⟩

/-- Comparisons of numbers are conditions. -/
theorem exists_comparison (hbuilt : p.symbols.Built) {op : BinaryOp} (hop : op.isComparison = true)
    {left right : Expr} (hleft : left.IsTerm p.symbols) (hright : right.IsTerm p.symbols) :
    ∃ v, (lowerExpr (.binary op left right) (some .bool)).Runs c p v p ∧
      Decides p.symbols (Admissible p.symbols (.binary op left right))
        (fun a => op.compares (left.number a) (right.number a)) v := by
  obtain ⟨l, hlruns, hl⟩ := exists_computes (c := c) hbuilt hleft (show none ∈ hints by decide)
  obtain ⟨r, hrruns, hr⟩ := exists_computes (c := c) hbuilt hright
    (hl.goType?_or_mem (show some .bool ∈ hints by decide))
  replace hl : Computes p.symbols (Admissible p.symbols (.binary op left right)) _ l :=
    hl.mono fun a => Admissible.part
      (List.subset_cons_of_subset _ (List.subset_append_left _ _))
  replace hr : Computes p.symbols (Admissible p.symbols (.binary op left right)) _ r :=
    hr.mono fun a => Admissible.part
      (List.subset_cons_of_subset _ (List.subset_append_right _ _))
  refine ⟨_, ?_, hl.decides_comparison hr hop⟩
  rw [lowerExpr]
  exact runs_lowerBinary_comparison hop hlruns hrruns (hl.compare_eq hr op)

/-- Equality and inequality of bits are comparisons. -/
theorem isComparison_of_mem {op : BinaryOp} (hop : op ∈ [.eq, .notEq]) :
    op.isComparison = true ∧ op.isLogical = false := by
  simp only [List.mem_cons, List.not_mem_nil, or_false] at hop
  rcases hop with rfl | rfl <;> exact ⟨rfl, rfl⟩

theorem compares_comm {op : BinaryOp} (hop : op ∈ [.eq, .notEq]) (x y : Int) :
    op.compares x y = op.compares y x := by
  simp only [List.mem_cons, List.not_mem_nil, or_false] at hop
  rcases hop with rfl | rfl
  · exact BEq.comm
  · exact bne_comm

/-- A condition becomes a value that means its truth. -/
theorem exists_decides (hbuilt : p.symbols.Built) {e : Expr} (he : e.IsCondition p.symbols) :
    ∃ v, (lowerExpr e (some .bool)).Runs c p v p ∧
      Decides p.symbols (Admissible p.symbols e) (fun a => e.holds a) v := by
  induction he with
  | @logical op left right hop _ _ ihleft ihright =>
    obtain ⟨l, hleft, hl⟩ := ihleft
    obtain ⟨r, hright, hr⟩ := ihright
    have hlogical : op.isLogical = true := by
      simp only [List.mem_cons, List.not_mem_nil, or_false] at hop
      rcases hop with rfl | rfl <;> rfl
    replace hl : Decides p.symbols (Admissible p.symbols (.binary op left right)) _ l :=
      hl.mono fun a => Admissible.part
        (List.subset_cons_of_subset _ (List.subset_append_left _ _))
    replace hr : Decides p.symbols (Admissible p.symbols (.binary op left right)) _ r :=
      hr.mono fun a => Admissible.part
        (List.subset_cons_of_subset _ (List.subset_append_right _ _))
    obtain ⟨v, hv, hdecides⟩ := exists_logical hop hleft hright hl hr (some .bool)
    refine ⟨v, by rwa [lowerExpr], hdecides.congr fun a _ => ?_⟩
    rw [Expr.holds, if_pos hlogical]
  | @not operand _ ih =>
    obtain ⟨v, hv, hdecides⟩ := ih
    replace hdecides : Decides p.symbols (Admissible p.symbols (.unary .not operand)) _ v :=
      hdecides.mono fun a => Admissible.part (List.subset_cons_self _ _)
    refine ⟨v.negated, ?_, hdecides.negated⟩
    rw [lowerExpr, runs_bind]
    refine ⟨v, p, hv, ?_⟩
    rw [lowerUnary, hdecides.coerce_eq, pure_bind, runs_pure]
    exact ⟨rfl, rfl⟩
  | @comparison op left right hop hleft hright =>
    obtain ⟨v, hv, hdecides⟩ := exists_comparison (c := c) hbuilt hop hleft hright
    have hlogical : op.isLogical = false := by cases op <;> first | rfl | cases hop
    refine ⟨v, hv, hdecides.congr fun a _ => ?_⟩
    rw [Expr.holds, hlogical, if_neg (by decide)]
  | @between operand low high negated hoperand hlow hhigh =>
    obtain ⟨m, hmruns, hm⟩ := exists_computes (c := c) hbuilt hoperand (show none ∈ hints by decide)
    have hhint : m.goType? ∈ hints := by
      simpa using hm.goType?_or_mem (show none ∈ hints by decide)
    obtain ⟨l, hlruns, hl⟩ := exists_computes (c := c) hbuilt hlow hhint
    obtain ⟨h, hhruns, hh⟩ := exists_computes (c := c) hbuilt hhigh hhint
    have hpart {inner : Expr} (hinner : inner ∈ [operand, low, high]) :
        inner.walk ⊆ (Expr.between operand low high negated).walk := by
      simp only [List.mem_cons, List.not_mem_nil, or_false] at hinner
      intro x hx
      rcases hinner with rfl | rfl | rfl <;> simp [Expr.walk, hx]
    obtain ⟨v, hv, hdecides⟩ := exists_between
      (hm.mono fun a => Admissible.part (hpart (by simp)))
      (hl.mono fun a => Admissible.part (hpart (by simp)))
      (hh.mono fun a => Admissible.part (hpart (by simp))) negated
    refine ⟨v, ?_, hdecides.congr fun a _ => ?_⟩
    · rw [lowerExpr, runs_bind]
      refine ⟨m, p, hmruns, ?_⟩
      rw [runs_bind]
      refine ⟨l, p, hlruns, ?_⟩
      rw [runs_bind]
      refine ⟨h, p, hhruns, ?_⟩
      rw [hv, runs_pure]
      exact ⟨rfl, rfl⟩
    · rw [Expr.holds]
  | @inList operand list negated hoperand hne hlist =>
    obtain ⟨m, hmruns, hm⟩ := exists_computes (c := c) hbuilt hoperand (show none ∈ hints by decide)
    replace hm : Computes p.symbols (Admissible p.symbols (.inList operand list negated)) _ m :=
      hm.mono fun a => Admissible.part
        (List.subset_cons_of_subset _ (List.subset_append_left _ _))
    have hmember (e : Expr) (he : e ∈ list) (a : Valuation)
        (ha : Admissible p.symbols (.inList operand list negated) a) :
        Admissible p.symbols e a := by
      refine Admissible.part (fun x hx => ?_) ha
      rw [Expr.walk]
      exact List.mem_cons_of_mem _ (List.mem_append_right _ (mem_walkList.mpr ⟨e, he, hx⟩))
    obtain ⟨tests, htests, hdecide⟩ := exists_members (c := c) hbuilt negated hm hlist hmember
    refine ⟨lowerMember negated tests, ?_, (decides_lowerMember hne hdecide).congr fun a _ => ?_⟩
    · rw [lowerExpr, runs_bind]
      refine ⟨m, p, hmruns, ?_⟩
      rw [runs_bind]
      exact ⟨tests, p, htests, runs_pure.mpr ⟨rfl, rfl⟩⟩
    · rw [Expr.holds]
  | @bits op left right hop hleft hright =>
    obtain ⟨hcomparison, hlogical⟩ := isComparison_of_mem hop
    obtain ⟨l, hlruns, hl, hlbit⟩ := exists_bit (c := c) hbuilt hleft none
    obtain ⟨r, hrruns, hr, hrbit⟩ := exists_bit (c := c) hbuilt hright (l.goType?.or (some .bool))
    obtain ⟨v, hv, hdecides⟩ := hl.exists_compare hr hop
    refine ⟨v, ?_, (hdecides.mono fun a ha => ha.1).congr fun a ha => ?_⟩
    · rw [lowerExpr]
      exact runs_lowerBinary_comparison hcomparison hlruns hrruns hv
    · rw [Expr.holds, hlogical, if_neg (by decide), compares_bits hop (hlbit a ha.1) (hrbit a ha.1)]
  | @bitConst op left n hop hleft hn =>
    obtain ⟨hcomparison, hlogical⟩ := isComparison_of_mem hop
    obtain ⟨l, hlruns, hl, hlbit⟩ := exists_bit (c := c) hbuilt hleft none
    obtain ⟨v, hv, -, hdecides⟩ := hl.exists_compare_const hop n
    refine ⟨v, ?_, (hdecides.mono fun a ha => ha.1).congr fun a ha => ?_⟩
    · rw [lowerExpr]
      refine runs_lowerBinary_comparison hcomparison hlruns ?_ hv
      rw [Expr.ofInt, lowerExpr, runs_pure]
      exact ⟨rfl, rfl⟩
    · rw [Expr.holds, hlogical, if_neg (by decide), compares_bits hop (hlbit a ha.1) hn]
      rfl
  | @constBit op right n hop hn hright =>
    obtain ⟨hcomparison, hlogical⟩ := isComparison_of_mem hop
    obtain ⟨r, hrruns, hr, hrbit⟩ := exists_bit (c := c) hbuilt hright (some .bool)
    obtain ⟨v, -, hv, hdecides⟩ := hr.exists_compare_const hop n
    refine ⟨v, ?_, (hdecides.mono fun a ha => ha.1).congr fun a ha => ?_⟩
    · rw [lowerExpr]
      refine runs_lowerBinary_comparison (l := .ofInt n) hcomparison ?_ hrruns hv
      rw [Expr.ofInt, lowerExpr, runs_pure]
      exact ⟨rfl, rfl⟩
    · rw [Expr.holds, hlogical, if_neg (by decide), compares_bits hop (hrbit a ha.1) hn,
        compares_comm hop]
      rfl

/-- The text of a condition is read, and has the truth value of the condition under every assignment
of the variables for which all numbers fit. Nothing is written in front of it. -/
theorem condition_meaning (c : Context) {p : Progress} (hbuilt : p.symbols.Built) {e : Expr}
    (he : e.IsCondition p.symbols) :
    ∃ code, (lowerCondition e).Runs c p code p ∧ ∃ t, Go.read code.render = some t ∧
      ∀ a : Valuation, p.symbols.Assigns a → e.Fits a →
        t.eval (p.symbols.goEnv a) = some (.bool (e.holds a)) := by
  obtain ⟨v, hv, hdecides⟩ := exists_decides (c := c) hbuilt he
  have hruns : (lowerCondition e).Runs c p v.code p := by
    rw [lowerCondition, lowerValue, runs_bind]
    refine ⟨v, p, hv, ?_⟩
    rw [hdecides.coerce_eq, pure_bind, runs_pure]
    exact ⟨rfl, rfl⟩
  obtain ⟨-, -, t, hreads, heval⟩ := hdecides
  refine ⟨v.code, hruns, t, hreads.read_eq, fun a hassigns hfits => ?_⟩
  exact heval a ⟨hassigns, hfits⟩

/-- A counter and a bit. -/
def waitTable : SymbolTable :=
  { symbols := [⟨"@Count", "count", ⟨.int32, "INT"⟩, .declared⟩,
      ⟨"@Done", "done", ⟨.bool, "BIT"⟩, .declared⟩] }

theorem built_waitTable : waitTable.Built := by
  have hcount : ({} : SymbolTable).declare "@Count" "INT" .declared =
      .ok (⟨"@Count", "count", ⟨.int32, "INT"⟩, .declared⟩,
        { symbols := waitTable.symbols.take 1 }) :=
    SymbolTable.declare_eq_ok_iff.mpr ⟨rfl, ⟨⟨.int32, "INT"⟩, by decide +kernel, by decide +kernel⟩, rfl⟩
  have hdone : ({ symbols := waitTable.symbols.take 1 } : SymbolTable).declare "@Done" "BIT"
      .declared = .ok (⟨"@Done", "done", ⟨.bool, "BIT"⟩, .declared⟩, waitTable) :=
    SymbolTable.declare_eq_ok_iff.mpr
      ⟨by decide +kernel, ⟨⟨.bool, "BIT"⟩, by decide +kernel, by decide +kernel⟩, rfl⟩
  exact .declare (.declare .start hcount) hdone

/-- A condition with constants that are folded, a negated disjunction, a bit and a list:
`NOT (@count - (1 - 3) > 5 OR @DONE = 1) AND @Count IN (2, 3)`. -/
def waitCondition : Expr :=
  .binary .and
    (.unary .not (.binary .or
      (.binary .gt (.binary .sub (.variable "@count") (.binary .sub (.ofInt 1) (.ofInt 3)))
        (.ofInt 5))
      (.binary .eq (.variable "@DONE") (.ofInt 1))))
    (.inList (.variable "@Count") [.ofInt 2, .ofInt 3] false)

theorem isCondition_waitCondition : waitCondition.IsCondition waitTable := by
  have hcount : waitTable.get? "@count" = waitTable.symbols[0]? := by decide +kernel
  have hCount : waitTable.get? "@Count" = waitTable.symbols[0]? := by decide +kernel
  have hdone : waitTable.get? "@DONE" = waitTable.symbols[1]? := by decide +kernel
  have hsum : (Expr.binary .sub (.variable "@count") (.binary .sub (.ofInt 1) (.ofInt 3))).IsTerm
      waitTable :=
    .binary (by decide) (.variable hcount rfl) (.binary (by decide) (.literal 1) (.literal 3))
  refine .logical (by decide) (.not (.logical (by decide) ?_ ?_)) ?_
  · exact .comparison rfl hsum (.literal 5)
  · exact .bitConst (by decide) (.variable hdone rfl) (by decide)
  · refine .inList false (.variable hCount rfl) (by simp) ?_
    intro e he
    simp only [List.mem_cons, List.not_mem_nil, or_false] at he
    rcases he with rfl | rfl <;> exact .literal _

/-- Where the condition stands. -/
def waitContext : Context :=
  { config := {}, procedure := ⟨"usp_Wait", [], []⟩, functionName := "Wait", verb := none,
    survey := {} }

example : ((lowerCondition waitCondition).execute waitContext { symbols := waitTable }).1.toOption.map
    Go.Expr.render = some "!(count - -2 > 5 || done) && (count == 2 || count == 3)" := by
  cbv

/-- The condition holds where the counter is 2 and the bit is not set. -/
theorem waitCondition_meaning :
    ∃ code t, (lowerCondition waitCondition).Runs waitContext { symbols := waitTable } code
        { symbols := waitTable } ∧ Go.read code.render = some t ∧
      t.eval (waitTable.goEnv fun key => if key = "count" then 2 else 0) = some (.bool true) := by
  obtain ⟨code, hruns, t, hread, heval⟩ := condition_meaning waitContext
    (show ({ symbols := waitTable } : Progress).symbols.Built from built_waitTable)
    isCondition_waitCondition
  refine ⟨code, t, hruns, hread, ?_⟩
  rw [heval]
  · decide +kernel
  · unfold SymbolTable.Assigns
    decide +kernel
  · unfold Expr.Fits
    decide +kernel

end Lower

end Sproc
