import Sproc.Proofs.Lower.Operation

/-!
# Arithmetic on constants

Arithmetic on constant integers is carried out while an expression is lowered, in words of 64 bits.
A sum, difference, product, quotient or remainder is computed only where the exact one fits a word;
elsewhere the operation is left to the generated code. A sign is always computed, and the lowering
stops in front of the least word, which has no negation.

So an expression of constants stops the lowering exactly where a sign stands in front of what is
computed to be the least word. Otherwise it becomes a constant exactly where every value inside of it
fits a word, and the constant is the exact value.

## Main definitions

* `Expr.IsConstantArithmetic`: constants of 64 bits with signs and arithmetic operators
* `Expr.exactValue?`: what such an expression denotes
* `Expr.StaysInWords`: everything inside is computed in words
* `Expr.NegatesLeast`: a sign stands in front of what is computed to be the least word
* `Lower.SucceedsWith`: a step succeeds, with a result that satisfies a property
* `Lower.StopsIf`: a step stops under a condition and succeeds otherwise

## Main results

* `foldInt?_eq_some_iff`, `Value.negate_intConst`: one operation
* `Lower.succeedsWith_arithmetic`, `Lower.stopsIf_negate`: one operation on values
* `Lower.constants_fold_exactly_iff`
-/

namespace Sproc

/-! ## Exact values -/

/-- The least word of 64 bits. -/
def leastWord : Int := -0x8000000000000000

/-- The exact result of an arithmetic operator. A quotient goes towards zero, and a remainder has
the sign of the dividend; there is none by zero. -/
def BinaryOp.exact? (op : BinaryOp) (a b : Int) : Option Int :=
  match op with
  | add => some (a + b)
  | sub => some (a - b)
  | mul => some (a * b)
  | div => if b = 0 then none else some (a.tdiv b)
  | mod => if b = 0 then none else some (a.tmod b)
  | _ => none

namespace Expr

/-- Constants of 64 bits with signs and arithmetic operators. -/
inductive IsConstantArithmetic : Expr → Prop where
  | literal {n : Int} : fitsInt64 n = true → IsConstantArithmetic (.literal (.int n))
  | neg {operand : Expr} : IsConstantArithmetic operand →
      IsConstantArithmetic (.unary .neg operand)
  | binary {op : BinaryOp} {left right : Expr} : op.isArithmetic = true →
      IsConstantArithmetic left → IsConstantArithmetic right →
      IsConstantArithmetic (.binary op left right)

/-- The exact value of arithmetic on constants, unless something is divided by zero. -/
def exactValue? : Expr → Option Int
  | .literal (.int n) => some n
  | .unary .neg operand => operand.exactValue?.map (-·)
  | .binary op left right =>
    left.exactValue?.bind fun a => right.exactValue?.bind fun b => op.exact? a b
  | _ => none

/-- An expression has an exact value, and it fits a word. -/
def IsWord (e : Expr) : Prop :=
  ∃ n, e.exactValue? = some n ∧ fitsInt64 n = true

/-- Everything inside of an expression is computed in words, as is the quotient that belongs to a
remainder. -/
structure StaysInWords (e : Expr) : Prop where
  values : ∀ inner ∈ e.walk, inner.IsWord
  quotients : ∀ left right, .binary .mod left right ∈ e.walk → (binary .div left right).IsWord

/-- Inside of an expression a sign stands in front of what is computed to be the least word. -/
def NegatesLeast (e : Expr) : Prop :=
  ∃ operand, .unary .neg operand ∈ e.walk ∧ operand.StaysInWords ∧
    operand.exactValue? = some leastWord

theorem StaysInWords.isWord {e : Expr} (h : e.StaysInWords) : e.IsWord :=
  h.values e e.mem_walk_self

variable {op : BinaryOp} {operand left right : Expr}

theorem staysInWords_literal {n : Int} (h : fitsInt64 n = true) :
    (Expr.literal (.int n)).StaysInWords where
  values inner hinner := by
    obtain rfl := List.mem_singleton.mp hinner
    exact ⟨n, rfl, h⟩
  quotients left right hmem := nomatch List.mem_singleton.mp hmem

theorem staysInWords_neg :
    (Expr.unary .neg operand).StaysInWords ↔
      (Expr.unary .neg operand).IsWord ∧ operand.StaysInWords := by
  constructor
  · intro h
    have hinner {inner : Expr} (hmem : inner ∈ operand.walk) :
        inner ∈ (Expr.unary .neg operand).walk := List.mem_cons_of_mem _ hmem
    exact ⟨h.isWord, fun _ hmem => h.values _ (hinner hmem),
      fun _ _ hmem => h.quotients _ _ (hinner hmem)⟩
  · rintro ⟨hword, h⟩
    refine ⟨fun inner hmem => ?_, fun left right hmem => ?_⟩
    · rcases List.mem_cons.mp hmem with rfl | hmem
      · exact hword
      · exact h.values inner hmem
    · rcases List.mem_cons.mp hmem with heq | hmem
      · cases heq
      · exact h.quotients left right hmem

theorem staysInWords_binary :
    (Expr.binary op left right).StaysInWords ↔
      (Expr.binary op left right).IsWord ∧ (op = .mod → (Expr.binary .div left right).IsWord) ∧
        left.StaysInWords ∧ right.StaysInWords := by
  have hwalk {inner : Expr} : inner ∈ (Expr.binary op left right).walk ↔
      inner = .binary op left right ∨ inner ∈ left.walk ∨ inner ∈ right.walk := by
    rw [walk, List.mem_cons, List.mem_append]
  constructor
  · intro h
    refine ⟨h.isWord, fun hop => h.quotients left right (hop ▸ mem_walk_self _), ?_, ?_⟩
    · exact ⟨fun _ hmem => h.values _ (hwalk.mpr (.inr (.inl hmem))),
        fun _ _ hmem => h.quotients _ _ (hwalk.mpr (.inr (.inl hmem)))⟩
    · exact ⟨fun _ hmem => h.values _ (hwalk.mpr (.inr (.inr hmem))),
        fun _ _ hmem => h.quotients _ _ (hwalk.mpr (.inr (.inr hmem)))⟩
  · rintro ⟨hword, hquotient, hleft, hright⟩
    refine ⟨fun inner hmem => ?_, fun l r hmem => ?_⟩
    · rcases hwalk.mp hmem with rfl | hmem | hmem
      · exact hword
      · exact hleft.values inner hmem
      · exact hright.values inner hmem
    · rcases hwalk.mp hmem with heq | hmem | hmem
      · obtain ⟨rfl, rfl, rfl⟩ := Expr.binary.inj heq
        exact hquotient rfl
      · exact hleft.quotients l r hmem
      · exact hright.quotients l r hmem

theorem not_negatesLeast_literal (n : Int) : ¬(Expr.literal (.int n)).NegatesLeast := by
  simp [NegatesLeast, walk]

theorem negatesLeast_neg :
    (Expr.unary .neg operand).NegatesLeast ↔
      operand.NegatesLeast ∨ operand.StaysInWords ∧ operand.exactValue? = some leastWord := by
  simp only [NegatesLeast, walk, List.mem_cons]
  constructor
  · rintro ⟨inner, heq | hmem, hleast⟩
    · obtain ⟨-, rfl⟩ := Expr.unary.inj heq
      exact .inr hleast
    · exact .inl ⟨inner, hmem, hleast⟩
  · rintro (⟨inner, hmem, hleast⟩ | hleast)
    · exact ⟨inner, .inr hmem, hleast⟩
    · exact ⟨operand, .inl rfl, hleast⟩

theorem negatesLeast_binary :
    (Expr.binary op left right).NegatesLeast ↔ left.NegatesLeast ∨ right.NegatesLeast := by
  simp only [NegatesLeast, walk, List.mem_cons, List.mem_append]
  grind

theorem exactValue?_binary {a b : Int} (ha : left.exactValue? = some a)
    (hb : right.exactValue? = some b) :
    (Expr.binary op left right).exactValue? = op.exact? a b := by
  rw [exactValue?, ha, hb, Option.bind_some, Option.bind_some]

end Expr

/-! ## One operation -/

/-- An operation is carried out where its exact result fits a word, as does the quotient that
belongs to a remainder. -/
theorem foldInt?_eq_some_iff {op : BinaryOp} {a b n : Int} :
    foldInt? op a b = some n ↔ op.exact? a b = some n ∧ fitsInt64 n = true ∧
      (op = .mod → ∃ q, BinaryOp.exact? .div a b = some q ∧ fitsInt64 q = true) := by
  cases op <;> simp only [foldInt?, BinaryOp.exact?] <;> grind

theorem fitsInt64_iff {n : Int} :
    fitsInt64 n = true ↔ -0x8000000000000000 ≤ n ∧ n < 0x8000000000000000 := by
  rw [fitsInt64, Bool.and_eq_true, decide_eq_true_eq, decide_eq_true_eq]

/-- The least word is the only one without a negation. -/
theorem fitsInt64_neg_iff {n : Int} (hfits : fitsInt64 n = true) :
    fitsInt64 (-n) = true ↔ n ≠ leastWord := by
  rw [fitsInt64_iff] at hfits ⊢
  rw [leastWord]
  omega

namespace Value

/-- A word is negated, unless it is the least one. -/
theorem negate_intConst {value : Value} {n : Int} (hkind : value.kind = .intConst n)
    (hfits : fitsInt64 n = true) :
    value.negate = if n = leastWord then .error (.overflow n) else .ok (ofInt (-n)) := by
  rw [negate, hkind]
  simp only [fitsInt64_neg_iff hfits, ne_eq, ite_not]

/-- A constant that fits a word, or a number of a type with operators. -/
def IsPlainNumber (value : Value) : Prop :=
  (∃ n, value.kind = .intConst n ∧ fitsInt64 n = true) ∨
    ∃ type, value.kind = .typed type ∧ type.isNumeric = true

namespace IsPlainNumber

variable {value : Value} (h : value.IsPlainNumber)

include h

theorem isNumber : value.isNumber = true := by
  rcases h with ⟨n, hkind, -⟩ | ⟨type, hkind, hnumeric⟩ <;> simp [Value.isNumber, *]

theorem isString : value.isString = false := by
  rcases h with ⟨n, hkind, -⟩ | ⟨type, hkind, hnumeric⟩
  · rw [Value.isString, hkind]
  · rw [Value.isString, hkind]
    cases type <;> first | rfl | cases hnumeric

theorem isDecimalConst : value.isDecimalConst = false := by
  rcases h with ⟨n, hkind, -⟩ | ⟨type, hkind, -⟩ <;> rw [Value.isDecimalConst, hkind]

theorem hasType_decimal : value.hasType .decimal = false := by
  rcases h with ⟨n, hkind, -⟩ | ⟨type, hkind, hnumeric⟩
  · rw [Value.hasType, hkind]
    rfl
  · rw [Value.hasType, hkind]
    cases type <;> first | rfl | cases hnumeric

end IsPlainNumber

end Value

/-! ## Steps on values -/

namespace Lower

variable {α β : Type} {c : Context}

/-- A step succeeds, whatever has been produced before, with a result that has a property. -/
def SucceedsWith (step : Lower α) (c : Context) (p : α → Prop) : Prop :=
  ∀ before, ∃ result after, step.Runs c before result after ∧ p result

theorem succeedsWith_pure {value : α} {p : α → Prop} (h : p value) :
    SucceedsWith (pure value) c p :=
  fun before => ⟨value, before, runs_pure.mpr ⟨rfl, rfl⟩, h⟩

theorem succeedsWith_bind {step : Lower α} {next : α → Lower β} {p : α → Prop} {q : β → Prop}
    (h : SucceedsWith step c p) (hnext : ∀ value, p value → SucceedsWith (next value) c q) :
    SucceedsWith (step >>= next) c q := by
  intro before
  obtain ⟨value, middle, hstep, hp⟩ := h before
  obtain ⟨result, after, hruns, hq⟩ := hnext value hp middle
  exact ⟨result, after, runs_bind.mpr ⟨value, middle, hstep, hruns⟩, hq⟩

theorem SucceedsWith.mono {step : Lower α} {p q : α → Prop} (h : SucceedsWith step c p)
    (hpq : ∀ value, p value → q value) : SucceedsWith step c q := by
  intro before
  obtain ⟨value, after, hruns, hp⟩ := h before
  exact ⟨value, after, hruns, hpq value hp⟩

/-- A step stops at a constant without a negation if a condition holds, and succeeds otherwise with a
result that has a property, whatever has been produced before. -/
def StopsIf (step : Lower α) (c : Context) (stop : Prop) (p : α → Prop) : Prop :=
  ∀ before, (stop ∧ ∃ after, step.Fails c before ⟨.overflow leastWord, none⟩ after) ∨
    (¬stop ∧ ∃ result after, step.Runs c before result after ∧ p result)

theorem SucceedsWith.stopsIf {step : Lower α} {p : α → Prop} (h : SucceedsWith step c p) {stop : Prop}
    (hstop : ¬stop) : StopsIf step c stop p :=
  fun before => .inr ⟨hstop, h before⟩

/-- A sequence stops where its first step does, or behind it where the second one does. -/
theorem stopsIf_bind {step : Lower α} {next : α → Lower β} {stop stop' : Prop} {p : α → Prop}
    {q : β → Prop} (h : StopsIf step c stop p)
    (hnext : ∀ value, p value → StopsIf (next value) c stop' q) :
    StopsIf (step >>= next) c (stop ∨ stop') q := by
  intro before
  obtain ⟨hstop, after, hfails⟩ | ⟨hgoes, value, middle, hstep, hp⟩ := h before
  · exact .inl ⟨.inl hstop, after, fails_bind.mpr (.inl hfails)⟩
  · obtain ⟨hstop, after, hfails⟩ | ⟨hgoes', result, after, hruns, hq⟩ := hnext value hp middle
    · exact .inl ⟨.inr hstop, after, fails_bind.mpr (.inr ⟨value, middle, hstep, hfails⟩)⟩
    · exact .inr ⟨not_or.mpr ⟨hgoes, hgoes'⟩, result, after,
        runs_bind.mpr ⟨value, middle, hstep, hruns⟩, hq⟩

theorem StopsIf.mono {step : Lower α} {stop stop' : Prop} {p q : α → Prop} (h : StopsIf step c stop p)
    (hstop : stop ↔ stop') (hpq : ∀ value, ¬stop' → p value → q value) : StopsIf step c stop' q := by
  intro before
  rw [← hstop]
  refine (h before).imp_right fun ⟨hgoes, value, after, hruns, hp⟩ => ?_
  exact ⟨hgoes, value, after, hruns, hpq value (hstop.not.mp hgoes) hp⟩

theorem succeedsWith_importPath (path : String) :
    SucceedsWith (importPath path) c fun _ => True :=
  fun _ => ⟨(), _, runs_modify.mpr rfl, trivial⟩

/-- A number is converted to every type with operators. -/
theorem succeedsWith_coerce {value : Value} (h : value.IsPlainNumber) {type : GoType}
    (htype : type.isNumeric = true) :
    SucceedsWith (coerce value type) c fun result => result.kind = .typed type := by
  have himport : importType type = pure () := by
    cases type <;> first | rfl | cases htype
  have hnull : (value.kind == .null) = false := by
    rcases h with ⟨n, hkind, -⟩ | ⟨source, hkind, -⟩ <;> rw [hkind] <;> rfl
  have hconvert : (toNumber value type).SucceedsWith c fun result => result.kind = .typed type := by
    unfold toNumber
    rcases h with ⟨n, hkind, -⟩ | ⟨source, hkind, hnumeric⟩
    · simp only [hkind]
      exact succeedsWith_pure rfl
    · simp only [hkind]
      cases source <;> first | exact succeedsWith_pure rfl | cases hnumeric
  unfold coerce
  rw [himport, pure_bind, hnull]
  cases hhas : value.hasType type with
  | true => exact succeedsWith_pure (eq_of_beq hhas)
  | false =>
    cases type <;> first | exact hconvert | cases htype

theorem usesDecimal_eq_false {l r : Value} (hl : l.IsPlainNumber) (hr : r.IsPlainNumber) :
    usesDecimal l r = false := by
  simp [usesDecimal, hl.hasType_decimal, hr.hasType_decimal, hl.isDecimalConst, hr.isDecimalConst]

theorem succeedsWith_floatRemainder (l r : Value) (type : GoType) :
    SucceedsWith (floatRemainder l r type) c fun result => result.kind = .typed type := by
  unfold floatRemainder
  refine succeedsWith_bind (succeedsWith_importPath "math") fun _ _ => ?_
  split
  · exact succeedsWith_pure rfl
  · exact succeedsWith_pure rfl

/-- Arithmetic on numbers that is left to the generated code. -/
theorem succeedsWith_numericArithmetic {l r : Value} (hl : l.IsPlainNumber) (hr : r.IsPlainNumber)
    (op : BinaryOp) (hint : Option GoType) :
    SucceedsWith (numericArithmetic op l r hint) c fun result =>
      ∃ type, result.kind = .typed type ∧ type.isNumeric = true := by
  have hdecimal := usesDecimal_eq_false hl hr
  have htype := isNumeric_arithmeticType hl.isNumber hr.isNumber hdecimal hint
  unfold numericArithmetic
  rw [hdecimal]
  refine succeedsWith_bind (succeedsWith_coerce hl htype) fun l' _ => ?_
  refine succeedsWith_bind (succeedsWith_coerce hr htype) fun r' _ => ?_
  split
  · exact (succeedsWith_floatRemainder l' r' _).mono fun _ hkind => ⟨_, hkind, htype⟩
  · exact succeedsWith_pure ⟨_, rfl, htype⟩

/-- An arithmetic operation on numbers succeeds. Its result is constant where both operands are and
their words are computed with. -/
theorem succeedsWith_arithmetic {l r : Value} (hl : l.IsPlainNumber) (hr : r.IsPlainNumber)
    (op : BinaryOp) (hint : Option GoType) :
    SucceedsWith (arithmetic op l r hint) c fun result =>
      result.IsPlainNumber ∧ ∀ n, result.kind = .intConst n ↔
        ∃ a b, l.kind = .intConst a ∧ r.kind = .intConst b ∧ foldInt? op a b = some n := by
  have hvalues (n : Int) : foldValues? op l r = some n ↔
      ∃ a b, l.kind = .intConst a ∧ r.kind = .intConst b ∧ foldInt? op a b = some n := by
    unfold foldValues?
    split
    · next a b ha hb => simp [ha, hb]
    · next hkinds => grind
  simp only [← hvalues]
  unfold arithmetic
  cases hfold : foldValues? op l r with
  | some n =>
    obtain ⟨a, b, -, -, hn⟩ := (hvalues n).mp hfold
    exact succeedsWith_pure ⟨.inl ⟨n, rfl, (foldInt?_eq_some_iff.mp hn).2.1⟩, by simp [Value.ofInt]⟩
  | none =>
    rw [hl.isNumber, hr.isNumber]
    refine (succeedsWith_numericArithmetic hl hr op hint).mono fun result htyped => ?_
    obtain ⟨type, hkind, hnumeric⟩ := htyped
    exact ⟨.inr ⟨type, hkind, hnumeric⟩, by simp [hkind]⟩

/-- A number is negated unless it is the least word. Constants become constants, and nothing else
does. -/
theorem stopsIf_negate {value : Value} (h : value.IsPlainNumber) :
    StopsIf (lowerUnary .neg value) c (value.kind = .intConst leastWord) fun result =>
      result.IsPlainNumber ∧ ∀ n, result.kind = .intConst n ↔ value.kind = .intConst (-n) := by
  intro before
  rw [lowerUnary]
  rcases h with ⟨a, hkind, hfits⟩ | ⟨type, hkind, hnumeric⟩
  · rw [Value.negate_intConst hkind hfits, hkind]
    by_cases hleast : a = leastWord
    · rw [if_pos hleast, hleast]
      exact .inl ⟨rfl, before, fails_ofExcept.mpr ⟨_, rfl, rfl, rfl⟩⟩
    · rw [if_neg hleast]
      have hneg : fitsInt64 (-a) = true := (fitsInt64_neg_iff hfits).mpr hleast
      refine .inr ⟨fun heq => hleast (ValueKind.intConst.inj heq), .ofInt (-a), before,
        runs_pure.mpr ⟨rfl, rfl⟩, .inl ⟨-a, rfl, hneg⟩, fun n => ?_⟩
      simp only [Value.ofInt, ValueKind.intConst.injEq]
      omega
  · have hnegate : value.negate = .ok ⟨.unary .neg (value.wrapped Value.unary), .typed type,
        Value.unary⟩ := by
      rw [Value.negate, hkind]
      cases type <;> first | rfl | cases hnumeric
    rw [hnegate, hkind]
    exact .inr ⟨by rintro ⟨⟩, _, before, runs_pure.mpr ⟨rfl, rfl⟩, .inr ⟨type, rfl, hnumeric⟩, by simp⟩

/-- An arithmetic operator is applied to the values of its operands. -/
theorem stopsIf_lowerBinary {op : BinaryOp} (hop : op.isArithmetic = true) {left right : Pending}
    {hint : Option GoType} {stop stop' : Prop} {p q : Value → Prop}
    (hleft : StopsIf (left none) c stop fun value => value.IsPlainNumber ∧ p value)
    (hright : ∀ hint, StopsIf (right hint) c stop' fun value => value.IsPlainNumber ∧ q value) :
    StopsIf (lowerBinary op left right hint) c (stop ∨ stop') fun result =>
      result.IsPlainNumber ∧ ∃ l r, p l ∧ q r ∧ ∀ n, result.kind = .intConst n ↔
        ∃ a b, l.kind = .intConst a ∧ r.kind = .intConst b ∧ foldInt? op a b = some n := by
  have hclass : op.isLogical = false ∧ (op = .like || op = .notLike) = false ∧
      op.isComparison = false := by
    cases op <;> first | decide | cases hop
  obtain ⟨hlogical, hlike, hcomparison⟩ := hclass
  unfold lowerBinary
  rw [hlogical, if_neg (by decide)]
  refine stopsIf_bind hleft fun l ⟨hl, hp⟩ => ?_
  rw [← or_false stop']
  refine stopsIf_bind (hright _) fun r ⟨hr, hq⟩ => ?_
  rw [hlike, if_neg (by decide), hcomparison, if_neg (by decide),
    if_neg (by simp [hl.isString, hr.isString])]
  refine ((succeedsWith_arithmetic hl hr op hint).mono fun result hresult => ?_).stopsIf not_false
  exact ⟨hresult.1, l, r, hp, hq, hresult.2⟩

/-! ## Expressions -/

/-- A value is constant exactly where the expression that it comes from stays in words, and then it
is the exact value. -/
structure Reflects (e : Expr) (value : Value) : Prop where
  exact : ∀ n, value.kind = .intConst n → e.exactValue? = some n ∧ e.StaysInWords
  complete : e.StaysInWords → ∃ n, value.kind = .intConst n

/-- The constants that come from an expression are its exact value in words. -/
theorem Reflects.kind_iff {e : Expr} {value : Value} (h : Reflects e value) {n : Int} :
    value.kind = .intConst n ↔ e.StaysInWords ∧ e.exactValue? = some n := by
  refine ⟨fun hkind => (h.exact n hkind).symm, fun ⟨hstays, hn⟩ => ?_⟩
  obtain ⟨m, hm⟩ := h.complete hstays
  rw [hm, Option.some.inj ((h.exact m hm).1.symm.trans hn)]

theorem Reflects.neg {operand : Expr} {value result : Value} (h : Reflects operand value)
    (hgoes : ¬(Expr.unary .neg operand).NegatesLeast)
    (hresult : ∀ n, result.kind = .intConst n ↔ value.kind = .intConst (-n)) :
    Reflects (.unary .neg operand) result where
  exact n hn := by
    obtain ⟨hexact, hstays⟩ := h.exact _ ((hresult n).mp hn)
    have hvalue : (Expr.unary .neg operand).exactValue? = some n := by
      rw [Expr.exactValue?, hexact, Option.map_some, Int.neg_neg]
    -- The operand fits a word and is not the least one, so its negation fits a word, too.
    have hfits : fitsInt64 (-n) = true := by
      obtain ⟨m, hm, hfits⟩ := hstays.isWord
      exact Option.some.inj (hexact.symm.trans hm) ▸ hfits
    have hleast : -n ≠ leastWord := fun heq =>
      hgoes (Expr.negatesLeast_neg.mpr (.inr ⟨hstays, heq ▸ hexact⟩))
    have hneg : fitsInt64 n = true := by
      rw [← Int.neg_neg n]
      exact (fitsInt64_neg_iff hfits).mpr hleast
    exact ⟨hvalue, Expr.staysInWords_neg.mpr ⟨⟨n, hvalue, hneg⟩, hstays⟩⟩
  complete hstays := by
    obtain ⟨a, ha⟩ := h.complete (Expr.staysInWords_neg.mp hstays).2
    exact ⟨-a, (hresult _).mpr (by rw [ha, Int.neg_neg])⟩

theorem Reflects.binary {op : BinaryOp} {left right : Expr} {l r result : Value}
    (hl : Reflects left l) (hr : Reflects right r)
    (hresult : ∀ n, result.kind = .intConst n ↔
      ∃ a b, l.kind = .intConst a ∧ r.kind = .intConst b ∧ foldInt? op a b = some n) :
    Reflects (.binary op left right) result where
  exact n hn := by
    obtain ⟨a, b, ha, hb, hfold⟩ := (hresult n).mp hn
    obtain ⟨hleft, hleftStays⟩ := hl.exact a ha
    obtain ⟨hright, hrightStays⟩ := hr.exact b hb
    obtain ⟨hexact, hfits, hquotient⟩ := foldInt?_eq_some_iff.mp hfold
    have hvalue {op : BinaryOp} : (Expr.binary op left right).exactValue? = op.exact? a b :=
      Expr.exactValue?_binary hleft hright
    refine ⟨hvalue.trans hexact, Expr.staysInWords_binary.mpr
      ⟨⟨n, hvalue.trans hexact, hfits⟩, fun hop => ?_, hleftStays, hrightStays⟩⟩
    obtain ⟨q, hq, hqfits⟩ := hquotient hop
    exact ⟨q, hvalue.trans hq, hqfits⟩
  complete hstays := by
    obtain ⟨⟨n, hn, hfits⟩, hquotient, hleftStays, hrightStays⟩ :=
      Expr.staysInWords_binary.mp hstays
    obtain ⟨a, ha⟩ := hl.complete hleftStays
    obtain ⟨b, hb⟩ := hr.complete hrightStays
    have hvalue {op : BinaryOp} : (Expr.binary op left right).exactValue? = op.exact? a b :=
      Expr.exactValue?_binary (hl.exact a ha).1 (hr.exact b hb).1
    refine ⟨n, (hresult n).mpr ⟨a, b, ha, hb, foldInt?_eq_some_iff.mpr
      ⟨hvalue.symm.trans hn, hfits, fun hop => ?_⟩⟩⟩
    obtain ⟨q, hq, hqfits⟩ := hquotient hop
    exact ⟨q, hvalue.symm.trans hq, hqfits⟩

/-- An expression of constants stops the lowering where the least word is negated. Otherwise its
value reflects it, by induction on the expression. -/
theorem stopsIf_lowerExpr {e : Expr} (h : e.IsConstantArithmetic) (hint : Option GoType) :
    StopsIf (lowerExpr e hint) c e.NegatesLeast fun value =>
      value.IsPlainNumber ∧ Reflects e value := by
  induction h generalizing hint with
  | @literal n hfits =>
    rw [lowerExpr]
    refine SucceedsWith.stopsIf (succeedsWith_pure ⟨.inl ⟨n, rfl, hfits⟩, fun m hm => ?_,
      fun _ => ⟨n, rfl⟩⟩) (Expr.not_negatesLeast_literal n)
    obtain rfl := ValueKind.intConst.inj hm
    exact ⟨rfl, Expr.staysInWords_literal hfits⟩
  | @neg operand _ ih =>
    -- What the sign finds depends on the value of the operand, so the sequence is opened by hand.
    rw [lowerExpr]
    intro before
    rw [Expr.negatesLeast_neg]
    obtain ⟨hstop, after, hfails⟩ | ⟨hgoes, value, middle, hruns, hplain, hreflects⟩ :=
      ih hint before
    · exact .inl ⟨.inl hstop, after, fails_bind.mpr (.inl hfails)⟩
    · obtain ⟨hleast, after, hfails⟩ | ⟨hleast, result, after, hneg, hresult, hconst⟩ :=
        stopsIf_negate hplain middle
      · exact .inl ⟨.inr (hreflects.kind_iff.mp hleast), after,
          fails_bind.mpr (.inr ⟨value, middle, hruns, hfails⟩)⟩
      · rw [hreflects.kind_iff] at hleast
        have hnone : ¬(Expr.unary .neg operand).NegatesLeast := by
          rw [Expr.negatesLeast_neg]
          exact not_or.mpr ⟨hgoes, hleast⟩
        exact .inr ⟨not_or.mpr ⟨hgoes, hleast⟩, result, after,
          runs_bind.mpr ⟨value, middle, hruns, hneg⟩, hresult, hreflects.neg hnone hconst⟩
  | @binary op left right hop _ _ ihleft ihright =>
    -- The hint of the right operand depends on the value of the left one.
    rw [lowerExpr]
    refine (stopsIf_lowerBinary hop (ihleft none) ihright).mono
      Expr.negatesLeast_binary.symm fun result _ hresult => ?_
    obtain ⟨hplain, l, r, hl, hr, hconst⟩ := hresult
    exact ⟨hplain, hl.binary hr hconst⟩

/-- An expression of constant integers, signs and arithmetic operators, under every hint and in
every state: the lowering stops exactly when a sign stands in front of what is computed to be the
least word. Otherwise it succeeds, the expression becomes a constant exactly when everything inside
stays in words, and the constant is the exact value. -/
theorem constants_fold_exactly_iff {e : Expr} (h : e.IsConstantArithmetic) (hint : Option GoType)
    (c : Context) (before : Progress) :
    ((∃ error after, (lowerExpr e hint).Fails c before error after) ↔ e.NegatesLeast) ∧
    (∀ error after, (lowerExpr e hint).Fails c before error after →
      error = ⟨.overflow leastWord, none⟩) ∧
    (¬e.NegatesLeast → ∃ value after, (lowerExpr e hint).Runs c before value after ∧
      ∀ n, value.kind = .intConst n ↔ e.StaysInWords ∧ e.exactValue? = some n) := by
  obtain ⟨hleast, after, hfails⟩ | ⟨hleast, value, after, hruns, -, hreflects⟩ :=
    stopsIf_lowerExpr h hint before
  · exact ⟨⟨fun _ => hleast, fun _ => ⟨_, after, hfails⟩⟩,
      fun error after' hfails' => (hfails'.unique hfails).1, fun hgoes => absurd hleast hgoes⟩
  · have hnever (error : Error) (after' : Progress)
        (hfails : (lowerExpr e hint).Fails c before error after') : False :=
      hfails.not_runs hruns
    exact ⟨⟨fun ⟨error, after', hfails⟩ => (hnever error after' hfails).elim,
      fun hstop => absurd hstop hleast⟩, fun error after' hfails => (hnever error after' hfails).elim,
      fun _ => ⟨value, after, hruns, fun n => hreflects.kind_iff⟩⟩

/-- A quotient that is no integer: `-(7 - 10) * 3 / -2`. -/
def share : Expr :=
  .binary .div (.binary .mul (.unary .neg (.binary .sub (.ofInt 7) (.ofInt 10))) (.ofInt 3))
    (.ofInt (-2))

/-- Where it stands. -/
def shareContext : Context :=
  { config := {}, procedure := ⟨"usp_Share", [], []⟩, functionName := "Share", verb := none,
    survey := {} }

/-- The quotient becomes a constant, without its fraction. -/
theorem share_folds_exactly : share.IsConstantArithmetic ∧ ¬share.NegatesLeast ∧ ∃ value after,
    (lowerExpr share none).Runs shareContext {} value after ∧ value.kind = .intConst (-4) ∧
      share.exactValue? = some (-4) ∧ share.StaysInWords := by
  have hconstants : share.IsConstantArithmetic :=
    .binary rfl (.binary rfl (.neg (.binary rfl (.literal rfl) (.literal rfl))) (.literal rfl))
      (.literal rfl)
  have hnotLeast : ¬share.NegatesLeast := by
    simp only [share, Expr.negatesLeast_binary, Expr.negatesLeast_neg]
    simp [Expr.ofInt, Expr.exactValue?, BinaryOp.exact?, leastWord, Expr.NegatesLeast, Expr.walk]
  have hkind : ((lowerExpr share none).execute shareContext {}).1.toOption.map (·.kind) =
      some (.intConst (-4)) := by
    decide +kernel
  obtain ⟨value, after, hruns, hexact⟩ :=
    (constants_fold_exactly_iff hconstants none shareContext {}).2.2 hnotLeast
  rw [show (lowerExpr share none).execute shareContext {} = (.ok value, after) from hruns] at hkind
  have hconst : value.kind = .intConst (-4) := Option.some.inj hkind
  obtain ⟨hstays, hvalue⟩ := (hexact (-4)).mp hconst
  exact ⟨hconstants, hnotLeast, value, after, hruns, hconst, hvalue, hstays⟩

/-- The negation of the least word, which is computed as a difference, stops the lowering: its half
has an exact value, but none is returned. -/
example :
    (lowerExpr (.binary .div (.unary .neg (.binary .sub (.ofInt (-0x7fffffffffffffff)) (.ofInt 1)))
      (.ofInt 2)) none).Fails shareContext {} ⟨.overflow leastWord, none⟩ {} :=
  rfl

end Lower

end Sproc
