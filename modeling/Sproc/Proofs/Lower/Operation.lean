import Sproc.Proofs.Lower.Fitting

/-!
# Operators and functions on values that fit

Operators and built-in functions yield values whose strength fits their code if they are given such.
Operands that are still to be evaluated are asked for values that fit, whatever the hint is, as long
as the type it names is in stock.

## Main results

* `isNumeric_arithmeticType`: the type of an arithmetic operation has Go's operators
* `drawsOn_arithmetic`, `drawsOn_compare`, `drawsOn_lowerBinary`, `drawsOn_lowerCase`: operators
* `drawsOn_lowerFunction`: built-in functions
-/

namespace Sproc

namespace Lower

open Go Go.Stock

variable {stock : Stock} {c : Context} {pre : Prop} {value : Value}

/-! ## Operators -/

theorem strength?_arithmetic {op : BinaryOp} (h : op.isArithmetic = true) :
    Syntax.strength? op.goSymbol = some op.precedence := by
  revert h
  cases op <;> decide

theorem strength?_comparison {op : BinaryOp} (h : op.isComparison = true) :
    Syntax.strength? op.goSymbol = some Value.comparison := by
  revert h
  cases op <;> decide

/-- The type of a number that is no exact decimal has Go's arithmetic. -/
theorem isNumeric_of_goType? (hnumber : value.isNumber = true)
    (hdecimal : value.hasType .decimal = false) {type : GoType} (h : value.goType? = some type) :
    type.isNumeric = true := by
  unfold Value.goType? at h
  unfold Value.isNumber at hnumber
  unfold Value.hasType at hdecimal
  cases hkind : value.kind <;> simp_all

theorem isNumeric_arithmeticType {l r : Value} (hl : l.isNumber = true) (hr : r.isNumber = true)
    (h : usesDecimal l r = false) (hint : Option GoType) :
    (arithmeticType l r hint).isNumeric = true := by
  simp only [usesDecimal, Bool.or_eq_false_iff] at h
  have hleft {type : GoType} (htype : l.goType? = some type) : type.isNumeric = true :=
    isNumeric_of_goType? hl h.1.1 htype
  have hright {type : GoType} (htype : r.goType? = some type) : type.isNumeric = true :=
    isNumeric_of_goType? hr h.1.2 htype
  have hhint : ((hint.filter (·.isNumeric)).getD .int32).isNumeric = true := by
    cases hint with
    | none => rfl
    | some type =>
      by_cases htype : type.isNumeric = true
      · simp [Option.filter, htype]
      · simp only [Option.filter, htype]
        rfl
  have hwide {test : Bool} {type : GoType} (htype : type.isNumeric = true) :
      (if test then .float64 else type : GoType).isNumeric = true := by
    split
    · rfl
    · exact htype
  unfold arithmeticType
  dsimp only
  split
  next a b ha hb =>
    refine hwide ?_
    unfold GoType.widen
    split
    · exact hright hb
    · exact hleft ha
  next ha _ => exact hwide (hleft ha)
  next hb => exact hwide (hright hb)
  next => exact hwide hhint

section Operators

variable {l r : Value} (hl : pre → stock.Fits l) (hr : pre → stock.Fits r)

include hl hr

theorem drawsOn_floatRemainder {type : GoType} (htype : type.isFloat = true) :
    (floatRemainder l r type).DrawsOn stock c pre (stock.FitsAs type) := by
  have hreceiver : type.isReceiver = false := by
    refine isReceiver_of_isNumeric ?_
    rw [GoType.isNumeric, htype, Bool.or_true]
  have hmod {a b : Go.Expr} (hmath : stock.packages "math") (ha : a.Composed stock false 1)
      (hb : b.Composed stock false 1) :
      (Expr.invoke (.name "math") "Mod" [a, b]).Composed stock false 10 :=
    .packaged (by decide) hmath (by simp [ha, hb])
  refine drawsOn_bind (drawsOn_importPath "math" (by simp [Config.packages])) fun _ => ?_
  dsimp only
  split
  · exact drawsOn_pure fun hpre =>
      fitsAs_plain (hmod hpre.2 (hl hpre.1).operand (hr hpre.1).operand) hreceiver
  · have hwide {value : Value} (h : stock.Fits value) :
        (Expr.convert "float64" value.code).Composed stock false 1 :=
      .loosen (.convert (by decide) h.operand) (by decide)
    refine drawsOn_pure fun hpre => fitsAs_plain (.convert (by decide) ?_) hreceiver
    exact .loosen (hmod hpre.2 (hwide (hl hpre.1)) (hwide (hr hpre.1))) (by decide)

theorem drawsOn_numericArithmetic {op : BinaryOp} (hop : op.isArithmetic = true)
    (hnumbers : l.isNumber = true ∧ r.isNumber = true) (hint : Option GoType) :
    (numericArithmetic op l r hint).DrawsOn stock c pre stock.Fits := by
  unfold numericArithmetic
  split
  · refine drawsOn_bind (drawsOn_coerce hl .decimal) fun l' => ?_
    refine drawsOn_bind (drawsOn_coerce (fun hpre => hr hpre.1) .decimal) fun r' => drawsOn_pure ?_
    rintro ⟨⟨-, hl'⟩, hr'⟩
    have hmethod : decimalMethod op ∈ valueMethods := by cases op <;> decide
    refine fits_ofType ?_ (hl'.1.type _ hl'.2)
    exact hl'.1.method hl'.isReceiver hmethod (List.forall_mem_singleton.mpr hr'.1.operand) _
  next hdecimal =>
    have htype := isNumeric_arithmeticType hnumbers.1 hnumbers.2 (by simpa using hdecimal) hint
    refine drawsOn_bind (drawsOn_coerce hl _) fun l' => ?_
    refine drawsOn_bind (drawsOn_coerce (fun hpre => hr hpre.1) _) fun r' => ?_
    split
    next hmod =>
      rw [Bool.and_eq_true] at hmod
      refine (drawsOn_floatRemainder ?_ ?_ hmod.2).mono fun _ _ h => h.1
      · exact fun hpre => hpre.1.2.1
      · exact fun hpre => hpre.2.1
    next =>
      refine drawsOn_pure fun hpre => ?_
      obtain ⟨⟨-, hl'⟩, hr'⟩ := hpre
      have hstrength : 4 ≤ op.precedence ∧ op.precedence ≤ 5 := by
        revert hop
        cases op <;> decide
      refine (fitsAs_operator (by omega) (by omega) ?_ (isReceiver_of_isNumeric htype) ?_).1
      · exact .binary (strength?_arithmetic hop) (.inl (Nat.lt_succ_self _))
          (hl'.1.wrapped (by omega) (by omega)) (hr'.1.wrapped (by omega) (by omega))
      · intro hstring
        rw [hstring] at htype
        cases htype

theorem drawsOn_arithmetic {op : BinaryOp} (hop : op.isArithmetic = true) (hint : Option GoType) :
    (arithmetic op l r hint).DrawsOn stock c pre stock.Fits := by
  unfold arithmetic
  split
  · exact drawsOn_pure fun _ => fits_ofInt _
  · split
    · exact drawsOn_unsupported
    next hnumbers =>
      exact drawsOn_numericArithmetic hl hr hop (by simpa using hnumbers) hint

omit hr in
theorem drawsOn_isZero (negated : Bool) :
    (isZero l negated).DrawsOn stock c pre stock.Fits := by
  have hsymbol : Syntax.strength? (if negated then "!=" else "==") = some 3 := by
    cases negated <;> rfl
  have hplain (b : Bool) : stock.Fits (.ofType (.bool b) .bool) := (fitsAs_plain (.bool b) rfl).1
  refine drawsOn_bind (drawsOn_warn _ _) fun _ => ?_
  have htest (hpre : pre) (hreceiver : l.isReceiver = true) (primary : Bool) :
      (l.method "IsZero" []).Composed stock primary 10 :=
    (hl hpre).method hreceiver (by decide) (List.forall_mem_nil _) _
  dsimp only
  split
  case h_1 => exact drawsOn_pure fun _ => hplain _
  case h_2 hkind | h_3 hkind =>
    have hreceiver : l.isReceiver = true := by rw [Value.isReceiver, hkind]; rfl
    split
    · exact drawsOn_pure fun hpre => (fitsAs_ofBool (by decide) (by decide)
        (.not (.loosen (htest hpre.1 hreceiver _) (by decide)))).1
    · exact drawsOn_pure fun hpre => (fitsAs_plain (htest hpre.1 hreceiver _) rfl).1
  case h_4 =>
    split
    · exact drawsOn_pure fun hpre => hl hpre.1
    · exact drawsOn_pure fun hpre => (hl hpre.1).negated.1
  case h_5 =>
    refine drawsOn_pure fun hpre => (fitsAs_ofBool (by decide) (by decide) ?_).1
    exact .binary (q := 4) hsymbol (.inl (by decide))
      (.loosen (.len (hl hpre.1).operand) (by decide))
      (composed_int 0 (.inl (by decide)) (by decide))
  case h_6 type _ _ _ _ hkind =>
    refine drawsOn_pure fun hpre => (fitsAs_ofBool (by decide) (by decide) ?_).1
    refine .binary (q := 4) hsymbol (.inl (by decide)) ?_ ?_
    · exact .loosen ((hl hpre.1).wrapped (by decide) (by decide)) (by decide)
    · exact .loosen (.zero ((hl hpre.1).type _ hkind) (by simp)) (by decide)
  case h_7 => exact drawsOn_pure fun _ => hplain _

omit hl hr in
theorem fits_comparison {op : BinaryOp} (hop : op.isComparison = true) (hl : stock.Fits l)
    (hr : stock.Fits r) : stock.Fits (comparison op l r) := by
  refine (fitsAs_ofBool (by decide) (by decide) ?_).1
  exact .binary (q := 4) (strength?_comparison hop) (.inl (by decide))
    (.loosen (hl.wrapped (by decide) (by decide)) (by decide))
    (hr.wrapped (by decide) (by decide))

omit hr in
theorem drawsOn_compareConst (op : BinaryOp) (b : Bool) :
    (compareConst op l b).DrawsOn stock c pre stock.Fits := by
  refine drawsOn_bind (drawsOn_coerce hl .bool) fun subject => ?_
  split
  · exact drawsOn_pure fun hpre => hpre.2.1
  · exact drawsOn_pure fun hpre => hpre.2.1.negated.1

/-- Both operands are brought to one type and compared by an operator of Go. -/
theorem drawsOn_coerced {op : BinaryOp} (hop : op.isComparison = true) (type : GoType) :
    (do
      let l ← coerce l type
      let r ← coerce r type
      return comparison op l r : Lower Value).DrawsOn stock c pre stock.Fits := by
  refine drawsOn_bind (drawsOn_coerce hl type) fun l' => ?_
  refine drawsOn_bind (drawsOn_coerce (fun hpre => hr hpre.1) type) fun r' => drawsOn_pure ?_
  exact fun hpre => fits_comparison hop hpre.1.2.1 hpre.2.1

theorem drawsOn_compareBool {op : BinaryOp} (hop : op.isComparison = true) :
    (compareBool op l r).DrawsOn stock c pre stock.Fits := by
  unfold compareBool
  split
  · exact drawsOn_unsupported
  · split
    · exact drawsOn_compareConst hl op _
    · exact drawsOn_compareConst hr op _
    · exact drawsOn_coerced hl hr hop .bool

omit hl hr in
theorem fits_testCall {call : Go.Expr} (h : ∀ primary, call.Composed stock primary 10)
    (negated : Bool) : stock.Fits (testCall negated call) := by
  unfold testCall
  split
  · exact (fitsAs_ofBool (by decide) (by decide) (.not (.loosen (h _) (by decide)))).1
  · exact (fitsAs_plain (h _) rfl).1

theorem drawsOn_compareTime (op : BinaryOp) :
    (compareTime op l r).DrawsOn stock c pre stock.Fits := by
  refine drawsOn_bind (drawsOn_coerce hl .time) fun l' => ?_
  refine drawsOn_bind (drawsOn_coerce (fun hpre => hr hpre.1) .time) fun r' => ?_
  have hcall {name : String} (hname : name ∈ valueMethods)
      (hpre : (pre ∧ stock.FitsAs .time l') ∧ stock.FitsAs .time r') (primary : Bool) :
      (l'.method name [r'.code]).Composed stock primary 10 :=
    hpre.1.2.1.method hpre.1.2.isReceiver hname (List.forall_mem_singleton.mpr hpre.2.1.operand) _
  split <;> exact drawsOn_pure fun hpre => fits_testCall (hcall (by decide) hpre) _

theorem drawsOn_compareDecimal {op : BinaryOp} (hop : op.isComparison = true) :
    (compareDecimal op l r).DrawsOn stock c pre stock.Fits := by
  refine drawsOn_bind (drawsOn_coerce hl .decimal) fun l' => ?_
  refine drawsOn_bind (drawsOn_coerce (fun hpre => hr hpre.1) .decimal) fun r' => ?_
  have hcall {name : String} (hname : name ∈ valueMethods)
      (hpre : (pre ∧ stock.FitsAs .decimal l') ∧ stock.FitsAs .decimal r') (primary : Bool) :
      (l'.method name [r'.code]).Composed stock primary 10 :=
    hpre.1.2.1.method hpre.1.2.isReceiver hname (List.forall_mem_singleton.mpr hpre.2.1.operand) _
  split
  · exact drawsOn_pure fun hpre => fits_testCall (hcall (by decide) hpre) _
  · exact drawsOn_pure fun hpre => fits_testCall (hcall (by decide) hpre) _
  · refine drawsOn_pure fun hpre => (fitsAs_ofBool (by decide) (by decide) ?_).1
    exact .binary (q := 4) (strength?_comparison hop) (.inl (by decide))
      (.loosen (hcall (by decide) hpre _) (by decide))
      (composed_int 0 (.inl (by decide)) (by decide))

omit hr in
theorem drawsOn_compareNull (op : BinaryOp) :
    (compareNull op l).DrawsOn stock c pre stock.Fits := by
  unfold compareNull
  split
  · exact drawsOn_isZero hl false
  · exact drawsOn_isZero hl true
  · exact drawsOn_unsupported

theorem drawsOn_compareNumbers {op : BinaryOp} (hop : op.isComparison = true) :
    (compareNumbers op l r).DrawsOn stock c pre stock.Fits := by
  unfold compareNumbers
  split
  · split
    · exact drawsOn_pure fun hpre => fits_comparison hop (hl hpre) (hr hpre)
    · exact drawsOn_coerced hl hr hop _
  · exact drawsOn_pure fun hpre => fits_comparison hop (hl hpre) (hr hpre)

/-- A comparison of values that fit. -/
theorem drawsOn_compare {op : BinaryOp} (hop : op.isComparison = true) :
    (compare op l r).DrawsOn stock c pre stock.Fits := by
  unfold compare
  -- The tests for NULL come first, and each type has a comparison of its own.
  dsimp only
  split
  · exact drawsOn_compareNull hl op
  split
  · exact drawsOn_compareNull hr op
  split
  · exact drawsOn_compareBool hl hr hop
  split
  · exact drawsOn_compareTime hl hr op
  split
  · exact drawsOn_coerced hl hr hop .string
  split
  · exact drawsOn_unsupported
  split
  · exact drawsOn_compareDecimal hl hr hop
  · exact drawsOn_compareNumbers hl hr hop

theorem drawsOn_lowerLike (negated : Bool) :
    (lowerLike negated l r).DrawsOn stock c pre stock.Fits := by
  refine drawsOn_bind (drawsOn_coerce hl .string) fun l' => ?_
  refine drawsOn_bind (drawsOn_coerce (fun hpre => hr hpre.1) .string) fun r' => ?_
  refine drawsOn_bind (drawsOn_runtimeCall (by decide) fun hpre => ?_) fun call => drawsOn_pure ?_
  · simp [hpre.1.2.1.operand, hpre.2.1.operand]
  · exact fun hpre => fits_testCall hpre.2 _

omit hr in
theorem drawsOn_lowerUnary (op : UnaryOp) :
    (lowerUnary op l).DrawsOn stock c pre stock.Fits := by
  cases op with
  | neg =>
    refine drawsOn_of_annotated (annotated_ofExcept _) fun hruns _ hpre => ?_
    exact (hl hpre).negate (runs_ofExcept.mp hruns).1
  | not =>
    refine drawsOn_bind (drawsOn_coerce hl .bool) fun value => drawsOn_pure ?_
    exact fun hpre => hpre.2.1.negated.1

omit hr in
theorem drawsOn_lowerBetween {low high : Value} (hlow : pre → stock.Fits low)
    (hhigh : pre → stock.Fits high) (negated : Bool) :
    (lowerBetween negated l low high).DrawsOn stock c pre stock.Fits := by
  refine drawsOn_bind (drawsOn_compare hl hlow rfl) fun lower => ?_
  refine drawsOn_bind (drawsOn_compare (fun hpre => hl hpre.1) (fun hpre => hhigh hpre.1) rfl)
    fun upper => ?_
  have hboth (hpre : (pre ∧ stock.Fits lower) ∧ stock.Fits upper) :
      (Go.Expr.binary "&&" (lower.wrapped 2) (upper.wrapped 2)).Composed stock false 2 :=
    .binary (q := 2) rfl (.inr ⟨.inl rfl, Nat.le_refl _⟩) (hpre.1.2.wrapped (by decide) (by decide))
      (hpre.2.wrapped (by decide) (by decide))
  dsimp only
  split
  · refine drawsOn_pure fun hpre => (fitsAs_ofBool (by decide) (by decide) ?_).1
    exact .not (.loosen (.paren (.loosen (hboth hpre) (by decide))) (by decide))
  · exact drawsOn_pure fun hpre => (fitsAs_ofBool (by decide) (by decide) (hboth hpre)).1

end Operators

section Pending

variable {left right : Pending}

theorem drawsOn_lowerLogical {op : BinaryOp} (hop : op.isLogical = true)
    (hleft : (left (some .bool)).DrawsOn stock c pre stock.Fits)
    (hright : (right (some .bool)).DrawsOn stock c pre stock.Fits) :
    (lowerLogical op left right).DrawsOn stock c pre stock.Fits := by
  have hsymbol : Syntax.strength? op.goSymbol = some op.precedence ∧
      (op.goSymbol = "&&" ∨ op.goSymbol = "||") ∧ 1 ≤ op.precedence ∧ op.precedence ≤ 8 := by
    revert hop
    cases op <;> decide
  refine drawsOn_bind hleft fun l => drawsOn_bind (drawsOn_coerce And.right .bool) fun l' => ?_
  refine drawsOn_bind (hright.of_pre fun hpre => hpre.1.1) fun r => ?_
  refine drawsOn_bind (drawsOn_coerce And.right .bool) fun r' => ?_
  refine drawsOn_pure fun hpre => (fitsAs_ofBool hsymbol.2.2.1 hsymbol.2.2.2 ?_).1
  have hl' := hpre.1.1.2
  have hr' := hpre.2
  exact .binary hsymbol.1 (.inr ⟨hsymbol.2.1, Nat.le_refl _⟩)
    (hl'.1.wrapped hsymbol.2.2.1 hsymbol.2.2.2) (hr'.1.wrapped hsymbol.2.2.1 hsymbol.2.2.2)

/-- A binary operator on operands that are still to be evaluated. -/
theorem drawsOn_lowerBinary (op : BinaryOp) {hint : Option GoType}
    (hhint : pre → stock.HasHint hint)
    (hleft : ∀ {pre : Prop} {hint : Option GoType}, (pre → stock.HasHint hint) →
      (left hint).DrawsOn stock c pre stock.Fits)
    (hright : ∀ {pre : Prop} {hint : Option GoType}, (pre → stock.HasHint hint) →
      (right hint).DrawsOn stock c pre stock.Fits) :
    (lowerBinary op left right hint).DrawsOn stock c pre stock.Fits := by
  unfold lowerBinary
  split
  next hlogical =>
    have hbool : stock.HasHint (some .bool) := by simp [HasHint, HasType, GoType.package?]
    exact drawsOn_lowerLogical hlogical (hleft fun _ => hbool) (hright fun _ => hbool)
  next hlogical =>
  refine drawsOn_bind (hleft fun _ => by simp [HasHint]) fun l => ?_
  refine drawsOn_bind (hright fun hpre => ?_) fun r => ?_
  · intro type htype
    rcases Option.or_eq_some_iff.mp htype with htype | ⟨-, htype⟩
    · exact hpre.2.goType? type htype
    · exact hhint hpre.1 type htype
  split
  · exact drawsOn_lowerLike (fun hpre => hpre.1.2) And.right _
  next hlike =>
  split
  next hcomparison => exact drawsOn_compare (fun hpre => hpre.1.2) And.right hcomparison
  next hcomparison =>
  split
  · refine drawsOn_bind (drawsOn_coerce (fun hpre => hpre.1.2) .string) fun l' => ?_
    refine drawsOn_bind (drawsOn_coerce (fun hpre => hpre.1.2) .string) fun r' => drawsOn_pure ?_
    rintro ⟨⟨-, hl'⟩, hr'⟩
    refine (fitsAs_operator (by decide) (by decide) ?_ rfl (fun _ => rfl)).1
    exact .binary (q := 5) rfl (.inl (by decide)) (hl'.1.wrapped (by decide) (by decide))
      (hr'.1.wrapped (by decide) (by decide))
  · have hop : op.isArithmetic = true := by
      revert hlogical hlike hcomparison
      cases op <;> decide
    exact drawsOn_arithmetic (fun hpre => hpre.1.2) And.right hop hint

end Pending

theorem fits_lowerMember (negated : Bool) {tests : List Value}
    (h : ∀ test ∈ tests, stock.Fits test) : stock.Fits (lowerMember negated tests) := by
  have hloose {p : Nat} (hpositive : 1 ≤ p) (hp : p ≤ 8) :
      ∀ e ∈ tests.map (·.wrapped p), e.Composed stock false p := by
    intro e he
    obtain ⟨test, htest, rfl⟩ := List.mem_map.mp he
    exact (h test htest).wrapped hpositive hp
  have hrow {symbol : String} {p : Nat} (hsymbol : Syntax.strength? symbol = some p)
      (hlogical : symbol = "&&" ∨ symbol = "||") (hpositive : 1 ≤ p) (hp : p ≤ 8) :
      stock.Fits (.ofBool (.chain symbol (tests.map (·.wrapped p)))
        (if tests.length > 1 then p else Value.comparison)) := by
    split
    next hmany =>
      refine (fitsAs_ofBool hpositive hp ?_).1
      refine .chain hsymbol (.inr ⟨hlogical, Nat.le_refl _⟩) ?_ (hloose hpositive hp)
      intro hnil
      rw [List.map_eq_nil_iff] at hnil
      simp [hnil] at hmany
    next hfew =>
      refine (fitsAs_ofBool (by decide) (by decide) (.row ?_ fun e he => ?_)).1
      · simpa using hfew
      · exact .loosen (hloose hpositive hp e he) hpositive
  unfold lowerMember
  cases negated with
  | false => exact hrow rfl (.inr rfl) (by decide) (by decide)
  | true => exact hrow rfl (.inl rfl) (by decide) (by decide)

/-- The tests and results of the arms of a case. Any arm needs the type. -/
theorem drawsOn_coerceArms (type : GoType) {arms : List (Go.Expr × Value)}
    (h : pre → ∀ arm ∈ arms, arm.1.Composed stock false 1 ∧ stock.Fits arm.2) :
    (coerceArms type arms).DrawsOn stock c pre fun coerced =>
      (arms ≠ [] → stock.HasType type) ∧
        ∀ arm ∈ coerced, arm.1.Composed stock false 1 ∧ arm.2.Composed stock false 1 := by
  induction arms generalizing pre with
  | nil => exact drawsOn_pure fun _ => by simp
  | cons arm rest ih =>
    refine drawsOn_bind (drawsOn_coerce (fun hpre => (h hpre arm List.mem_cons_self).2) type)
      fun result => ?_
    have hrest (hpre : pre ∧ stock.FitsAs type result) :
        ∀ arm ∈ rest, arm.1.Composed stock false 1 ∧ stock.Fits arm.2 :=
      fun other hother => h hpre.1 other (.tail _ hother)
    refine drawsOn_bind (ih hrest) fun others => ?_
    refine drawsOn_pure ?_
    rintro ⟨⟨hpre, hresult⟩, -, hothers⟩
    refine ⟨fun _ => hresult.1.type _ hresult.2, List.forall_mem_cons.mpr ⟨⟨?_, ?_⟩, hothers⟩⟩
    · exact (h hpre arm List.mem_cons_self).1
    · exact hresult.1.operand

/-- A searched case yields a value that fits. -/
theorem drawsOn_lowerCase {arms : List (Go.Expr × Value)} {otherwise : Option Value}
    {hint : Option GoType} (hhint : pre → stock.HasHint hint)
    (harms : pre → ∀ arm ∈ arms, arm.1.Composed stock false 1 ∧ stock.Fits arm.2)
    (hotherwise : pre → ∀ value ∈ otherwise, stock.Fits value) :
    (lowerCase arms otherwise hint).DrawsOn stock c pre stock.Fits := by
  unfold lowerCase
  split
  next => exact drawsOn_unsupported
  next type htype =>
    have hchoice {tests : List (Go.Expr × Go.Expr)} {last : Go.Expr} (htype : stock.HasType type)
        (htests : ∀ arm ∈ tests, arm.1.Composed stock false 1 ∧ arm.2.Composed stock false 1)
        (hlast : last.Composed stock false 1) :
        stock.Fits (.ofType (.choose type tests last) type) :=
      (fitsAs_ofType (fun _ => .choose htype (fun arm harm => (htests arm harm).1)
        (fun arm harm => (htests arm harm).2) hlast) htype).1
    refine drawsOn_bind (drawsOn_coerceArms type harms) fun tests => ?_
    dsimp only
    cases otherwise with
    | some value =>
      refine drawsOn_bind (drawsOn_coerce (fun hpre => hotherwise hpre.1 value rfl) type)
        fun last => ?_
      refine drawsOn_bind (P := fun code => stock.HasType type ∧ code.Composed stock false 1)
        (drawsOn_pure fun hpre => ⟨hpre.2.1.type _ hpre.2.2, hpre.2.1.operand⟩)
        fun code => drawsOn_pure ?_
      exact fun hpre => hchoice hpre.2.1 hpre.1.1.2.2 hpre.2.2
    | none =>
      -- Without results the type is the hint.
      have havailable (hpre : pre) (hsome : arms ≠ [] → stock.HasType type) :
          stock.HasType type := by
        cases arms with
        | nil =>
          refine hhint hpre type ?_
          simpa [caseType?] using htype
        | cons arm rest => exact hsome (List.cons_ne_nil _ _)
      refine drawsOn_bind (P := fun last => stock.HasType type ∧ last.Composed stock false 1)
        (drawsOn_pure fun hpre => ?_) fun last => drawsOn_pure ?_
      · have htype := havailable hpre.1 hpre.2.1
        exact ⟨htype, .loosen (.zero htype (by simp)) (by decide)⟩
      · exact fun hpre => hchoice hpre.2.1 hpre.1.2.2 hpre.2.2

/-! ## Built-in functions -/

/-- The arguments of a built-in function yield values that fit, whatever they are hinted at. -/
def ArgsFit (args : List Arg) (stock : Stock) (c : Context) : Prop :=
  ∀ arg ∈ args, ∀ {pre : Prop} {hint : Option GoType}, (pre → stock.HasHint hint) →
    (arg.value hint).DrawsOn stock c pre stock.Fits

section Arguments

variable {args : List Arg}

theorem drawsOn_argAt (name : String) (index : Nat) :
    (argAt name args index).DrawsOn stock c pre fun arg => arg ∈ args := by
  unfold argAt
  cases harg : args[index]? with
  | some arg => exact drawsOn_pure fun _ => List.mem_of_getElem? harg
  | none => exact drawsOn_unsupported

variable (hargs : ArgsFit args stock c)

include hargs

omit hargs in
/-- A step on one of the arguments. -/
theorem drawsOn_argAt_bind {α : Type} {P : α → Prop} {name : String} {index : Nat}
    {next : Arg → Lower α} (h : ∀ arg ∈ args, (next arg).DrawsOn stock c pre P) :
    (argAt name args index >>= next).DrawsOn stock c pre P := by
  unfold argAt
  cases harg : args[index]? with
  | some arg => exact h arg (List.mem_of_getElem? harg)
  | none => exact drawsOn_unsupported_bind

theorem drawsOn_typedArg (type : GoType) (name : String) (index : Nat) :
    (typedArg type name args index).DrawsOn stock c pre (stock.FitsAs type) :=
  drawsOn_argAt_bind fun arg harg =>
    drawsOn_bind_coerce (hargs arg harg fun hpre => hasHint_some.mpr hpre.2)

theorem drawsOn_stringArg (name : String) (index : Nat) :
    (stringArg name args index).DrawsOn stock c pre (stock.FitsAs .string) :=
  drawsOn_typedArg hargs _ name index

theorem drawsOn_timeArg (name : String) (index : Nat) :
    (timeArg name args index).DrawsOn stock c pre (stock.FitsAs .time) :=
  drawsOn_typedArg hargs _ name index

theorem drawsOn_intArg (name : String) (index : Nat) :
    (intArg name args index).DrawsOn stock c pre fun e => e.Composed stock false 1 := by
  have hhint : stock.HasHint (some .int64) := by simp [HasHint, HasType, GoType.package?]
  refine drawsOn_argAt_bind fun arg harg => ?_
  refine drawsOn_bind (hargs arg harg fun _ => hhint) fun value => ?_
  split
  · exact drawsOn_pure fun _ => composed_int _ (.inr (by decide)) (by decide)
  · refine drawsOn_bind (drawsOn_coerce And.right _) fun count => drawsOn_pure fun hpre => ?_
    exact .loosen (.convert (by decide) hpre.2.1.operand) (by decide)

omit hargs in
theorem drawsOn_datePartArg (name : String) (index : Nat) :
    (datePartArg name args index).DrawsOn stock c pre fun e => e.Composed stock false 1 := by
  refine drawsOn_bind (drawsOn_argAt name index) fun arg => ?_
  dsimp only
  split
  · exact drawsOn_unsupported
  · split
    · exact drawsOn_pure fun _ => .loosen (.str _) (by decide)
    · exact drawsOn_unsupported

theorem drawsOn_evaluateAll {hint : Option GoType} (hhint : pre → stock.HasHint hint) :
    (evaluateAll hint args).DrawsOn stock c pre fun values => ∀ v ∈ values, stock.Fits v := by
  induction args generalizing pre with
  | nil => exact drawsOn_pure fun _ => by simp
  | cons arg rest ih =>
    have hrest : ArgsFit rest stock c := fun other hother => hargs other (.tail _ hother)
    refine drawsOn_bind (hargs arg List.mem_cons_self hhint) fun value => ?_
    refine drawsOn_bind (ih hrest fun hpre => hhint hpre.1) fun values => drawsOn_pure ?_
    exact fun hpre => List.forall_mem_cons.mpr ⟨hpre.1.2, hpre.2⟩

omit hargs in
/-- Converted values are operands. Any value needs the type. -/
theorem drawsOn_coerceAll (type : GoType) {values : List Value}
    (h : pre → ∀ v ∈ values, stock.Fits v) :
    (coerceAll type values).DrawsOn stock c pre fun parts =>
      (values ≠ [] → stock.HasType type) ∧ ∀ e ∈ parts, e.Composed stock false 1 := by
  induction values generalizing pre with
  | nil => exact drawsOn_pure fun _ => by simp
  | cons value rest ih =>
    refine drawsOn_bind (drawsOn_coerce (fun hpre => h hpre value List.mem_cons_self) type)
      fun part => ?_
    refine drawsOn_bind (ih fun hpre v hv => h hpre.1 v (.tail _ hv)) fun parts => drawsOn_pure ?_
    rintro ⟨⟨-, hpart⟩, -, hparts⟩
    exact ⟨fun _ => hpart.1.type _ hpart.2, List.forall_mem_cons.mpr ⟨hpart.1.operand, hparts⟩⟩

theorem drawsOn_lowerCoalesce (name : String) {hint : Option GoType}
    (hhint : pre → stock.HasHint hint) :
    (lowerCoalesce name args hint).DrawsOn stock c pre stock.Fits := by
  refine drawsOn_bind (drawsOn_evaluateAll hargs hhint) fun values => ?_
  split
  next => exact drawsOn_unsupported
  next type htype =>
    refine drawsOn_bind (drawsOn_coerceAll type And.right) fun parts => ?_
    refine drawsOn_bind (drawsOn_runtimeCall (by decide) fun hpre => hpre.2.2) fun call => ?_
    refine drawsOn_pure ?_
    rintro ⟨⟨⟨hpre, -⟩, hsome, -⟩, hcall⟩
    -- Without arguments the type is the hint.
    have havailable : stock.HasType type := by
      cases values with
      | nil =>
        refine hhint hpre type ?_
        simpa [coalesceType?] using htype
      | cons value rest => exact hsome (List.cons_ne_nil _ _)
    exact (fitsAs_ofType hcall havailable).1

theorem drawsOn_concatArgs (name : String) (indices : List Nat) :
    (concatArgs name args indices).DrawsOn stock c pre fun parts =>
      ∀ e ∈ parts, e.Composed stock false 10 := by
  induction indices generalizing pre with
  | nil => exact drawsOn_pure fun _ => by simp
  | cons index rest ih =>
    refine drawsOn_bind (drawsOn_stringArg hargs name index) fun part => ?_
    refine drawsOn_bind ih fun parts => drawsOn_pure fun hpre => ?_
    exact List.forall_mem_cons.mpr ⟨hpre.1.2.wrapped_text, hpre.2⟩

theorem drawsOn_lowerConcat (name : String) :
    (lowerConcat name args).DrawsOn stock c pre stock.Fits := by
  refine drawsOn_bind (drawsOn_concatArgs hargs name _) fun parts => ?_
  split
  · exact drawsOn_pure fun _ => (fitsAs_plain (.str "") rfl).1
  next hne =>
    refine drawsOn_pure fun hpre => ?_
    obtain ⟨part, rest, rfl⟩ := List.exists_cons_of_ne_nil (by simpa using hne)
    cases rest with
    | nil => exact (fitsAs_plain (.alone (hpre.2 part List.mem_cons_self)) rfl).1
    | cons next rest =>
      refine (fitsAs_operator (by decide : 1 ≤ 4) (by decide) ?_ rfl fun _ => rfl).1
      exact .chain (q := 5) rfl (.inl (by decide)) (List.cons_ne_nil _ _) fun e he =>
        .loosen (hpre.2 e he) (by decide)

omit hargs in
/-- Only strings and truth values are typed as constants. -/
theorem kind_eq_of_goType? {type : GoType} (h : value.goType? = some type)
    (htype : type.isNumeric = true ∨ type = .decimal) : value.kind = .typed type := by
  unfold Value.goType? at h
  split at h
  case h_1 hkind => rw [hkind, Option.some.inj h]
  case h_2 | h_3 =>
    cases Option.some.inj h
    simp [GoType.isNumeric, GoType.isInteger, GoType.isFloat] at htype
  case h_4 => cases h

/-- A number, of a type that can be rounded. -/
theorem drawsOn_roundingArg (name : String) {hint : Option GoType}
    (hhint : pre → stock.HasHint hint) :
    (roundingArg name args hint).DrawsOn stock c pre fun result =>
      stock.FitsAs result.2 result.1 ∧ (result.2.isNumeric = true ∨ result.2 = .decimal) := by
  refine drawsOn_argAt_bind fun arg harg => ?_
  refine drawsOn_bind (hargs arg harg hhint) fun value => ?_
  -- The argument is converted first, and the type of what comes out decides.
  have hrest {value : Value} {type : GoType} {pre : Prop} (h : pre → stock.Fits value)
      (htype : value.goType?.filter (fun type => type.isNumeric || type == .decimal) = some type) :
      (pure (value, type) : Lower (Value × GoType)).DrawsOn stock c pre fun result =>
        stock.FitsAs result.2 result.1 ∧ (result.2.isNumeric = true ∨ result.2 = .decimal) := by
    obtain ⟨hsome, hrounds⟩ := Option.filter_eq_some_iff.mp htype
    have hrounds : type.isNumeric = true ∨ type = .decimal := by simpa using hrounds
    exact drawsOn_pure fun hpre => ⟨⟨h hpre, kind_eq_of_goType? hsome hrounds⟩, hrounds⟩
  dsimp only
  split
  · refine drawsOn_bind (drawsOn_coerce And.right _) fun value => ?_
    split
    · exact hrest (fun hpre => hpre.2.1) ‹_›
    · exact drawsOn_unsupported
  · refine drawsOn_bind (drawsOn_coerce And.right _) fun value => ?_
    split
    · exact hrest (fun hpre => hpre.2.1) ‹_›
    · exact drawsOn_unsupported
  · refine drawsOn_bind (drawsOn_pure And.right) fun value => ?_
    split
    · exact hrest And.right ‹_›
    · exact drawsOn_unsupported

theorem drawsOn_lowerAbs (name : String) {hint : Option GoType}
    (hhint : pre → stock.HasHint hint) :
    (lowerAbs name args hint).DrawsOn stock c pre stock.Fits := by
  refine drawsOn_bind (drawsOn_roundingArg hargs name hhint) fun result => ?_
  dsimp only
  split
  next hdecimal =>
    refine drawsOn_pure fun hpre => ?_
    have hvalue := hpre.2.1
    have hreceiver : result.1.isReceiver = true := by rw [hvalue.isReceiver, hdecimal]; rfl
    refine (fitsAs_ofType (fun _ => ?_) (hvalue.1.type _ hvalue.2)).1
    exact hvalue.1.method hreceiver (by decide) (List.forall_mem_nil _) _
  next =>
    refine drawsOn_bind (drawsOn_runtimeCall (by decide) fun hpre =>
      List.forall_mem_singleton.mpr hpre.2.1.1.operand) fun call => drawsOn_pure fun hpre => ?_
    have hvalue := hpre.1.2.1
    exact (fitsAs_ofType hpre.2 (hvalue.1.type _ hvalue.2)).1

theorem drawsOn_lowerRound (name : String) {hint : Option GoType}
    (hhint : pre → stock.HasHint hint) :
    (lowerRound name args hint).DrawsOn stock c pre stock.Fits := by
  refine drawsOn_bind (drawsOn_roundingArg hargs name hhint) fun result => ?_
  dsimp only
  split
  next hdecimal =>
    refine drawsOn_bind (drawsOn_intArg hargs name 1) fun places => drawsOn_pure fun hpre => ?_
    have hvalue := hpre.1.2.1
    have hreceiver : result.1.isReceiver = true := by rw [hvalue.isReceiver, hdecimal]; rfl
    refine (fitsAs_ofType (fun _ => ?_) (hvalue.1.type _ hvalue.2)).1
    refine hvalue.1.method hreceiver (by decide) (List.forall_mem_singleton.mpr ?_) _
    exact .loosen (.convert (by decide) hpre.2) (by decide)
  next =>
    split
    · exact drawsOn_pure fun hpre => hpre.2.1.1
    · refine drawsOn_bind (drawsOn_intArg hargs name 1) fun places => ?_
      refine drawsOn_bind (drawsOn_runtimeCall (by decide) fun hpre => ?_) fun call =>
        drawsOn_pure fun hpre => ?_
      · simp [hpre.1.2.1.1.operand, hpre.2]
      · have hvalue := hpre.1.1.2.1
        exact (fitsAs_ofType hpre.2 (hvalue.1.type _ hvalue.2)).1

theorem drawsOn_lowerToward {function : String} (hfunction : ("math", function) ∈ packageFunctions)
    (hmethod : function ∈ valueMethods) (name : String) {hint : Option GoType}
    (hhint : pre → stock.HasHint hint) :
    (lowerToward function name args hint).DrawsOn stock c pre stock.Fits := by
  refine drawsOn_bind (drawsOn_roundingArg hargs name hhint) fun result => ?_
  dsimp only
  split
  next hdecimal =>
    refine drawsOn_pure fun hpre => ?_
    have hvalue := hpre.2.1
    have hreceiver : result.1.isReceiver = true := by rw [hvalue.isReceiver, hdecimal]; rfl
    refine (fitsAs_ofType (fun _ => ?_) (hvalue.1.type _ hvalue.2)).1
    exact hvalue.1.method hreceiver hmethod (List.forall_mem_nil _) _
  next hdecimal =>
    split
    · exact drawsOn_pure fun hpre => hpre.2.1.1
    next =>
      have hmath {e : Go.Expr} (hpackage : stock.packages "math") (he : e.Composed stock false 1)
          (primary : Bool) : (Expr.invoke (.name "math") function [e]).Composed stock primary 10 :=
        .packaged hfunction hpackage (List.forall_mem_singleton.mpr he)
      refine drawsOn_bind (drawsOn_importPath "math" (by simp [Config.packages])) fun _ => ?_
      split
      · refine drawsOn_pure fun hpre => ?_
        have hvalue := hpre.1.2.1
        exact (fitsAs_ofType (hmath hpre.2 hvalue.1.operand) (hvalue.1.type _ hvalue.2)).1
      · refine drawsOn_pure fun hpre => ?_
        have hvalue := hpre.1.2.1
        have hnumeric : result.2.isNumeric = true :=
          hpre.1.2.2.resolve_right hdecimal
        refine (fitsAs_ofType (fun _ => .convert (name_mem_conversions hnumeric) ?_)
          (hvalue.1.type _ hvalue.2)).1
        refine .loosen (hmath hpre.2 ?_ _) (by decide)
        exact .loosen (.convert (by decide) hvalue.1.operand) (by decide)

omit hargs in
theorem drawsOn_stringsCall {function : String}
    (hfunction : ("strings", function) ∈ packageFunctions) {parts : List Go.Expr} (h : pre → ∀ e ∈ parts, e.Composed stock false 1) :
    (stringsCall function parts).DrawsOn stock c pre fun e =>
      ∀ primary, e.Composed stock primary 10 := by
  refine drawsOn_bind (drawsOn_importPath "strings" (by simp [Config.packages])) fun _ => ?_
  exact drawsOn_pure fun hpre _ => .packaged hfunction hpre.2 (h hpre.1)

/-- What is known about a built-in function by its name: its code and its functions are among those
that values are made with. -/
structure StockedBuiltin (builtin : Builtin) : Prop where
  clock {code : Go.Expr} : builtin = .clock code → ∀ {stock : Stock}, stock.packages "time" →
    ∀ primary, code.Composed stock primary 10
  stringCall {function : String} {extra : List Go.Expr} : builtin = .stringCall function extra →
    ("strings", function) ∈ packageFunctions ∧
      ∀ {stock : Stock}, ∀ e ∈ extra, e.Composed stock false 1
  edge {function : String} : builtin = .edge function → ("tsqlrt", function) ∈ packageFunctions
  toward {function : String} : builtin = .toward function →
    ("math", function) ∈ packageFunctions ∧ function ∈ valueMethods
  datePart {method : String} : builtin = .datePart method → method ∈ valueMethods

theorem drawsOn_lowerBuiltin (hown : stock.Own) {builtin : Builtin} (h : StockedBuiltin builtin)
    (name : String) {hint : Option GoType} (hhint : pre → stock.HasHint hint) :
    (lowerBuiltin builtin name args hint).DrawsOn stock c pre stock.Fits := by
  have hruntime {step : Lower Go.Expr} {pre : Prop} {type : GoType}
      (htype : pre → stock.HasType type)
      (h : step.DrawsOn stock c pre fun e => ∀ primary, e.Composed stock primary 10) :
      (do return .ofType (← step) type : Lower Value).DrawsOn stock c pre stock.Fits :=
    drawsOn_bind h fun call => drawsOn_pure fun hpre => (fitsAs_ofType hpre.2 (htype hpre.1)).1
  have hplain {pre : Prop} {type : GoType} (htype : type.package? = none) :
      pre → stock.HasType type :=
    fun _ => hasType_of_package? htype
  unfold lowerBuiltin
  cases builtin with
  | clock code =>
    refine drawsOn_bind (drawsOn_importPath "time" (by simp [Config.packages])) fun _ => ?_
    exact drawsOn_pure fun hpre =>
      (fitsAs_ofType (h.clock rfl hpre.2) (hasType_of_packages rfl hpre.2)).1
  | identity =>
    exact drawsOn_pure fun _ => (fitsAs_plain (.name (hown.kept _ (by decide))) rfl).1
  | newId => exact hruntime (hplain rfl) (drawsOn_runtimeCall (by decide) fun _ => by simp)
  | coalesce => exact drawsOn_lowerCoalesce hargs name hhint
  | len =>
    refine drawsOn_bind (drawsOn_stringArg hargs name 0) fun s => ?_
    refine drawsOn_bind (drawsOn_importPath "utf8" (by simp [Config.packages])) fun _ => ?_
    refine drawsOn_bind (drawsOn_stringsCall (by decide) fun hpre => ?_) fun trimmed =>
      drawsOn_pure fun hpre => ?_
    · have hspace : (Expr.str " ").Composed stock false 1 := .loosen (.str _) (by decide)
      simp [hpre.1.2.1.operand, hspace]
    · refine (fitsAs_plain (.convert (by decide) ?_) rfl).1
      have htrimmed : trimmed.Composed stock false 1 := .loosen (hpre.2 _) (by decide)
      exact .loosen (.packaged (by decide) hpre.1.2 (List.forall_mem_singleton.mpr htrimmed))
        (by decide)
  | dataLength =>
    refine drawsOn_bind (drawsOn_stringArg hargs name 0) fun s => drawsOn_pure fun hpre => ?_
    refine (fitsAs_plain (.convert (by decide) ?_) rfl).1
    exact .loosen (.len hpre.2.1.operand) (by decide)
  | stringCall function extra =>
    obtain ⟨hfunction, hextra⟩ := h.stringCall rfl
    refine drawsOn_bind (drawsOn_stringArg hargs name 0) fun s => ?_
    refine hruntime (hplain rfl) (drawsOn_stringsCall hfunction fun hpre => ?_)
    exact List.forall_mem_cons.mpr ⟨hpre.2.1.operand, hextra⟩
  | replace =>
    refine drawsOn_bind (drawsOn_stringArg hargs name 0) fun s => ?_
    refine drawsOn_bind (drawsOn_stringArg hargs name 1) fun old => ?_
    refine drawsOn_bind (drawsOn_stringArg hargs name 2) fun new => ?_
    refine hruntime (hplain rfl) (drawsOn_stringsCall (by decide) fun hpre => ?_)
    simp [hpre.1.1.2.1.operand, hpre.1.2.1.operand, hpre.2.1.operand]
  | substring =>
    refine drawsOn_bind (drawsOn_stringArg hargs name 0) fun s => ?_
    refine drawsOn_bind (drawsOn_intArg hargs name 1) fun start => ?_
    refine drawsOn_bind (drawsOn_intArg hargs name 2) fun length => ?_
    refine hruntime (hplain rfl) (drawsOn_runtimeCall (by decide) fun hpre => ?_)
    simp [hpre.1.1.2.1.operand, hpre.1.2, hpre.2]
  | edge function =>
    refine drawsOn_bind (drawsOn_stringArg hargs name 0) fun s => ?_
    refine drawsOn_bind (drawsOn_intArg hargs name 1) fun count => ?_
    refine hruntime (hplain rfl) (drawsOn_runtimeCall (h.edge rfl) fun hpre => ?_)
    simp [hpre.1.2.1.operand, hpre.2]
  | charIndex =>
    refine drawsOn_bind (drawsOn_stringArg hargs name 0) fun needle => ?_
    refine drawsOn_bind (drawsOn_stringArg hargs name 1) fun hay => ?_
    refine drawsOn_bind (drawsOn_stringsCall (by decide) fun hpre => ?_) fun index =>
      drawsOn_pure fun hpre => ?_
    · simp [hpre.1.2.1.operand, hpre.2.1.operand]
    · refine (fitsAs_plain (.convert (by decide) ?_) rfl).1
      refine .loosen (p := 1) (q := 4) (.binary (q := 5) rfl (.inl (by decide)) ?_ ?_) (by decide)
      · exact .loosen (hpre.2 _) (by decide)
      · exact composed_int 1 (.inl (by decide)) (by decide)
  | concat => exact drawsOn_lowerConcat hargs name
  | abs => exact drawsOn_lowerAbs hargs name hhint
  | round => exact drawsOn_lowerRound hargs name hhint
  | toward function =>
    exact drawsOn_lowerToward hargs (h.toward rfl).1 (h.toward rfl).2 name hhint
  | datePart method =>
    refine drawsOn_bind (drawsOn_timeArg hargs name 0) fun d => drawsOn_pure fun hpre => ?_
    have hreceiver : d.isReceiver = true := hpre.2.isReceiver
    refine (fitsAs_plain (.convert (by decide) ?_) rfl).1
    exact .loosen (hpre.2.1.method hreceiver (h.datePart rfl) (List.forall_mem_nil _) _) (by decide)
  | dateAdd =>
    refine drawsOn_bind (drawsOn_datePartArg name 0) fun part => ?_
    refine drawsOn_bind (drawsOn_intArg hargs name 1) fun amount => ?_
    refine drawsOn_bind (drawsOn_timeArg hargs name 2) fun d => ?_
    refine hruntime (fun hpre => hpre.2.1.type _ hpre.2.2)
      (drawsOn_runtimeCall (by decide) fun hpre => ?_)
    simp [hpre.1.1.2, hpre.1.2, hpre.2.1.operand]
  | dateDiff =>
    refine drawsOn_bind (drawsOn_datePartArg name 0) fun part => ?_
    refine drawsOn_bind (drawsOn_timeArg hargs name 1) fun start => ?_
    refine drawsOn_bind (drawsOn_timeArg hargs name 2) fun stop => ?_
    refine hruntime (hplain rfl) (drawsOn_runtimeCall (by decide) fun hpre => ?_)
    simp [hpre.1.1.2, hpre.1.2.1.operand, hpre.2.1.operand]

omit hargs in
theorem composed_clock {name : String} {code : Go.Expr} (h : clock? name = some code)
    (htime : stock.packages "time") (primary : Bool) : code.Composed stock primary 10 := by
  have hnow (primary : Bool) : (Expr.invoke (.name "time") "Now" []).Composed stock primary 10 :=
    .packaged (by decide) htime (List.forall_mem_nil _)
  unfold clock? at h
  split at h
  case h_7 => cases h
  case h_5 | h_6 =>
    obtain rfl := Option.some.inj h
    exact .method (by decide) (hnow true) (List.forall_mem_nil _)
  all_goals
    obtain rfl := Option.some.inj h
    exact hnow primary

omit hargs in
theorem stockedBuiltin_of_ofName? {name : String} {builtin : Builtin}
    (h : Builtin.ofName? name = some builtin) : StockedBuiltin builtin := by
  have hspace {stock : Stock} : (Expr.str " ").Composed stock false 1 :=
    .loosen (.str _) (by decide)
  unfold Builtin.ofName? at h
  split at h
  case h_28 =>
    obtain ⟨code, hcode, rfl⟩ := Option.map_eq_some_iff.mp h
    constructor
    case clock =>
      rintro _ ⟨⟩ stock htime
      exact composed_clock hcode htime
    all_goals exact nofun
  -- Most parts speak of another constructor.
  all_goals
    obtain rfl := Option.some.inj h
    constructor <;> first | (intros; contradiction) | simp [packageFunctions, valueMethods, hspace]

omit hargs in
theorem fits_errorIntrinsic (hown : stock.Own) {inCatch : Bool} {procedure name : String}
    {value : Value} (h : errorIntrinsic? inCatch procedure name = some value) :
    stock.Fits value := by
  have htext (s : String) : stock.Fits (.atom (.str s) (.strConst s)) :=
    fits_atom (.str s) (by simp) (by simp)
  have hint {n : Int} (hn : 0 ≤ n) : stock.Fits (.atom (.int n) (.intConst n)) := by
    refine fits_atom (composed_int n (.inl hn) (Nat.le_refl _)) (by simp) ?_
    rintro _ ⟨⟩
    exact hn
  unfold errorIntrinsic? at h
  dsimp only at h
  split at h
  case h_1 =>
    split at h
    · obtain rfl := Option.some.inj h
      have hcaught : stock.names "caught" := hown.kept _ (by decide)
      exact (fitsAs_plain (.method (by decide) (.name hcaught) (List.forall_mem_nil _)) rfl).1
    · obtain rfl := Option.some.inj h
      exact htext _
  case h_2 | h_3 | h_4 =>
    obtain rfl := Option.some.inj h
    exact hint (by cases inCatch <;> decide)
  case h_5 =>
    obtain rfl := Option.some.inj h
    exact hint (by decide)
  case h_6 =>
    obtain rfl := Option.some.inj h
    exact htext _
  case h_7 => cases h

/-- A built-in function on arguments that fit yields a value that fits. -/
theorem drawsOn_lowerFunction (hown : stock.Own) (name : String) {hint : Option GoType}
    (hhint : pre → stock.HasHint hint) :
    (lowerFunction name args hint).DrawsOn stock c pre stock.Fits := by
  refine drawsOn_read_bind ?_
  dsimp only
  split
  next value hvalue =>
    exact drawsOn_when (drawsOn_warn _ _) (drawsOn_pure fun _ => fits_errorIntrinsic hown hvalue)
  next =>
    split
    next builtin hbuiltin =>
      exact drawsOn_lowerBuiltin hargs hown (stockedBuiltin_of_ofName? hbuiltin) _ hhint
    next => exact drawsOn_unsupported

end Arguments

end Lower

end Sproc
