import Sproc.Proofs.Lower.Idiom

/-!
# What values are made of

The value of a T-SQL expression becomes Go code that mentions variables of the procedure, packages,
and those slots that the expression asks for. It never mentions the error, and it sends no message.
Conversions, operators and built-in functions keep this up: what they return is made of what they are
given.

## Main definitions

* `Lower.Evaluates`: a step yields a value in this sense

## Main results

* `Idiom.isValue_call`, `Idiom.isValue_wrapped`: compound code is a value if its parts are
* `evaluates_coerce`, `evaluates_compare`, `evaluates_lowerBinary`, `evaluates_lowerCase`
* `evaluates_lowerFunction`: built-in functions on arguments that are values
-/

namespace Sproc

open Lower Idiom

namespace Value

variable (e : Go.Expr) (kind : ValueKind) (type : GoType) (strength : Nat)

@[simp] theorem code_atom : (atom e kind).code = e := rfl

@[simp] theorem code_ofType : (ofType e type).code = e := rfl

@[simp] theorem code_ofBool : (ofBool e strength).code = e := rfl

@[simp] theorem code_ofInt (n : Int) : (ofInt n).code = .int n := rfl

@[simp] theorem code_ofDecimal (spelling : String) : (ofDecimal spelling).code = .number spelling :=
  rfl

end Value

namespace Idiom

variable {I : Idiom}

/-! ## Code of values -/

theorem isValue_name {id : String} :
    I.IsValue (.name id) ↔ I.allows (.name id) ∧ id ≠ "err" := by
  simp [IsValue, Go.Expr.mentions]

/-- Names that are not private are free. -/
theorem isValue_free {id : String} (h : id ∉ privateNames) : I.IsValue (.name id) := by
  refine isValue_name.mpr ⟨I.names id h, ?_⟩
  rintro rfl
  exact h List.mem_cons_self

theorem IsValue.admits {e : Go.Expr} (h : I.IsValue e) : I.Admits e :=
  fun m hm => (h m hm).1

/-- A value is not the question for an error. -/
theorem IsValue.isFailureTest_eq {e : Go.Expr} (h : I.IsValue e) : e.isFailureTest = false := by
  unfold Go.Expr.isFailureTest
  split
  · obtain ⟨-, id, hid, hne⟩ := h (.name "err") (by simp [Go.Expr.mentions])
    cases hid
    exact absurd rfl hne
  · rfl

/-- A call on values sends no message. -/
theorem request?_eq_none {function : Go.Expr} {args : List Go.Expr} (h : ∀ e ∈ args, I.IsValue e) :
    Go.request? function args = none := by
  unfold Go.request?
  split
  next id field first package type fields =>
    have hmessage := h (.message package type fields) (by simp)
    obtain ⟨-, id, hid, -⟩ := hmessage (.message package) (by simp [Go.Expr.mentions])
    cases hid
  next => rfl

@[simp] theorem isValue_int (n : Int) : I.IsValue (.int n) := fun _ hm => by cases hm

@[simp] theorem isValue_number (spelling : String) : I.IsValue (.number spelling) :=
  fun _ hm => by cases hm

@[simp] theorem isValue_bool (b : Bool) : I.IsValue (.bool b) := fun _ hm => by cases hm

@[simp] theorem isValue_nil : I.IsValue .nil := fun _ hm => by cases hm

@[simp] theorem isValue_str (s : String) : I.IsValue (.str s) := fun _ hm => by cases hm

@[simp] theorem isValue_query (sql : String) : I.IsValue (.query sql) := fun _ hm => by cases hm

@[simp] theorem isValue_zero (type : GoType) : I.IsValue (.zero type) := fun _ hm => by cases hm

@[simp] theorem isValue_member (owner : Go.Expr) (field : String) :
    I.IsValue (.member owner field) ↔ I.IsValue owner := Iff.rfl

@[simp] theorem isValue_convert (type : String) (operand : Go.Expr) :
    I.IsValue (.convert type operand) ↔ I.IsValue operand := Iff.rfl

@[simp] theorem isValue_unary (op : Go.UnaryOp) (operand : Go.Expr) :
    I.IsValue (.unary op operand) ↔ I.IsValue operand := Iff.rfl

@[simp] theorem isValue_paren (operand : Go.Expr) :
    I.IsValue (.paren operand) ↔ I.IsValue operand := Iff.rfl

@[simp]
theorem isValue_binary (symbol : String) (l r : Go.Expr) :
    I.IsValue (.binary symbol l r) ↔ I.IsValue l ∧ I.IsValue r := by
  unfold IsValue
  rw [Go.Expr.mentions, List.forall_mem_append]

theorem isValue_exprMentions {es : List Go.Expr} :
    (∀ m ∈ Go.exprMentions es, I.allows m ∧ ∃ id, m = .name id ∧ id ≠ "err") ↔
      ∀ e ∈ es, I.IsValue e := by
  constructor
  · intro h e he m hm
    exact h m (Go.mem_exprMentions.mpr ⟨e, he, hm⟩)
  · intro h m hm
    obtain ⟨e, he, hm⟩ := Go.mem_exprMentions.mp hm
    exact h e he m hm

@[simp]
theorem isValue_chain (symbol : String) (operands : List Go.Expr) :
    I.IsValue (.chain symbol operands) ↔ ∀ e ∈ operands, I.IsValue e :=
  isValue_exprMentions

@[simp]
theorem isValue_spread (items : List Go.Expr) :
    I.IsValue (.spread items) ↔ ∀ e ∈ items, I.IsValue e :=
  isValue_exprMentions

@[simp]
theorem isValue_call (function : Go.Expr) (args : List Go.Expr) :
    I.IsValue (.call function args) ↔ I.IsValue function ∧ ∀ e ∈ args, I.IsValue e := by
  constructor
  · intro h
    have hrequest : Go.request? function args = none := by
      cases hrequest : Go.request? function args with
      | none => rfl
      | some request =>
        obtain ⟨id, package⟩ := request
        obtain ⟨-, id', hid, -⟩ := h (.receiver id package) (by simp [Go.Expr.mentions, hrequest])
        cases hid
    refine ⟨fun m hm => h m ?_, fun e he m hm => h m ?_⟩
    · exact (Go.mem_mentions_call hrequest).mpr (.inl hm)
    · exact (Go.mem_mentions_call hrequest).mpr (.inr ⟨e, he, hm⟩)
  · rintro ⟨hfunction, hargs⟩ m hm
    rcases (Go.mem_mentions_call (request?_eq_none hargs)).mp hm with hm | ⟨e, he, hm⟩
    · exact hfunction m hm
    · exact hargs e he m hm

@[simp]
theorem isValue_choose (type : GoType) (arms : List (Go.Expr × Go.Expr)) (otherwise : Go.Expr) :
    I.IsValue (.choose type arms otherwise) ↔
      (∀ arm ∈ arms, I.IsValue arm.1 ∧ I.IsValue arm.2) ∧ I.IsValue otherwise := by
  constructor
  · intro h
    have hmentions (m : Go.Mention) (hm : m ∈ Go.choiceMentions arms ∨ m ∈ otherwise.mentions) :=
      h m (by simpa [Go.Expr.mentions] using hm)
    refine ⟨fun arm harm => ⟨fun m hm => hmentions m (.inl ?_), fun m hm => hmentions m (.inl ?_)⟩,
      fun m hm => hmentions m (.inr hm)⟩
    · exact Go.mem_choiceMentions.mpr ⟨arm, harm, .inl hm⟩
    · exact Go.mem_choiceMentions.mpr ⟨arm, harm, .inr hm⟩
  · rintro ⟨harms, hotherwise⟩ m hm
    rw [Go.Expr.mentions, List.mem_append] at hm
    rcases hm with hm | hm
    · obtain ⟨arm, harm, hm | hm⟩ := Go.mem_choiceMentions.mp hm
      · exact (harms arm harm).1 m hm
      · exact (harms arm harm).2 m hm
    · exact hotherwise m hm

@[simp]
theorem isValue_invoke (owner : Go.Expr) (method : String) (args : List Go.Expr) :
    I.IsValue (.invoke owner method args) ↔ I.IsValue owner ∧ ∀ e ∈ args, I.IsValue e :=
  isValue_call _ _

@[simp]
theorem isValue_runtime (function : String) (args : List Go.Expr) :
    I.IsValue (.runtime function args) ↔ ∀ e ∈ args, I.IsValue e := by
  rw [Go.Expr.runtime, isValue_invoke, and_iff_right (isValue_free (by decide))]

@[simp]
theorem isValue_wrapped (value : Value) (least : Nat) :
    I.IsValue (value.wrapped least) ↔ I.IsValue value.code := by
  unfold Value.wrapped
  split <;> simp

@[simp]
theorem isValue_method (value : Value) (name : String) (args : List Go.Expr) :
    I.IsValue (value.method name args) ↔ I.IsValue value.code ∧ ∀ e ∈ args, I.IsValue e := by
  rw [Value.method, isValue_invoke, isValue_wrapped]

@[simp]
theorem isValue_negated (value : Value) : I.IsValue value.negated.code ↔ I.IsValue value.code := by
  simp [Value.negated]

@[simp]
theorem isValue_ofLiteral (literal : Literal) : I.IsValue (Value.ofLiteral literal).code := by
  cases literal <;> simp [Value.ofLiteral]

theorem isValue_negate {value result : Value} (h : I.IsValue value.code)
    (hresult : value.negate = .ok result) : I.IsValue result.code := by
  unfold Value.negate at hresult
  repeat' split at hresult
  all_goals
    cases hresult
    try simp [h]

end Idiom

namespace Lower

variable {I : Idiom} {c : Context}

/-- A step yields a value. -/
def Evaluates (step : Lower Value) (I : Idiom) (c : Context) : Prop :=
  step.Ensures I c fun value => I.IsValue value.code

/-- A result that is a value. -/
theorem evaluates_pure {value : Value} (h : I.IsValue value.code) :
    (pure value : Lower Value).Evaluates I c :=
  ensures_pure h

theorem evaluates_unsupported {construct detail : String} :
    (unsupported construct detail : Lower Value).Evaluates I c :=
  ensures_unsupported

/-! ## Conversions -/

theorem ensures_importPath (path : String) : (importPath path).Ensures I c fun _ => True :=
  ensures_annotated (hasEffect_importPath path)

theorem ensures_warn (kind : WarningKind) (message : String) :
    (warn kind message).Ensures I c fun _ => True :=
  ensures_annotated (hasEffect_anyWarning kind message)

theorem ensures_importType (type : GoType) : (importType type).Ensures I c fun _ => True :=
  ensures_annotated (hasEffect_importType type)

theorem ensures_runtimeCall (function : String) {args : List Go.Expr}
    (h : ∀ e ∈ args, I.IsValue e) : (runtimeCall function args).Ensures I c I.IsValue :=
  ensures_bind (ensures_annotated hasEffect_importRuntime) fun _ _ => ensures_pure (by simpa using h)

theorem evaluates_toDecimal {value : Value} (h : I.IsValue value.code) :
    (toDecimal value).Evaluates I c := by
  have hcall (function : String) {arg : Go.Expr} (harg : I.IsValue arg) :
      I.IsValue (decimalCall function arg).code := by
    have hdecimal : I.IsValue (.name "decimal") := isValue_free (by decide)
    simp [decimalCall, hdecimal, harg]
  unfold toDecimal
  split
  · exact evaluates_pure (hcall _ (by simp))
  · exact evaluates_pure (hcall _ (by simp))
  · exact evaluates_pure (hcall _ h)
  · exact evaluates_pure (hcall _ h)
  · exact evaluates_pure (hcall _ (by simp))
  · exact evaluates_pure (hcall _ h)
  · exact evaluates_pure (hcall _ h)
  · exact evaluates_pure (hcall _ (by simpa using h))
  · refine ensures_bind (ensures_runtimeCall _ (by simpa using h)) fun bit hbit => ?_
    exact evaluates_pure (hcall _ (by simpa using hbit))
  · split
    · exact evaluates_pure (hcall _ (by simpa using h))
    · exact evaluates_unsupported
  · exact evaluates_unsupported

theorem evaluates_toBool {value : Value} (h : I.IsValue value.code) :
    (toBool value).Evaluates I c := by
  unfold toBool
  dsimp only
  split
  case h_6 =>
    refine ensures_bind (ensures_runtimeCall _ (by simpa using h)) fun _ hcall => ?_
    exact evaluates_pure hcall
  case h_7 =>
    split
    · exact evaluates_pure (by simpa using h)
    · exact evaluates_unsupported
  case h_8 => exact evaluates_unsupported
  all_goals exact evaluates_pure (by simp [h])

theorem evaluates_toNumber {value : Value} (h : I.IsValue value.code) (target : GoType) :
    (toNumber value target).Evaluates I c := by
  unfold toNumber
  dsimp only
  split
  · exact evaluates_pure (by simp)
  · split
    · exact evaluates_pure (by simp)
    · exact evaluates_pure (by simp)
  · exact evaluates_pure (by simp)
  · split
    · exact evaluates_pure (by simp)
    · exact evaluates_unsupported
  · split <;> exact evaluates_pure (by simp [h])
  · refine ensures_bind (ensures_runtimeCall _ (by simpa using h)) fun _ hbit => ?_
    split
    · exact evaluates_pure hbit
    · exact evaluates_pure (by simpa using hbit)
  · refine ensures_bind (ensures_runtimeCall _ (by simpa using h)) fun _ hcall => ?_
    exact evaluates_pure (by simpa using hcall)
  · split
    · exact evaluates_pure (by simpa using h)
    · exact evaluates_unsupported
  · exact evaluates_unsupported

theorem evaluates_toText {value : Value} (h : I.IsValue value.code) :
    (toText value).Evaluates I c := by
  have hfmt : I.IsValue (.name "fmt") := isValue_free (by decide)
  unfold toText
  split
  case h_8 =>
    refine ensures_bind (ensures_importPath _) fun _ _ => ?_
    refine ensures_bind (ensures_runtimeCall _ (by simpa using h)) fun _ hbit => ?_
    exact evaluates_pure (by simpa [hfmt] using hbit)
  case h_9 =>
    split
    · refine ensures_bind (ensures_importPath _) fun _ _ => ?_
      exact evaluates_pure (by simpa [hfmt] using h)
    · exact evaluates_unsupported
  case h_10 => exact evaluates_unsupported
  all_goals exact evaluates_pure (by simp [h])

theorem evaluates_toTime {value : Value} (h : I.IsValue value.code) :
    (toTime value).Evaluates I c := by
  unfold toTime
  split
  · refine ensures_bind (ensures_runtimeCall _ (by simpa using h)) fun _ hcall => ?_
    exact evaluates_pure hcall
  · exact evaluates_unsupported

theorem evaluates_toBytes {value : Value} (h : I.IsValue value.code) :
    (toBytes value).Evaluates I c := by
  unfold toBytes
  split
  · exact evaluates_pure (by simpa using h)
  · exact evaluates_unsupported

/-- A conversion of a value is a value. -/
theorem evaluates_coerce {value : Value} (h : I.IsValue value.code) (target : GoType) :
    (coerce value target).Evaluates I c := by
  refine ensures_bind (ensures_importType target) fun _ _ => ?_
  split
  · exact evaluates_pure (by simp)
  · split
    · exact evaluates_pure h
    · cases target with
      | decimal => exact evaluates_toDecimal h
      | bool => exact evaluates_toBool h
      | string => exact evaluates_toText h
      | time => exact evaluates_toTime h
      | bytes => exact evaluates_toBytes h
      | _ => exact evaluates_toNumber h _

/-! ## Operators -/

section Operators

variable {l r : Value} (hl : I.IsValue l.code) (hr : I.IsValue r.code)

include hl hr

theorem evaluates_floatRemainder (type : GoType) : (floatRemainder l r type).Evaluates I c := by
  have hmath : I.IsValue (.name "math") := isValue_free (by decide)
  refine ensures_bind (ensures_importPath _) fun _ _ => ?_
  split <;> exact evaluates_pure (by simp [hmath, hl, hr])

theorem evaluates_numericArithmetic (op : BinaryOp) (hint : Option GoType) :
    (numericArithmetic op l r hint).Evaluates I c := by
  unfold numericArithmetic
  split
  · refine ensures_bind (evaluates_coerce hl _) fun l hl => ?_
    refine ensures_bind (evaluates_coerce hr _) fun r hr => ?_
    exact evaluates_pure (by simp [hl, hr])
  · refine ensures_bind (evaluates_coerce hl _) fun l hl => ?_
    refine ensures_bind (evaluates_coerce hr _) fun r hr => ?_
    split
    · exact evaluates_floatRemainder hl hr _
    · exact evaluates_pure (by simp [hl, hr])

theorem evaluates_arithmetic (op : BinaryOp) (hint : Option GoType) :
    (arithmetic op l r hint).Evaluates I c := by
  unfold arithmetic
  split
  · exact evaluates_pure (by simp)
  · split
    · exact evaluates_unsupported
    · exact evaluates_numericArithmetic hl hr op hint

omit hr in
theorem evaluates_isZero (negated : Bool) : (isZero l negated).Evaluates I c := by
  have hlen : I.IsValue (.name "len") := isValue_free (by decide)
  refine ensures_bind (ensures_warn _ _) fun _ _ => ?_
  dsimp only
  split
  case h_2 | h_3 => split <;> exact evaluates_pure (by simp [hl])
  case h_4 => split <;> exact evaluates_pure (by simp [hl])
  all_goals exact evaluates_pure (by simp [hl, hlen])

theorem isValue_comparison (op : BinaryOp) : I.IsValue (comparison op l r).code := by
  simp [comparison, hl, hr]

omit hr in
theorem evaluates_compareConst (op : BinaryOp) (b : Bool) : (compareConst op l b).Evaluates I c := by
  refine ensures_bind (evaluates_coerce hl _) fun subject hsubject => ?_
  split <;> exact evaluates_pure (by simp [hsubject])

theorem evaluates_compareBool (op : BinaryOp) : (compareBool op l r).Evaluates I c := by
  unfold compareBool
  split
  · exact evaluates_unsupported
  · split
    · exact evaluates_compareConst hl op _
    · exact evaluates_compareConst hr op _
    · refine ensures_bind (evaluates_coerce hl _) fun l hl => ?_
      refine ensures_bind (evaluates_coerce hr _) fun r hr => ?_
      exact evaluates_pure (isValue_comparison hl hr op)

omit hl hr in
theorem isValue_testCall {call : Go.Expr} (h : I.IsValue call) (negated : Bool) :
    I.IsValue (testCall negated call).code := by
  unfold testCall
  split <;> simp [h]

theorem evaluates_compareTime (op : BinaryOp) : (compareTime op l r).Evaluates I c := by
  refine ensures_bind (evaluates_coerce hl _) fun l hl => ?_
  refine ensures_bind (evaluates_coerce hr _) fun r hr => ?_
  have hcall (name : String) : I.IsValue (l.method name [r.code]) := by simp [hl, hr]
  split <;> exact evaluates_pure (isValue_testCall (hcall _) _)

theorem evaluates_compareDecimal (op : BinaryOp) : (compareDecimal op l r).Evaluates I c := by
  refine ensures_bind (evaluates_coerce hl _) fun l hl => ?_
  refine ensures_bind (evaluates_coerce hr _) fun r hr => ?_
  have hcall (name : String) : I.IsValue (l.method name [r.code]) := by simp [hl, hr]
  split
  · exact evaluates_pure (isValue_testCall (hcall _) _)
  · exact evaluates_pure (isValue_testCall (hcall _) _)
  · exact evaluates_pure (by simp [hl, hr])

omit hr in
theorem evaluates_compareNull (op : BinaryOp) : (compareNull op l).Evaluates I c := by
  unfold compareNull
  split
  · exact evaluates_isZero hl false
  · exact evaluates_isZero hl true
  · exact evaluates_unsupported

theorem evaluates_compareNumbers (op : BinaryOp) : (compareNumbers op l r).Evaluates I c := by
  unfold compareNumbers
  split
  · split
    · exact evaluates_pure (isValue_comparison hl hr op)
    · refine ensures_bind (evaluates_coerce hl _) fun l hl => ?_
      refine ensures_bind (evaluates_coerce hr _) fun r hr => ?_
      exact evaluates_pure (isValue_comparison hl hr op)
  · exact evaluates_pure (isValue_comparison hl hr op)

/-- A comparison of values is a value. -/
theorem evaluates_compare (op : BinaryOp) : (compare op l r).Evaluates I c := by
  unfold compare
  -- The tests for NULL come first, and each type has a comparison of its own.
  dsimp only
  split
  · exact evaluates_compareNull hl op
  split
  · exact evaluates_compareNull hr op
  split
  · exact evaluates_compareBool hl hr op
  split
  · exact evaluates_compareTime hl hr op
  split
  · refine ensures_bind (evaluates_coerce hl _) fun l hl => ?_
    refine ensures_bind (evaluates_coerce hr _) fun r hr => ?_
    exact evaluates_pure (isValue_comparison hl hr op)
  split
  · exact evaluates_unsupported
  split
  · exact evaluates_compareDecimal hl hr op
  · exact evaluates_compareNumbers hl hr op

theorem evaluates_lowerLike (negated : Bool) : (lowerLike negated l r).Evaluates I c := by
  refine ensures_bind (evaluates_coerce hl _) fun l hl => ?_
  refine ensures_bind (evaluates_coerce hr _) fun r hr => ?_
  refine ensures_bind (ensures_runtimeCall _ (by simp [hl, hr])) fun _ hcall => ?_
  exact evaluates_pure (isValue_testCall hcall _)

omit hr in
theorem evaluates_lowerUnary (op : UnaryOp) : (lowerUnary op l).Evaluates I c := by
  cases op with
  | neg =>
    refine ensures_of_annotated (annotated_ofExcept _) fun _ _ _ hruns _ => ?_
    exact isValue_negate hl (runs_ofExcept.mp hruns).1
  | not =>
    refine ensures_bind (evaluates_coerce hl _) fun value hvalue => ?_
    exact evaluates_pure (by simp [hvalue])

omit hr in
theorem evaluates_lowerBetween {low high : Value} (hlow : I.IsValue low.code)
    (hhigh : I.IsValue high.code) (negated : Bool) :
    (lowerBetween negated l low high).Evaluates I c := by
  refine ensures_bind (evaluates_compare hl hlow _) fun lower hlower => ?_
  refine ensures_bind (evaluates_compare hl hhigh _) fun upper hupper => ?_
  dsimp only
  split <;> exact evaluates_pure (by simp [hlower, hupper])

end Operators

/-- A binary operator on operands that are still to be evaluated. -/
theorem evaluates_lowerBinary (op : BinaryOp) {left right : Pending} (hint : Option GoType)
    (hleft : ∀ hint, (left hint).Evaluates I c) (hright : ∀ hint, (right hint).Evaluates I c) :
    (lowerBinary op left right hint).Evaluates I c := by
  unfold lowerBinary
  split
  · refine ensures_bind (hleft _) fun l hl => ensures_bind (evaluates_coerce hl _) fun l hl => ?_
    refine ensures_bind (hright _) fun r hr => ensures_bind (evaluates_coerce hr _) fun r hr => ?_
    exact evaluates_pure (by simp [hl, hr])
  refine ensures_bind (hleft _) fun l hl => ensures_bind (hright _) fun r hr => ?_
  split
  · exact evaluates_lowerLike hl hr _
  split
  · exact evaluates_compare hl hr op
  split
  · refine ensures_bind (evaluates_coerce hl _) fun l hl => ?_
    refine ensures_bind (evaluates_coerce hr _) fun r hr => ?_
    exact evaluates_pure (by simp [hl, hr])
  · exact evaluates_arithmetic hl hr op hint

theorem isValue_lowerMember (negated : Bool) {tests : List Value}
    (h : ∀ test ∈ tests, I.IsValue test.code) : I.IsValue (lowerMember negated tests).code := by
  unfold lowerMember
  simpa using h

theorem ensures_coerceArms (type : GoType) {arms : List (Go.Expr × Value)}
    (h : ∀ arm ∈ arms, I.IsValue arm.1 ∧ I.IsValue arm.2.code) :
    (coerceArms type arms).Ensures I c fun arms =>
      ∀ arm ∈ arms, I.IsValue arm.1 ∧ I.IsValue arm.2 := by
  induction arms with
  | nil => exact ensures_pure (by simp)
  | cons arm rest ih =>
    obtain ⟨htest, hresult⟩ := h arm List.mem_cons_self
    refine ensures_bind (evaluates_coerce hresult _) fun result hresult => ?_
    refine ensures_bind (ih fun arm harm => h arm (.tail _ harm)) fun arms harms => ?_
    exact ensures_pure (by simpa [htest, hresult] using harms)

theorem evaluates_lowerCase {arms : List (Go.Expr × Value)} {otherwise : Option Value}
    (harms : ∀ arm ∈ arms, I.IsValue arm.1 ∧ I.IsValue arm.2.code)
    (hotherwise : ∀ value ∈ otherwise, I.IsValue value.code) (hint : Option GoType) :
    (lowerCase arms otherwise hint).Evaluates I c := by
  unfold lowerCase
  split
  · exact evaluates_unsupported
  · refine ensures_bind (ensures_coerceArms _ harms) fun arms harms => ?_
    dsimp only
    split
    · refine ensures_bind (evaluates_coerce (hotherwise _ rfl) _) fun value hvalue => ?_
      refine ensures_bind (ensures_pure (P := I.IsValue) hvalue) fun last hlast => ?_
      exact evaluates_pure (by simpa [hlast] using harms)
    · refine ensures_bind (ensures_pure (P := I.IsValue) (by simp)) fun last hlast => ?_
      exact evaluates_pure (by simpa [hlast] using harms)

/-! ## Built-in functions -/

/-- The arguments of a built-in function are values, whatever they are hinted at. -/
def ArgsEvaluate (args : List Arg) (I : Idiom) (c : Context) : Prop :=
  ∀ arg ∈ args, ∀ hint, (arg.value hint).Evaluates I c

section Arguments

variable {args : List Arg}

theorem ensures_argAt (name : String) (index : Nat) :
    (argAt name args index).Ensures I c fun arg => arg ∈ args := by
  unfold argAt
  cases harg : args[index]? with
  | some arg => exact ensures_pure (List.mem_of_getElem? harg)
  | none => exact ensures_unsupported

variable (hargs : ArgsEvaluate args I c)

include hargs

theorem evaluates_typedArg (type : GoType) (name : String) (index : Nat) :
    (typedArg type name args index).Evaluates I c := by
  refine ensures_bind (ensures_argAt name index) fun arg harg => ?_
  exact ensures_bind (hargs arg harg _) fun _ hvalue => evaluates_coerce hvalue _

theorem evaluates_stringArg (name : String) (index : Nat) :
    (stringArg name args index).Evaluates I c :=
  evaluates_typedArg hargs _ name index

theorem evaluates_timeArg (name : String) (index : Nat) : (timeArg name args index).Evaluates I c :=
  evaluates_typedArg hargs _ name index

theorem ensures_intArg (name : String) (index : Nat) :
    (intArg name args index).Ensures I c I.IsValue := by
  refine ensures_bind (ensures_argAt name index) fun arg harg => ?_
  refine ensures_bind (hargs arg harg _) fun value hvalue => ?_
  split
  · exact ensures_pure (by simp)
  · refine ensures_bind (evaluates_coerce hvalue _) fun count hcount => ?_
    exact ensures_pure (by simpa using hcount)

omit hargs in
theorem ensures_datePartArg (name : String) (index : Nat) :
    (datePartArg name args index).Ensures I c I.IsValue := by
  refine ensures_bind (ensures_argAt name index) fun arg _ => ?_
  dsimp only
  split
  · exact ensures_unsupported
  · split
    · exact ensures_pure (by simp)
    · exact ensures_unsupported

theorem ensures_evaluateAll (hint : Option GoType) :
    (evaluateAll hint args).Ensures I c fun values => ∀ v ∈ values, I.IsValue v.code := by
  induction args with
  | nil => exact ensures_pure (by simp)
  | cons arg rest ih =>
    have hrest : ArgsEvaluate rest I c := fun other hother => hargs other (.tail _ hother)
    refine ensures_bind (hargs arg List.mem_cons_self hint) fun value hvalue => ?_
    refine ensures_bind (ih hrest) fun values hvalues => ?_
    exact ensures_pure (by simpa [hvalue] using hvalues)

omit hargs in
theorem ensures_coerceAll (type : GoType) {values : List Value}
    (h : ∀ v ∈ values, I.IsValue v.code) :
    (coerceAll type values).Ensures I c fun parts => ∀ e ∈ parts, I.IsValue e := by
  induction values with
  | nil => exact ensures_pure (by simp)
  | cons value rest ih =>
    refine ensures_bind (evaluates_coerce (h value List.mem_cons_self) _) fun part hpart => ?_
    refine ensures_bind (ih fun v hv => h v (.tail _ hv)) fun parts hparts => ?_
    exact ensures_pure (by simpa [hpart] using hparts)

theorem evaluates_lowerCoalesce (name : String) (hint : Option GoType) :
    (lowerCoalesce name args hint).Evaluates I c := by
  refine ensures_bind (ensures_evaluateAll hargs hint) fun values hvalues => ?_
  split
  · exact evaluates_unsupported
  · refine ensures_bind (ensures_coerceAll _ hvalues) fun parts hparts => ?_
    refine ensures_bind (ensures_runtimeCall _ hparts) fun _ hcall => ?_
    exact evaluates_pure hcall

theorem ensures_concatArgs (name : String) (indices : List Nat) :
    (concatArgs name args indices).Ensures I c fun parts => ∀ e ∈ parts, I.IsValue e := by
  induction indices with
  | nil => exact ensures_pure (by simp)
  | cons index rest ih =>
    refine ensures_bind (evaluates_stringArg hargs name index) fun part hpart => ?_
    refine ensures_bind ih fun parts hparts => ?_
    exact ensures_pure (by simpa [hpart] using hparts)

theorem evaluates_lowerConcat (name : String) : (lowerConcat name args).Evaluates I c := by
  refine ensures_bind (ensures_concatArgs hargs name _) fun parts hparts => ?_
  split
  · exact evaluates_pure (by simp)
  · exact evaluates_pure (by simpa using hparts)

theorem ensures_roundingArg (name : String) (hint : Option GoType) :
    (roundingArg name args hint).Ensures I c fun result => I.IsValue result.1.code := by
  refine ensures_bind (ensures_argAt name 0) fun arg harg => ?_
  refine ensures_bind (hargs arg harg hint) fun value hvalue => ?_
  -- The argument is converted first, and the type of what comes out decides.
  dsimp only
  split
  · refine ensures_bind (evaluates_coerce hvalue _) fun value hvalue => ?_
    split
    · exact ensures_pure hvalue
    · exact ensures_unsupported
  · refine ensures_bind (evaluates_coerce hvalue _) fun value hvalue => ?_
    split
    · exact ensures_pure hvalue
    · exact ensures_unsupported
  · refine ensures_bind (evaluates_pure hvalue) fun value hvalue => ?_
    split
    · exact ensures_pure hvalue
    · exact ensures_unsupported

theorem evaluates_lowerAbs (name : String) (hint : Option GoType) :
    (lowerAbs name args hint).Evaluates I c := by
  refine ensures_bind (ensures_roundingArg hargs name hint) fun result hvalue => ?_
  dsimp only
  split
  · exact evaluates_pure (by simpa using hvalue)
  · refine ensures_bind (ensures_runtimeCall _ (by simpa using hvalue)) fun _ hcall => ?_
    exact evaluates_pure hcall

theorem evaluates_lowerRound (name : String) (hint : Option GoType) :
    (lowerRound name args hint).Evaluates I c := by
  refine ensures_bind (ensures_roundingArg hargs name hint) fun result hvalue => ?_
  dsimp only
  split
  · refine ensures_bind (ensures_intArg hargs name 1) fun places hplaces => ?_
    exact evaluates_pure (by simpa [hplaces] using hvalue)
  · split
    · exact evaluates_pure hvalue
    · refine ensures_bind (ensures_intArg hargs name 1) fun places hplaces => ?_
      refine ensures_bind (ensures_runtimeCall _ (by simpa [hplaces] using hvalue)) fun _ hcall => ?_
      exact evaluates_pure hcall

theorem evaluates_lowerToward (function name : String) (hint : Option GoType) :
    (lowerToward function name args hint).Evaluates I c := by
  have hmath : I.IsValue (.name "math") := isValue_free (by decide)
  refine ensures_bind (ensures_roundingArg hargs name hint) fun result hvalue => ?_
  dsimp only
  split
  · exact evaluates_pure (by simpa using hvalue)
  · split
    · exact evaluates_pure hvalue
    · refine ensures_bind (ensures_importPath _) fun _ _ => ?_
      split <;> exact evaluates_pure (by simpa [hmath] using hvalue)

omit hargs in
theorem ensures_stringsCall (function : String) {parts : List Go.Expr}
    (h : ∀ e ∈ parts, I.IsValue e) : (stringsCall function parts).Ensures I c I.IsValue := by
  have hstrings : I.IsValue (.name "strings") := isValue_free (by decide)
  refine ensures_bind (ensures_importPath _) fun _ _ => ?_
  exact ensures_pure (by simpa [hstrings] using h)

/-- What is known about a built-in function by its name: the clock is a value, further arguments are
values, and one that yields the last identity may do so. -/
structure SoundBuiltin (I : Idiom) (builtin : Builtin) : Prop where
  clock {code : Go.Expr} : builtin = .clock code → I.IsValue code
  extra {function : String} {extra : List Go.Expr} : builtin = .stringCall function extra →
    ∀ e ∈ extra, I.IsValue e
  identity : builtin = .identity → I.allows (.name "lastInsertID")

theorem evaluates_lowerBuiltin {builtin : Builtin} (h : SoundBuiltin I builtin) (name : String)
    (hint : Option GoType) : (lowerBuiltin builtin name args hint).Evaluates I c := by
  unfold lowerBuiltin
  cases builtin with
  | clock code => exact ensures_bind (ensures_importPath _) fun _ _ => evaluates_pure (h.clock rfl)
  | identity => exact evaluates_pure (isValue_name.mpr ⟨h.identity rfl, by decide⟩)
  | newId =>
    refine ensures_bind (ensures_runtimeCall _ (by simp)) fun _ hcall => ?_
    exact evaluates_pure hcall
  | coalesce => exact evaluates_lowerCoalesce hargs name hint
  | len =>
    have hutf8 : I.IsValue (.name "utf8") := isValue_free (by decide)
    refine ensures_bind (evaluates_stringArg hargs name 0) fun s hs => ?_
    refine ensures_bind (ensures_importPath _) fun _ _ => ?_
    refine ensures_bind (ensures_stringsCall _ (by simpa using hs)) fun _ hcall => ?_
    exact evaluates_pure (by simpa [hutf8] using hcall)
  | dataLength =>
    have hlen : I.IsValue (.name "len") := isValue_free (by decide)
    refine ensures_bind (evaluates_stringArg hargs name 0) fun s hs => ?_
    exact evaluates_pure (by simpa [hlen] using hs)
  | stringCall function extra =>
    refine ensures_bind (evaluates_stringArg hargs name 0) fun s hs => ?_
    have hparts : ∀ e ∈ s.code :: extra, I.IsValue e := by simpa [hs] using h.extra rfl
    refine ensures_bind (ensures_stringsCall _ hparts) fun _ hcall => ?_
    exact evaluates_pure hcall
  | replace =>
    refine ensures_bind (evaluates_stringArg hargs name 0) fun s hs => ?_
    refine ensures_bind (evaluates_stringArg hargs name 1) fun old hold => ?_
    refine ensures_bind (evaluates_stringArg hargs name 2) fun new hnew => ?_
    refine ensures_bind (ensures_stringsCall _ (by simp [hs, hold, hnew])) fun _ hcall => ?_
    exact evaluates_pure hcall
  | substring =>
    refine ensures_bind (evaluates_stringArg hargs name 0) fun s hs => ?_
    refine ensures_bind (ensures_intArg hargs name 1) fun start hstart => ?_
    refine ensures_bind (ensures_intArg hargs name 2) fun length hlength => ?_
    refine ensures_bind (ensures_runtimeCall _ (by simp [hs, hstart, hlength])) fun _ hcall => ?_
    exact evaluates_pure hcall
  | edge function =>
    refine ensures_bind (evaluates_stringArg hargs name 0) fun s hs => ?_
    refine ensures_bind (ensures_intArg hargs name 1) fun count hcount => ?_
    refine ensures_bind (ensures_runtimeCall _ (by simp [hs, hcount])) fun _ hcall => ?_
    exact evaluates_pure hcall
  | charIndex =>
    refine ensures_bind (evaluates_stringArg hargs name 0) fun needle hneedle => ?_
    refine ensures_bind (evaluates_stringArg hargs name 1) fun hay hhay => ?_
    refine ensures_bind (ensures_stringsCall _ (by simp [hneedle, hhay])) fun _ hcall => ?_
    exact evaluates_pure (by simpa using hcall)
  | concat => exact evaluates_lowerConcat hargs name
  | abs => exact evaluates_lowerAbs hargs name hint
  | round => exact evaluates_lowerRound hargs name hint
  | toward function => exact evaluates_lowerToward hargs function name hint
  | datePart method =>
    refine ensures_bind (evaluates_timeArg hargs name 0) fun d hd => ?_
    exact evaluates_pure (by simpa using hd)
  | dateAdd =>
    refine ensures_bind (ensures_datePartArg name 0) fun part hpart => ?_
    refine ensures_bind (ensures_intArg hargs name 1) fun amount hamount => ?_
    refine ensures_bind (evaluates_timeArg hargs name 2) fun d hd => ?_
    refine ensures_bind (ensures_runtimeCall _ (by simp [hpart, hamount, hd])) fun _ hcall => ?_
    exact evaluates_pure hcall
  | dateDiff =>
    refine ensures_bind (ensures_datePartArg name 0) fun part hpart => ?_
    refine ensures_bind (evaluates_timeArg hargs name 1) fun start hstart => ?_
    refine ensures_bind (evaluates_timeArg hargs name 2) fun stop hstop => ?_
    refine ensures_bind (ensures_runtimeCall _ (by simp [hpart, hstart, hstop])) fun _ hcall => ?_
    exact evaluates_pure hcall

omit hargs in
theorem isValue_clock {name : String} {code : Go.Expr} (h : clock? name = some code) :
    I.IsValue code := by
  have htime : I.IsValue (.name "time") := isValue_free (by decide)
  unfold clock? at h
  split at h
  case h_7 => cases h
  all_goals
    cases h
    simp [htime]

omit hargs in
theorem soundBuiltin_stringCall {function : String} {extra : List Go.Expr}
    (h : ∀ e ∈ extra, I.IsValue e) : SoundBuiltin I (.stringCall function extra) where
  clock := nofun
  extra heq := by
    cases heq
    exact h
  identity := nofun

omit hargs in
theorem soundBuiltin_of_ofName? {name : String} {builtin : Builtin}
    (h : Builtin.ofName? name = some builtin)
    (hidentity : name ∈ identityFunctions → I.allows (.name "lastInsertID")) :
    SoundBuiltin I builtin := by
  unfold Builtin.ofName? at h
  split at h
  case h_1 | h_2 =>
    cases h
    exact ⟨nofun, nofun, fun _ => hidentity (by decide)⟩
  case h_28 =>
    obtain ⟨code, hcode, rfl⟩ := Option.map_eq_some_iff.mp h
    exact ⟨fun heq => Builtin.clock.inj heq ▸ isValue_clock hcode, nofun, nofun⟩
  all_goals
    cases h
    first
      | exact soundBuiltin_stringCall (by simp)
      | exact ⟨nofun, nofun, nofun⟩

omit hargs in
theorem isValue_errorIntrinsic {inCatch : Bool} {procedure name : String} {value : Value}
    (hcaught : Text.toUpper name = "ERROR_MESSAGE" → I.allows (.name "caught"))
    (h : errorIntrinsic? inCatch procedure name = some value) : I.IsValue value.code := by
  unfold errorIntrinsic? at h
  dsimp only at h
  split at h
  case h_1 hname =>
    have hcaught : I.IsValue (.name "caught") := isValue_name.mpr ⟨hcaught hname, by decide⟩
    split at h
    all_goals
      cases h
      simp [hcaught]
  case h_7 => cases h
  all_goals
    cases h
    simp

/-- A built-in function on values yields a value, if what it is about may be mentioned. -/
theorem evaluates_lowerFunction {name : String}
    (hmentions : ∀ m ∈ functionMentions name, I.allows m)
    (hint : Option GoType) : (lowerFunction name args hint).Evaluates I c := by
  refine ensures_read_bind ?_
  dsimp only
  split
  next value hvalue =>
    have hcaught (h : Text.toUpper (Text.toUpper name) = "ERROR_MESSAGE") :=
      hmentions _ (mem_functionMentions_error h)
    exact ensures_when (ensures_warn _ _) (evaluates_pure (isValue_errorIntrinsic hcaught hvalue))
  next =>
    split
    next builtin hbuiltin =>
      have hidentity (h : Text.toUpper name ∈ identityFunctions) :=
        hmentions _ (mem_functionMentions_identity h)
      exact evaluates_lowerBuiltin hargs (soundBuiltin_of_ofName? hbuiltin hidentity) _ hint
    next => exact evaluates_unsupported

end Arguments

end Lower

end Sproc
