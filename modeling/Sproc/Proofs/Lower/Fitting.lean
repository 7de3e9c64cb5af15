import Sproc.Proofs.Lower.Supply

/-!
# The strength of values

A value says how tightly its code binds. What it says fits its code: the code stands as an operand
wherever no more than that strength is asked for. Where methods are called on a value, its code may
have a selector behind it. A number that has been read from a string is the one exception: it counts
as a constant even if it has a sign.

Conversions yield values that fit if they are given such.

## Main definitions

* `Go.Stock.Fits`: a value is composed of what is in stock, and is as strong as it says
* `Go.Stock.FitsAs`: the same for a value of a given type

## Main results

* `Go.Stock.Fits.wrapped`, `Go.Stock.Fits.method`: a value as an operand and as a receiver
* `drawsOn_coerce`: a conversion yields a value of its type that fits
-/

namespace Sproc

open Lower

/-- Whether methods are called on values of a type. -/
def GoType.isReceiver : GoType → Bool
  | decimal | time => true
  | _ => false

/-- Whether methods are called on a value. -/
def Value.isReceiver (value : Value) : Bool :=
  match value.kind with
  | .typed type => type.isReceiver
  | _ => false

namespace Go.Stock

variable {stock : Stock} {code : Expr} {kind : ValueKind} {type : GoType} {strength : Nat}

/-- A value fits its code: the code is composed of what is in stock, and binds as tightly as the
value says. -/
structure Fits (stock : Stock) (value : Value) : Prop where
  positive : 1 ≤ value.strength
  bounded : value.strength ≤ 8 ∨ value.strength = 10
  loose : value.code.Composed stock false (min value.strength 8)
  tight : value.strength = 10 → value.code.Composed stock value.isReceiver 10 ∨
    value.isReceiver = false ∧ ∃ spelling, value.code = .number spelling
  type : ∀ type, value.kind = .typed type → stock.HasType type
  int : ∀ n, value.kind = .intConst n → 0 ≤ n ∨ value.strength = 8
  str : ∀ s, value.kind = .strConst s → value.code.Composed stock false 10
  /-- Strings are put together, or else they are operands everywhere. -/
  text : value.kind = .typed .string → value.strength = 4 ∨ value.code.Composed stock false 10

/-- A value of a given type fits. -/
def FitsAs (stock : Stock) (type : GoType) (value : Value) : Prop :=
  stock.Fits value ∧ value.kind = .typed type

/-- A type that a value flows into has its package in stock. -/
def HasHint (stock : Stock) (hint : Option GoType) : Prop :=
  ∀ type ∈ hint, stock.HasType type

/-! ## Values by their form -/

theorem hasType_of_package? (h : type.package? = none) : stock.HasType type := by
  simp [HasType, h]

theorem hasType_of_isReceiver (h : type.isReceiver = false) : stock.HasType type := by
  refine hasType_of_package? ?_
  cases type <;> simp [GoType.isReceiver, GoType.package?] at h ⊢

theorem isReceiver_of_isNumeric (h : type.isNumeric = true) : type.isReceiver = false := by
  cases type <;> simp [GoType.isNumeric, GoType.isInteger, GoType.isFloat, GoType.isReceiver] at h ⊢

theorem isNumeric_of_isReceiver (h : type.isReceiver = true) : type.isNumeric = false := by
  cases type <;> simp [GoType.isReceiver] at h <;> rfl

theorem name_mem_conversions (h : type.isNumeric = true) : type.name ∈ Expr.conversions := by
  cases type <;> simp [GoType.isNumeric, GoType.isInteger, GoType.isFloat] at h <;> decide

/-- Code that stands everywhere. -/
theorem fits_ofType (hcode : code.Composed stock type.isReceiver 10) (htype : stock.HasType type) :
    stock.Fits (.ofType code type) := by
  have hoperand : code.Composed stock false 10 := by
    cases hreceiver : type.isReceiver with
    | false => rwa [hreceiver] at hcode
    | true =>
      rw [hreceiver] at hcode
      exact .operand hcode
  have hstrength : 1 ≤ Value.atomic ∧ min Value.atomic 8 ≤ 10 := by decide
  refine ⟨hstrength.1, .inr rfl, hoperand.loosen hstrength.2, fun _ => .inl hcode, ?_, ?_, ?_, ?_⟩
  · rintro _ ⟨⟩
    exact htype
  · rintro _ ⟨⟩
  · rintro _ ⟨⟩
  · intro _
    exact .inr hoperand

/-- Code of a type that stands everywhere, where methods may be called on it. -/
theorem fitsAs_ofType (hcode : ∀ primary, code.Composed stock primary 10)
    (htype : stock.HasType type) : stock.FitsAs type (.ofType code type) :=
  ⟨fits_ofType (hcode _) htype, rfl⟩

/-- Code of a type without methods. -/
theorem fitsAs_plain (hcode : code.Composed stock false 10) (htype : type.isReceiver = false) :
    stock.FitsAs type (.ofType code type) :=
  ⟨fits_ofType (htype ▸ hcode) (hasType_of_isReceiver htype), rfl⟩

/-- The zero value of a type. -/
theorem fitsAs_zero (htype : stock.HasType type) : stock.FitsAs type (.ofType (.zero type) type) :=
  ⟨fits_ofType (.zero htype isNumeric_of_isReceiver) htype, rfl⟩

/-- An operator applied to its operands. -/
theorem fitsAs_operator (hpositive : 1 ≤ strength) (hstrength : strength ≤ 8)
    (hcode : code.Composed stock false strength) (htype : type.isReceiver = false)
    (htext : type = .string → strength = 4) :
    stock.FitsAs type ⟨code, .typed type, strength⟩ := by
  refine ⟨⟨hpositive, .inl hstrength, ?_, fun h => ?_, ?_, ?_, ?_, ?_⟩, rfl⟩
  · rwa [Nat.min_eq_left hstrength]
  · change strength = 10 at h
    omega
  · rintro _ ⟨⟩
    exact hasType_of_isReceiver htype
  · rintro _ ⟨⟩
  · rintro _ ⟨⟩
  · rintro ⟨⟩
    exact .inl (htext rfl)

/-- A truth value from an operator. -/
theorem fitsAs_ofBool (hpositive : 1 ≤ strength) (hstrength : strength ≤ 8)
    (hcode : code.Composed stock false strength) : stock.FitsAs .bool (.ofBool code strength) :=
  fitsAs_operator hpositive hstrength hcode rfl (by simp)

theorem le_signLevel (spelling : String) : 8 ≤ signLevel spelling := by
  unfold signLevel
  split <;> decide

/-- A number by its spelling, with whatever strength. -/
theorem fitsAs_number (spelling : String) (hpositive : 1 ≤ strength)
    (hstrength : strength ≤ 8 ∨ strength = 10) (htype : type.isNumeric = true) :
    stock.FitsAs type ⟨.number spelling, .typed type, strength⟩ := by
  have hreceiver := isReceiver_of_isNumeric htype
  refine ⟨⟨hpositive, hstrength, ?_, fun _ => .inr ⟨hreceiver, spelling, rfl⟩, ?_, ?_, ?_, ?_⟩, rfl⟩
  · have hle : min strength 8 ≤ signLevel spelling :=
      Nat.le_trans (Nat.min_le_right ..) (le_signLevel spelling)
    exact .loosen (.number spelling) hle
  · rintro _ ⟨⟩
    exact hasType_of_isReceiver hreceiver
  · rintro _ ⟨⟩
  · rintro _ ⟨⟩
  · rintro ⟨⟩
    cases htype

/-- An integer, with a strength that fits it. -/
theorem composed_int (n : Int) (h : 0 ≤ n ∨ strength ≤ 8) (hstrength : strength ≤ 10) :
    (Expr.int n).Composed stock false strength := by
  refine .loosen (.int n) ?_
  split <;> omega

/-- An integer that has been given a type. -/
theorem fitsAs_int {n : Int} (hpositive : 1 ≤ strength) (hbounded : strength ≤ 8 ∨ strength = 10)
    (hsign : 0 ≤ n ∨ strength = 8) (htype : type.isNumeric = true) :
    stock.FitsAs type ⟨.int n, .typed type, strength⟩ := by
  have hreceiver := isReceiver_of_isNumeric htype
  have hcode : (Expr.int n).Composed stock false strength := by
    refine composed_int n ?_ ?_ <;> omega
  have hloose := hcode.loosen (Nat.min_le_left strength 8)
  refine ⟨⟨hpositive, hbounded, hloose, fun hten => .inl ?_, ?_, ?_, ?_, ?_⟩, rfl⟩
  · change strength = 10 at hten
    change (Expr.int n).Composed stock type.isReceiver 10
    rwa [hreceiver, ← hten]
  · rintro _ ⟨⟩
    exact hasType_of_isReceiver hreceiver
  · rintro _ ⟨⟩
  · rintro _ ⟨⟩
  · rintro ⟨⟩
    cases htype

/-- A constant that is not typed yet. -/
theorem fits_untyped (hpositive : 1 ≤ strength) (hbounded : strength ≤ 8 ∨ strength = 10)
    (hloose : code.Composed stock false (min strength 8))
    (htight : strength = 10 →
      code.Composed stock false 10 ∨ ∃ spelling, code = .number spelling)
    (htyped : ∀ type, kind ≠ .typed type)
    (hint : ∀ n, kind = .intConst n → 0 ≤ n ∨ strength = 8)
    (hstr : ∀ s, kind = .strConst s → code.Composed stock false 10) :
    stock.Fits ⟨code, kind, strength⟩ := by
  have hreceiver : (Value.mk code kind strength).isReceiver = false := by
    unfold Value.isReceiver
    split
    next type htype => exact absurd htype (htyped type)
    next => rfl
  refine ⟨hpositive, hbounded, hloose, fun hten => ?_, fun type htype => absurd htype (htyped type),
    hint, hstr, fun htext => absurd htext (htyped _)⟩
  rw [hreceiver]
  exact (htight hten).imp_right fun hnumber => ⟨rfl, hnumber⟩

/-- A constant that needs no parentheses. -/
theorem fits_atom (hcode : code.Composed stock false 10) (htyped : ∀ type, kind ≠ .typed type)
    (hint : ∀ n, kind = .intConst n → 0 ≤ n) : stock.Fits (.atom code kind) := by
  have hstrength : 1 ≤ Value.atomic ∧ min Value.atomic 8 ≤ 10 := by decide
  exact fits_untyped hstrength.1 (.inr rfl) (hcode.loosen hstrength.2) (fun _ => .inl hcode) htyped
    (fun n hn => .inl (hint n hn)) fun _ _ => hcode

theorem fits_ofInt (n : Int) : stock.Fits (.ofInt n) := by
  unfold Value.ofInt
  split
  next hneg =>
    have hunary : 1 ≤ Value.unary ∧ Value.unary ≤ 8 ∧ Value.unary ≠ 10 := by decide
    refine fits_untyped hunary.1 (.inl hunary.2.1) ?_ (fun h => absurd h hunary.2.2) (by simp)
      (fun _ _ => .inr rfl) (by simp)
    exact composed_int n (.inr (by decide)) (by decide)
  next hpos =>
    refine fits_atom (composed_int n (.inl (by omega)) (Nat.le_refl _)) (by simp) ?_
    rintro _ ⟨⟩
    omega

theorem fits_ofDecimal (spelling : String) : stock.Fits (.ofDecimal spelling) := by
  have hloose {strength : Nat} : (Expr.number spelling).Composed stock false (min strength 8) :=
    .loosen (.number spelling) (Nat.le_trans (Nat.min_le_right ..) (le_signLevel spelling))
  have hbounds : 1 ≤ (Value.ofDecimal spelling).strength ∧
      ((Value.ofDecimal spelling).strength ≤ 8 ∨ (Value.ofDecimal spelling).strength = 10) := by
    have hboth : ∀ n ∈ [Value.unary, Value.atomic], 1 ≤ n ∧ (n ≤ 8 ∨ n = 10) := by decide
    apply hboth
    unfold Value.ofDecimal
    split <;> simp
  exact fits_untyped hbounds.1 hbounds.2 hloose (fun _ => .inr ⟨spelling, rfl⟩) (by simp) (by simp)
    (by simp)

theorem fits_ofLiteral (literal : Literal) : stock.Fits (.ofLiteral literal) := by
  cases literal with
  | int n => exact fits_ofInt n
  | decimal spelling => exact fits_ofDecimal spelling
  | string s => exact fits_atom (.str s) (by simp) (by simp)
  | bool b => exact fits_atom (.bool b) (by simp) (by simp)
  | null => exact fits_atom .nil (by simp) (by simp)

namespace Fits

variable {value : Value} (h : stock.Fits value)

include h

/-- A value as an operand. -/
theorem wrapped {p : Nat} (hpositive : 1 ≤ p) (hp : p ≤ 8) :
    (value.wrapped p).Composed stock false p := by
  have hone : 1 ≤ min value.strength 8 := Nat.le_min.mpr ⟨h.positive, by decide⟩
  unfold Value.wrapped
  split
  next => exact .loosen (.paren (.loosen h.loose hone)) (by omega)
  next hle => exact .loosen h.loose (by omega)

theorem operand : value.code.Composed stock false 1 :=
  .loosen h.loose (Nat.le_min.mpr ⟨h.positive, by decide⟩)

/-- A value as the receiver of a method. -/
theorem receiver (hreceiver : value.isReceiver = true) :
    (value.wrapped Value.atomic).Composed stock true 10 := by
  unfold Value.wrapped
  split
  next => exact .paren h.operand
  next hle =>
    have hbounded := h.bounded
    have hstrength : value.strength = 10 := by
      simp only [Value.atomic] at hle
      omega
    rcases h.tight hstrength with hcode | ⟨hnot, -⟩
    · rwa [hreceiver] at hcode
    · rw [hreceiver] at hnot
      cases hnot

/-- A method call on a value. -/
theorem method (hreceiver : value.isReceiver = true) {name : String} (hname : name ∈ valueMethods)
    {args : List Expr} (hargs : ∀ arg ∈ args, arg.Composed stock false 1) (primary : Bool) :
    (value.method name args).Composed stock primary 10 :=
  .method hname (h.receiver hreceiver) hargs

/-- The types of values are in stock. -/
theorem goType? : stock.HasHint value.goType? := by
  intro type htype
  unfold Value.goType? at htype
  split at htype
  next other hother =>
    obtain rfl := Option.some.inj htype
    exact h.type _ hother
  next =>
    obtain rfl := Option.some.inj htype
    exact hasType_of_package? rfl
  next =>
    obtain rfl := Option.some.inj htype
    exact hasType_of_package? rfl
  next => cases htype

/-- The negation of a truth value. -/
theorem negated : stock.FitsAs .bool value.negated :=
  fitsAs_ofBool (by decide) (by decide) (.not (h.wrapped (by decide) (by decide)))

end Fits

@[simp]
theorem hasHint_none : stock.HasHint none := by
  simp [HasHint]

@[simp]
theorem hasHint_some : stock.HasHint (some type) ↔ stock.HasType type := by
  simp [HasHint]

/-- A string is an operand of a concatenation once it is in parentheses where it needs them. -/
theorem FitsAs.wrapped_text {value : Value} (h : stock.FitsAs .string value) :
    (value.wrapped 5).Composed stock false 10 := by
  unfold Value.wrapped
  split
  next => exact .paren h.1.operand
  next hle =>
    rcases h.1.text h.2 with hstrength | hcode
    · omega
    · exact hcode

theorem FitsAs.isReceiver {value : Value} (h : stock.FitsAs type value) :
    value.isReceiver = type.isReceiver := by
  rw [Value.isReceiver, h.2]

/-- The negation of a number fits. -/
theorem Fits.negate {value result : Value} (h : stock.Fits value)
    (hresult : value.negate = .ok result) : stock.Fits result := by
  unfold Value.negate at hresult
  split at hresult
  next n _ =>
    split at hresult
    · obtain rfl := Except.ok.inj hresult
      exact fits_ofInt _
    · cases hresult
  next spelling _ =>
    obtain rfl := Except.ok.inj hresult
    exact fits_ofDecimal _
  next hkind =>
    obtain rfl := Except.ok.inj hresult
    have hreceiver : value.isReceiver = true := by rw [Value.isReceiver, hkind]; rfl
    exact fits_ofType (h.method hreceiver (by decide) (List.forall_mem_nil _) _) (h.type _ hkind)
  next type _ hkind =>
    split at hresult
    next hnumeric =>
      obtain rfl := Except.ok.inj hresult
      refine (fitsAs_operator (by decide) (by decide) ?_ (isReceiver_of_isNumeric hnumeric) ?_).1
      · exact .minus (h.wrapped (by decide) (by decide))
      · rintro rfl
        cases hnumeric
    next => cases hresult
  next => cases hresult

end Go.Stock

namespace Lower

open Go Go.Stock

variable {stock : Stock} {c : Context} {pre : Prop} {value : Value}

/-! ## Conversions -/

/-- A call of a runtime helper. -/
theorem drawsOn_runtimeCall {function : String}
    (hfunction : ("tsqlrt", function) ∈ packageFunctions) {args : List Go.Expr}
    (hargs : pre → ∀ arg ∈ args, arg.Composed stock false 1) :
    (runtimeCall function args).DrawsOn stock c pre fun e =>
      ∀ primary, e.Composed stock primary 10 := by
  refine drawsOn_bind drawsOn_importRuntime fun _ => drawsOn_pure ?_
  rintro ⟨hpre, hpackage⟩ primary
  exact .packaged hfunction hpackage (hargs hpre)

section Conversions

variable (hvalue : pre → stock.Fits value)

include hvalue

theorem drawsOn_toDecimal (hdecimal : pre → stock.HasType .decimal) :
    (toDecimal value).DrawsOn stock c pre (stock.FitsAs .decimal) := by
  have hcall {function : String} (hfunction : ("decimal", function) ∈ packageFunctions)
      {arg : Go.Expr} (hpre : pre) (harg : arg.Composed stock false 1) :
      stock.FitsAs .decimal (decimalCall function arg) := by
    have hargs := List.forall_mem_singleton.mpr harg
    exact fitsAs_ofType (fun _ => .packaged hfunction (hdecimal hpre _ rfl) hargs) (hdecimal hpre)
  have hconvert {e : Go.Expr} {type : String} (htype : type ∈ Expr.conversions)
      (he : e.Composed stock false 1) : (Expr.convert type e).Composed stock false 1 :=
    .loosen (.convert htype he) (by decide)
  have hint (n : Int) (hn : 0 ≤ n ∨ 1 ≤ 8) : (Expr.int n).Composed stock false 1 :=
    composed_int n hn (by decide)
  unfold toDecimal
  split
  · exact drawsOn_pure fun hpre => hcall (by decide) hpre (hint _ (.inr (by decide)))
  · exact drawsOn_pure fun hpre => hcall (by decide) hpre (.loosen (.str _) (by decide))
  · exact drawsOn_pure fun hpre => hcall (by decide) hpre (hvalue hpre).operand
  · exact drawsOn_pure fun hpre => hcall (by decide) hpre (hvalue hpre).operand
  · exact drawsOn_pure fun hpre => hcall (by decide) hpre (hint _ (.inr (by decide)))
  · exact drawsOn_pure fun hpre => hcall (by decide) hpre (hvalue hpre).operand
  · exact drawsOn_pure fun hpre => hcall (by decide) hpre (hvalue hpre).operand
  · exact drawsOn_pure fun hpre =>
      hcall (by decide) hpre (hconvert (by decide) (hvalue hpre).operand)
  · refine drawsOn_bind (drawsOn_runtimeCall (by decide) fun hpre =>
      List.forall_mem_singleton.mpr (hvalue hpre).operand) fun bit => drawsOn_pure ?_
    rintro ⟨hpre, hbit⟩
    exact hcall (by decide) hpre (hconvert (by decide) (.loosen (hbit _) (by decide)))
  · split
    · exact drawsOn_pure fun hpre =>
        hcall (by decide) hpre (hconvert (by decide) (hvalue hpre).operand)
    · exact drawsOn_unsupported
  · exact drawsOn_unsupported

theorem drawsOn_toBool : (toBool value).DrawsOn stock c pre (stock.FitsAs .bool) := by
  have hconstant (b : Bool) : stock.FitsAs .bool (.ofType (.bool b) .bool) :=
    fitsAs_plain (.bool b) rfl
  unfold toBool
  dsimp only
  split
  case h_5 hkind =>
    refine drawsOn_pure fun hpre => fitsAs_ofBool (by decide) (by decide) (.not ?_)
    have hreceiver : value.isReceiver = true := by rw [Value.isReceiver, hkind]; rfl
    exact .loosen ((hvalue hpre).method hreceiver (by decide) (List.forall_mem_nil _) _) (by decide)
  case h_6 =>
    refine drawsOn_bind (drawsOn_runtimeCall (by decide) fun hpre =>
      List.forall_mem_singleton.mpr (hvalue hpre).operand) fun call => drawsOn_pure ?_
    rintro ⟨-, hcall⟩
    exact fitsAs_plain (hcall _) rfl
  case h_7 =>
    split
    · refine drawsOn_pure fun hpre => fitsAs_ofBool (by decide) (by decide) ?_
      exact .binary (q := 4) rfl (.inl (by decide))
        (.loosen ((hvalue hpre).wrapped (by decide) (by decide)) (by decide))
        (composed_int 0 (.inl (by decide)) (by decide))
    · exact drawsOn_unsupported
  case h_8 => exact drawsOn_unsupported
  all_goals exact drawsOn_pure fun _ => hconstant _

theorem drawsOn_toNumber {target : GoType} (htarget : target.isNumeric = true) :
    (toNumber value target).DrawsOn stock c pre (stock.FitsAs target) := by
  have hreceiver := isReceiver_of_isNumeric htarget
  have hconverted {e : Go.Expr} (he : e.Composed stock false 1) :
      stock.FitsAs target (.ofType (.convert target.name e) target) :=
    fitsAs_plain (.convert (name_mem_conversions htarget) he) hreceiver
  unfold toNumber
  dsimp only
  split
  case h_1 n hkind =>
    exact drawsOn_pure fun hpre =>
      fitsAs_int (hvalue hpre).positive (hvalue hpre).bounded ((hvalue hpre).int n hkind) htarget
  case h_2 =>
    split
    · exact drawsOn_pure fun hpre =>
        fitsAs_number _ (hvalue hpre).positive (hvalue hpre).bounded htarget
    · refine drawsOn_pure fun _ => ?_
      split
      · exact fitsAs_number _ (by decide) (by decide) htarget
      · exact fitsAs_number _ (by decide) (by decide) htarget
  case h_3 b _ =>
    have hbit : 0 ≤ bitNumber b := by cases b <;> decide
    exact drawsOn_pure fun _ => fitsAs_plain (composed_int _ (.inl hbit) (by decide)) hreceiver
  case h_4 =>
    split
    · exact drawsOn_pure fun _ => fitsAs_number _ (by decide) (.inr rfl) htarget
    · exact drawsOn_unsupported
  case h_5 hkind =>
    have hdecimal : value.isReceiver = true := by rw [Value.isReceiver, hkind]; rfl
    have hmethod {name : String} (hname : name ∈ valueMethods) (hpre : pre) :
        (value.method name []).Composed stock false 10 :=
      (hvalue hpre).method hdecimal hname (List.forall_mem_nil _) _
    split
    · exact drawsOn_pure fun hpre => fitsAs_plain (hmethod (by decide) hpre) rfl
    · exact drawsOn_pure fun hpre => fitsAs_plain (hmethod (by decide) hpre) rfl
    · exact drawsOn_pure fun hpre =>
        hconverted (.loosen (hmethod (by decide) hpre) (by decide))
    · exact drawsOn_pure fun hpre =>
        hconverted (.loosen (hmethod (by decide) hpre) (by decide))
  case h_6 =>
    refine drawsOn_bind (drawsOn_runtimeCall (by decide) fun hpre =>
      List.forall_mem_singleton.mpr (hvalue hpre).operand) fun bit => ?_
    split
    · exact drawsOn_pure fun hpre => fitsAs_plain (hpre.2 _) hreceiver
    · exact drawsOn_pure fun hpre => hconverted (.loosen (hpre.2 _) (by decide))
  case h_7 =>
    have hparser : ("tsqlrt", if target.isInteger then "ParseInt" else "ParseFloat") ∈
        packageFunctions := by
      split <;> decide
    refine drawsOn_bind (drawsOn_runtimeCall hparser fun hpre =>
      List.forall_mem_singleton.mpr (hvalue hpre).operand) fun call => drawsOn_pure ?_
    exact fun hpre => hconverted (.loosen (hpre.2 _) (by decide))
  case h_8 =>
    split
    · exact drawsOn_pure fun hpre => hconverted (hvalue hpre).operand
    · exact drawsOn_unsupported
  case h_9 => exact drawsOn_unsupported

theorem drawsOn_toText : (toText value).DrawsOn stock c pre (stock.FitsAs .string) := by
  have hfmt {e : Go.Expr} (hpackage : stock.packages "fmt") (he : e.Composed stock false 1) :
      stock.FitsAs .string (.ofType (.invoke (.name "fmt") "Sprint" [e]) .string) :=
    fitsAs_plain (.packaged (by decide) hpackage (List.forall_mem_singleton.mpr he)) rfl
  have hstring (hpre : pre) (hreceiver : value.isReceiver = true) :
      stock.FitsAs .string (.ofType (value.method "String" []) .string) :=
    fitsAs_plain ((hvalue hpre).method hreceiver (by decide) (List.forall_mem_nil _) _) rfl
  unfold toText
  split
  case h_1 s hkind => exact drawsOn_pure fun hpre => fitsAs_plain ((hvalue hpre).str s hkind) rfl
  case h_5 hkind | h_6 hkind =>
    have hreceiver : value.isReceiver = true := by rw [Value.isReceiver, hkind]; rfl
    exact drawsOn_pure fun hpre => hstring hpre hreceiver
  case h_7 =>
    exact drawsOn_pure fun hpre => fitsAs_plain (.convert (by decide) (hvalue hpre).operand) rfl
  case h_8 =>
    refine drawsOn_bind (drawsOn_importPath "fmt" (by simp [Config.packages])) fun _ => ?_
    refine drawsOn_bind (drawsOn_runtimeCall (by decide) fun hpre =>
      List.forall_mem_singleton.mpr (hvalue hpre.1).operand) fun bit => drawsOn_pure ?_
    exact fun hpre => hfmt hpre.1.2 (.loosen (hpre.2 _) (by decide))
  case h_9 =>
    split
    · refine drawsOn_bind (drawsOn_importPath "fmt" (by simp [Config.packages])) fun _ => ?_
      exact drawsOn_pure fun hpre => hfmt hpre.2 (hvalue hpre.1).operand
    · exact drawsOn_unsupported
  case h_10 => exact drawsOn_unsupported
  all_goals exact drawsOn_pure fun _ => fitsAs_plain (.str _) rfl

theorem drawsOn_toTime (htime : pre → stock.HasType .time) :
    (toTime value).DrawsOn stock c pre (stock.FitsAs .time) := by
  unfold toTime
  split
  · refine drawsOn_bind (drawsOn_runtimeCall (by decide) fun hpre =>
      List.forall_mem_singleton.mpr (hvalue hpre).operand) fun call => drawsOn_pure ?_
    exact fun hpre => fitsAs_ofType hpre.2 (htime hpre.1)
  · exact drawsOn_unsupported

theorem drawsOn_toBytes : (toBytes value).DrawsOn stock c pre (stock.FitsAs .bytes) := by
  unfold toBytes
  split
  · exact drawsOn_pure fun hpre => fitsAs_plain (.convert (by decide) (hvalue hpre).operand) rfl
  · exact drawsOn_unsupported

/-- A conversion yields a value of the type, which fits if what is converted does. -/
theorem drawsOn_coerce (target : GoType) :
    (coerce value target).DrawsOn stock c pre (stock.FitsAs target) := by
  refine drawsOn_bind (drawsOn_importType target) fun _ => ?_
  split
  · exact drawsOn_pure fun hpre => fitsAs_zero hpre.2
  split
  · rename_i htype
    refine drawsOn_pure fun hpre => ⟨hvalue hpre.1, ?_⟩
    simpa [Value.hasType] using htype
  · cases target with
    | decimal => exact drawsOn_toDecimal (fun hpre => hvalue hpre.1) And.right
    | bool => exact drawsOn_toBool fun hpre => hvalue hpre.1
    | string => exact drawsOn_toText fun hpre => hvalue hpre.1
    | time => exact drawsOn_toTime (fun hpre => hvalue hpre.1) And.right
    | bytes => exact drawsOn_toBytes fun hpre => hvalue hpre.1
    | _ => exact drawsOn_toNumber (fun hpre => hvalue hpre.1) rfl

end Conversions

/-- A conversion makes its type available, whatever is converted. -/
theorem drawsOn_coerce_type (value : Value) (target : GoType) :
    (coerce value target).DrawsOn stock c pre fun _ => stock.HasType target := by
  refine drawsOn_bind (drawsOn_importType target) fun _ => ?_
  refine drawsOn_of_annotated ?_ fun _ _ hpre => hpre.2
  split
  · exact hasEffect_pure _
  · split
    · exact hasEffect_pure _
    · cases target <;> exact Calculates.hasEffect (by simp)

/-- A value that is converted at once may be of any type that uses the type. -/
theorem drawsOn_bind_coerce {step : Lower Value} {target : GoType}
    (h : step.DrawsOn stock c (pre ∧ stock.HasType target) stock.Fits) :
    (step >>= fun value => coerce value target).DrawsOn stock c pre (stock.FitsAs target) :=
  drawsOn_bind_later h (fun value => drawsOn_coerce_type value target) fun _ =>
    drawsOn_coerce And.right target

end Lower

end Sproc
