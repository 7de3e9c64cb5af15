import Mathlib.Data.List.DropRight
import Mathlib.Data.List.Induction
import Mathlib.Data.Rat.Floor
import Mathlib.Tactic.Ring
import Sproc.Proofs.Lower.Run
import Sproc.Proofs.Text.Folding

/-!
# Numerals

Constants of exact numbers are carried by their spelling. The spelling is cut at the point to make
an integer of it, tested for digits to make a truth value of it, and loses or gains a minus when it
is negated. The texts are read here as numbers, and the emitted text is read as the target language
reads it, where a zero in front of other digits makes them octal.

## Main definitions

* `Go.literalValue?`, `Go.constantValue?`: the integer that a text of the target language denotes
* `Go.OctalMatters`: digits that denote another number, or none, once they are read as octal
* `Numeral`: an exact number as it is written, with `Numeral.text` and `Numeral.value`
* `towardZero`: a rational number without its fraction

## Main results

* `Go.literalValue?_eq_iff`: which digits denote their decimal number
* `Numeral.towardZero_value`, `Numeral.value_ne_zero_iff`, `Numeral.value_negation`
* `constants_keep_value_iff`: conversions and negation keep the value of a constant, except
  that an integer whose leading zero matters is emitted as it is written
-/

namespace Sproc

/-! ## Integers of the target language -/

namespace Go

open Text

/-- The number that a list of octal digits denotes. -/
def octalValue (digits : List Char) : Nat :=
  digits.foldl (fun n c => n * 8 + (c.toNat - 0x30)) 0

/-- Whether a character is a digit in base eight. -/
def isOctalDigit (c : Char) : Bool :=
  '0' ≤ c && c ≤ '7'

/-- The number that an integer literal without letters denotes. Behind a leading zero the digits are
octal, and an 8 or a 9 among them makes the literal invalid. -/
def literalValue? (digits : List Char) : Option Nat :=
  if digits.isEmpty || !digits.all Char.isDigit then none
  else if digits.head? ≠ some '0' then some (decimalValue digits)
  else if digits.all isOctalDigit then some (octalValue digits)
  else none

/-- The number that an integer literal behind at most one sign denotes. -/
def constantValue? (text : String) : Option Int :=
  let (negative, digits) := splitSign text.toList
  (literalValue? digits).map fun n => if negative then -(n : Int) else n

/-- Digits that begin with a zero and denote a number that octal digits spell in another way. -/
def OctalMatters (digits : List Char) : Prop :=
  digits.head? = some '0' ∧ 8 ≤ decimalValue digits

instance (digits : List Char) : Decidable (OctalMatters digits) :=
  inferInstanceAs (Decidable (_ ∧ _))

end Go

namespace Text

/-- Digits without a sign are all there is. -/
theorem splitSign_digits {c : Char} {rest : List Char} (h : c.isDigit) :
    splitSign (c :: rest) = (false, c :: rest) := by
  unfold splitSign
  split
  next heq =>
    obtain rfl := (List.cons.inj heq).1
    exact absurd h (by decide)
  next heq =>
    obtain rfl := (List.cons.inj heq).1
    exact absurd h (by decide)
  next => rfl

theorem decimalValue_concat (digits : List Char) (c : Char) :
    decimalValue (digits ++ [c]) = decimalValue digits * 10 + (c.toNat - 0x30) := by
  simp [decimalValue]

theorem decimalValue_append (front behind : List Char) :
    decimalValue (front ++ behind) =
      decimalValue front * 10 ^ behind.length + decimalValue behind := by
  induction behind using List.reverseRecOn with
  | nil => simp [decimalValue]
  | append_singleton behind c ih =>
    rw [← List.append_assoc, decimalValue_concat, decimalValue_concat, ih, List.length_append,
      List.length_singleton, pow_succ]
    ring

/-- A digit is one of the ten characters from 0 on. -/
theorem digit_bounds {c : Char} (h : c.isDigit) : 0x30 ≤ c.toNat ∧ c.toNat ≤ 0x39 :=
  Char.isDigit_iff_toNat.mp h

theorem decimalValue_lt {digits : List Char} (h : ∀ c ∈ digits, c.isDigit) :
    decimalValue digits < 10 ^ digits.length := by
  induction digits using List.reverseRecOn with
  | nil => simp [decimalValue]
  | append_singleton digits c ih =>
    have front := ih fun d hd => h d (by simp [hd])
    have last := digit_bounds (h c (by simp))
    rw [decimalValue_concat, List.length_append, List.length_singleton, pow_succ]
    omega

/-- No digit is larger than the whole number. -/
theorem digit_le_decimalValue {digits : List Char} {c : Char} (h : c ∈ digits) :
    c.toNat - 0x30 ≤ decimalValue digits := by
  induction digits using List.reverseRecOn with
  | nil => simp at h
  | append_singleton digits d ih =>
    rw [decimalValue_concat]
    rcases List.mem_append.mp h with front | last
    · have := ih front
      omega
    · rw [List.mem_singleton.mp last]
      omega

/-- Digits denote zero exactly when all of them are zero. -/
theorem decimalValue_eq_zero_iff {digits : List Char} (h : ∀ c ∈ digits, c.isDigit) :
    decimalValue digits = 0 ↔ ∀ c ∈ digits, c = '0' := by
  constructor
  · intro zero c hc
    have small := digit_le_decimalValue hc
    have digit := digit_bounds (h c hc)
    have same : c.toNat = 0x30 := by omega
    exact Char.toNat_inj.mp same
  · intro zeros
    induction digits using List.reverseRecOn with
    | nil => rfl
    | append_singleton digits c ih =>
      have front := ih (fun d hd => h d (by simp [hd])) (fun d hd => zeros d (by simp [hd]))
      rw [decimalValue_concat, front, zeros c (by simp)]
      decide

theorem mem_of_mem_dropEnds {p : Char → Bool} {s : String} {c : Char}
    (h : c ∈ (dropEnds p s).toList) : c ∈ s.toList := by
  simp only [dropEnds, dropEnd, dropStart, String.toList_ofList, List.mem_reverse] at h
  have hstart := (List.dropWhile_suffix p).subset h
  exact (List.dropWhile_suffix p).subset (List.mem_reverse.mp hstart)

theorem mem_of_mem_splitSign {cs : List Char} {c : Char} (h : c ∈ (splitSign cs).2) : c ∈ cs := by
  unfold splitSign at h
  split at h
  · exact List.mem_cons_of_mem _ h
  · exact List.mem_cons_of_mem _ h
  · exact h

/-- A text loses everything to the removal of characters at its ends exactly when it consists of
such characters. -/
theorem isEmpty_dropEnds (p : Char → Bool) (s : String) :
    (dropEnds p s).isEmpty = s.toList.all p := by
  have hall : (∀ c ∈ s.toList.dropWhile p, p c) ↔ ∀ c ∈ s.toList, p c := by
    rw [← List.dropWhile_eq_nil_iff, List.dropWhile_idempotent, List.dropWhile_eq_nil_iff]
  simp only [dropEnds, dropEnd, dropStart, String.toList_ofList]
  rw [Bool.eq_iff_iff, List.all_eq_true, ← hall, String.isEmpty_iff, ← String.toList_inj,
    String.toList_ofList]
  simp [List.dropWhile_eq_nil_iff]

end Text

namespace Go

open Text

theorem octalValue_concat (digits : List Char) (c : Char) :
    octalValue (digits ++ [c]) = octalValue digits * 8 + (c.toNat - 0x30) := by
  simp [octalValue]

theorem octalValue_le (digits : List Char) : octalValue digits ≤ decimalValue digits := by
  induction digits using List.reverseRecOn with
  | nil => rfl
  | append_singleton digits c ih =>
    rw [octalValue_concat, decimalValue_concat]
    omega

theorem isOctalDigit_iff {c : Char} : isOctalDigit c ↔ 0x30 ≤ c.toNat ∧ c.toNat ≤ 0x37 := by
  simp only [isOctalDigit, Bool.and_eq_true, decide_eq_true_eq, Char.le_def,
    UInt32.le_iff_toNat_le]
  rfl

/-- Octal digits denote the same number in base ten exactly when all but the last are zero. -/
theorem octalValue_eq_iff {digits : List Char} (h : ∀ c ∈ digits, isOctalDigit c) :
    octalValue digits = decimalValue digits ↔ decimalValue digits < 8 := by
  induction digits using List.reverseRecOn with
  | nil => decide
  | append_singleton digits c ih =>
    have front := ih fun d hd => h d (by simp [hd])
    have below := octalValue_le digits
    have last := isOctalDigit_iff.mp (h c (by simp))
    rw [octalValue_concat, decimalValue_concat]
    omega

/-- Digits denote their decimal number, unless they are read as octal and that matters. -/
theorem literalValue?_eq_iff {digits : List Char} (h : ∀ c ∈ digits, c.isDigit)
    (hne : digits ≠ []) :
    literalValue? digits = some (decimalValue digits) ↔ ¬OctalMatters digits := by
  have hdigits : (digits.isEmpty || !digits.all Char.isDigit) = false := by
    simp [hne, List.all_eq_true.mpr h]
  rw [literalValue?, hdigits, if_neg Bool.false_ne_true, OctalMatters]
  by_cases hzero : digits.head? = some '0'
  · rw [if_neg (by simpa using hzero)]
    by_cases hoctal : digits.all isOctalDigit = true
    · have := octalValue_eq_iff (List.all_eq_true.mp hoctal)
      rw [if_pos hoctal, Option.some_inj, this]
      simp [hzero]
    · -- An 8 or a 9 makes the number at least that large.
      obtain ⟨c, hc, hlarge⟩ : ∃ c ∈ digits, ¬isOctalDigit c = true := by simpa using hoctal
      have hbounds := digit_bounds (h c hc)
      have hle := digit_le_decimalValue hc
      rw [isOctalDigit_iff] at hlarge
      rw [if_neg hoctal]
      simp only [reduceCtorEq, hzero, true_and, not_le, false_iff, not_lt]
      omega
  · rw [if_pos hzero]
    simp [hzero]

/-- A text of at most one sign and digits denotes the decimal number, with that sign, unless the
digits are read as octal and that matters. -/
theorem constantValue?_eq_iff {text : String} {negative : Bool} {digits : List Char}
    (htext : splitSign text.toList = (negative, digits)) (h : ∀ c ∈ digits, c.isDigit)
    (hne : digits ≠ []) :
    constantValue? text =
        some (if negative then -(decimalValue digits : Int) else decimalValue digits) ↔
      ¬OctalMatters digits := by
  rw [← literalValue?_eq_iff h hne, constantValue?, htext]
  cases hvalue : literalValue? digits with
  | none => simp [hvalue]
  | some n => cases negative <;> simp [hvalue]

end Go

/-! ## Exact numbers as they are written -/

open Text Lower

/-- An exact number as it is written: an optional minus, digits, an optional point and digits, with
at least one digit. -/
structure Numeral where
  negative : Bool
  whole : List Char
  /-- The digits behind the point, if there is a point. -/
  places : Option (List Char)
  isDigit_whole : ∀ c ∈ whole, c.isDigit
  isDigit_places : ∀ c ∈ places.getD [], c.isDigit
  nonempty : whole ++ places.getD [] ≠ []

/-- A rational number without its fraction. -/
def towardZero (q : ℚ) : ℤ :=
  if 0 ≤ q then ⌊q⌋ else ⌈q⌉

theorem towardZero_neg (q : ℚ) : towardZero (-q) = -towardZero q := by
  unfold towardZero
  rcases lt_trichotomy q 0 with h | rfl | h
  · rw [if_pos (by linarith), if_neg (by linarith), Int.floor_neg]
  · simp
  · rw [if_neg (by linarith), if_pos h.le, Int.ceil_neg]

namespace Numeral

/-- All digits of a number. -/
def digits (n : Numeral) : List Char :=
  n.whole ++ n.places.getD []

/-- What is written behind the sign. -/
def body (n : Numeral) : List Char :=
  n.whole ++ n.places.elim [] ('.' :: ·)

/-- The spelling of a number. -/
def text (n : Numeral) : String :=
  String.ofList (if n.negative then '-' :: n.body else n.body)

/-- The number without its sign. -/
def magnitude (n : Numeral) : ℚ :=
  decimalValue n.digits / 10 ^ (n.places.getD []).length

/-- The number that is written. -/
def value (n : Numeral) : ℚ :=
  if n.negative then -n.magnitude else n.magnitude

/-- The number with the other sign. -/
def negation (n : Numeral) : Numeral :=
  { n with negative := !n.negative }

variable (n : Numeral)

theorem isDigit_digits : ∀ c ∈ n.digits, c.isDigit := by
  intro c hc
  exact (List.mem_append.mp hc).elim (n.isDigit_whole c) (n.isDigit_places c)

theorem value_negation : n.negation.value = -n.value := by
  cases hsign : n.negative <;> simp [value, negation, magnitude, digits, hsign]

theorem magnitude_nonneg : 0 ≤ n.magnitude := by
  unfold magnitude
  positivity

/-- The digits in front of the point are the number without its fraction. -/
theorem floor_magnitude : ⌊n.magnitude⌋ = decimalValue n.whole := by
  have hplaces : decimalValue (n.places.getD []) < 10 ^ (n.places.getD []).length :=
    decimalValue_lt n.isDigit_places
  have hdiv : decimalValue n.digits / 10 ^ (n.places.getD []).length = decimalValue n.whole := by
    rw [digits, decimalValue_append, Nat.add_comm, Nat.add_mul_div_right _ _ (by positivity),
      Nat.div_eq_of_lt hplaces, Nat.zero_add]
  have hfloor := Rat.floor_natCast_div_natCast (decimalValue n.digits)
    (10 ^ (n.places.getD []).length)
  rw [magnitude]
  rw [← hdiv]
  exact_mod_cast hfloor

/-- Without its fraction, a number is what its digits in front of the point and its sign make. -/
theorem towardZero_value :
    towardZero n.value =
      if n.negative then -(decimalValue n.whole : Int) else decimalValue n.whole := by
  have hmagnitude : towardZero n.magnitude = decimalValue n.whole := by
    rw [towardZero, if_pos n.magnitude_nonneg, n.floor_magnitude]
  cases hsign : n.negative with
  | false => simpa [value, hsign] using hmagnitude
  | true => simp [value, hsign, towardZero_neg, hmagnitude]

/-- A number is zero exactly when all its digits are. -/
theorem value_eq_zero_iff : n.value = 0 ↔ ∀ c ∈ n.digits, c = '0' := by
  have hpow : (10 : ℚ) ^ (n.places.getD []).length ≠ 0 := by positivity
  have hmagnitude : n.magnitude = 0 ↔ decimalValue n.digits = 0 := by
    rw [magnitude, div_eq_zero_iff, or_iff_left hpow, Nat.cast_eq_zero]
  rw [← decimalValue_eq_zero_iff n.isDigit_digits, ← hmagnitude]
  cases hsign : n.negative <;> simp [value, hsign]

/-- The body of a number has no sign. -/
theorem ne_minus_of_mem_body {c : Char} (h : c ∈ n.body) : c ≠ '-' := by
  rintro rfl
  rw [body, List.mem_append] at h
  rcases h with h | h
  · exact absurd (n.isDigit_whole _ h) (by decide)
  · cases hplaces : n.places with
    | none => simp [hplaces] at h
    | some places =>
      have hdigits := n.isDigit_places
      simp only [hplaces, Option.elim_some, List.mem_cons, Option.getD_some] at h hdigits
      rcases h with h | h
      · exact absurd h (by decide)
      · exact absurd (hdigits _ h) (by decide)

theorem dropWhile_minus_body : n.body.dropWhile (· == '-') = n.body := by
  cases hbody : n.body with
  | nil => rfl
  | cons c rest =>
    have hminus := n.ne_minus_of_mem_body (hbody ▸ List.mem_cons_self)
    rw [List.dropWhile_cons_of_neg (by simpa using hminus)]

/-- The spelling of a number shows whether it is zero. -/
theorem isNonzeroSpelling_text : isNonzeroSpelling n.text = true ↔ n.value ≠ 0 := by
  have hbody : n.text.toList.dropWhile (· == '-') = n.body := by
    cases hsign : n.negative <;> simp [text, hsign, n.dropWhile_minus_body]
  have hzeros : (n.body.all fun c => c == '0' || c == '.') = true ↔ ∀ c ∈ n.digits, c = '0' := by
    have hpoint {c : Char} (h : c ∈ n.digits) : c = '0' ∨ c = '.' ↔ c = '0' := by
      refine or_iff_left ?_
      rintro rfl
      exact absurd (n.isDigit_digits _ h) (by decide)
    have hdigits : (∀ c ∈ n.digits, c = '0') ↔ ∀ c ∈ n.digits, c = '0' ∨ c = '.' :=
      forall₂_congr fun _ hc => (hpoint hc).symm
    rw [hdigits, List.all_eq_true, body, digits]
    cases n.places <;> simp [or_imp, forall_and]
  rw [isNonzeroSpelling, Bool.not_eq_true', Text.isEmpty_dropEnds, Text.dropStart,
    String.toList_ofList, hbody, Bool.eq_false_iff, Ne, hzeros, Ne, n.value_eq_zero_iff]

/-- What stands in front of the point. -/
theorem firstPart_text :
    firstPart '.' n.text = String.ofList (if n.negative then '-' :: n.whole else n.whole) := by
  have hwhole : n.body.takeWhile (· ≠ '.') = n.whole := by
    have hpoint : ∀ c ∈ n.whole, decide (c ≠ '.') = true := by
      intro c hc
      refine decide_eq_true ?_
      rintro rfl
      exact absurd (n.isDigit_whole _ hc) (by decide)
    rw [body, List.takeWhile_append_of_pos hpoint]
    cases n.places <;> simp
  rw [firstPart, text, String.toList_ofList]
  cases n.negative <;> simp_all

/-- The integer part of a spelling denotes the number without its fraction, unless its digits are
read as octal and that matters. -/
theorem constantValue?_wholeSpelling :
    Go.constantValue? (wholeSpelling n.text) = some (towardZero n.value) ↔
      ¬Go.OctalMatters n.whole := by
  rw [n.towardZero_value]
  cases hwhole : n.whole with
  | nil =>
    have hzero : wholeSpelling n.text = "0" := by
      rw [wholeSpelling, firstPart_text, hwhole]
      cases n.negative <;> rfl
    rw [hzero]
    cases n.negative <;> decide
  | cons c rest =>
    have hdigits := hwhole ▸ n.isDigit_whole
    have hspelling : wholeSpelling n.text =
        String.ofList (if n.negative then '-' :: c :: rest else c :: rest) := by
      have hminus : c ≠ '-' := by
        rintro rfl
        exact absurd (hdigits _ List.mem_cons_self) (by decide)
      rw [wholeSpelling, firstPart_text, hwhole, if_neg]
      cases n.negative <;> simp [← String.toList_inj, hminus]
    rw [hspelling]
    refine Go.constantValue?_eq_iff ?_ hdigits (List.cons_ne_nil _ _)
    rw [String.toList_ofList]
    cases n.negative with
    | true => rfl
    | false => exact splitSign_digits (hdigits c List.mem_cons_self)

/-- The negation of a spelling spells the number with the other sign. -/
theorem negate_text :
    (Value.ofLiteral (.decimal n.text)).negate = .ok (.ofLiteral (.decimal n.negation.text)) := by
  have hbody : n.negation.body = n.body := rfl
  have hspelling : (Text.stripStart? "-" n.text).getD ("-" ++ n.text) = n.negation.text := by
    cases hsign : n.negative with
    | true => simp [stripStart?, restAfter?, text, negation, body, hsign]
    | false =>
      have hnone : stripStart? "-" n.text = none := by
        rw [stripStart?, text, hsign, Option.map_eq_none_iff]
        cases hbody : n.body with
        | nil => rfl
        | cons c rest =>
          have hminus := n.ne_minus_of_mem_body (hbody ▸ List.mem_cons_self)
          simp [restAfter?, Ne.symm hminus]
      rw [hnone, Option.getD_none, ← String.toList_inj]
      simp [text, negation, body, hsign]
  simp only [Value.ofLiteral, Value.ofDecimal, Value.negate]
  rw [hspelling]

end Numeral

/-! ## Conversions of constants -/

variable {c : Context} {before : Progress} {type : GoType}

/-- A constant is converted to an integer like any number. -/
theorem runs_coerce_integer {value result : Value} {after : Progress} (h : type.isInteger = true)
    (hnull : value.kind ≠ .null) (htyped : value.kind ≠ .typed type) :
    (coerce value type).Runs c before result after ↔
      (toNumber value type).Runs c before result after := by
  have himport : importType type = pure () := by
    cases type <;> simp [GoType.isInteger] at h <;> rfl
  have hnull' : (value.kind == .null) = false := by simpa using hnull
  have htyped' : value.hasType type = false := by simpa [Value.hasType] using htyped
  unfold coerce
  rw [himport, pure_bind, hnull', htyped']
  cases type <;> simp [GoType.isInteger] at h <;> rfl

/-- The spelling of an exact number becomes an integer by its part in front of the point. -/
theorem runs_coerce_decimal (spelling : String) (h : type.isInteger = true) :
    ∃ value, (coerce (.ofLiteral (.decimal spelling)) type).Runs c before value before ∧
      value.code = .number (wholeSpelling spelling) := by
  have hfloat : type.isFloat = false := by
    cases type <;> simp_all [GoType.isInteger, GoType.isFloat]
  let whole := wholeSpelling spelling
  let strength := if beginsWith "-" whole then Value.unary else Value.atomic
  refine ⟨⟨.number whole, .typed type, strength⟩, ?_, rfl⟩
  rw [runs_coerce_integer h (by simp [Value.ofLiteral, Value.ofDecimal])
    (by simp [Value.ofLiteral, Value.ofDecimal])]
  simp [toNumber, Value.ofLiteral, Value.ofDecimal, hfloat, whole, strength]

/-- A string becomes an integer as it is written, but for blanks around it, where it spells one. -/
theorem runs_coerce_string {s : String} {value : Value} {after : Progress}
    (h : type.isInteger = true) :
    (coerce (.ofLiteral (.string s)) type).Runs c before value after ↔
      (int64? (trim s)).isSome ∧ value = .ofType (.number (trim s)) type ∧ after = before := by
  have hfloat : type.isFloat = false := by
    cases type <;> simp_all [GoType.isInteger, GoType.isFloat]
  rw [runs_coerce_integer h (by simp [Value.ofLiteral, Value.atom])
    (by simp [Value.ofLiteral, Value.atom])]
  unfold toNumber
  simp only [Value.ofLiteral, Value.atom, hfloat, Bool.false_and, Bool.or_false]
  split
  next hsome => simp [hsome]
  next hnone => simp [hnone]

/-- A text that spells an integer is at most one sign and digits. -/
theorem splitSign_of_int64? {s : String} {k : Int} (h : int64? s = some k) :
    ∃ negative digits, splitSign s.toList = (negative, digits) ∧ (∀ c ∈ digits, c.isDigit) ∧
      digits ≠ [] ∧ k = if negative then -(decimalValue digits : Int) else decimalValue digits := by
  rcases hsplit : splitSign s.toList with ⟨negative, digits⟩
  simp only [int64?, hsplit, Option.ite_none_right_eq_some, Option.some_inj, Bool.and_eq_true,
    Bool.not_eq_true', List.all_eq_true] at h
  obtain ⟨⟨⟨hne, hdigits⟩, -⟩, rfl⟩ := h
  exact ⟨negative, digits, rfl, hdigits, by simpa using hne, rfl⟩

/-- A constant becomes a truth value by its spelling alone. -/
theorem runs_coerce_decimal_bool (spelling : String) :
    (coerce (.ofLiteral (.decimal spelling)) .bool).Runs c before
      (.ofType (.bool (isNonzeroSpelling spelling)) .bool) before := rfl

theorem runs_coerce_string_bool (s : String) :
    (coerce (.ofLiteral (.string s)) .bool).Runs c before
      (.ofType (.bool (sameIgnoringCase s "true" || trim s == "1")) .bool) before := rfl

/-- A text that spells an integer does not spell a truth value. -/
theorem not_true_of_int64? {s : String} {k : Int} (h : int64? (trim s) = some k) :
    sameIgnoringCase s "true" = false := by
  obtain ⟨negative, digits, hsplit, hdigits, hne, -⟩ := splitSign_of_int64? h
  -- One of the digits would have to be a letter.
  obtain ⟨c, hc⟩ := List.exists_mem_of_ne_nil _ hne
  have hmem : c ∈ s.toList := by
    have htrim : c ∈ (trim s).toList := mem_of_mem_splitSign (by rwa [hsplit])
    exact mem_of_mem_dropEnds htrim
  have hlower : c.toLower.toNat ≤ 0x39 := by
    have := digit_bounds (hdigits c hc)
    rw [toNat_toLower]
    split <;> omega
  refine Bool.eq_false_iff.mpr fun hsame => ?_
  have hletters : s.toList.map Char.toLower = "true".toList.map Char.toLower := by
    simpa [sameIgnoringCase] using hsame
  have hletter : c.toLower ∈ "true".toList.map Char.toLower :=
    hletters ▸ List.mem_map_of_mem hmem
  have hlarge : ∀ d ∈ "true".toList.map Char.toLower, 0x39 < d.toNat :=
    List.forall_mem_map.mpr (by simp)
  exact absurd hlower (Nat.not_le.mpr (hlarge _ hletter))

/-- What becomes of the constants whose value is a number.

An exact number, as an integer, is emitted as its digits in front of the point, which denote the
number without its fraction unless they begin with a zero and octal digits spell another number; as
a truth value it shows whether the number is zero; and its negation spells the number with the other
sign. A string is accepted for an integer exactly when it spells one behind a sign, and what is
emitted denotes that integer under the same condition; as a truth value it holds for 1 in the
plainest spelling only. -/
theorem constants_keep_value_iff (c : Context) (before : Progress) :
    (∀ n : Numeral,
      (∀ type : GoType, type.isInteger = true → ∃ value,
        (coerce (.ofLiteral (.decimal n.text)) type).Runs c before value before ∧
        (Go.constantValue? value.text = some (towardZero n.value) ↔ ¬Go.OctalMatters n.whole)) ∧
      (∃ value, (coerce (.ofLiteral (.decimal n.text)) .bool).Runs c before value before ∧
        value.text = if n.value ≠ 0 then "true" else "false") ∧
      ∃ m : Numeral, m.value = -n.value ∧
        (Value.ofLiteral (.decimal n.text)).negate = .ok (.ofLiteral (.decimal m.text))) ∧
    ∀ (s : String) (type : GoType), type.isInteger = true →
      ((∃ value after, (coerce (.ofLiteral (.string s)) type).Runs c before value after) ↔
        ∃ k, int64? (trim s) = some k) ∧
      ∀ k, int64? (trim s) = some k →
        (∃ value, (coerce (.ofLiteral (.string s)) type).Runs c before value before ∧
          (Go.constantValue? value.text = some k ↔
            ¬Go.OctalMatters (splitSign (trim s).toList).2)) ∧
        ∃ value, (coerce (.ofLiteral (.string s)) .bool).Runs c before value before ∧
          value.text = if trim s = "1" then "true" else "false" := by
  constructor
  · intro n
    refine ⟨fun type htype => ?_, ?_, n.negation, n.value_negation, n.negate_text⟩
    · obtain ⟨value, hruns, hcode⟩ := runs_coerce_decimal n.text htype
      refine ⟨value, hruns, ?_⟩
      rw [Value.text, hcode]
      exact n.constantValue?_wholeSpelling
    · refine ⟨_, runs_coerce_decimal_bool n.text, ?_⟩
      simp only [← n.isNonzeroSpelling_text]
      rfl
  · intro s type htype
    constructor
    · rw [← Option.isSome_iff_exists]
      constructor
      · rintro ⟨value, after, hruns⟩
        exact ((runs_coerce_string htype).mp hruns).1
      · intro hsome
        exact ⟨_, _, (runs_coerce_string htype).mpr ⟨hsome, rfl, rfl⟩⟩
    · intro k hk
      obtain ⟨negative, digits, hsplit, hdigits, hne, rfl⟩ := splitSign_of_int64? hk
      refine ⟨⟨_, (runs_coerce_string htype).mpr ⟨by rw [hk]; rfl, rfl, rfl⟩, ?_⟩, _,
        runs_coerce_string_bool s, ?_⟩
      · rw [hsplit]
        exact Go.constantValue?_eq_iff hsplit hdigits hne
      · rw [not_true_of_int64? hk, Bool.false_or]
        by_cases hone : trim s = "1" <;> simp [hone, Value.text, Value.ofType, Go.Expr.render]

/-- Ten and a half behind a zero, as an integer: what is emitted begins with the zero and denotes
eight. -/
theorem ten_and_a_half_is_eight :
    let n : Numeral := ⟨false, ['0', '1', '0'], some ['5'], by simp, by simp, by simp⟩
    let context : Context :=
      { config := {}, procedure := { name := "usp_Sample" }, functionName := "Sample", verb := none,
        survey := {} }
    n.text = "010.5" ∧ towardZero n.value = 10 ∧ GoType.int32.isInteger = true ∧
      ∃ value, (coerce (.ofLiteral (.decimal n.text)) .int32).Runs context {} value {} ∧
        value.text = "010" ∧ Go.constantValue? value.text ≠ some (towardZero n.value) ∧
        Go.constantValue? value.text = some 8 := by
  intro n context
  obtain ⟨value, hruns, hiff⟩ :=
    ((constants_keep_value_iff context {}).1 n).1 .int32 rfl
  have hmisread : Go.OctalMatters n.whole := by decide
  have hdecimal : ∃ value, (coerce (.ofLiteral (.decimal n.text)) .int32).Runs context {} value {} ∧
      value.code = .number (wholeSpelling n.text) :=
    runs_coerce_decimal n.text rfl
  obtain ⟨value', hruns', hcode⟩ := hdecimal
  obtain ⟨rfl, -⟩ := hruns.unique hruns'
  have htext : value.text = "010" := by
    rw [Value.text, hcode]
    decide
  refine ⟨by decide, ?_, rfl, value, hruns, htext, fun heq => hiff.mp heq hmisread, ?_⟩
  · rw [n.towardZero_value]
    decide
  · rw [htext]
    decide

end Sproc
