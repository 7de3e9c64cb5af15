import Sproc.Proofs.Text.Folding

/-!
# Characters and runs of characters

The classes of characters and the changes of case follow tables, but on ASCII they are the plain
ones: letters are A to Z and a to z, digits are 0 to 9, and the two cases of a letter change one by
one into each other. A reader takes the longest run of characters of a class, so a run is read as
it was written when the character behind it is of another class.

## Main results

* `Text.of_isAscii`: what holds of the 128 characters holds of every character of ASCII
* `Text.isAlphanumeric_of_isAscii`, `Text.isUpper_of_isAscii`, `Text.isLower_of_isAscii`
* `Text.toList_toLower_of_isAscii`: small letters come one by one
* `Text.span_append`, `Text.span_spec`: the longest run of a class
-/

namespace Sproc.Text

variable {c : Char}

/-! ## ASCII -/

theorem of_isAscii {p : Char → Prop} (h : ∀ n < 128, p (Char.ofNat n)) (hc : isAscii c = true) :
    p c := by
  have hsmall : c.toNat < 128 := by simpa [isAscii] using hc
  simpa using h c.toNat hsmall

theorem isAlphanumeric_of_isAscii (hc : isAscii c = true) :
    isAlphanumeric c = c.isAlphanum := by
  rw [isAlphanumeric, isAlphabetic, isNumeric, if_pos hc, if_pos hc]
  rfl

theorem isUpper_of_isAscii (hc : isAscii c = true) : isUpper c = c.isUpper :=
  if_pos hc

theorem isLower_of_isAscii (hc : isAscii c = true) : isLower c = c.isLower :=
  if_pos hc

theorem isAscii_of_isAlphanum (h : c.isAlphanum = true) : isAscii c = true := by
  rcases Bool.or_eq_true_iff.mp h with hletter | hdigit
  · exact isAscii_of_isAlpha hletter
  · have hbounds := Char.isDigit_iff_toNat.mp hdigit
    have hnine : '9'.toNat < 128 := by decide
    rw [isAscii, decide_eq_true_eq]
    omega

theorem isAlphanumeric_of_isAlphanum (h : c.isAlphanum = true) : isAlphanumeric c = true := by
  rwa [isAlphanumeric_of_isAscii (isAscii_of_isAlphanum h)]

theorem isAlphanum_of_isUpper (h : c.isUpper = true) : c.isAlphanum = true :=
  Bool.or_eq_true_iff.mpr (.inl (Bool.or_eq_true_iff.mpr (.inl h)))

theorem isAlphanum_of_isLower (h : c.isLower = true) : c.isAlphanum = true :=
  Bool.or_eq_true_iff.mpr (.inl (Bool.or_eq_true_iff.mpr (.inr h)))

theorem isAlphanum_of_isDigit (h : c.isDigit = true) : c.isAlphanum = true :=
  Bool.or_eq_true_iff.mpr (.inr h)

theorem isUpper_of_isUpper (h : c.isUpper = true) : isUpper c = true :=
  (isUpper_of_isAscii (isAscii_of_isAlphanum (isAlphanum_of_isUpper h))).trans h

theorem isLower_of_isLower (h : c.isLower = true) : isLower c = true :=
  (isLower_of_isAscii (isAscii_of_isAlphanum (isAlphanum_of_isLower h))).trans h

/-- A capital is neither a small letter nor a digit. -/
theorem isLower_of_isUpper (h : c.isUpper = true) : isLower c = false ∧ c.isDigit = false := by
  have hascii := isAscii_of_isAlphanum (isAlphanum_of_isUpper h)
  rw [isLower_of_isAscii hascii]
  exact of_isAscii (p := fun c => c.isUpper = true → c.isLower = false ∧ c.isDigit = false)
    (by decide) hascii h

theorem isUpper_of_isLower (h : c.isLower = true) : isUpper c = false := by
  have hascii := isAscii_of_isAlphanum (isAlphanum_of_isLower h)
  rw [isUpper_of_isAscii hascii]
  exact of_isAscii (p := fun c => c.isLower = true → c.isUpper = false) (by decide) hascii h

theorem isUpper_of_isDigit (h : c.isDigit = true) : isUpper c = false ∧ isLower c = false := by
  have hascii := isAscii_of_isAlphanum (isAlphanum_of_isDigit h)
  rw [isUpper_of_isAscii hascii, isLower_of_isAscii hascii]
  exact of_isAscii (p := fun c => c.isDigit = true → c.isUpper = false ∧ c.isLower = false)
    (by decide) hascii h

theorem isAlphanum_toLower (h : c.isAlphanum = true) : c.toLower.isAlphanum = true :=
  of_isAscii (p := fun c => c.isAlphanum = true → c.toLower.isAlphanum = true) (by decide)
    (isAscii_of_isAlphanum h) h

theorem isAlphanum_toUpper (h : c.isAlphanum = true) : c.toUpper.isAlphanum = true :=
  of_isAscii (p := fun c => c.isAlphanum = true → c.toUpper.isAlphanum = true) (by decide)
    (isAscii_of_isAlphanum h) h

/-- No character beyond ASCII becomes one of ASCII when the letters A to Z are made small. -/
theorem isAscii_of_isAscii_toLower (h : isAscii c.toLower = true) : isAscii c = true := by
  rw [isAscii, decide_eq_true_eq, toNat_toLower] at h
  rw [isAscii, decide_eq_true_eq]
  split at h <;> omega

/-- The rule for sigma does not bear on ASCII. -/
theorem lowerFrom_of_isAscii {cs : List Char} (h : ∀ c ∈ cs, isAscii c = true)
    (before : List Char) : lowerFrom before cs = cs.map Char.toLower := by
  induction cs generalizing before with
  | nil => rfl
  | cons c cs ih =>
    obtain ⟨hc, hcs⟩ := List.forall_mem_cons.mp h
    have hsigma : c ≠ 'Σ' := by
      rintro rfl
      exact absurd hc (by decide)
    rw [lowerFrom, if_neg hsigma, lowerChars, if_pos hc, ih hcs]
    rfl

theorem toList_toLower_of_isAscii {s : String} (h : ∀ c ∈ s.toList, isAscii c = true) :
    (toLower s).toList = s.toList.map Char.toLower := by
  rw [toLower, String.toList_ofList, lowerFrom_of_isAscii h]

/-! ## Bytes -/

theorem utf8Size_of_isAscii (hc : isAscii c = true) : c.utf8Size = 1 := by
  have hsmall : c.toNat < 128 := by simpa [isAscii] using hc
  exact Char.utf8Size_eq_one_iff.mpr (Nat.le_of_lt_succ hsmall)

/-- A text of ASCII has as many bytes as characters. -/
theorem utf8ByteSize_of_isAscii {cs : List Char} (h : ∀ c ∈ cs, isAscii c = true) :
    (String.ofList cs).utf8ByteSize = cs.length := by
  induction cs with
  | nil => rfl
  | cons c cs ih =>
    obtain ⟨hc, hcs⟩ := List.forall_mem_cons.mp h
    have hcons : String.ofList (c :: cs) = String.singleton c ++ String.ofList cs := by
      rw [← String.toList_inj]
      simp
    rw [hcons, String.utf8ByteSize_append, String.utf8ByteSize_singleton, utf8Size_of_isAscii hc,
      ih hcs, List.length_cons, Nat.add_comm]

/-! ## Runs -/

variable {p : Char → Prop} {cs front rest : List Char}

theorem forall_mem_head?_cons : (∀ d ∈ (c :: cs).head?, p d) ↔ p c := by
  simp

theorem forall_mem_head?_append (hne : cs ≠ []) (hcs : ∀ c ∈ cs, p c) (rest : List Char) :
    ∀ c ∈ (cs ++ rest).head?, p c := by
  obtain ⟨c, others, rfl⟩ := List.exists_cons_of_ne_nil hne
  exact forall_mem_head?_cons.mpr (hcs c List.mem_cons_self)

/-- A run of characters of a class is read as a whole when one of another class follows. -/
theorem span_append {p : Char → Bool} (hfront : ∀ c ∈ front, p c = true)
    (hrest : ∀ c ∈ rest.head?, p c = false) :
    (front ++ rest).takeWhile p = front ∧ (front ++ rest).dropWhile p = rest := by
  rw [List.takeWhile_append_of_pos hfront, List.dropWhile_append_of_pos hfront]
  cases rest with
  | nil => simp
  | cons c rest => simp [hrest c rfl]

/-- The run that is read has characters of the class only, and the rest does not go on with one. -/
theorem span_spec (p : Char → Bool) (cs : List Char) :
    (∀ c ∈ cs.takeWhile p, p c = true) ∧ ∀ c ∈ (cs.dropWhile p).head?, p c = false := by
  refine ⟨List.all_eq_true.mp List.all_takeWhile, fun c hc => ?_⟩
  have hhead := List.head?_dropWhile_not p cs
  rw [Option.mem_def.mp hc] at hhead
  exact hhead

end Sproc.Text
