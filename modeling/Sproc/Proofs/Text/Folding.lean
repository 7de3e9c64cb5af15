import Sproc.Symbol
import Mathlib.Data.List.Forall2

/-!
# Folding the letters of names

Names are compared in two ways: by reading the letters A to Z as small letters, and by their forms
in small letters or in capitals, which go beyond ASCII. Names that agree in the first way agree in
the second. A letter of ASCII and the same letter in the other case are both cased, so neither the
form of the letter itself nor that of a sigma near it tells them apart.

## Main results

* `Text.toLower_eq_of_sameIgnoringCase`, `Text.toUpper_eq_of_sameIgnoringCase`
* `foldName_eq_of_sameIgnoringCase`, `foldName_eq_of_toLower_eq`: such names are the same variable
-/

namespace Sproc

namespace Text

theorem isAlpha_iff (c : Char) : c.isAlpha = true ↔
    (65 ≤ c.toNat ∧ c.toNat ≤ 90) ∨ (97 ≤ c.toNat ∧ c.toNat ≤ 122) := by
  have hupper : c.isUpper = true ↔ 65 ≤ c.toNat ∧ c.toNat ≤ 90 :=
    decide_eq_true_iff.trans Iff.rfl
  have hlower : c.isLower = true ↔ 97 ≤ c.toNat ∧ c.toNat ≤ 122 :=
    (Bool.and_eq_true_iff.trans (and_congr decide_eq_true_iff decide_eq_true_iff)).trans Iff.rfl
  rw [← hupper, ← hlower, ← Bool.or_eq_true]
  exact Iff.rfl

theorem toNat_toLower (c : Char) :
    c.toLower.toNat = if 65 ≤ c.toNat ∧ c.toNat ≤ 90 then c.toNat + 32 else c.toNat := by
  have hbounds : c.val ≥ 'A'.val ∧ c.val ≤ 'Z'.val ↔ 65 ≤ c.toNat ∧ c.toNat ≤ 90 := by
    simp only [ge_iff_le, UInt32.le_iff_toNat_le]
    exact Iff.rfl
  unfold Char.toLower
  split
  next h =>
    have h := hbounds.mp h
    rw [if_pos h]
    change (c.val + ('a'.val - 'A'.val)).toNat = c.val.toNat + 32
    rw [UInt32.toNat_add]
    have : ('a'.val - 'A'.val).toNat = 32 := rfl
    change 65 ≤ c.val.toNat ∧ c.val.toNat ≤ 90 at h
    omega
  next h => rw [if_neg (mt hbounds.mpr h)]

theorem toNat_toUpper (c : Char) :
    c.toUpper.toNat = if 97 ≤ c.toNat ∧ c.toNat ≤ 122 then c.toNat - 32 else c.toNat := by
  have hbounds : 'a'.val ≤ c.val ∧ c.val ≤ 'z'.val ↔ 97 ≤ c.toNat ∧ c.toNat ≤ 122 := by
    simp only [UInt32.le_iff_toNat_le]
    exact Iff.rfl
  unfold Char.toUpper
  split
  next h =>
    have h := hbounds.mp h
    rw [if_pos h]
    change (c.val + ('A'.val - 'a'.val)).toNat = c.val.toNat - 32
    rw [UInt32.toNat_add]
    have : ('A'.val - 'a'.val).toNat = 4294967264 := rfl
    change 97 ≤ c.val.toNat ∧ c.val.toNat ≤ 122 at h
    omega
  next h => rw [if_neg (mt hbounds.mpr h)]

/-- Characters that agree as small letters are the same or are both letters of ASCII. -/
theorem eq_or_isAlpha_of_toLower_eq {c d : Char} (h : c.toLower = d.toLower) :
    c = d ∨ c.isAlpha = true ∧ d.isAlpha = true := by
  have h := congrArg Char.toNat h
  rw [toNat_toLower, toNat_toLower] at h
  by_cases heq : c.toNat = d.toNat
  · exact .inl (Char.toNat_inj.mp heq)
  · simp only [isAlpha_iff]
    split at h <;> split at h <;> omega

theorem toUpper_eq_of_toLower_eq {c d : Char} (h : c.toLower = d.toLower) :
    c.toUpper = d.toUpper := by
  have h := congrArg Char.toNat h
  rw [toNat_toLower, toNat_toLower] at h
  apply Char.toNat_inj.mp
  rw [toNat_toUpper, toNat_toUpper]
  split at h <;> split at h <;> split <;> split <;> omega

theorem isAscii_of_isAlpha {c : Char} (h : c.isAlpha = true) : isAscii c = true := by
  rw [isAlpha_iff] at h
  simp only [isAscii, decide_eq_true_eq]
  omega

/-- A property of the letters of ASCII that they share does not tell the two cases of a letter
apart. -/
theorem congr_of_toLower_eq {α : Type} {f : Char → α} {letter : α}
    (hletter : ∀ c, c.isAlpha = true → f c = letter) {c d : Char} (h : c.toLower = d.toLower) :
    f c = f d := by
  obtain rfl | ⟨hc, hd⟩ := eq_or_isAlpha_of_toLower_eq h
  · rfl
  · rw [hletter c hc, hletter d hd]

theorem isCased_of_isAlpha {c : Char} (h : c.isAlpha = true) : isCased c = true := by
  have hascii := isAscii_of_isAlpha h
  rw [isCased, isUpper, isLower, if_pos hascii, if_pos hascii]
  change (c.isUpper || c.isLower) = true at h
  simp [h]

theorem isCaseIgnorable_of_isAlpha {c : Char} (h : c.isAlpha = true) :
    isCaseIgnorable c = false := by
  rw [isCaseIgnorable, if_pos (isAscii_of_isAlpha h)]
  simp only [Bool.or_eq_false_iff, beq_eq_false_iff_ne]
  refine ⟨⟨⟨⟨?_, ?_⟩, ?_⟩, ?_⟩, ?_⟩ <;> (rintro rfl; exact absurd h (by decide))

/-- The letters of two texts agree one by one when all are read as small letters. -/
abbrev SameLetters : List Char → List Char → Prop :=
  List.Forall₂ fun c d => c.toLower = d.toLower

theorem sameLetters_of_sameIgnoringCase {a b : String} (h : sameIgnoringCase a b = true) :
    SameLetters a.toList b.toList := by
  have hmap : a.toList.map Char.toLower = b.toList.map Char.toLower := by
    simpa [sameIgnoringCase] using h
  rw [← List.forall₂_eq_eq_eq, List.forall₂_map_left_iff, List.forall₂_map_right_iff] at hmap
  exact hmap

namespace SameLetters

variable {as bs : List Char}

theorem dropWhile (h : SameLetters as bs) {p : Char → Bool}
    (hp : ∀ c, c.isAlpha = true → p c = false) :
    SameLetters (as.dropWhile p) (bs.dropWhile p) := by
  induction h with
  | nil => exact .nil
  | @cons c d as bs hcd h ih =>
    have hsame := congr_of_toLower_eq hp hcd
    by_cases hd : p d = true
    · simpa [List.dropWhile_cons, hsame, hd] using ih
    · have hrest : SameLetters (c :: as) (d :: bs) := .cons hcd h
      simpa [List.dropWhile_cons, hsame, hd] using hrest

/-- The two cases of letters are passed over alike in the search for a cased neighbour. -/
theorem reachesCased_eq (h : SameLetters as bs) : reachesCased as = reachesCased bs := by
  unfold reachesCased
  have hrest := h.dropWhile (p := isCaseIgnorable) fun _ => isCaseIgnorable_of_isAlpha
  generalize as.dropWhile isCaseIgnorable = as at hrest
  generalize bs.dropWhile isCaseIgnorable = bs at hrest
  cases hrest with
  | nil => rfl
  | cons hcd _ => exact congr_of_toLower_eq (f := isCased) (fun _ => isCased_of_isAlpha) hcd

theorem lowerChars_eq {c d : Char} (h : c.toLower = d.toLower) : lowerChars c = lowerChars d := by
  obtain rfl | ⟨hc, hd⟩ := eq_or_isAlpha_of_toLower_eq h
  · rfl
  · rw [lowerChars, lowerChars, if_pos (isAscii_of_isAlpha hc), if_pos (isAscii_of_isAlpha hd), h]

theorem upperChars_eq {c d : Char} (h : c.toLower = d.toLower) : upperChars c = upperChars d := by
  obtain rfl | ⟨hc, hd⟩ := eq_or_isAlpha_of_toLower_eq h
  · rfl
  · rw [upperChars, upperChars, if_pos (isAscii_of_isAlpha hc), if_pos (isAscii_of_isAlpha hd),
      toUpper_eq_of_toLower_eq h]

theorem lowerFrom_eq (h : SameLetters as bs) {before before' : List Char}
    (hbefore : SameLetters before before') : lowerFrom before as = lowerFrom before' bs := by
  induction h generalizing before before' with
  | nil => rfl
  | @cons c d as bs hcd h ih =>
    -- A capital sigma is no letter of ASCII, so both texts have it or neither has.
    have hsigma : c = 'Σ' ↔ d = 'Σ' := by
      obtain rfl | ⟨hc, hd⟩ := eq_or_isAlpha_of_toLower_eq hcd
      · rfl
      · have hnone : ∀ e : Char, e.isAlpha = true → e ≠ 'Σ' := by
          rintro e he rfl
          exact absurd he (by decide)
        simp [hnone c hc, hnone d hd]
    simp only [lowerFrom, hsigma, reachesCased_eq hbefore, reachesCased_eq h, lowerChars_eq hcd,
      ih (hbefore.cons hcd)]

end SameLetters

/-- Texts that agree in all letters of ASCII have the same form in small letters. -/
theorem toLower_eq_of_sameIgnoringCase {a b : String} (h : sameIgnoringCase a b = true) :
    toLower a = toLower b :=
  congrArg String.ofList ((sameLetters_of_sameIgnoringCase h).lowerFrom_eq .nil)

/-- Texts that agree in all letters of ASCII have the same form in capitals. -/
theorem toUpper_eq_of_sameIgnoringCase {a b : String} (h : sameIgnoringCase a b = true) :
    toUpper a = toUpper b := by
  have hsame := sameLetters_of_sameIgnoringCase h
  refine congrArg String.ofList ?_
  generalize a.toList = as at hsame
  generalize b.toList = bs at hsame
  induction hsame with
  | nil => rfl
  | cons hcd _ ih => rw [List.flatMap_cons, List.flatMap_cons, ih, SameLetters.upperChars_eq hcd]

end Text

/-! ## At signs -/

namespace Text

theorem eq_at_of_ofNat_eq {n : Nat} (h : Char.ofNat n = '@') : n = 64 := by
  by_cases hvalid : n.isValidChar
  · rw [Char.ofNat, dif_pos hvalid] at h
    exact congrArg Char.toNat h
  · rw [Char.ofNat, dif_neg hvalid] at h
    exact absurd h (by decide)

/-- The form of a character in small letters is not empty, and an at sign is only that of itself. -/
theorem lowerChars_spec (c : Char) : lowerChars c ≠ [] ∧ ('@' ∈ lowerChars c → c = '@') := by
  have hascii : ∀ n < 128, (Char.ofNat n).toLower = '@' → Char.ofNat n = '@' := by decide
  have hexpansions : ∀ pair ∈ lowerExpansions, pair.2 ≠ [] ∧ 64 ∉ pair.2 := by decide
  have hshifts : (lowerShifts.all fun shift => 64 < shift.run.first + shift.delta) = true := by decide
  unfold lowerChars
  split
  next hsmall =>
    refine ⟨List.cons_ne_nil _ _, fun hmem => ?_⟩
    have hword := hascii c.toNat (by simpa [isAscii] using hsmall)
    rw [Char.ofNat_toNat] at hword
    exact hword (List.mem_singleton.mp hmem).symm
  next =>
    unfold mapCase
    split
    next image himage =>
      obtain ⟨front, back, hsplit, -⟩ := List.lookup_eq_some_iff.mp himage
      obtain ⟨hne, hnone⟩ := hexpansions (c.toNat, image) (by simp [hsplit])
      refine ⟨by simpa using hne, fun hmem => ?_⟩
      obtain ⟨n, hn, hat⟩ := List.mem_map.mp hmem
      exact absurd (eq_at_of_ofNat_eq hat ▸ hn) hnone
    next =>
      split
      next shift hshift =>
        refine ⟨List.cons_ne_nil _ _, fun hmem => ?_⟩
        have hrun : shift.run.contains c.toNat = true := by simpa using List.find?_some hshift
        simp only [CodePointRun.contains, Bool.and_eq_true, decide_eq_true_eq] at hrun
        have hbound := List.all_eq_true.mp hshifts shift (List.mem_of_find?_eq_some hshift)
        rw [decide_eq_true_eq] at hbound
        have heq := eq_at_of_ofNat_eq (List.mem_singleton.mp hmem).symm
        omega
      next => exact ⟨List.cons_ne_nil _ _, fun hmem => (List.mem_singleton.mp hmem).symm⟩

/-- An at sign at the very start is no cased neighbour. -/
theorem reachesCased_append_at (before : List Char) :
    reachesCased (before ++ ['@']) = reachesCased before := by
  unfold reachesCased
  induction before with
  | nil => decide
  | cons c rest ih =>
    cases hpassed : isCaseIgnorable c <;> simp_all

theorem lowerFrom_append_at (before cs : List Char) :
    lowerFrom (before ++ ['@']) cs = lowerFrom before cs := by
  induction cs generalizing before with
  | nil => rfl
  | cons c rest ih =>
    rw [lowerFrom, lowerFrom, reachesCased_append_at, ← ih (c :: before), List.cons_append]

/-- The at signs in front can be removed before or after a text is put in small letters. -/
theorem dropWhile_lowerFrom (cs : List Char) :
    (lowerFrom [] cs).dropWhile (· == '@') = lowerFrom [] (cs.dropWhile (· == '@')) := by
  induction cs with
  | nil => rfl
  | cons c rest ih =>
    by_cases hat : c = '@'
    · subst hat
      have himage : lowerFrom [] ('@' :: rest) = '@' :: lowerFrom [] rest := by
        rw [lowerFrom, if_neg (by decide), ← lowerFrom_append_at []]
        rfl
      simpa [himage] using ih
    · obtain ⟨d, image, himage, hd⟩ : ∃ d image, lowerFrom [] (c :: rest) = d :: image ∧ d ≠ '@' := by
        rw [lowerFrom]
        by_cases hsigma : c = 'Σ'
        · rw [if_pos hsigma]
          split <;> exact ⟨_, _, rfl, by decide⟩
        · rw [if_neg hsigma]
          obtain ⟨hne, honly⟩ := lowerChars_spec c
          obtain ⟨d, image, himage⟩ := List.exists_cons_of_ne_nil hne
          refine ⟨d, _, by rw [himage, List.cons_append], ?_⟩
          rintro rfl
          exact hat (honly (himage ▸ List.mem_cons_self))
      rw [List.dropWhile_cons_of_neg (by simpa using hat), himage,
        List.dropWhile_cons_of_neg (by simpa using hd)]

end Text

/-- Names with the same form in small letters are names of one variable. -/
theorem foldName_eq_of_toLower_eq {a b : String} (h : Text.toLower a = Text.toLower b) :
    foldName a = foldName b := by
  have hcomm (name : String) : foldName name = Text.dropStart (· == '@') (Text.toLower name) := by
    simp only [foldName, Text.toLower, Text.dropStart, String.toList_ofList]
    exact congrArg String.ofList (Text.dropWhile_lowerFrom name.toList).symm
  rw [hcomm, hcomm, h]

/-- Names that agree in all letters of ASCII are names of one variable. -/
theorem foldName_eq_of_sameIgnoringCase {a b : String} (h : Text.sameIgnoringCase a b = true) :
    foldName a = foldName b := by
  have hsame := (Text.sameLetters_of_sameIgnoringCase h).dropWhile (p := (· == '@')) fun c hc =>
    beq_eq_false_iff_ne.mpr fun heq => absurd (heq ▸ hc) (by decide)
  simp only [foldName, Text.toLower, Text.dropStart, String.toList_ofList]
  exact congrArg String.ofList (hsame.lowerFrom_eq .nil)

end Sproc
