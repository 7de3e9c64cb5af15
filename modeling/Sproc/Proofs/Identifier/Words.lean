import Sproc.Identifier
import Sproc.Proofs.Text.Characters

/-!
# Words of identifiers

An identifier is read once from left to right, and the characters of the unfinished word are kept
on the way. The word is finished at a character that is neither a letter nor a number, at a capital
that starts a new word, and at the end. At each of these places everything that was kept becomes a
word, so no letter and no number is lost, and no word is empty.

## Main results

* `Identifier.flatten_splitChars`, `Identifier.ne_nil_of_mem_splitChars`: what the words hold
* `Identifier.words_lose_nothing`
* `Identifier.splitChars_keep`, `Identifier.splitChars_capitals`: characters that go on with a word
* `Identifier.splitChars_finish`: what finishes a word
* `Identifier.splitChars_intercalate`: words that are joined are found again
-/

namespace Sproc.Identifier

open Text

variable {current cs : List Char}

/-! ## What the words hold -/

/-- The unfinished word and the letters and numbers that are still to come make up the words. -/
theorem flatten_splitChars (current cs : List Char) :
    (splitChars current cs).flatten = current.reverse ++ cs.filter isAlphanumeric := by
  -- Along the reading: what is finished moves from the unfinished word to the front of the words.
  fun_induction splitChars current cs with
  | case1 current hempty => rw [List.isEmpty_iff.mp hempty]; rfl
  | case2 current hfull => simp
  | case3 current c rest hmark hempty ih =>
    rw [ih, List.isEmpty_iff.mp hempty, List.filter_cons_of_neg (by simpa using hmark)]
  | case4 current c rest hmark hfull ih =>
    rw [List.flatten_cons, ih, List.filter_cons_of_neg (by simpa using hmark)]
    rfl
  | case5 c rest hword ih =>
    rw [ih, List.filter_cons_of_pos (by simpa using hword)]
    rfl
  | case6 c rest hword last front hstart ih =>
    rw [List.flatten_cons, ih, List.filter_cons_of_pos (by simpa using hword)]
    rfl
  | case7 c rest hword last front hgoes ih =>
    rw [ih, List.reverse_cons, List.append_assoc, List.singleton_append,
      List.filter_cons_of_pos (by simpa using hword)]

theorem ne_nil_of_mem_splitChars {word : List Char} (h : word ∈ splitChars current cs) :
    word ≠ [] := by
  fun_induction splitChars current cs with
  | case1 current hempty => cases h
  | case2 current hfull => simp_all
  | case3 current c rest hmark hempty ih => exact ih h
  | case4 current c rest hmark hfull ih =>
    rcases List.mem_cons.mp h with rfl | hmem
    · simpa using hfull
    · exact ih hmem
  | case5 c rest hword ih => exact ih h
  | case6 c rest hword last front hstart ih =>
    rcases List.mem_cons.mp h with rfl | hmem
    · simp
    · exact ih hmem
  | case7 c rest hword last front hgoes ih => exact ih h

theorem mem_of_mem_splitChars {word : List Char} (h : word ∈ splitChars [] cs) {c : Char}
    (hc : c ∈ word) : c ∈ cs ∧ isAlphanumeric c = true := by
  have hmem : c ∈ (splitChars [] cs).flatten := List.mem_flatten_of_mem h hc
  rw [flatten_splitChars] at hmem
  exact List.mem_filter.mp hmem

/-- No word of an identifier is empty, and the words joined are its letters and numbers, in the
order in which they stand there. -/
theorem words_lose_nothing (ident : String) :
    (∀ word ∈ words ident, word ≠ "") ∧
      String.join (words ident) = String.ofList (ident.toList.filter isAlphanumeric) := by
  constructor
  · intro word hword
    obtain ⟨cs, hcs, rfl⟩ := List.mem_map.mp hword
    exact mt String.ofList_eq_empty_iff.mp (ne_nil_of_mem_splitChars hcs)
  · rw [← String.toList_inj, String.toList_join, String.toList_ofList, words, List.flatMap_map]
    simpa using flatten_splitChars [] ident.toList

/-! ## Where words end -/

theorem splitChars_nil_cons (c : Char) (rest : List Char) :
    splitChars [] (c :: rest) =
      if isAlphanumeric c then splitChars [c] rest else splitChars [] rest := by
  rw [splitChars]
  cases isAlphanumeric c <;> rfl

theorem splitChars_cons_cons (last c : Char) (front rest : List Char) :
    splitChars (last :: front) (c :: rest) =
      if isAlphanumeric c then
        if startsWord last c rest then (last :: front).reverse :: splitChars [c] rest
        else splitChars (c :: last :: front) rest
      else (last :: front).reverse :: splitChars [] rest := by
  rw [splitChars]
  cases isAlphanumeric c <;> rfl

/-- Letters and numbers that are no capitals go on with a word. -/
theorem splitChars_keep {word : List Char} (hcurrent : current ≠ [])
    (hword : ∀ c ∈ word, isAlphanumeric c = true ∧ isUpper c = false) (rest : List Char) :
    splitChars current (word ++ rest) = splitChars (word.reverse ++ current) rest := by
  induction word generalizing current with
  | nil => rfl
  | cons c word ih =>
    obtain ⟨⟨halnum, hsmall⟩, hword⟩ := List.forall_mem_cons.mp hword
    obtain ⟨last, front, rfl⟩ := List.exists_cons_of_ne_nil hcurrent
    have hgoes : startsWord last c (word ++ rest) = false := by simp [startsWord, hsmall]
    rw [List.cons_append, splitChars_cons_cons, if_pos halnum, if_neg (by simp [hgoes]),
      ih (List.cons_ne_nil _ _) hword, List.reverse_cons, List.append_assoc]
    rfl

/-- Capitals behind a capital go on with a word, unless a small letter follows them. -/
theorem splitChars_capitals {last : Char} {front word rest : List Char}
    (hlast : last.isUpper = true) (hword : ∀ c ∈ word, c.isUpper = true)
    (hrest : ∀ c ∈ rest.head?, isLower c = false) :
    splitChars (last :: front) (word ++ rest) =
      splitChars (word.reverse ++ last :: front) rest := by
  induction word generalizing last front with
  | nil => rfl
  | cons c word ih =>
    obtain ⟨hc, hword⟩ := List.forall_mem_cons.mp hword
    have halnum := isAlphanumeric_of_isAlphanum (isAlphanum_of_isUpper hc)
    -- What comes next is a further capital or the rest, so this one is not the last of its row.
    have hnext : (word ++ rest).head?.any isLower = false := by
      cases word with
      | nil => simpa [Option.any_eq_false] using hrest
      | cons d word => exact (isLower_of_isUpper (hword d List.mem_cons_self)).1
    have hgoes : startsWord last c (word ++ rest) = false := by
      obtain ⟨hlower, hdigit⟩ := isLower_of_isUpper hlast
      rw [startsWord, hnext, hlower, hdigit, Bool.and_false, Bool.or_self, Bool.or_self,
        Bool.and_false]
    rw [List.cons_append, splitChars_cons_cons, if_pos halnum,
      if_neg (by simp [hgoes]), ih hc hword, List.reverse_cons, List.append_assoc]
    rfl

/-- A word is finished by the end, by a character that is neither a letter nor a number, and by a
capital behind a small letter or a digit. -/
theorem splitChars_finish {word rest : List Char} (hword : word ≠ [])
    (hrest : ∀ c ∈ rest.head?, isAlphanumeric c = false ∨ isUpper c = true ∧
      ∀ last ∈ word.getLast?, isLower last = true ∨ last.isDigit = true) :
    splitChars word.reverse rest = word :: splitChars [] rest := by
  obtain ⟨last, front, hreverse⟩ :=
    List.exists_cons_of_ne_nil (mt List.reverse_eq_nil_iff.mp hword)
  have hback : (last :: front).reverse = word := by rw [← hreverse, List.reverse_reverse]
  rw [hreverse]
  cases rest with
  | nil => rw [splitChars, hback]; rfl
  | cons c rest =>
    rw [splitChars_cons_cons, splitChars_nil_cons, hback]
    rcases hrest c rfl with hmark | ⟨hupper, hend⟩
    · simp [hmark]
    · have hlast : isLower last = true ∨ last.isDigit = true := by
        refine hend last ?_
        rw [← hback, List.getLast?_reverse]
        rfl
      have hstart : startsWord last c rest = true := by
        rw [startsWord, hupper]
        rcases hlast with hlower | hdigit
        · simp [hlower]
        · simp [hdigit]
      rw [if_pos hstart]
      split <;> rfl

/-- Characters that belong to no word do not count in front of one. -/
theorem splitChars_marks {marks : List Char} (h : ∀ c ∈ marks, isAlphanumeric c = false)
    (rest : List Char) : splitChars [] (marks ++ rest) = splitChars [] rest := by
  induction marks with
  | nil => rfl
  | cons c marks ih =>
    obtain ⟨hc, hmarks⟩ := List.forall_mem_cons.mp h
    rw [List.cons_append, splitChars_nil_cons, hc, if_neg Bool.false_ne_true, ih hmarks]

/-- Words are found again in joined form when each of them is cut off in front of what may stand
behind it, as the separator and the next word do. -/
theorem splitChars_intercalate {separator : List Char}
    (hseparator : ∀ c ∈ separator, isAlphanumeric c = false) (behind : List Char → Prop)
    (hend : behind []) {first : List Char} {others : List (List Char)}
    (hcut : ∀ word ∈ first :: others, ∀ rest, behind rest →
      splitChars [] (word ++ rest) = word :: splitChars [] rest)
    (hbehind : ∀ word ∈ others, ∀ rest, behind (separator ++ (word ++ rest))) :
    splitChars [] (separator.intercalate (first :: others)) = first :: others := by
  induction others generalizing first with
  | nil =>
    rw [List.intercalate_singleton, ← List.append_nil first, hcut _ (by simp) [] hend]
    simp [splitChars]
  | cons second others ih =>
    obtain ⟨hfirst, hothers⟩ := List.forall_mem_cons.mp hcut
    obtain ⟨hsecond, hrest⟩ := List.forall_mem_cons.mp hbehind
    obtain ⟨rest, hjoined⟩ : ∃ rest, separator.intercalate (second :: others) = second ++ rest := by
      cases others with
      | nil => exact ⟨[], by simp⟩
      | cons third others =>
        rw [List.intercalate_cons_cons, List.append_assoc]
        exact ⟨_, rfl⟩
    rw [List.intercalate_cons_cons, List.append_assoc, hfirst _ (by rw [hjoined]; exact hsecond rest),
      splitChars_marks hseparator, ih hothers hrest]

end Sproc.Identifier
