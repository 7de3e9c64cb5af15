import Sproc.Proofs.Identifier.Words

/-!
# Naming conventions

The words of a name can be written in four ways: with underscores between them, in small letters or
in capitals, or directly behind each other, where capitals show the words. All four ways are cut
into the same words again, whatever their number. In capitals the underscores cut; where there are
none, it matters that a word ends with a small letter or a digit, behind which a capital starts the
next word.

The Go names depend on the words, but not on the case of their letters. So all ways to write a name
lead to the same Go names.

## Main definitions

* `NameWord`: two small letters or more, and digits behind them
* `Convention`, `Convention.name`: the ways to write the words of a name

## Main results

* `Identifier.camelCase_congr`, `Identifier.pascalCase_congr`, `Identifier.fieldName_congr`: Go names
  do not depend on the case of letters
* `Convention.words_name`: the words that are found
* `Convention.conventions_agree`
-/

namespace Sproc

open Text

/-! ## The case of letters -/

namespace Identifier

/-- Words that agree one by one up to the case of the letters of ASCII. -/
abbrev SameWords : List String → List String → Prop :=
  List.Forall₂ fun v w => sameIgnoringCase v w = true

theorem capitalize_congr {v w : String} (h : sameIgnoringCase v w = true) :
    capitalize v = capitalize w := by
  have hsame := sameLetters_of_sameIgnoringCase h
  rw [capitalize, capitalize]
  generalize v.toList = vs at hsame
  generalize w.toList = ws at hsame
  cases hsame with
  | nil => rfl
  | @cons c d cs ds hfirst hrest =>
    have himages : cs.flatMap lowerChars = ds.flatMap lowerChars := by
      induction hrest with
      | nil => rfl
      | cons hcd _ ih => rw [List.flatMap_cons, List.flatMap_cons, SameLetters.lowerChars_eq hcd, ih]
    dsimp only
    rw [SameLetters.upperChars_eq hfirst, himages]

theorem goWord_congr {v w : String} (h : sameIgnoringCase v w = true) : goWord v = goWord w := by
  rw [goWord, goWord, initialism?, initialism?, toUpper_eq_of_sameIgnoringCase h,
    capitalize_congr h]

theorem map_congr_of_sameWords {vs ws : List String} (h : SameWords vs ws) {f : String → String}
    (hf : ∀ v w, sameIgnoringCase v w = true → f v = f w) : vs.map f = ws.map f := by
  induction h with
  | nil => rfl
  | cons hvw _ ih => rw [List.map_cons, List.map_cons, hf _ _ hvw, ih]

variable {a b : String}

theorem camelCase_congr (h : SameWords (words a) (words b)) : camelCase a = camelCase b := by
  rw [camelCase, camelCase]
  generalize words a = vs at h
  generalize words b = ws at h
  cases h with
  | nil => rfl
  | cons hfirst hrest =>
    dsimp only
    rw [toLower_eq_of_sameIgnoringCase hfirst, map_congr_of_sameWords hrest fun _ _ => goWord_congr]

theorem pascalCase_congr (h : SameWords (words a) (words b)) : pascalCase a = pascalCase b := by
  rw [pascalCase, pascalCase, map_congr_of_sameWords h fun _ _ => goWord_congr]

theorem fieldName_congr (h : SameWords (words a) (words b)) : fieldName a = fieldName b := by
  rw [fieldName, fieldName, map_congr_of_sameWords h fun _ _ => capitalize_congr]

end Identifier

/-! ## Writing a name -/

/-- A word of a name: two small letters or more, and digits behind them. -/
structure NameWord where
  letters : List Char
  digits : List Char
  two_le_length : 2 ≤ letters.length
  isLower : ∀ c ∈ letters, c.isLower = true
  isDigit : ∀ c ∈ digits, c.isDigit = true

namespace NameWord

/-- A word in small letters. -/
def small (word : NameWord) : List Char :=
  word.letters ++ word.digits

/-- A word in capitals. -/
def capitals (word : NameWord) : List Char :=
  word.small.map Char.toUpper

/-- A word with a capital at its start. -/
def capitalized (word : NameWord) : List Char :=
  word.small.modifyHead Char.toUpper

end NameWord

/-- The ways to write the words of a name: `order_total`, `ORDER_TOTAL`, `OrderTotal` and
`orderTotal`. -/
inductive Convention where
  | snake
  | upperSnake
  | pascal
  | camel

namespace Convention

/-- The words of a name as they are written. -/
def pieces : Convention → List NameWord → List (List Char)
  | snake, list => list.map NameWord.small
  | upperSnake, list => list.map NameWord.capitals
  | pascal, list => list.map NameWord.capitalized
  | camel, [] => []
  | camel, first :: others => first.small :: others.map NameWord.capitalized

/-- What is written between two words. -/
def separator : Convention → List Char
  | snake | upperSnake => ['_']
  | pascal | camel => []

/-- The name that some words make up, behind a number of at signs. -/
def name (convention : Convention) (ats : Nat) (list : List NameWord) : String :=
  String.ofList
    (List.replicate ats '@' ++ convention.separator.intercalate (convention.pieces list))

end Convention

/-! ## Words of a name -/

namespace NameWord

variable {word : NameWord} {c : Char}

theorem mem_small (hc : c ∈ word.small) : c.isLower = true ∨ c.isDigit = true :=
  (List.mem_append.mp hc).imp (word.isLower c) (word.isDigit c)

theorem isAlphanum_of_mem_small (hc : c ∈ word.small) : c.isAlphanum = true := by
  rcases mem_small hc with hlower | hdigit
  · exact isAlphanum_of_isLower hlower
  · exact isAlphanum_of_isDigit hdigit

/-- The characters of a word in small letters go on with any word. -/
theorem keeps_of_mem_small (hc : c ∈ word.small) :
    isAlphanumeric c = true ∧ Text.isUpper c = false := by
  refine ⟨isAlphanumeric_of_isAlphanum (isAlphanum_of_mem_small hc), ?_⟩
  rcases mem_small hc with hlower | hdigit
  · exact isUpper_of_isLower hlower
  · exact (isUpper_of_isDigit hdigit).1

/-- A word starts with a small letter, and goes on behind it. -/
theorem exists_small (word : NameWord) :
    ∃ c d rest, word.small = c :: d :: rest ∧ c.isLower = true := by
  have hletters := word.isLower
  have hlength := word.two_le_length
  rw [small]
  generalize word.letters = letters at hletters hlength
  match letters with
  | c :: d :: rest => exact ⟨c, d, rest ++ word.digits, rfl, hletters c List.mem_cons_self⟩

/-- The last character of a word is a small letter or a digit, whatever its first one is. -/
theorem isLower_or_isDigit_of_mem_getLast? {first : Char} {rest : List Char}
    (hsmall : word.small = c :: rest) (hrest : rest ≠ []) :
    ∀ last ∈ (first :: rest).getLast?, Text.isLower last = true ∨ last.isDigit = true := by
  intro last hlast
  have hmem : last ∈ word.small := by
    rw [List.getLast?_cons, List.getLast?_eq_some_getLast hrest, Option.getD_some] at hlast
    rw [hsmall, ← Option.some.inj hlast]
    exact List.mem_cons_of_mem c (List.getLast_mem hrest)
  exact (mem_small hmem).imp isLower_of_isLower id

variable {rest : List Char}

/-- A word that has small letters and digits behind its first character ends in front of an
underscore and in front of a capital. -/
theorem splitChars_first {first : Char} {others : List Char} (hsmall : word.small = c :: others)
    (hothers : others ≠ []) (hfirst : first.isAlphanum = true)
    (hrest : ∀ d ∈ rest.head?, d = '_' ∨ d.isUpper = true) :
    Identifier.splitChars [] (first :: others ++ rest) =
      (first :: others) :: Identifier.splitChars [] rest := by
  have hkeep : ∀ d ∈ others, isAlphanumeric d = true ∧ Text.isUpper d = false := fun d hd =>
    @keeps_of_mem_small word d (hsmall ▸ List.mem_cons_of_mem c hd)
  have hback : others.reverse ++ [first] = (first :: others).reverse := by simp
  rw [List.cons_append, Identifier.splitChars_nil_cons,
    if_pos (isAlphanumeric_of_isAlphanum hfirst),
    Identifier.splitChars_keep (List.cons_ne_nil _ _) hkeep, hback,
    Identifier.splitChars_finish (List.cons_ne_nil _ _)]
  intro d hd
  rcases hrest d hd with rfl | hcapital
  · exact .inl (by decide)
  · exact .inr ⟨isUpper_of_isUpper hcapital, isLower_or_isDigit_of_mem_getLast? hsmall hothers⟩

theorem splitChars_small (word : NameWord)
    (hrest : ∀ d ∈ rest.head?, d = '_' ∨ d.isUpper = true) :
    Identifier.splitChars [] (word.small ++ rest) =
      word.small :: Identifier.splitChars [] rest := by
  obtain ⟨c, d, others, hsmall, hc⟩ := word.exists_small
  rw [hsmall]
  exact splitChars_first hsmall (List.cons_ne_nil _ _) (isAlphanum_of_isLower hc) hrest

theorem splitChars_capitalized (word : NameWord)
    (hrest : ∀ d ∈ rest.head?, d = '_' ∨ d.isUpper = true) :
    Identifier.splitChars [] (word.capitalized ++ rest) =
      word.capitalized :: Identifier.splitChars [] rest := by
  obtain ⟨c, d, others, hsmall, hc⟩ := word.exists_small
  rw [capitalized, hsmall, List.modifyHead_cons]
  exact splitChars_first hsmall (List.cons_ne_nil _ _)
    (isAlphanum_toUpper (isAlphanum_of_isLower hc)) hrest

theorem isUpper_toUpper (h : c.isLower = true) : c.toUpper.isUpper = true :=
  of_isAscii (p := fun c => c.isLower = true → c.toUpper.isUpper = true) (by decide)
    (isAscii_of_isAlphanum (isAlphanum_of_isLower h)) h

theorem toUpper_of_isDigit (h : c.isDigit = true) : c.toUpper = c :=
  of_isAscii (p := fun c => c.isDigit = true → c.toUpper = c) (by decide)
    (isAscii_of_isAlphanum (isAlphanum_of_isDigit h)) h

/-- Only the letters of a word have capitals. -/
theorem capitals_eq (word : NameWord) :
    word.capitals = word.letters.map Char.toUpper ++ word.digits := by
  have hdigits : word.digits.map Char.toUpper = word.digits :=
    (List.map_congr_left fun d hd => toUpper_of_isDigit (word.isDigit d hd)).trans (List.map_id' _)
  rw [capitals, small, List.map_append, hdigits]

/-- No small letter follows the letters of a word in capitals. -/
theorem isLower_behind_letters (word : NameWord) (hrest : ∀ d ∈ rest.head?, d = '_') :
    ∀ d ∈ (word.digits ++ rest).head?, Text.isLower d = false := by
  cases hlist : word.digits with
  | nil =>
    intro d hd
    rw [hrest d hd]
    decide
  | cons d digits =>
    have hdigit : d.isDigit = true := word.isDigit d (hlist ▸ List.mem_cons_self)
    exact forall_mem_head?_cons.mpr (isUpper_of_isDigit hdigit).2

/-- A word in capitals ends in front of an underscore. -/
theorem splitChars_capitals (word : NameWord) (hrest : ∀ d ∈ rest.head?, d = '_') :
    Identifier.splitChars [] (word.capitals ++ rest) =
      word.capitals :: Identifier.splitChars [] rest := by
  have hlength := word.two_le_length
  obtain ⟨c, others, hletters⟩ := List.exists_cons_of_length_pos (by omega : 0 < word.letters.length)
  have hcapitals : ∀ d ∈ word.letters, d.toUpper.isUpper = true := fun d hd =>
    isUpper_toUpper (word.isLower d hd)
  rw [hletters, List.forall_mem_cons] at hcapitals
  have hdigits : ∀ d ∈ word.digits, isAlphanumeric d = true ∧ Text.isUpper d = false := fun d hd =>
    @keeps_of_mem_small word d (List.mem_append_right _ hd)
  have hword : word.capitals = c.toUpper :: (others.map Char.toUpper ++ word.digits) := by
    rw [capitals_eq, hletters, List.map_cons, List.cons_append]
  have hback : word.digits.reverse ++ ((others.map Char.toUpper).reverse ++ [c.toUpper]) =
      word.capitals.reverse := by
    simp [hword]
  -- The first letter starts the word, the other capitals and then the digits go on with it.
  calc
    Identifier.splitChars [] (word.capitals ++ rest)
        = Identifier.splitChars [c.toUpper]
            (others.map Char.toUpper ++ (word.digits ++ rest)) := by
          rw [hword, List.cons_append, Identifier.splitChars_nil_cons,
            if_pos (isAlphanumeric_of_isAlphanum (isAlphanum_of_isUpper hcapitals.1)),
            List.append_assoc]
    _ = Identifier.splitChars word.capitals.reverse rest := by
          rw [Identifier.splitChars_capitals hcapitals.1 (List.forall_mem_map.mpr hcapitals.2)
            (word.isLower_behind_letters hrest), Identifier.splitChars_keep (by simp) hdigits, hback]
    _ = word.capitals :: Identifier.splitChars [] rest := by
          apply Identifier.splitChars_finish (by simp [hword])
          intro d hd
          rw [hrest d hd]
          exact .inl (by decide)

/-- A word with a capital at its start shows where it starts. -/
theorem behind_capitalized (word : NameWord) (rest : List Char) :
    ∀ d ∈ (word.capitalized ++ rest).head?, d.isUpper = true := by
  obtain ⟨c, d, others, hsmall, hc⟩ := word.exists_small
  rw [capitalized, hsmall, List.modifyHead_cons, List.cons_append]
  exact forall_mem_head?_cons.mpr (isUpper_toUpper hc)

/-! ### The case of letters -/

theorem toLower_of_mem_small (hc : c ∈ word.small) : c.toLower = c ∧ c.toUpper.toLower = c :=
  of_isAscii (p := fun c => c.isLower = true ∨ c.isDigit = true →
      c.toLower = c ∧ c.toUpper.toLower = c) (by decide)
    (isAscii_of_isAlphanum (isAlphanum_of_mem_small hc)) (mem_small hc)

theorem map_toLower_small (word : NameWord) : word.small.map Char.toLower = word.small :=
  (List.map_congr_left fun _ hc => (toLower_of_mem_small hc).1).trans (List.map_id' _)

theorem map_toLower_capitals (word : NameWord) : word.capitals.map Char.toLower = word.small := by
  rw [capitals, List.map_map]
  exact (List.map_congr_left fun _ hc => (toLower_of_mem_small hc).2).trans (List.map_id' _)

theorem map_toLower_capitalized (word : NameWord) :
    word.capitalized.map Char.toLower = word.small := by
  obtain ⟨c, d, others, hsmall, -⟩ := word.exists_small
  have hfirst : c ∈ word.small := hsmall ▸ List.mem_cons_self
  have hall := word.map_toLower_small
  rw [hsmall, List.map_cons] at hall
  rw [capitalized, hsmall, List.modifyHead_cons, List.map_cons, (toLower_of_mem_small hfirst).2,
    (List.cons.inj hall).2]

end NameWord

namespace Convention

/-- What may stand behind a word. -/
def Behind (convention : Convention) (rest : List Char) : Prop :=
  match convention with
  | snake | upperSnake => ∀ c ∈ rest.head?, c = '_'
  | pascal | camel => ∀ c ∈ rest.head?, c.isUpper = true

theorem behind_nil (convention : Convention) : convention.Behind [] := by
  cases convention with
  | snake | upperSnake | pascal | camel =>
    intro c hc
    cases hc

theorem splitChars_piece {convention : Convention} {list : List NameWord} {piece : List Char}
    (hpiece : piece ∈ convention.pieces list) {rest : List Char}
    (hrest : convention.Behind rest) :
    Identifier.splitChars [] (piece ++ rest) = piece :: Identifier.splitChars [] rest := by
  cases convention with
  | snake =>
    obtain ⟨word, -, rfl⟩ := List.mem_map.mp hpiece
    exact word.splitChars_small fun c hc => .inl (hrest c hc)
  | upperSnake =>
    obtain ⟨word, -, rfl⟩ := List.mem_map.mp hpiece
    exact word.splitChars_capitals hrest
  | pascal =>
    obtain ⟨word, -, rfl⟩ := List.mem_map.mp hpiece
    exact word.splitChars_capitalized fun c hc => .inr (hrest c hc)
  | camel =>
    cases list with
    | nil => cases hpiece
    | cons first others =>
      rcases List.mem_cons.mp hpiece with rfl | hmem
      · exact first.splitChars_small fun c hc => .inr (hrest c hc)
      · obtain ⟨word, -, rfl⟩ := List.mem_map.mp hmem
        exact word.splitChars_capitalized fun c hc => .inr (hrest c hc)

/-- Up to the case of letters, the words are written alike in all conventions. -/
theorem map_toLower_pieces (convention : Convention) (list : List NameWord) :
    (convention.pieces list).map (List.map Char.toLower) = list.map NameWord.small := by
  have hsmall : List.map Char.toLower ∘ NameWord.small = NameWord.small :=
    funext NameWord.map_toLower_small
  have hcapitals : List.map Char.toLower ∘ NameWord.capitals = NameWord.small :=
    funext NameWord.map_toLower_capitals
  have hcapitalized : List.map Char.toLower ∘ NameWord.capitalized = NameWord.small :=
    funext NameWord.map_toLower_capitalized
  cases convention with
  | snake => rw [pieces, List.map_map, hsmall]
  | upperSnake => rw [pieces, List.map_map, hcapitals]
  | pascal => rw [pieces, List.map_map, hcapitalized]
  | camel =>
    cases list with
    | nil => rfl
    | cons first others =>
      rw [pieces, List.map_cons, List.map_cons, List.map_map, hcapitalized,
        first.map_toLower_small]

/-- The words of a name are those that it was made of. -/
theorem words_name (convention : Convention) (ats : Nat) (list : List NameWord) :
    Identifier.words (convention.name ats list) =
      (convention.pieces list).map String.ofList := by
  have hats : ∀ c ∈ List.replicate ats '@', isAlphanumeric c = false := by
    intro c hc
    rw [List.eq_of_mem_replicate hc]
    decide
  rw [Identifier.words, name, String.toList_ofList, Identifier.splitChars_marks hats]
  congr 1
  cases hpieces : convention.pieces list with
  | nil => rfl
  | cons first others =>
    -- Where nothing separates two words, the second one is known by its capital.
    have hseparator : ∀ c ∈ convention.separator, isAlphanumeric c = false := by
      cases convention with
      | snake | upperSnake => exact List.forall_mem_singleton.mpr (by decide)
      | pascal | camel => exact List.forall_mem_nil _
    apply Identifier.splitChars_intercalate hseparator convention.Behind
    · exact convention.behind_nil
    · intro piece hpiece rest hrest
      exact splitChars_piece (hpieces ▸ hpiece) hrest
    · intro piece hpiece rest
      cases convention with
      | snake | upperSnake => exact forall_mem_head?_cons.mpr rfl
      | pascal =>
        have hmem : piece ∈ pascal.pieces list := hpieces ▸ List.mem_cons_of_mem first hpiece
        obtain ⟨word, -, rfl⟩ := List.mem_map.mp hmem
        exact word.behind_capitalized rest
      | camel =>
        cases list with
        | nil => cases hpieces
        | cons word list =>
          obtain ⟨-, rfl⟩ := List.cons.inj hpieces
          obtain ⟨word, -, rfl⟩ := List.mem_map.mp hpiece
          exact word.behind_capitalized rest

theorem sameWords_name (list : List NameWord) (a b : Convention) (m n : Nat) :
    Identifier.SameWords (Identifier.words (a.name m list)) (Identifier.words (b.name n list)) := by
  -- Both lists of words become the words in small letters.
  have hsame := (a.map_toLower_pieces list).trans (b.map_toLower_pieces list).symm
  rw [← List.forall₂_eq_eq_eq, List.forall₂_map_left_iff, List.forall₂_map_right_iff] at hsame
  rw [words_name, words_name, Identifier.SameWords, List.forall₂_map_left_iff,
    List.forall₂_map_right_iff]
  exact hsame.imp fun v w hvw => by simpa [sameIgnoringCase] using hvw

theorem isAscii_of_mem_pieces {convention : Convention} {list : List NameWord} {piece : List Char}
    (hpiece : piece ∈ convention.pieces list) : ∀ c ∈ piece, isAscii c = true := by
  intro c hc
  have hmem : piece.map Char.toLower ∈ list.map NameWord.small := by
    rw [← convention.map_toLower_pieces list]
    exact List.mem_map_of_mem hpiece
  obtain ⟨word, -, hword⟩ := List.mem_map.mp hmem
  have hlower : c.toLower ∈ word.small := by
    rw [hword]
    exact List.mem_map_of_mem hc
  exact isAscii_of_isAscii_toLower (isAscii_of_isAlphanum (NameWord.isAlphanum_of_mem_small hlower))

/-- However the words of a name are written, they are found again up to the case of their letters,
and the Go names that come from them are the same. -/
theorem conventions_agree (list : List NameWord) (a b : Convention) (m n : Nat) :
    (Identifier.words (a.name m list)).map toLower =
        list.map (fun word => String.ofList word.small) ∧
      Identifier.camelCase (a.name m list) = Identifier.camelCase (b.name n list) ∧
      Identifier.pascalCase (a.name m list) = Identifier.pascalCase (b.name n list) ∧
      Identifier.fieldName (a.name m list) = Identifier.fieldName (b.name n list) := by
  have hsame := sameWords_name list a b m n
  refine ⟨?_, Identifier.camelCase_congr hsame, Identifier.pascalCase_congr hsame,
    Identifier.fieldName_congr hsame⟩
  have hlower : ∀ piece ∈ a.pieces list,
      toLower (String.ofList piece) = String.ofList (piece.map Char.toLower) := by
    intro piece hpiece
    have hascii := isAscii_of_mem_pieces hpiece
    rw [← String.toList_inj, toList_toLower_of_isAscii (by rwa [String.toList_ofList]),
      String.toList_ofList, String.toList_ofList]
  calc
    (Identifier.words (a.name m list)).map toLower
        = (a.pieces list).map fun piece => toLower (String.ofList piece) := by
          rw [words_name, List.map_map]
          rfl
    _ = ((a.pieces list).map (List.map Char.toLower)).map String.ofList := by
          rw [List.map_congr_left hlower, List.map_map]
          rfl
    _ = list.map fun word => String.ofList word.small := by
          rw [map_toLower_pieces, List.map_map]
          rfl

/-- The words of `@order2Id`. -/
def orderId : List NameWord :=
  [⟨"order".toList, "2".toList, by decide, List.all_eq_true.mp (by decide),
      List.all_eq_true.mp (by decide)⟩,
    ⟨"id".toList, [], by decide, List.all_eq_true.mp (by decide), nofun⟩]

/-- A digit ends a word in both spellings, and the initials of `id` stay together. -/
theorem order_id_spellings_agree :
    camel.name 1 orderId = "@order2Id" ∧ upperSnake.name 0 orderId = "ORDER2_ID" ∧
      (Identifier.words "@order2Id").map toLower = ["order2", "id"] ∧
      Identifier.camelCase "@order2Id" = Identifier.camelCase "ORDER2_ID" ∧
      Identifier.pascalCase "@order2Id" = Identifier.pascalCase "ORDER2_ID" ∧
      Identifier.fieldName "@order2Id" = Identifier.fieldName "ORDER2_ID" :=
  ⟨rfl, rfl, conventions_agree orderId camel upperSnake 1 0⟩

end Convention

end Sproc
