import Mathlib.Data.List.TakeWhile
import Sproc.Proofs.Text.Characters
import Sproc.TypeName

/-!
# The grammar of type names

A type name is read in one pass. The readers are tried in a fixed order, each takes as many
characters as it can, and what has been read of a name is not read again in another way. The grammar
knows nothing of this: it says of which pieces a type name is made and what they stand for.

Both agree on all texts. A piece that is read ends where the grammar lets it end, since the
character behind it cannot be part of it. And the two names of two words come to be tried first, but
this hides no other reading: behind a first word that is a base of its own, no second word follows.

## Main definitions

* `TypeName.Part`, `TypeName.Base`, `TypeName.Arg`, `TypeName.ArgList`: the pieces of a type name
* `TypeName.Grammar`: the texts that are type names

## Main results

* `TypeName.Base.base?_append`: a base is read as a whole
* `TypeName.ArgList.read_append`, `TypeName.ArgList.of_moreArgs`: lists of arguments
* `TypeName.read?_eq_some_iff`
* `TypeName.parse_follows_grammar`
-/

namespace Sproc.TypeName

open Text

/-! ## The grammar -/

/-- Blanks, if there are any. -/
def Blanks (cs : List Char) : Prop :=
  ∀ c ∈ cs, isSpace c = true

/-- A word is not empty. -/
def IsWord (cs : List Char) : Prop :=
  cs ≠ [] ∧ ∀ c ∈ cs, isWordChar c = true

/-- A part of a name: a word, which may stand in brackets. -/
inductive Part : List Char → List Char → Prop
  | plain {word : List Char} (h : IsWord word) : Part word word
  | bracketed {word : List Char} (h : IsWord word) : Part ('[' :: (word ++ [']'])) word

/-- A qualifier is a part in front of a dot. -/
inductive Qualifier : List Char → Prop
  | none : Qualifier []
  | part {cs word : List Char} (h : Part cs word) : Qualifier (cs ++ ['.'])

/-- The letters of a keyword, in any case. -/
def Spells (keyword : String) (cs : List Char) : Prop :=
  cs.map Char.toLower = keyword.toList

/-- Two keywords with blanks between them. -/
def SpellsPair (first second : String) (cs : List Char) : Prop :=
  ∃ front blanks back, cs = front ++ (blanks ++ back) ∧ Spells first front ∧ blanks ≠ [] ∧
    Blanks blanks ∧ Spells second back

/-- The base of a type name, and the name that it stands for. -/
inductive Base : List Char → String → Prop
  | float {cs : List Char} (h : SpellsPair "double" "precision" cs) : Base cs "FLOAT"
  | varchar {cs : List Char} (h : SpellsPair "character" "varying" cs) : Base cs "VARCHAR"
  | part {cs word : List Char} (h : Part cs word) : Base cs (toUpper (String.ofList word))

/-- An argument: `max`, or a number of at most 32 bits. -/
inductive Arg : List Char → TypeArg → Prop
  | max {cs : List Char} (h : Spells "max" cs) : Arg cs .max
  | size {digits : List Char} (hne : digits ≠ []) (hdigits : ∀ c ∈ digits, c.isDigit = true)
    (hsize : decimalValue digits ≤ 4294967295) : Arg digits (.size (decimalValue digits))

/-- Arguments with commas between them and blanks around them. -/
inductive ArgList : List Char → List TypeArg → Prop
  | last {before cs after : List Char} {arg : TypeArg} (hbefore : Blanks before) (harg : Arg cs arg)
    (hafter : Blanks after) : ArgList (before ++ (cs ++ after)) [arg]
  | cons {before cs after rest : List Char} {arg : TypeArg} {args : List TypeArg}
    (hbefore : Blanks before) (harg : Arg cs arg) (hafter : Blanks after)
    (hrest : ArgList rest args) : ArgList (before ++ (cs ++ (after ++ ',' :: rest))) (arg :: args)

/-- What may stand behind the base: arguments in parentheses. -/
inductive Arguments : List Char → List TypeArg → Prop
  | none : Arguments [] []
  | list {blanks cs : List Char} {args : List TypeArg} (hblanks : Blanks blanks)
    (h : ArgList cs args) : Arguments (blanks ++ '(' :: (cs ++ [')'])) args

/-- The texts that are type names, and what they stand for. -/
inductive Grammar : List Char → TypeName → Prop
  | intro {leading qualifier base arguments trailing : List Char} {name : String}
    {args : List TypeArg} (hleading : Blanks leading) (hqualifier : Qualifier qualifier)
    (hbase : Base base name) (harguments : Arguments arguments args) (htrailing : Blanks trailing) :
    Grammar (leading ++ (qualifier ++ (base ++ (arguments ++ trailing)))) ⟨name, args⟩

/-! ## Characters -/

variable {cs front rest word : List Char} {c : Char}

theorem isWordChar_of_isSpace (h : isSpace c = true) : isWordChar c = false := by
  simp only [isSpace, Bool.or_eq_true, beq_iff_eq] at h
  rcases h with ((rfl | rfl) | rfl) | rfl <;> decide

theorem isWordChar_of_isAlphanum (h : c.isAlphanum = true) : isWordChar c = true := by
  rw [isWordChar, isAlphanumeric_of_isAlphanum h, Bool.true_or]

theorem isSpace_of_isWordChar (h : isWordChar c = true) : isSpace c = false := by
  by_contra hspace
  rw [isWordChar_of_isSpace (Bool.not_eq_false _ ▸ hspace)] at h
  cases h

/-! ## Runs of characters -/

theorem IsWord.head_append (h : IsWord word) (rest : List Char) :
    ∀ c ∈ (word ++ rest).head?, isSpace c = false :=
  forall_mem_head?_append h.1 (fun c hc => isSpace_of_isWordChar (h.2 c hc)) rest

theorem exists_blanks (cs : List Char) : ∃ blanks, Blanks blanks ∧ cs = blanks ++ skipSpace cs :=
  ⟨cs.takeWhile isSpace, (span_spec isSpace cs).1, List.takeWhile_append_dropWhile.symm⟩

/-- Blanks are skipped, up to a character that is none. -/
theorem skipSpace_append {blanks : List Char} (h : Blanks blanks)
    (hrest : ∀ c ∈ rest.head?, isSpace c = false) : skipSpace (blanks ++ rest) = rest :=
  (span_append h hrest).2

theorem skipSpace_eq_nil_iff : skipSpace cs = [] ↔ Blanks cs :=
  List.dropWhile_eq_nil_iff

/-! ## Parts -/

theorem word?_eq_some_iff : word? cs = some (word, rest) ↔
    cs = word ++ rest ∧ IsWord word ∧ ∀ c ∈ rest.head?, isWordChar c = false := by
  rw [word?]
  constructor
  · intro h
    split at h
    next => cases h
    next hne =>
      obtain ⟨rfl, rfl⟩ := Prod.mk.inj (Option.some.inj h)
      obtain ⟨hword, hrest⟩ := span_spec isWordChar cs
      exact ⟨List.takeWhile_append_dropWhile.symm, ⟨by simpa using hne, hword⟩, hrest⟩
  · rintro ⟨rfl, ⟨hne, hword⟩, hrest⟩
    obtain ⟨htake, hdrop⟩ := span_append hword hrest
    rw [htake, hdrop, if_neg (by simpa using hne)]

theorem bracketed?_eq_some_iff : bracketed? cs = some (word, rest) ↔
    cs = '[' :: (word ++ ']' :: rest) ∧ IsWord word := by
  constructor
  · intro h
    rw [bracketed?.eq_def] at h
    split at h
    next =>
      split at h
      next hread =>
        obtain ⟨rfl, rfl⟩ := Prod.mk.inj (Option.some.inj h)
        obtain ⟨rfl, hword, -⟩ := word?_eq_some_iff.mp hread
        exact ⟨rfl, hword⟩
      next => cases h
    next => cases h
  · rintro ⟨rfl, hword⟩
    have hend : ∀ c ∈ (']' :: rest).head?, isWordChar c = false :=
      forall_mem_head?_cons.mpr (by decide)
    rw [bracketed?, word?_eq_some_iff.mpr ⟨rfl, hword, hend⟩]
    rfl

theorem Part.of_part? (h : part? cs = some (word, rest)) :
    ∃ front, cs = front ++ rest ∧ Part front word := by
  rcases Option.or_eq_some_iff.mp h with hread | ⟨-, hread⟩
  · obtain ⟨rfl, hword⟩ := bracketed?_eq_some_iff.mp hread
    exact ⟨_, by simp, .bracketed hword⟩
  · obtain ⟨rfl, hword, -⟩ := word?_eq_some_iff.mp hread
    exact ⟨word, rfl, .plain hword⟩

theorem Part.part?_append (h : Part front word) (hrest : ∀ c ∈ rest.head?, isWordChar c = false) :
    part? (front ++ rest) = some (word, rest) := by
  rw [part?, Option.or_eq_some_iff]
  cases h with
  | plain hword =>
    refine .inr ⟨?_, word?_eq_some_iff.mpr ⟨rfl, hword, hrest⟩⟩
    cases hread : bracketed? (front ++ rest) with
    | none => rfl
    | some read =>
      -- A word does not start with a bracket.
      obtain ⟨htext, -⟩ := bracketed?_eq_some_iff.mp hread
      obtain ⟨c, others, rfl⟩ := List.exists_cons_of_ne_nil hword.1
      obtain ⟨rfl, -⟩ := List.cons.inj htext
      exact absurd (hword.2 '[' List.mem_cons_self) (by decide)
  | bracketed hword => exact .inl (bracketed?_eq_some_iff.mpr ⟨by simp, hword⟩)

/-! ## Keywords -/

/-- A list of letters that is not empty. -/
def Letters (cs : List Char) : Prop :=
  cs ≠ [] ∧ ∀ c ∈ cs, c.isAlpha = true

instance (cs : List Char) : Decidable (Letters cs) :=
  decidable_of_iff (cs ≠ [] ∧ cs.all Char.isAlpha = true) (and_congr_right' List.all_eq_true)

theorem Letters.isWord (h : Letters cs) : IsWord cs :=
  ⟨h.1, fun c hc => isWordChar_of_isAlphanum (by simp [Char.isAlphanum, h.2 c hc])⟩

variable {keyword first second : String}

theorem Spells.letters (h : Spells keyword cs) (hkeyword : Letters keyword.toList) :
    Letters cs := by
  rw [← h] at hkeyword
  refine ⟨fun hnil => hkeyword.1 (by rw [hnil, List.map_nil]), fun c hc => ?_⟩
  have hletter := hkeyword.2 c.toLower (List.mem_map_of_mem hc)
  rw [isAlpha_iff, toNat_toLower] at hletter
  rw [isAlpha_iff]
  split at hletter <;> omega

theorem keyword?_eq_some_iff {letters : List Char} : keyword? letters cs = some rest ↔
    ∃ front, cs = front ++ rest ∧ front.map Char.toLower = letters := by
  induction letters generalizing cs with
  | nil => simp [keyword?, List.map_eq_nil_iff]
  | cons letter letters ih =>
    cases cs with
    | nil => simp [keyword?]
    | cons c cs =>
      rw [keyword?]
      split
      next hsame =>
        rw [ih]
        constructor
        · rintro ⟨front, rfl, hfront⟩
          exact ⟨c :: front, rfl, by rw [List.map_cons, hsame, hfront]⟩
        · rintro ⟨front, htext, hfront⟩
          cases front with
          | nil => cases hfront
          | cons d front =>
            obtain ⟨rfl, rfl⟩ := List.cons.inj htext
            exact ⟨front, rfl, (List.cons.inj hfront).2⟩
      next hother =>
        refine iff_of_false nofun ?_
        rintro ⟨front, htext, hfront⟩
        cases front with
        | nil => cases hfront
        | cons d front =>
          obtain ⟨rfl, rfl⟩ := List.cons.inj htext
          exact hother (List.cons.inj hfront).1

/-- A keyword is not there when its first letter is not. -/
theorem keyword?_eq_none {letter : Char} {letters : List Char}
    (h : ∀ c ∈ cs.head?, c.toLower ≠ letter) : keyword? (letter :: letters) cs = none := by
  cases cs with
  | nil => rfl
  | cons c cs => exact if_neg (h c rfl)

theorem SpellsPair.of_keywordPair? (h : keywordPair? first second cs = some rest) :
    ∃ front, cs = front ++ rest ∧ SpellsPair first second front := by
  rw [keywordPair?] at h
  split at h
  next c behind hfirst =>
    obtain ⟨front, rfl, hfront⟩ := keyword?_eq_some_iff.mp hfirst
    split at h
    next hspace =>
      obtain ⟨back, hback, hsecond⟩ := keyword?_eq_some_iff.mp h
      obtain ⟨blanks, hblanks, hsplit⟩ := exists_blanks behind
      refine ⟨front ++ (c :: blanks ++ back), ?_, front, c :: blanks, back, rfl, hfront,
        List.cons_ne_nil _ _, List.forall_mem_cons.mpr ⟨hspace, hblanks⟩, hsecond⟩
      rw [hsplit, hback]
      simp
    next => cases h
  next => cases h

/-- Two keywords are two words. -/
theorem SpellsPair.exists_words (h : SpellsPair first second cs) (hfirst : Letters first.toList)
    (hsecond : Letters second.toList) :
    ∃ front blanks back, cs = front ++ (blanks ++ back) ∧ IsWord front ∧ blanks ≠ [] ∧
      Blanks blanks ∧ IsWord back := by
  obtain ⟨front, blanks, back, rfl, hfront, hne, hblanks, hback⟩ := h
  exact ⟨front, blanks, back, rfl, (hfront.letters hfirst).isWord, hne, hblanks,
    (hback.letters hsecond).isWord⟩

theorem SpellsPair.keywordPair?_append (h : SpellsPair first second cs)
    (hsecond : Letters second.toList) (rest : List Char) :
    keywordPair? first second (cs ++ rest) = some rest := by
  obtain ⟨front, blanks, back, rfl, hfront, hne, hblanks, hback⟩ := h
  obtain ⟨c, blanks, rfl⟩ := List.exists_cons_of_ne_nil hne
  obtain ⟨hspace, hblanks⟩ := List.forall_mem_cons.mp hblanks
  -- The second keyword starts with a letter, so the blanks end in front of it.
  have hskip : skipSpace (blanks ++ (back ++ rest)) = back ++ rest :=
    skipSpace_append hblanks ((hback.letters hsecond).isWord.head_append rest)
  have hread : keyword? first.toList (front ++ (c :: blanks ++ back) ++ rest) =
      some (c :: (blanks ++ (back ++ rest))) :=
    keyword?_eq_some_iff.mpr ⟨front, by simp, hfront⟩
  rw [keywordPair?, hread]
  dsimp only
  rw [if_pos hspace, hskip]
  exact keyword?_eq_some_iff.mpr ⟨back, rfl, hback⟩

/-! ## The base -/

/-- What may stand behind a base: blanks, and then arguments or the end. -/
def Closing (rest : List Char) : Prop :=
  ∀ c ∈ (skipSpace rest).head?, c = '('

theorem Closing.head (h : Closing rest) : ∀ c ∈ rest.head?, isSpace c = true ∨ c = '(' := by
  intro c hc
  cases hspace : isSpace c with
  | true => exact .inl rfl
  | false =>
    obtain ⟨others, rfl⟩ := List.head?_eq_some_iff.mp hc
    have hnone : Blanks [] := List.forall_mem_nil _
    have hstay : skipSpace (c :: others) = c :: others :=
      skipSpace_append hnone (forall_mem_head?_cons.mpr hspace)
    exact .inr (h c (by rw [hstay]; rfl))

theorem Closing.isWordChar (h : Closing rest) : ∀ c ∈ rest.head?, isWordChar c = false := by
  intro c hc
  rcases h.head c hc with hspace | rfl
  · exact isWordChar_of_isSpace hspace
  · decide

theorem Closing.ne_dot (h : Closing rest) : ∀ c ∈ rest.head?, c ≠ '.' := by
  intro c hc
  rcases h.head c hc with hspace | rfl
  · rintro rfl
    exact absurd hspace (by decide)
  · decide

/-- A base starts with a part, behind which it ends or has a blank. -/
theorem Base.exists_part {name : String} (h : Base cs name) :
    ∃ front word behind, cs = front ++ behind ∧ Part front word ∧
      ∀ c ∈ behind.head?, isSpace c = true := by
  cases h with
  | float h =>
    obtain ⟨front, blanks, back, rfl, hfront, hne, hblanks, -⟩ :=
      h.exists_words (by decide) (by decide)
    exact ⟨front, front, blanks ++ back, rfl, .plain hfront, forall_mem_head?_append hne hblanks back⟩
  | varchar h =>
    obtain ⟨front, blanks, back, rfl, hfront, hne, hblanks, -⟩ :=
      h.exists_words (by decide) (by decide)
    exact ⟨front, front, blanks ++ back, rfl, .plain hfront, forall_mem_head?_append hne hblanks back⟩
  | part h => exact ⟨cs, _, [], by simp, h, nofun⟩

/-- A part is the first word of no name of two words, when no second word follows. -/
theorem Part.keywordPair?_append (h : Part cs word) (hrest : Closing rest)
    (hfirst : Letters first.toList) (hsecond : Letters second.toList) :
    keywordPair? first second (cs ++ rest) = none := by
  cases hread : keywordPair? first second (cs ++ rest) with
  | none => rfl
  | some after =>
    exfalso
    obtain ⟨pair, htext, hpair⟩ := SpellsPair.of_keywordPair? hread
    obtain ⟨front, blanks, back, rfl, hfront, hne, hblanks, hback⟩ :=
      hpair.exists_words hfirst hsecond
    have hbehind : ∀ c ∈ (blanks ++ (back ++ after)).head?, isWordChar c = false :=
      forall_mem_head?_append hne (fun c hc => isWordChar_of_isSpace (hblanks c hc)) _
    -- Both the part and the first keyword are the word at the front of the text.
    have hpart : part? (cs ++ rest) = some (front, blanks ++ (back ++ after)) := by
      rw [htext, List.append_assoc, List.append_assoc]
      exact (Part.plain hfront).part?_append hbehind
    obtain ⟨-, rfl⟩ := Prod.mk.inj
      (Option.some.inj ((h.part?_append hrest.isWordChar).symm.trans hpart))
    -- So the second keyword stands where a parenthesis has to.
    rw [Closing, skipSpace_append hblanks (hback.head_append after)] at hrest
    obtain ⟨d, back, rfl⟩ := List.exists_cons_of_ne_nil hback.1
    obtain rfl := hrest d rfl
    exact absurd (hback.2 '(' List.mem_cons_self) (by decide)

theorem Base.of_base? {name : String} (h : base? cs = some (name, rest)) :
    ∃ front, cs = front ++ rest ∧ Base front name := by
  rw [base?] at h
  split at h
  next hread =>
    obtain ⟨rfl, rfl⟩ := Prod.mk.inj (Option.some.inj h)
    obtain ⟨front, htext, hpair⟩ := SpellsPair.of_keywordPair? hread
    exact ⟨front, htext, .float hpair⟩
  next =>
    split at h
    next hread =>
      obtain ⟨rfl, rfl⟩ := Prod.mk.inj (Option.some.inj h)
      obtain ⟨front, htext, hpair⟩ := SpellsPair.of_keywordPair? hread
      exact ⟨front, htext, .varchar hpair⟩
    next =>
      obtain ⟨⟨word, behind⟩, hread, heq⟩ := Option.map_eq_some_iff.mp h
      obtain ⟨rfl, rfl⟩ := Prod.mk.inj heq
      obtain ⟨front, htext, hpart⟩ := Part.of_part? hread
      exact ⟨front, htext, .part hpart⟩

/-- A base is read as a whole. The readers in front of the one for it do not take it. -/
theorem Base.base?_append {name : String} (h : Base cs name) (hrest : Closing rest) :
    base? (cs ++ rest) = some (name, rest) := by
  rw [base?]
  cases h with
  | float h => rw [h.keywordPair?_append (by decide)]
  | varchar h =>
    have hother : keyword? "double".toList (cs ++ rest) = none := by
      apply keyword?_eq_none
      obtain ⟨front, behind, -, rfl, hfront, -⟩ := h
      cases front with
      | nil => cases hfront
      | cons c front =>
        refine forall_mem_head?_cons.mpr ?_
        rw [(List.cons.inj hfront).1]
        decide
    rw [h.keywordPair?_append (by decide), keywordPair?, hother]
  | part h =>
    rw [h.keywordPair?_append hrest (by decide) (by decide),
      h.keywordPair?_append hrest (by decide) (by decide), h.part?_append hrest.isWordChar]
    rfl

/-! ## The qualifier -/

theorem Qualifier.of_skipQualifier (cs : List Char) :
    ∃ front, cs = front ++ skipQualifier cs ∧ Qualifier front := by
  rw [skipQualifier]
  split
  next rest hread =>
    obtain ⟨front, rfl, hpart⟩ := Part.of_part? hread
    exact ⟨front ++ ['.'], by simp, .part hpart⟩
  next => exact ⟨[], rfl, .none⟩

theorem Part.head_append (h : Part front word) (rest : List Char) :
    ∀ c ∈ (front ++ rest).head?, isSpace c = false := by
  cases h with
  | plain hword => exact hword.head_append rest
  | bracketed => exact forall_mem_head?_cons.mpr (by decide)

/-- No blank stands in front of the qualifier or the base. -/
theorem Qualifier.head_append (h : Qualifier front) {name : String} (hbase : Base cs name)
    (rest : List Char) : ∀ c ∈ (front ++ (cs ++ rest)).head?, isSpace c = false := by
  cases h with
  | none =>
    obtain ⟨part, word, behind, rfl, h, -⟩ := hbase.exists_part
    rw [List.nil_append, List.append_assoc]
    exact h.head_append _
  | part h =>
    rw [List.append_assoc]
    exact h.head_append _

/-- A qualifier is skipped, and nothing else: the part at the front of a base has no dot behind
it. -/
theorem Qualifier.skipQualifier_append (h : Qualifier front) {name : String} (hbase : Base cs name)
    (hrest : Closing rest) : skipQualifier (front ++ (cs ++ rest)) = cs ++ rest := by
  rw [skipQualifier]
  cases h with
  | none =>
    obtain ⟨part, word, behind, rfl, hpart, hbehind⟩ := hbase.exists_part
    have hends : ∀ c ∈ (behind ++ rest).head?, isWordChar c = false ∧ c ≠ '.' := by
      cases behind with
      | nil => exact fun c hc => ⟨hrest.isWordChar c hc, hrest.ne_dot c hc⟩
      | cons d behind =>
        have hspace := hbehind d rfl
        refine forall_mem_head?_cons.mpr ⟨isWordChar_of_isSpace hspace, ?_⟩
        rintro rfl
        exact absurd hspace (by decide)
    have hread := hpart.part?_append fun c hc => (hends c hc).1
    rw [List.nil_append, List.append_assoc, hread]
    split
    next after heq =>
      obtain ⟨-, hdot⟩ := Prod.mk.inj (Option.some.inj heq)
      exact absurd rfl ((hends '.' (by rw [hdot]; rfl)).2)
    next => rfl
  | part hpart =>
    have hdot : ∀ c ∈ ('.' :: (cs ++ rest)).head?, isWordChar c = false :=
      forall_mem_head?_cons.mpr (by decide)
    rw [List.append_assoc, List.singleton_append, hpart.part?_append hdot]
    rfl

/-! ## Arguments -/

variable {arg : TypeArg} {args : List TypeArg}

theorem Arg.of_arg? (h : arg? cs = some (arg, rest)) :
    ∃ front, cs = front ++ rest ∧ Arg front arg := by
  rw [arg?] at h
  split at h
  next hread =>
    obtain ⟨rfl, rfl⟩ := Prod.mk.inj (Option.some.inj h)
    obtain ⟨front, htext, hmax⟩ := keyword?_eq_some_iff.mp hread
    exact ⟨front, htext, .max hmax⟩
  next =>
    dsimp only at h
    split at h
    next => cases h
    next hsize =>
      obtain ⟨rfl, rfl⟩ := Prod.mk.inj (Option.some.inj h)
      simp only [Bool.or_eq_true, List.isEmpty_iff, decide_eq_true_eq, not_or] at hsize
      exact ⟨_, List.takeWhile_append_dropWhile.symm,
        .size hsize.1 (span_spec Char.isDigit cs).1 (by omega)⟩

/-- An argument is a word. -/
theorem Arg.isWord (h : Arg cs arg) : IsWord cs := by
  cases h with
  | max h => exact (h.letters (by decide)).isWord
  | size hne hdigits =>
    exact ⟨hne, fun c hc => isWordChar_of_isAlphanum (isAlphanum_of_isDigit (hdigits c hc))⟩

theorem Arg.arg?_append (h : Arg cs arg) (hrest : ∀ c ∈ rest.head?, c.isDigit = false) :
    arg? (cs ++ rest) = some (arg, rest) := by
  rw [arg?]
  cases h with
  | max h =>
    have hread : keyword? ['m', 'a', 'x'] (cs ++ rest) = some rest :=
      keyword?_eq_some_iff.mpr ⟨cs, rfl, h⟩
    rw [hread]
  | size hne hdigits hsize =>
    have hother : keyword? ['m', 'a', 'x'] (cs ++ rest) = none := by
      refine keyword?_eq_none (forall_mem_head?_append hne (fun c hc => ?_) rest)
      exact of_isAscii (p := fun c => c.isDigit = true → c.toLower ≠ 'm') (by decide)
        (isAscii_of_isAlphanum (isAlphanum_of_isDigit (hdigits c hc))) (hdigits c hc)
    obtain ⟨htake, hdrop⟩ := span_append hdigits hrest
    rw [hother]
    dsimp only
    rw [htake, hdrop, if_neg]
    simp only [Bool.or_eq_true, List.isEmpty_iff, decide_eq_true_eq, not_or]
    exact ⟨hne, by omega⟩

/-- No digit stands behind an argument: what does is a blank or a mark. -/
theorem not_isDigit_append {blanks : List Char} (h : Blanks blanks) (hc : c.isDigit = false) :
    ∀ d ∈ (blanks ++ c :: rest).head?, d.isDigit = false := by
  cases blanks with
  | nil => exact forall_mem_head?_cons.mpr hc
  | cons b blanks =>
    refine forall_mem_head?_cons.mpr ?_
    have hspace := h b List.mem_cons_self
    simp only [isSpace, Bool.or_eq_true, beq_iff_eq] at hspace
    rcases hspace with ((rfl | rfl) | rfl) | rfl <;> decide

/-- The one argument that stands in front of the closing parenthesis. -/
theorem ArgList.of_arg? {behind : List Char} (harg : arg? (skipSpace cs) = some (arg, behind))
    (hclose : skipSpace behind = ')' :: rest) :
    ∃ list, cs = list ++ ')' :: rest ∧ ArgList list [arg] := by
  obtain ⟨before, hbefore, hcs⟩ := exists_blanks cs
  obtain ⟨after, hafter, hbehind⟩ := exists_blanks behind
  obtain ⟨front, hfront, hread⟩ := Arg.of_arg? harg
  refine ⟨before ++ (front ++ after), ?_, .last hbefore hread hafter⟩
  rw [hclose] at hbehind
  rw [hcs, hfront, hbehind]
  simp

/-- What is read between the parentheses is a list of arguments. -/
theorem ArgList.of_moreArgs {fuel : Nat} {behind after : List Char}
    (harg : arg? (skipSpace cs) = some (arg, behind)) (hmore : moreArgs fuel behind = (args, after))
    (hclose : skipSpace after = ')' :: rest) :
    ∃ list, cs = list ++ ')' :: rest ∧ ArgList list (arg :: args) := by
  -- Each round reads a further argument, for which the text behind the comma takes the place of the
  -- whole text. Without a further argument the last one is the one at hand.
  induction fuel generalizing cs arg behind args with
  | zero =>
    obtain ⟨rfl, rfl⟩ := Prod.mk.inj hmore
    exact ArgList.of_arg? harg hclose
  | succ fuel ih =>
    rw [moreArgs] at hmore
    split at hmore
    next next hcomma =>
      split at hmore
      next second behindSecond hsecond =>
        obtain ⟨rfl, hafter⟩ := Prod.mk.inj hmore
        obtain ⟨list, hnext, hlist⟩ := ih hsecond (Prod.ext rfl hafter)
        obtain ⟨before, hbefore, hcs⟩ := exists_blanks cs
        obtain ⟨blanks, hblanks, hbehind⟩ := exists_blanks behind
        obtain ⟨front, hfront, hread⟩ := Arg.of_arg? harg
        refine ⟨_, ?_, .cons hbefore hread hblanks hlist⟩
        rw [hcomma, hnext] at hbehind
        rw [hcs, hfront, hbehind]
        simp
      next =>
        obtain ⟨rfl, rfl⟩ := Prod.mk.inj hmore
        exact ArgList.of_arg? harg hclose
    next =>
      obtain ⟨rfl, rfl⟩ := Prod.mk.inj hmore
      exact ArgList.of_arg? harg hclose

theorem ArgList.length_le (h : ArgList cs args) : args.length ≤ cs.length := by
  induction h with
  | last _ harg _ =>
    have hlength := List.length_pos_of_ne_nil harg.isWord.1
    simp
    omega
  | cons _ _ _ _ ih =>
    simp
    omega

/-- The first argument of a list is found behind the blanks in front of it. -/
theorem Arg.arg?_skipSpace {before : List Char} (h : Arg cs arg) (hbefore : Blanks before)
    (hrest : ∀ c ∈ rest.head?, c.isDigit = false) :
    arg? (skipSpace (before ++ (cs ++ rest))) = some (arg, rest) := by
  rw [skipSpace_append hbefore (h.isWord.head_append rest)]
  exact h.arg?_append hrest

/-- A list of arguments is read up to its closing parenthesis, by as many rounds as it has further
arguments. -/
theorem ArgList.read_append (h : ArgList cs args) (rest : List Char) :
    ∃ first others behind, args = first :: others ∧ others.length ≤ behind.length ∧
      arg? (skipSpace (cs ++ ')' :: rest)) = some (first, behind) ∧
      ∀ fuel, others.length ≤ fuel → ∃ after, moreArgs fuel behind = (others, after) ∧
        skipSpace after = ')' :: rest := by
  induction h with
  | @last before cs after arg hbefore harg hafter =>
    have hclose : skipSpace (after ++ ')' :: rest) = ')' :: rest :=
      skipSpace_append hafter (forall_mem_head?_cons.mpr (by decide))
    refine ⟨arg, [], after ++ ')' :: rest, rfl, Nat.zero_le _, ?_, ?_⟩
    · rw [List.append_assoc, List.append_assoc]
      exact harg.arg?_skipSpace hbefore (not_isDigit_append hafter (by decide))
    · intro fuel _
      refine ⟨_, ?_, hclose⟩
      cases fuel with
      | zero => rfl
      | succ fuel =>
        rw [moreArgs, hclose]
        rfl
  | @cons before cs after list arg args hbefore harg hafter hlist ih =>
    obtain ⟨second, others, behind, rfl, -, hsecond, hmore⟩ := ih
    have hcomma : skipSpace (after ++ ',' :: (list ++ ')' :: rest)) =
        ',' :: (list ++ ')' :: rest) :=
      skipSpace_append hafter (forall_mem_head?_cons.mpr (by decide))
    refine ⟨arg, second :: others, after ++ ',' :: (list ++ ')' :: rest), rfl, ?_, ?_, ?_⟩
    · have hlength := hlist.length_le
      simp at hlength ⊢
      omega
    · have htext : before ++ (cs ++ (after ++ ',' :: list)) ++ ')' :: rest =
          before ++ (cs ++ (after ++ ',' :: (list ++ ')' :: rest))) := by
        simp
      rw [htext]
      exact harg.arg?_skipSpace hbefore (not_isDigit_append hafter (by decide))
    · intro fuel hfuel
      cases fuel with
      | zero => cases hfuel
      | succ fuel =>
        obtain ⟨last, hothers, hclose⟩ := hmore fuel (Nat.le_of_succ_le_succ hfuel)
        refine ⟨last, ?_, hclose⟩
        simp only [moreArgs, hcomma, hsecond, hothers]

theorem ArgList.of_args? (h : args? cs = some (args, rest)) :
    ∃ list, cs = '(' :: (list ++ ')' :: rest) ∧ ArgList list args := by
  rw [args?.eq_def] at h
  split at h
  next cs =>
    split at h
    next first behind hfirst =>
      dsimp only at h
      split at h
      next after hclose =>
        obtain ⟨rfl, rfl⟩ := Prod.mk.inj (Option.some.inj h)
        obtain ⟨list, rfl, hlist⟩ := ArgList.of_moreArgs hfirst rfl hclose
        exact ⟨list, rfl, hlist⟩
      next => cases h
    next => cases h
  next => cases h

theorem ArgList.args?_append (h : ArgList cs args) (rest : List Char) :
    args? ('(' :: (cs ++ ')' :: rest)) = some (args, rest) := by
  obtain ⟨first, others, behind, rfl, hlength, hfirst, hmore⟩ := h.read_append rest
  obtain ⟨after, hothers, hclose⟩ := hmore behind.length hlength
  rw [args?, hfirst]
  dsimp only
  rw [hothers]
  dsimp only
  rw [hclose]
  rfl

/-! ## Type names -/

theorem Arguments.closing (h : Arguments cs args) {trailing : List Char}
    (htrailing : Blanks trailing) : Closing (cs ++ trailing) := by
  intro c hc
  cases h with
  | none =>
    rw [List.nil_append, skipSpace_eq_nil_iff.mpr htrailing] at hc
    cases hc
  | list hblanks h =>
    rw [List.append_assoc, List.cons_append,
      skipSpace_append hblanks (forall_mem_head?_cons.mpr (by decide))] at hc
    exact (Option.some.inj hc).symm

theorem Grammar.of_read? {type : TypeName} (h : read? cs = some type) : Grammar cs type := by
  obtain ⟨leading, hleading, hcs⟩ := exists_blanks cs
  obtain ⟨qualifier, hskip, hqualifier⟩ := Qualifier.of_skipQualifier (skipSpace cs)
  rw [read?] at h
  split at h
  next => cases h
  next name behind hread =>
    obtain ⟨base, hbehind, hbase⟩ := Base.of_base? hread
    obtain ⟨blanks, hblanks, hsplit⟩ := exists_blanks behind
    -- Whether arguments are there or not, only blanks are left in the end.
    cases hargs : args? (skipSpace behind) with
    | none =>
      simp only [hargs, Option.getD_none, Option.ite_none_right_eq_some, List.isEmpty_iff] at h
      obtain ⟨hend, rfl⟩ := h.imp_right Option.some.inj
      have hgrammar := Grammar.intro hleading hqualifier hbase .none
        (skipSpace_eq_nil_iff.mp hend)
      rwa [List.nil_append, ← hbehind, ← hskip, ← hcs] at hgrammar
    | some read =>
      obtain ⟨list, hlist, hread⟩ := ArgList.of_args? hargs
      simp only [hargs, Option.getD_some, Option.ite_none_right_eq_some, List.isEmpty_iff] at h
      obtain ⟨hend, rfl⟩ := h.imp_right Option.some.inj
      have hgrammar := Grammar.intro hleading hqualifier hbase (.list hblanks hread)
        (skipSpace_eq_nil_iff.mp hend)
      have htext : blanks ++ '(' :: (list ++ [')']) ++ read.2 = behind := by
        rw [hlist] at hsplit
        rw [hsplit]
        simp
      rwa [htext, ← hbehind, ← hskip, ← hcs] at hgrammar

theorem Grammar.read?_eq {type : TypeName} (h : Grammar cs type) : read? cs = some type := by
  cases h with
  | @intro leading qualifier base arguments trailing name args hleading hqualifier hbase harguments
    htrailing =>
    have hclosing := harguments.closing htrailing
    rw [read?, skipSpace_append hleading (hqualifier.head_append hbase _),
      hqualifier.skipQualifier_append hbase hclosing, hbase.base?_append hclosing]
    dsimp only
    cases harguments with
    | none =>
      have hnone : args? [] = none := rfl
      rw [List.nil_append, skipSpace_eq_nil_iff.mpr htrailing, hnone, Option.getD_none,
        skipSpace_eq_nil_iff.mpr htrailing]
      rfl
    | @list blanks list _ hblanks h =>
      have hopen : skipSpace (blanks ++ '(' :: (list ++ [')']) ++ trailing) =
          '(' :: (list ++ ')' :: trailing) := by
        rw [List.append_assoc, List.cons_append,
          skipSpace_append hblanks (forall_mem_head?_cons.mpr (by decide))]
        simp
      rw [hopen, h.args?_append, Option.getD_some, skipSpace_eq_nil_iff.mpr htrailing]
      rfl

theorem read?_eq_some_iff {type : TypeName} : read? cs = some type ↔ Grammar cs type :=
  ⟨Grammar.of_read?, Grammar.read?_eq⟩

/-- Reading accepts exactly the type names, and gives what they stand for. Every other text is
reported as an unknown type, without the blanks around it. -/
theorem parse_follows_grammar (text : String) :
    (∀ type, parse text = .ok type ↔ Grammar text.toList type) ∧
      ∀ fault, parse text = .error fault ↔
        (∀ type, ¬Grammar text.toList type) ∧ fault = .unknownType (trim text) := by
  simp only [← read?_eq_some_iff, parse]
  cases hread : read? text.toList with
  | none => simp [eq_comm]
  | some type => simp

/-- Where the first word of a pair is a base, no second word may follow. -/
example : read? "double precise".toList = none :=
  rfl

end Sproc.TypeName
