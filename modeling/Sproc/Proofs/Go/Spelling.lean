import Sproc.Proofs.Go.Syntax

/-!
# How expressions are cut into tokens

The tokens of names, numbers, strings and of what is put together from them, whatever follows. What
can follow an operand is limited: behind a number no point may stand, which would belong to it.

## Main definitions

* `Go.Syntax.isNumeral`: a text is a number without a sign
* `Go.Syntax.Lexes`: a text is cut into tokens, whatever follows an operand

## Main results

* `lexes_name`, `lexes_numeral`, `lexes_digits`, `lexes_str`: atoms
* `Lexes.parens`, `Lexes.sign`, `Lexes.binary`, `Lexes.member`, `Lexes.call`: compound texts
-/

namespace Sproc.Go.Syntax

/-! ## Single tokens -/

/-- The token with more characters, if they all belong to it. -/
def Partial.pushAll (current : Partial) : List Char → Option Partial
  | [] => some current
  | c :: rest => (current.push? c).bind fun longer => longer.pushAll rest

theorem Partial.pushAll_append (current : Partial) (front back : List Char) :
    current.pushAll (front ++ back) = (current.pushAll front).bind fun longer => longer.pushAll back := by
  induction front generalizing current with
  | nil => rfl
  | cons c front ih =>
    rw [List.cons_append, pushAll, pushAll]
    cases current.push? c with
    | none => rfl
    | some longer => exact ih longer

/-- Whether a text is a number without a sign. -/
def isNumeral (s : String) : Bool :=
  match s.toList with
  | [] => false
  | c :: cs =>
    (c.isDigit || c == '.') &&
      ((Partial.start c).pushAll cs).bind Partial.finish? == some [.number s]

theorem lexFrom_pushAll {current longer : Partial} {cs : List Char}
    (h : current.pushAll cs = some longer) (rest : List Char) :
    lexFrom current (cs ++ rest) = lexFrom longer rest := by
  induction cs generalizing current with
  | nil =>
    obtain rfl := Option.some.inj h
    rfl
  | cons c cs ih =>
    obtain ⟨next, hnext, hlonger⟩ := Option.bind_eq_some_iff.mp h
    rw [List.cons_append, lexFrom, hnext]
    exact ih hlonger

theorem lex_cons (c : Char) (rest : List Char) : lex (c :: rest) = lexFrom (.start c) rest := by
  have hfront : lex (c :: rest) = (lexFrom (.start c) rest).bind fun back => some ([] ++ back) := rfl
  rw [hfront]
  cases lexFrom (.start c) rest <;> rfl

theorem lex_nil : lex [] = some [] := rfl

theorem lex_space (rest : List Char) : lex (' ' :: rest) = lex rest :=
  lex_cons ' ' rest

/-- A token ends where the next character does not belong to it. -/
theorem lexFrom_finish {current : Partial} {ts : List Token} {rest : List Char}
    (hrest : ∀ c ∈ rest.head?, current.push? c = none) (hfinish : current.finish? = some ts) :
    lexFrom current rest = (lex rest).map (ts ++ ·) := by
  cases rest with
  | nil =>
    rw [lexFrom, hfinish, lex_nil, Option.map_some, List.append_nil]
  | cons c rest =>
    rw [lexFrom, hrest c rfl, hfinish, lex_cons]
    cases lexFrom (.start c) rest <;> rfl

/-- A bracket, a comma or a semicolon is a token of its own. -/
theorem lex_mark {c : Char} (hc : c ∈ ['(', ')', '[', ']', '\x7b', '\x7d', ',', ';'])
    (rest : List Char) : lex (c :: rest) = (lex rest).map (.mark c :: ·) := by
  have hpush (d : Char) : (Partial.symbol [c]).push? d = none := by
    simp only [List.mem_cons, List.not_mem_nil, or_false] at hc
    rcases hc with rfl | rfl | rfl | rfl | rfl | rfl | rfl | rfl <;>
      simp [Partial.push?, isOperator, operators]
  have hfinish : (Partial.symbol [c]).finish? = some [.mark c] := by
    simp only [List.mem_cons, List.not_mem_nil, or_false] at hc
    rcases hc with rfl | rfl | rfl | rfl | rfl | rfl | rfl | rfl <;> rfl
  have hstart : Partial.start c = .symbol [c] := by
    simp only [List.mem_cons, List.not_mem_nil, or_false] at hc
    rcases hc with rfl | rfl | rfl | rfl | rfl | rfl | rfl | rfl <;> rfl
  rw [lex_cons, hstart]
  exact lexFrom_finish (fun d _ => hpush d) hfinish

/-- A point in front of something that is no digit. -/
theorem lex_point {rest : List Char} (hrest : ∀ c ∈ rest.head?, c.isDigit = false) :
    lex ('.' :: rest) = (lex rest).map (.mark '.' :: ·) := by
  have hstart : Partial.start '.' = .symbol ['.'] := rfl
  have hfinish : (Partial.symbol ['.']).finish? = some [.mark '.'] := rfl
  rw [lex_cons, hstart]
  refine lexFrom_finish (fun d hd => ?_) hfinish
  simp [Partial.push?, isOperator, operators, hrest d hd]

/-- An exclamation mark or a minus in front of what makes no longer operator of it. -/
theorem lex_sign {c : Char} (hc : c = '!' ∨ c = '-') {rest : List Char}
    (hrest : ∀ d ∈ rest.head?, d ≠ '=' ∧ (c = '-' → d ≠ '-')) :
    lex (c :: rest) = (lex rest).map (.op c.toString :: ·) := by
  have hstart : Partial.start c = .symbol [c] := by
    rcases hc with rfl | rfl <;> rfl
  have hfinish : (Partial.symbol [c]).finish? = some [.op c.toString] := by
    rcases hc with rfl | rfl <;> rfl
  rw [lex_cons, hstart]
  refine lexFrom_finish (fun d hd => ?_) hfinish
  obtain ⟨hequals, hminus⟩ := hrest d hd
  rcases hc with rfl | rfl
  · simp [Partial.push?, isOperator, operators, Ne.symm hequals]
  · simp [Partial.push?, isOperator, operators, Ne.symm hequals, Ne.symm (hminus rfl)]

/-- The characters of a binary operator make one token, which a blank ends. -/
theorem lex_operator {op : String} {p : Nat} (hop : strength? op = some p) (rest : List Char) :
    lex (op.toList ++ ' ' :: rest) = (lex rest).map (.op op :: ·) := by
  have hall : ∀ entry ∈ binaryOperators, entry.1.toList ≠ [] ∧
      (Partial.start (entry.1.toList.headD ' ')).pushAll entry.1.toList.tail =
        some (.symbol entry.1.toList) ∧
      (Partial.symbol entry.1.toList).push? ' ' = none ∧
      (Partial.symbol entry.1.toList).finish? = some [.op entry.1] := by decide +kernel
  obtain ⟨hne, hpush, hnext, hfinish⟩ := hall _ (mem_binaryOperators hop)
  obtain ⟨c, cs, hcs⟩ := List.exists_cons_of_ne_nil hne
  dsimp only at hcs hpush hnext hfinish
  rw [hcs] at hpush hnext hfinish ⊢
  rw [List.headD_cons, List.tail_cons] at hpush
  rw [List.cons_append, lex_cons, lexFrom_pushAll hpush, ← lex_space rest]
  exact lexFrom_finish (fun d hd => Option.some.inj hd ▸ hnext) hfinish

/-! ## Operands -/

/-- What can stand right behind an operand. Behind a primary operand that is no number, a selector,
arguments or a brace can follow as well. -/
def Follows (primary : Bool) (rest : List Char) : Prop :=
  ∀ c ∈ rest.head?, c ∈ [' ', ')', ','] ∨ primary = true ∧ c ∈ ['.', '(', '\x7b']

/-- The text of an operand is cut into the given tokens, whatever follows. -/
structure Lexes (primary : Bool) (cs : List Char) (ts : List Token) : Prop where
  starts : ∃ c ∈ cs.head?, c ≠ '='
  lex_eq : ∀ rest, Follows primary rest → lex (cs ++ rest) = (lex rest).map (ts ++ ·)

variable {primary : Bool} {cs : List Char} {ts : List Token}

theorem follows_cons {c : Char} {rest : List Char} (h : c ∈ [' ', ')', ',']) :
    Follows primary (c :: rest) :=
  fun _ hd => Option.some.inj hd ▸ .inl h

theorem follows_primary {c : Char} {rest : List Char} (h : c ∈ ['.', '(', '\x7b']) :
    Follows true (c :: rest) :=
  fun _ hd => Option.some.inj hd ▸ .inr ⟨rfl, h⟩

/-- A primary operand is an operand. -/
theorem Lexes.operand (h : Lexes true cs ts) : Lexes primary cs ts where
  starts := h.starts
  lex_eq rest hrest := h.lex_eq rest fun c hc => (hrest c hc).imp_right fun h => ⟨rfl, h.2⟩

/-- A text that is a whole is cut into its tokens. -/
theorem Lexes.lex_self (h : Lexes primary cs ts) : lex cs = some ts := by
  have hlex := h.lex_eq [] nofun
  rwa [List.append_nil, lex_nil, Option.map_some, List.append_nil] at hlex

theorem Lexes.head?_append (h : Lexes primary cs ts) (rest : List Char) :
    (cs ++ rest).head? = cs.head? := by
  obtain ⟨c, hc, -⟩ := h.starts
  rw [List.head?_append, Option.mem_def.mp hc]
  rfl

/-- No operand starts with an equals sign. -/
theorem Lexes.ne_equals (h : Lexes primary cs ts) (rest : List Char) {c : Char}
    (hc : c ∈ (cs ++ rest).head?) : c ≠ '=' := by
  obtain ⟨d, hd, hne⟩ := h.starts
  rw [h.head?_append] at hc
  exact Option.mem_unique hd hc ▸ hne

/-- A single token that what follows does not belong to. -/
theorem lexes_token {c : Char} {token : Token} {longer : Partial}
    (hpush : (Partial.start c).pushAll cs = some longer) (hfinish : longer.finish? = some [token])
    (hc : c ≠ '=')
    (hnext : ∀ d, d ∈ [' ', ')', ','] ∨ primary = true ∧ d ∈ ['.', '(', '\x7b'] →
      longer.push? d = none) : Lexes primary (c :: cs) [token] := by
  refine ⟨⟨c, rfl, hc⟩, fun rest hrest => ?_⟩
  rw [List.cons_append, lex_cons, lexFrom_pushAll hpush]
  exact lexFrom_finish (fun d hd => hnext d (hrest d hd)) hfinish

/-! ### Names -/

theorem pushAll_word (front : List Char) {cs : List Char} (h : ∀ c ∈ cs, isNameChar c = true) :
    (Partial.word front).pushAll cs = some (.word (front ++ cs)) := by
  induction cs generalizing front with
  | nil => rw [Partial.pushAll, List.append_nil]
  | cons c cs ih =>
    rw [List.forall_mem_cons] at h
    rw [Partial.pushAll, Partial.push?, if_pos h.1, Option.bind_some, ih _ h.2, List.append_assoc,
      List.singleton_append]

/-- A character of a name that is no digit starts a word. -/
theorem start_word {c : Char} (hname : isNameChar c = true) (hdigit : c.isDigit = false) :
    Partial.start c = .word [c] := by
  have hblank : ¬(c = ' ' ∨ c = '\t' ∨ c = '\r') := fun h =>
    ne_blank_of_isNameChar hname (by grind)
  have hline : c ≠ '\n' := fun h => ne_blank_of_isNameChar hname (by grind)
  rw [Partial.start, if_neg hblank, if_neg hline, if_neg (by simp [hdigit]), if_pos hname]

/-- The characters of a word are one token. -/
theorem lexes_word {c : Char} (hname : ∀ d ∈ c :: cs, isNameChar d = true)
    (hdigit : c.isDigit = false) :
    Lexes primary (c :: cs)
      [if keywords.contains (String.ofList (c :: cs)) then .keyword (String.ofList (c :: cs))
        else .name (String.ofList (c :: cs))] := by
  rw [List.forall_mem_cons] at hname
  have hpush : (Partial.start c).pushAll cs = some (.word (c :: cs)) := by
    rw [start_word hname.1 hdigit, pushAll_word _ hname.2, List.singleton_append]
  refine lexes_token hpush rfl ?_ fun d hd => ?_
  · rintro rfl
    exact absurd hname.1 (by decide)
  · have hnot : isNameChar d = false := by
      simp only [List.mem_cons, List.not_mem_nil, or_false] at hd
      rcases hd with (rfl | rfl | rfl) | ⟨-, rfl | rfl | rfl⟩ <;> rfl
    rw [Partial.push?, if_neg (by simp [hnot])]

theorem lexes_name {id : String} (h : IsName id) : Lexes primary id.toList [.name id] := by
  obtain ⟨⟨c, hc, hdigit⟩, hchars, hfree⟩ := h
  obtain ⟨cs, hcs⟩ : ∃ cs, id.toList = c :: cs := List.head?_eq_some_iff.mp hc
  have hid : String.ofList (c :: cs) = id := by rw [← hcs, String.ofList_toList]
  have hlexes : Lexes primary (c :: cs) _ := lexes_word (hcs ▸ hchars) hdigit
  rwa [hid, if_neg (by simpa using hfree), ← hcs] at hlexes

/-! ### Numbers -/

/-- A number that is complete ends in front of what can follow an operand. -/
theorem push?_number {part : NumberPart} {cs : List Char} {token : Token}
    (h : (Partial.number part cs).finish? = some [token]) {c : Char} (hc : c ∈ [' ', ')', ',']) :
    (Partial.number part cs).push? c = none := by
  have hpart : part = .whole ∨ part = .fraction ∨ part = .power := by
    rw [Partial.finish?] at h
    split at h
    · next hfinal => exact hfinal.imp_left And.left
    · cases h
  simp only [List.mem_cons, List.not_mem_nil, or_false] at hc
  rcases hpart with rfl | rfl | rfl <;> rcases hc with rfl | rfl | rfl <;> rfl

/-- What is finished as a number has been read as one. -/
theorem eq_number_of_finish? {current : Partial} {s : String}
    (h : current.finish? = some [.number s]) : ∃ part cs, current = .number part cs := by
  cases current with
  | number part cs => exact ⟨part, cs, rfl⟩
  | nothing => cases h
  | word cs =>
    simp only [Partial.finish?] at h
    split at h <;> cases h
  | text part cs =>
    simp only [Partial.finish?] at h
    split at h <;> cases h
  | symbol cs =>
    simp only [Partial.finish?] at h
    repeat' split at h
    all_goals cases h
  | broken => cases h

theorem isNumeral_iff {s : String} : isNumeral s = true ↔ ∃ c cs longer, s.toList = c :: cs ∧
    (c.isDigit = true ∨ c = '.') ∧ (Partial.start c).pushAll cs = some longer ∧
      longer.finish? = some [.number s] := by
  unfold isNumeral
  cases hs : s.toList with
  | nil => simp
  | cons c cs =>
    rw [Bool.and_eq_true, Bool.or_eq_true, beq_iff_eq, beq_iff_eq, Option.bind_eq_some_iff]
    constructor
    · rintro ⟨hc, longer, hpush, hfinish⟩
      exact ⟨c, cs, longer, rfl, hc, hpush, hfinish⟩
    · rintro ⟨c', cs', longer, hcs, hc, hpush, hfinish⟩
      cases hcs
      exact ⟨hc, longer, hpush, hfinish⟩

theorem lexes_numeral {s : String} (h : isNumeral s = true) : Lexes false s.toList [.number s] := by
  obtain ⟨c, cs, longer, hcs, hc, hpush, hfinish⟩ := isNumeral_iff.mp h
  obtain ⟨part, all, rfl⟩ := eq_number_of_finish? hfinish
  rw [hcs]
  refine lexes_token hpush hfinish ?_ fun d hd => push?_number hfinish (by simpa using hd)
  rintro rfl
  exact absurd hc (by decide)

/-- A number without a sign does not start with one. -/
theorem head?_ne_minus_of_isNumeral {s : String} (h : isNumeral s = true) :
    s.toList.head? ≠ some '-' := by
  obtain ⟨c, cs, -, hcs, hc, -⟩ := isNumeral_iff.mp h
  rw [hcs]
  intro hhead
  obtain rfl := Option.some.inj hhead
  exact absurd hc (by decide)

theorem pushAll_digits (front : List Char) {cs : List Char} (h : ∀ c ∈ cs, c.isDigit = true) :
    (Partial.number .whole front).pushAll cs = some (.number .whole (front ++ cs)) := by
  induction cs generalizing front with
  | nil => rw [Partial.pushAll, List.append_nil]
  | cons c cs ih =>
    rw [List.forall_mem_cons] at h
    rw [Partial.pushAll, Partial.push?, NumberPart.next?, if_pos h.1, Option.map_some,
      Option.bind_some]
    dsimp only [Option.elim]
    rw [ih _ h.2, List.append_assoc, List.singleton_append]

/-- No superfluous zero stands in front of the digits of a number. -/
theorem head?_toDigits_ne_zero {n : Nat} (h : 0 < n) : (Nat.toDigits 10 n).head? ≠ some '0' := by
  induction n using Nat.strongRecOn with
  | ind n ih =>
    have hdigit : ∀ k < 10, 0 < k → Nat.digitChar k ≠ '0' := by decide
    by_cases hsmall : n < 10
    · rw [Nat.toDigits_of_lt_base hsmall]
      intro hhead
      exact hdigit n hsmall h (Option.some.inj hhead)
    · have hrest := ih (n / 10) (by omega) (by omega)
      rw [Nat.toDigits_of_base_le (by decide) (by omega)]
      obtain ⟨c, cs, hcs⟩ := List.exists_cons_of_ne_nil (Nat.toDigits_ne_nil (n := n / 10) (b := 10))
      rw [hcs] at hrest ⊢
      exact hrest

/-- A constant natural number. -/
theorem isNumeral_toString (n : Nat) : isNumeral (toString n) = true := by
  have hall : ∀ c ∈ Nat.toDigits 10 n, c.isDigit = true := fun c hc =>
    Nat.isDigit_of_mem_toDigits (by decide) (by decide) hc
  have htext : (toString n).toList = Nat.toDigits 10 n := by
    simp [ToString.toString, Nat.repr]
  have hzero : ¬(1 < (Nat.toDigits 10 n).length ∧ (Nat.toDigits 10 n).head? = some '0') := by
    rintro ⟨hlength, hhead⟩
    rcases Nat.eq_zero_or_pos n with rfl | hpos
    · exact absurd hlength (by decide)
    · exact head?_toDigits_ne_zero hpos hhead
  obtain ⟨c, cs, hcs⟩ := List.exists_cons_of_ne_nil (Nat.toDigits_ne_nil (n := n) (b := 10))
  rw [hcs] at hall hzero htext
  rw [List.forall_mem_cons] at hall
  have hname : isNameChar c = true := by simp [isNameChar, Char.isAlphanum, hall.1]
  have hblank := ne_blank_of_isNameChar hname
  have hstart : Partial.start c = .number .whole [c] := by
    rw [Partial.start, if_neg (by grind), if_neg (by grind), if_pos hall.1]
  refine isNumeral_iff.mpr ⟨c, cs, .number .whole (c :: cs), htext, .inl hall.1, ?_, ?_⟩
  · rw [hstart, pushAll_digits _ hall.2, List.singleton_append]
  · rw [Partial.finish?, if_pos (.inl ⟨rfl, hzero⟩), ← htext, String.ofList_toList]

/-! ### Strings -/

theorem isHexDigit_digitChar : ∀ n < 16, isHexDigit (Nat.digitChar n) = true := by
  decide

/-- An escaped character leaves the string open. -/
theorem pushAll_escape (front : List Char) (c : Char) :
    (Partial.text .plain front).pushAll (Text.goEscape c) =
      some (.text .plain (front ++ Text.goEscape c)) := by
  rcases Text.goEscape_cases c with ⟨letter, hpair, hescape⟩ | ⟨hlt, hescape⟩ | ⟨hplain, hescape⟩
  · have hletters : ∀ pair ∈ Text.letterEscapes,
        pair.2 ∈ ['n', 'r', 't', Text.backslash, Text.doubleQuote] := by
      decide
    have hletter := hletters _ hpair
    simp only [List.mem_cons, List.not_mem_nil, or_false] at hletter
    rw [hescape]
    rcases hletter with rfl | rfl | rfl | rfl | rfl <;>
      simp [Partial.pushAll, Partial.push?, TextPart.next?, Text.doubleQuote, Text.backslash]
  · have hhigh := isHexDigit_digitChar (c.toNat / 16) (by omega)
    have hlow := isHexDigit_digitChar (c.toNat % 16) (by omega)
    simp [hescape, Partial.pushAll, Partial.push?, TextPart.next?, Text.doubleQuote, Text.backslash,
      Text.hexPair, hhigh, hlow]
  · obtain ⟨hquote, hbackslash, hline⟩ := hplain
    simp [hescape, Partial.pushAll, Partial.push?, TextPart.next?, hquote, hbackslash, hline]

theorem pushAll_escapes (front cs : List Char) :
    (Partial.text .plain front).pushAll (cs.flatMap Text.goEscape) =
      some (.text .plain (front ++ cs.flatMap Text.goEscape)) := by
  induction cs generalizing front with
  | nil => rw [List.flatMap_nil, List.append_nil, Partial.pushAll]
  | cons c cs ih =>
    rw [List.flatMap_cons, Partial.pushAll_append, pushAll_escape, Option.bind_some, ih,
      List.append_assoc]

/-- A constant string. -/
theorem lexes_str (s : String) :
    Lexes primary (Text.goLiteral s).toList [.text (Text.goLiteral s)] := by
  have htext : (Text.goLiteral s).toList =
      Text.doubleQuote :: (s.toList.flatMap Text.goEscape ++ [Text.doubleQuote]) := by
    simp [Text.goLiteral, Text.enclose]
  have hstart : Partial.start Text.doubleQuote = .text .plain [Text.doubleQuote] := rfl
  have hpush : (Partial.start Text.doubleQuote).pushAll
      (s.toList.flatMap Text.goEscape ++ [Text.doubleQuote]) =
        some (.text .closed (Text.goLiteral s).toList) := by
    rw [hstart, Partial.pushAll_append, pushAll_escapes, Option.bind_some, htext]
    simp [Partial.pushAll, Partial.push?, TextPart.next?]
  have hfinish : (Partial.text .closed (Text.goLiteral s).toList).finish? =
      some [.text (Text.goLiteral s)] := by
    rw [Partial.finish?, if_pos rfl, String.ofList_toList]
  rw [htext]
  exact lexes_token hpush hfinish (by decide) fun _ _ => rfl

/-! ### Compound texts -/

/-- An operand in parentheses. -/
theorem Lexes.parens (h : Lexes false cs ts) :
    Lexes primary ('(' :: (cs ++ [')'])) (.mark '(' :: (ts ++ [Token.mark ')'])) := by
  refine ⟨⟨'(', rfl, by decide⟩, fun rest _ => ?_⟩
  rw [List.cons_append, List.append_assoc, List.singleton_append, lex_mark (by decide),
    h.lex_eq _ (follows_cons (by decide)), lex_mark (by decide)]
  cases lex rest <;> simp

/-- An operand behind an operator. A minus must not meet another one. -/
theorem Lexes.sign (h : Lexes primary cs ts) {c : Char} (hc : c = '!' ∨ c = '-')
    (hminus : c = '-' → cs.head? ≠ some '-') : Lexes primary (c :: cs) (.op c.toString :: ts) := by
  refine ⟨⟨c, rfl, ?_⟩, fun rest hrest => ?_⟩
  · rcases hc with rfl | rfl <;> decide
  rw [List.cons_append, lex_sign hc fun d hd => ⟨h.ne_equals rest hd, ?_⟩, h.lex_eq rest hrest]
  · cases lex rest <;> simp
  · rintro rfl rfl
    rw [h.head?_append] at hd
    exact hminus rfl hd

/-- Two operands under a binary operator, with blanks around it. -/
theorem Lexes.binary {op : String} {p : Nat} (hop : strength? op = some p) {ls rs : List Char}
    {lts rts : List Token} (hl : Lexes false ls lts) (hr : Lexes primary rs rts) :
    Lexes primary (ls ++ (' ' :: (op.toList ++ ' ' :: rs))) (lts ++ .op op :: rts) := by
  refine ⟨?_, fun rest hrest => ?_⟩
  · rw [hl.head?_append]
    exact hl.starts
  · simp only [List.append_assoc, List.cons_append]
    rw [hl.lex_eq _ (follows_cons (by decide)), lex_space, lex_operator hop, hr.lex_eq rest hrest]
    cases lex rest <;> simp

/-- A member of a primary operand. -/
theorem Lexes.member (h : Lexes true cs ts) {field : String} (hfield : IsName field) :
    Lexes primary (cs ++ '.' :: field.toList) (ts ++ [Token.mark '.', .name field]) := by
  have hname : Lexes primary field.toList [.name field] := lexes_name hfield
  refine ⟨?_, fun rest hrest => ?_⟩
  · rw [h.head?_append]
    exact h.starts
  · rw [List.append_assoc, List.cons_append, h.lex_eq _ (follows_primary (by decide)),
      lex_point ?_, hname.lex_eq rest hrest]
    · cases lex rest <;> simp
    · intro c hc
      obtain ⟨d, hd, hdigit⟩ := hfield.starts
      rw [hname.head?_append] at hc
      exact Option.mem_unique hd hc ▸ hdigit

/-- The texts of operands with commas between them, up to a closing parenthesis. -/
theorem lex_commaSeparated {operands : List (String × List Token)}
    (h : ∀ operand ∈ operands, Lexes false operand.1.toList operand.2) (rest : List Char) :
    lex ((Text.commaSeparated (operands.map (·.1))).toList ++ ')' :: rest) =
      (lex rest).map (separated (operands.map (·.2)) ++ .mark ')' :: ·) := by
  rw [Text.commaSeparated]
  induction operands with
  | nil =>
    rw [List.map_nil, String.intercalate_nil, List.map_nil, separated]
    exact lex_mark (by decide) rest
  | cons first others ih =>
    rw [List.forall_mem_cons] at h
    cases others with
    | nil =>
      simp only [List.map_cons, List.map_nil, String.intercalate_singleton, separated]
      rw [h.1.lex_eq _ (follows_cons (by decide)), lex_mark (by decide)]
      cases lex rest <;> simp
    | cons second others =>
      have hcomma : ", ".toList = [',', ' '] := rfl
      have hrest := ih h.2
      simp only [List.map_cons, String.intercalate_cons_cons, String.toList_append, hcomma,
        separated, List.append_assoc, List.cons_append, List.nil_append] at hrest ⊢
      rw [h.1.lex_eq _ (follows_cons (by decide)), lex_mark (by decide), lex_space, hrest]
      cases lex rest <;> simp

/-- A call of a primary operand. -/
theorem Lexes.call (h : Lexes true cs ts) {operands : List (String × List Token)}
    (hoperands : ∀ operand ∈ operands, Lexes false operand.1.toList operand.2) :
    Lexes primary
      (cs ++ '(' :: ((Text.commaSeparated (operands.map (·.1))).toList ++ [')']))
      (ts ++ Token.mark '(' :: (separated (operands.map (·.2)) ++ [Token.mark ')'])) := by
  refine ⟨?_, fun rest _ => ?_⟩
  · rw [h.head?_append]
    exact h.starts
  · simp only [List.append_assoc, List.cons_append, List.nil_append]
    rw [h.lex_eq _ (follows_primary (by decide)), lex_mark (by decide),
      lex_commaSeparated hoperands]
    cases lex rest <;> simp

/-! ### Function literals -/

theorem lexes_keyword {word : String} (h : word ∈ ["func", "if", "return"]) :
    Lexes primary word.toList [.keyword word] := by
  have hfunc : Lexes primary ['f', 'u', 'n', 'c'] _ := lexes_word (List.all_eq_true.mp rfl) rfl
  have hif : Lexes primary ['i', 'f'] _ := lexes_word (List.all_eq_true.mp rfl) rfl
  have hreturn : Lexes primary ['r', 'e', 't', 'u', 'r', 'n'] _ :=
    lexes_word (List.all_eq_true.mp rfl) rfl
  simp only [List.mem_cons, List.not_mem_nil, or_false] at h
  rcases h with rfl | rfl | rfl
  · exact hfunc
  · exact hif
  · exact hreturn

theorem lex_keyword {word : String} (h : word ∈ ["func", "if", "return"]) (rest : List Char) :
    lex (word.toList ++ ' ' :: rest) = (lex rest).map (.keyword word :: ·) := by
  have hlexes : Lexes false word.toList [.keyword word] := lexes_keyword h
  rw [hlexes.lex_eq _ (follows_cons (by decide)), lex_space]
  rfl

/-- A test and its branch, with a blank behind. -/
theorem lex_arm {arm : Arm} {test result : List Char} (htest : Lexes false test arm.testTokens)
    (hresult : Lexes false result arm.resultTokens) (rest : List Char) :
    lex ("if ".toList ++ (test ++ (" \x7b return ".toList ++ (result ++ (" \x7d; ".toList ++ rest)))))
      = (lex rest).map (arm.tokens ++ ·) := by
  have hif : "if ".toList = "if".toList ++ [' '] := rfl
  have hopen : " \x7b return ".toList = [' ', '\x7b', ' '] ++ ("return".toList ++ [' ']) := rfl
  have hclose : " \x7d; ".toList = [' ', '\x7d', ';', ' '] := rfl
  rw [hif, hopen, hclose]
  simp only [List.append_assoc, List.cons_append, List.nil_append]
  rw [lex_keyword (by decide), htest.lex_eq _ (follows_cons (by decide)), lex_space,
    lex_mark (by decide), lex_space, lex_keyword (by decide),
    hresult.lex_eq _ (follows_cons (by decide)), lex_space, lex_mark (by decide),
    lex_mark (by decide), lex_space]
  cases lex rest <;> simp [Arm.tokens]

/-- The tests of a function literal. -/
theorem lex_arms {arms : List (Arm × List Char × List Char)}
    (h : ∀ arm ∈ arms, Lexes false arm.2.1 arm.1.testTokens ∧
      Lexes false arm.2.2 arm.1.resultTokens) (rest : List Char) :
    lex (arms.flatMap (fun arm => "if ".toList ++ (arm.2.1 ++ (" \x7b return ".toList ++
        (arm.2.2 ++ " \x7d; ".toList)))) ++ rest) =
      (lex rest).map ((arms.map (·.1)).flatMap Arm.tokens ++ ·) := by
  induction arms with
  | nil => simp
  | cons arm others ih =>
    rw [List.forall_mem_cons] at h
    have hrest := ih h.2
    simp only [List.flatMap_cons, List.map_cons, List.append_assoc] at hrest ⊢
    rw [lex_arm h.1.1 h.1.2, hrest]
    cases lex rest <;> simp

/-- A function literal, whose text starts with the keyword and ends with a brace. -/
theorem lexes_function {type last : List Char} {typeTokens lastTokens : List Token}
    (htype : Lexes false type typeTokens) {arms : List (Arm × List Char × List Char)}
    (harms : ∀ arm ∈ arms, Lexes false arm.2.1 arm.1.testTokens ∧
      Lexes false arm.2.2 arm.1.resultTokens) (hlast : Lexes false last lastTokens) :
    Lexes true
      ("func() ".toList ++ (type ++ (" \x7b ".toList ++ (arms.flatMap (fun arm =>
        "if ".toList ++ (arm.2.1 ++ (" \x7b return ".toList ++ (arm.2.2 ++ " \x7d; ".toList)))) ++
        ("return ".toList ++ (last ++ " \x7d".toList))))))
      (.keyword "func" :: .mark '(' :: .mark ')' :: (typeTokens ++ Token.mark '\x7b' ::
        ((arms.map (·.1)).flatMap Arm.tokens ++ Token.keyword "return" ::
          (lastTokens ++ [Token.mark '\x7d'])))) := by
  have hfunc : "func() ".toList = "func".toList ++ ['(', ')', ' '] := rfl
  have hopen : " \x7b ".toList = [' ', '\x7b', ' '] := rfl
  have hreturn : "return ".toList = "return".toList ++ [' '] := rfl
  have hclose : " \x7d".toList = [' ', '\x7d'] := rfl
  have hkeyword : Lexes true "func".toList [.keyword "func"] := lexes_keyword (by decide)
  refine ⟨⟨'f', rfl, by decide⟩, fun rest _ => ?_⟩
  rw [hfunc, hopen, hreturn, hclose]
  simp only [List.append_assoc, List.cons_append, List.nil_append]
  rw [hkeyword.lex_eq _ (follows_primary (by decide)), lex_mark (by decide), lex_mark (by decide), lex_space,
    htype.lex_eq _ (follows_cons (by decide)), lex_space, lex_mark (by decide), lex_space,
    lex_arms harms, lex_keyword (by decide), hlast.lex_eq _ (follows_cons (by decide)), lex_space,
    lex_mark (by decide)]
  cases lex rest <;> simp

end Sproc.Go.Syntax
