import Sproc.Text.Quoted

/-!
# Values of string literals

A string literal of the target language denotes a sequence of bytes. Between double quotes a
backslash starts an escape: a letter for a control character, the number of a byte in octal or
hexadecimal digits, or the number of a character; every other character stands for its encoding, and
a line feed may not occur. Between back quotes every character stands for itself, carriage returns
apart, which are dropped.

Constant strings and the texts of queries are written as such literals. What is written denotes the
text it was written for, and it ends where the text ends, whatever follows it.

## Main definitions

* `Go.StringLiteral.Part`: how far an interpreted literal has been read
* `Go.StringLiteral.interpreted?`, `Go.StringLiteral.raw?`, `Go.StringLiteral.read?`: the bytes that
  a literal at the front of a text denotes, and what follows the literal

## Main results

* `readFrom_goEscape`: an escaped character is read as that character
* `literals_denote_text`
-/

namespace Sproc.Go.StringLiteral

open Text

/-! ## Reading -/

/-- The value of a digit in a base of up to sixteen. -/
def digit? (base : Nat) (c : Char) : Option Nat :=
  let value? :=
    if c.isDigit then some (c.toNat - 0x30)
    else if 'a' ≤ c ∧ c ≤ 'f' then some (c.toNat - 0x57)
    else if 'A' ≤ c ∧ c ≤ 'F' then some (c.toNat - 0x37)
    else none
  value?.filter (· < base)

/-- The byte that a letter behind a backslash stands for. -/
def letter? (c : Char) : Option UInt8 :=
  match c with
  | 'a' => some 0x07
  | 'b' => some 0x08
  | 'f' => some 0x0C
  | 'n' => some 0x0A
  | 'r' => some 0x0D
  | 't' => some 0x09
  | 'v' => some 0x0B
  | c => if c = backslash ∨ c = doubleQuote then some (UInt8.ofNat c.toNat) else none

/-- What a number in a literal counts. -/
inductive Counted where
  | byte
  | character
  deriving DecidableEq, Repr

/-- The bytes that a number in a literal stands for, if there is such a byte or character. -/
def Counted.bytes? : Counted → Nat → Option (List UInt8)
  | .byte, n => if n < 256 then some [UInt8.ofNat n] else none
  | .character, n => if n.isValidChar then some (String.utf8EncodeChar (Char.ofNat n)) else none

/-- How far an interpreted literal has been read. -/
inductive Part where
  | plain
  /-- Right behind a backslash. -/
  | escape
  /-- Inside a number, in front of one digit and `more` others. -/
  | number (counted : Counted) (base more value : Nat)
  deriving DecidableEq, Repr

/-- The number that starts behind a backslash with the given character. -/
def Part.numberAt? (c : Char) : Option Part :=
  match c with
  | 'x' => some (.number .byte 16 1 0)
  | 'u' => some (.number .character 16 3 0)
  | 'U' => some (.number .character 16 7 0)
  | c => (digit? 8 c).map (.number .byte 8 1 ·)

/-- Reads one character that is not the closing mark: how far the literal is read then, and the
bytes that are complete. -/
def Part.step? : Part → Char → Option (Part × List UInt8)
  | .plain, c =>
    if c = '\n' then none
    else if c = backslash then some (.escape, [])
    else some (.plain, String.utf8EncodeChar c)
  | .escape, c =>
    match letter? c with
    | some byte => some (.plain, [byte])
    | none => (numberAt? c).map (·, [])
  | .number counted base more value, c =>
    (digit? base c).bind fun digit =>
      match more with
      | 0 => (counted.bytes? (value * base + digit)).map (.plain, ·)
      | more + 1 => some (.number counted base more (value * base + digit), [])

/-- Reads an interpreted literal up to its closing mark. -/
def readFrom : Part → List Char → Option (List UInt8 × List Char)
  | _, [] => none
  | part, c :: rest =>
    if part = .plain ∧ c = doubleQuote then some ([], rest)
    else
      (part.step? c).bind fun (next, bytes) =>
        (readFrom next rest).map fun (others, after) => (bytes ++ others, after)

/-- Reads a raw literal up to its closing mark. -/
def readRaw : List Char → Option (List UInt8 × List Char)
  | [] => none
  | c :: rest =>
    if c = backQuote then some ([], rest)
    else
      (readRaw rest).map fun (others, after) =>
        (if c = '\r' then others else String.utf8EncodeChar c ++ others, after)

/-- The bytes that the interpreted literal at the front of a text denotes, and what follows it. -/
def interpreted? : List Char → Option (List UInt8 × List Char)
  | [] => none
  | c :: rest => if c = doubleQuote then readFrom .plain rest else none

/-- The bytes that the raw literal at the front of a text denotes, and what follows it. -/
def raw? : List Char → Option (List UInt8 × List Char)
  | [] => none
  | c :: rest => if c = backQuote then readRaw rest else none

/-- The bytes that the string literal at the front of a text denotes, and what follows it. -/
def read? (cs : List Char) : Option (List UInt8 × List Char) :=
  (interpreted? cs).or (raw? cs)

/-! ## Escaped characters -/

theorem readFrom_cons {part next : Part} {c : Char} {bytes : List UInt8} (rest : List Char)
    (hopen : ¬(part = .plain ∧ c = doubleQuote)) (hstep : part.step? c = some (next, bytes)) :
    readFrom part (c :: rest) =
      (readFrom next rest).map fun (others, after) => (bytes ++ others, after) := by
  rw [readFrom, if_neg hopen, hstep]
  rfl

/-- A backslash opens an escape. -/
theorem readFrom_backslash (rest : List Char) :
    readFrom .plain (backslash :: rest) = readFrom .escape rest := by
  have hstep : Part.step? .plain backslash = some (.escape, []) := by decide
  rw [readFrom_cons rest (by decide) hstep]
  exact Option.map_id'

/-- A letter behind a backslash. -/
theorem readFrom_letter {c : Char} {byte : UInt8} (h : letter? c = some byte) (rest : List Char) :
    readFrom .plain (backslash :: c :: rest) =
      (readFrom .plain rest).map fun (others, after) => (byte :: others, after) := by
  have hstep : Part.step? .escape c = some (.plain, [byte]) := by
    rw [Part.step?, h]
  rw [readFrom_backslash, readFrom_cons rest (by simp) hstep]
  rfl

theorem digit?_digitChar : ∀ n < 16, digit? 16 (Nat.digitChar n) = some n := by
  decide

/-- The number of a byte behind a backslash. -/
theorem readFrom_hexPair {n : Nat} (h : n < 256) (rest : List Char) :
    readFrom .plain (backslash :: 'x' :: (hexPair n ++ rest)) =
      (readFrom .plain rest).map fun (others, after) => (UInt8.ofNat n :: others, after) := by
  have hstart : Part.step? .escape 'x' = some (.number .byte 16 1 0, []) := by decide
  have hhigh : Part.step? (.number .byte 16 1 0) (Nat.digitChar (n / 16)) =
      some (.number .byte 16 0 (n / 16), []) := by
    rw [Part.step?, digit?_digitChar _ (by omega), Option.bind_some, Nat.zero_mul, Nat.zero_add]
  have hlow : Part.step? (.number .byte 16 0 (n / 16)) (Nat.digitChar (n % 16)) =
      some (.plain, [UInt8.ofNat n]) := by
    rw [Part.step?, digit?_digitChar _ (by omega), Option.bind_some, Nat.div_add_mod']
    simp only [Counted.bytes?, if_pos h, Option.map_some]
  rw [readFrom_backslash, readFrom_cons _ (by simp) hstart]
  simp only [hexPair, List.cons_append, List.nil_append]
  rw [readFrom_cons _ (by simp) hhigh, readFrom_cons _ (by simp) hlow, Option.map_map,
    Option.map_map]
  rfl

/-- A character of seven bits is encoded as one byte. -/
theorem utf8EncodeChar_of_lt {c : Char} (h : c.toNat < 128) :
    String.utf8EncodeChar c = [UInt8.ofNat c.toNat] :=
  if_pos (Nat.le_of_lt_succ h)

/-- An escaped character is read as that character. -/
theorem readFrom_goEscape (c : Char) (rest : List Char) :
    readFrom .plain (goEscape c ++ rest) =
      (readFrom .plain rest).map fun (others, after) =>
        (String.utf8EncodeChar c ++ others, after) := by
  rcases goEscape_cases c with ⟨letter, hpair, hescape⟩ | ⟨hlt, hescape⟩ | ⟨hplain, hescape⟩
  · have hletters : ∀ pair ∈ letterEscapes, pair.1.toNat < 128 ∧
        letter? pair.2 = some (UInt8.ofNat pair.1.toNat) := by
      decide
    obtain ⟨hlt, hletter⟩ := hletters _ hpair
    rw [hescape, utf8EncodeChar_of_lt hlt]
    exact readFrom_letter hletter rest
  · rw [hescape, utf8EncodeChar_of_lt hlt]
    exact readFrom_hexPair (by omega) rest
  · obtain ⟨hquote, hbackslash, hline⟩ := hplain
    have hstep : Part.step? .plain c = some (.plain, String.utf8EncodeChar c) := by
      rw [Part.step?, if_neg hline, if_neg hbackslash]
    rw [hescape]
    exact readFrom_cons rest (fun h => hquote h.2) hstep

theorem readFrom_escapes (cs rest : List Char) :
    readFrom .plain (cs.flatMap goEscape ++ doubleQuote :: rest) =
      some (cs.flatMap String.utf8EncodeChar, rest) := by
  induction cs with
  | nil => rfl
  | cons c cs ih =>
    rw [List.flatMap_cons, List.append_assoc, readFrom_goEscape, ih, Option.map_some,
      List.flatMap_cons]

/-- No escape holds a line feed. -/
theorem not_mem_goEscape (c : Char) : '\n' ∉ goEscape c := by
  rcases goEscape_cases c with ⟨letter, hpair, hescape⟩ | ⟨hlt, hescape⟩ | ⟨hplain, hescape⟩
  · have hletters : ∀ pair ∈ letterEscapes, '\n' ∉ [backslash, pair.2] := by decide
    exact hescape ▸ hletters _ hpair
  · have hdigit : ∀ n < 16, '\n' ≠ Nat.digitChar n := by decide
    have hhigh := hdigit (c.toNat / 16) (by omega)
    have hlow := hdigit (c.toNat % 16) (by omega)
    simp [hescape, hexPair, hhigh, hlow, backslash]
  · simpa [hescape] using Ne.symm hplain.2.2

/-! ## Literals -/

theorem readRaw_append {cs : List Char} (h : ∀ c ∈ cs, c ≠ backQuote ∧ c ≠ '\r')
    (rest : List Char) :
    readRaw (cs ++ backQuote :: rest) = some (cs.flatMap String.utf8EncodeChar, rest) := by
  induction cs with
  | nil => rfl
  | cons c cs ih =>
    rw [List.forall_mem_cons] at h
    obtain ⟨⟨hquote, hreturn⟩, hcs⟩ := h
    rw [List.cons_append, readRaw, if_neg hquote, ih hcs, Option.map_some, List.flatMap_cons]
    dsimp only
    rw [if_neg hreturn]

/-- The encoding of a text, character by character. -/
theorem toList_toUTF8 (s : String) :
    s.toUTF8.data.toList = s.toList.flatMap String.utf8EncodeChar := by
  calc s.toUTF8.data.toList
      = (String.ofList s.toList).toByteArray.data.toList := by rw [String.ofList_toList]; rfl
    _ = s.toList.flatMap String.utf8EncodeChar := by
      rw [String.toByteArray_ofList, List.utf8Encode, List.data_toByteArray, List.toList_toArray]

theorem interpreted?_goLiteral (s : String) (rest : List Char) :
    interpreted? ((goLiteral s).toList ++ rest) = some (s.toUTF8.data.toList, rest) := by
  have htext : (goLiteral s).toList ++ rest =
      doubleQuote :: (s.toList.flatMap goEscape ++ doubleQuote :: rest) := by
    simp [goLiteral, enclose]
  rw [htext, interpreted?, if_pos rfl, readFrom_escapes, toList_toUTF8]

theorem raw?_enclose {s : String} (h : fitsRaw s = true) (rest : List Char) :
    raw? ((enclose backQuote s.toList).toList ++ rest) = some (s.toUTF8.data.toList, rest) := by
  have htext : (enclose backQuote s.toList).toList ++ rest =
      backQuote :: (s.toList ++ backQuote :: rest) := by
    simp [enclose]
  have hplain : ∀ c ∈ s.toList, c ≠ backQuote ∧ c ≠ '\r' := by
    simpa [fitsRaw] using h
  rw [htext, raw?, if_pos rfl, readRaw_append hplain, toList_toUTF8]

/-- A constant string is written as an interpreted literal on one line that denotes the encoding of
the string, and the text of a query as a raw or an interpreted literal that denotes the encoding of
the text. Each literal ends with its own closing mark, whatever follows. -/
theorem literals_denote_text (s : String) (rest : List Char) :
    (interpreted? ((goLiteral s).toList ++ rest) = some (s.toUTF8.data.toList, rest) ∧
      '\n' ∉ (goLiteral s).toList) ∧
    read? ((queryLiteral s).toList ++ rest) = some (s.toUTF8.data.toList, rest) := by
  refine ⟨⟨interpreted?_goLiteral s rest, ?_⟩, ?_⟩
  · have hbody : '\n' ∉ s.toList.flatMap goEscape := by
      simp [List.mem_flatMap, not_mem_goEscape]
    simp [goLiteral, enclose, hbody, doubleQuote]
  · unfold queryLiteral read?
    split
    · next hraw =>
      have hclosed : interpreted? ((enclose backQuote s.toList).toList ++ rest) = none := by
        simp [interpreted?, enclose, backQuote, doubleQuote]
      rw [hclosed, Option.none_or, raw?_enclose hraw]
    · rw [interpreted?_goLiteral, Option.some_or]

/-- A query whose text quotes a name in back quotes and ends in a carriage return. -/
example : interpreted? ((queryLiteral "SELECT `a`\r").toList) =
    some ("SELECT `a`\r".toUTF8.data.toList, []) := by
  decide

end Sproc.Go.StringLiteral
