import Sproc.Query.Renderer

/-!
# Reading strings of queries

A constant string stands in query text between quotes, with the quotes inside of it doubled. All
dialects read it in this way, but two of them also look at backslashes. MySQL takes a backslash for
the start of an escape. SQL Server joins two lines where a backslash stands in front of the line
break.

The text of a string is read back as the string exactly when no backslash in it is looked at. Where
one is, the value is another one, or the literal ends too early or not at all.

## Main definitions

* `Dialect.escaped`: what a backslash inside of a string stands for
* `Sql.string?`: the value of the string literal at the front of a text, and what follows it
* `Dialect.KeepsBackslash`: a backslash stands for itself

## Main results

* `Sql.length_add_count_lt`: a value and its quotes are shorter than the text they are read from
* `Sql.string?_sqlLiteral_iff`: the literals that are read back
* `Renderer.strings_read_back_iff`
-/

namespace Sproc

open Text

/-! ## The rules of the dialects -/

/-- The character that MySQL reads for a character behind a backslash. -/
def Sql.unescaped (c : Char) : Char :=
  match c with
  | '0' => '\x00'
  | 'b' => '\x08'
  | 'n' => '\n'
  | 'r' => '\r'
  | 't' => '\t'
  | 'Z' => '\x1A'
  | c => c

namespace Dialect

/-- What a backslash in front of the given characters of a string stands for, and how many of them
belong to it. MySQL keeps the backslash in front of the wildcards of patterns. -/
def escaped (dialect : Dialect) (behind : List Char) : List Char × Nat :=
  match dialect, behind with
  | mysql, c :: _ => (if c = '%' ∨ c = '_' then [backslash, c] else [Sql.unescaped c], 1)
  | sqlserver, '\n' :: _ => ([], 1)
  | sqlserver, '\r' :: '\n' :: _ => ([], 2)
  | _, _ => ([backslash], 0)

/-- Whether a backslash in front of the given characters of a string stands for itself. -/
def KeepsBackslash (dialect : Dialect) (behind : List Char) : Prop :=
  match dialect with
  | mysql => ['%'] <+: behind ∨ ['_'] <+: behind
  | sqlserver => ¬(['\n'] <+: behind ∨ ['\r', '\n'] <+: behind)
  | postgres | sqlite | oracle => True

end Dialect

namespace Sql

variable {dialect : Dialect}

/-- Reads a string up to its closing quote, behind some characters that have been read before. -/
def stringFrom (dialect : Dialect) : Nat → List Char → Option (List Char × List Char)
  | _, [] => none
  | skip + 1, _ :: rest => stringFrom dialect skip rest
  | 0, c :: rest =>
    if c = singleQuote then
      if rest.head? = some singleQuote then
        (stringFrom dialect 1 rest).map fun (value, after) => (singleQuote :: value, after)
      else some ([], rest)
    else if c = backslash then
      let (front, used) := dialect.escaped rest
      (stringFrom dialect used rest).map fun (value, after) => (front ++ value, after)
    else (stringFrom dialect 0 rest).map fun (value, after) => (c :: value, after)

/-- The value of the string literal at the front of a text, and what follows the literal. -/
def string? (dialect : Dialect) : List Char → Option (List Char × List Char)
  | [] => none
  | c :: rest => if c = singleQuote then stringFrom dialect 0 rest else none

/-! ## What is read -/

theorem stringFrom_eq_drop (skip : Nat) (cs : List Char) :
    stringFrom dialect skip cs = stringFrom dialect 0 (cs.drop skip) := by
  induction cs generalizing skip with
  | nil => rw [List.drop_nil, stringFrom, stringFrom]
  | cons c cs ih =>
    cases skip with
    | zero => rfl
    | succ skip => rw [stringFrom, ih, List.drop_succ_cons]

theorem stringFrom_quotes (rest : List Char) :
    stringFrom dialect 0 (singleQuote :: singleQuote :: rest) =
      (stringFrom dialect 0 rest).map fun (value, after) => (singleQuote :: value, after) := by
  rw [stringFrom, if_pos rfl, if_pos List.head?_cons, stringFrom_eq_drop]
  rfl

theorem stringFrom_close {rest : List Char} (hrest : rest.head? ≠ some singleQuote) :
    stringFrom dialect 0 (singleQuote :: rest) = some ([], rest) := by
  rw [stringFrom, if_pos rfl, if_neg hrest]

theorem stringFrom_backslash (rest : List Char) :
    stringFrom dialect 0 (backslash :: rest) =
      (stringFrom dialect 0 (rest.drop (dialect.escaped rest).2)).map fun (value, after) =>
        ((dialect.escaped rest).1 ++ value, after) := by
  rw [stringFrom, if_neg (by decide), if_pos rfl, ← stringFrom_eq_drop]

theorem stringFrom_other {c : Char} (hquote : c ≠ singleQuote) (hbackslash : c ≠ backslash)
    (rest : List Char) :
    stringFrom dialect 0 (c :: rest) =
      (stringFrom dialect 0 rest).map fun (value, after) => (c :: value, after) := by
  rw [stringFrom, if_neg hquote, if_neg hbackslash]

/-- An escape stands for no more than it is written with, where quotes count twice. -/
theorem escaped_short (rest : List Char) :
    (dialect.escaped rest).2 ≤ rest.length ∧
      (dialect.escaped rest).1.length + (dialect.escaped rest).1.count singleQuote ≤
        (dialect.escaped rest).2 + 1 := by
  have hkept : [backslash].length + [backslash].count singleQuote ≤ 0 + 1 := by decide
  unfold Dialect.escaped
  split
  · next c rest =>
    refine ⟨by simp, ?_⟩
    split
    · next hwild => rcases hwild with rfl | rfl <;> decide
    · have hcount : [unescaped c].count singleQuote ≤ 1 := List.count_le_length
      exact Nat.add_le_add_left hcount 1
  · exact ⟨by simp, by decide⟩
  · exact ⟨by simp, by decide⟩
  · exact ⟨Nat.zero_le _, hkept⟩

/-- The value of a string and its quotes are shorter than the text they are read from: each quote
takes two characters, and the closing one is left. -/
theorem length_add_count_lt {cs value after : List Char}
    (h : stringFrom dialect 0 cs = some (value, after)) :
    value.length + value.count singleQuote + after.length < cs.length := by
  -- On the length, since an escape drops more than the first character.
  induction hn : cs.length using Nat.strongRecOn generalizing cs value after with
  | ind n ih =>
    subst hn
    match cs with
    | [] => cases h
    | c :: rest =>
      rw [List.length_cons]
      by_cases hquote : c = singleQuote
      · subst hquote
        by_cases hnext : rest.head? = some singleQuote
        · obtain ⟨more, rfl⟩ := List.head?_eq_some_iff.mp hnext
          rw [stringFrom_quotes] at h
          obtain ⟨⟨others, after'⟩, hothers, heq⟩ := Option.map_eq_some_iff.mp h
          obtain ⟨rfl, rfl⟩ := Prod.mk.inj heq
          have hlt := ih _ (by rw [List.length_cons, List.length_cons]; omega) hothers rfl
          rw [List.length_cons, List.count_cons_self, List.length_cons]
          omega
        · rw [stringFrom_close hnext] at h
          obtain ⟨rfl, rfl⟩ := Prod.mk.inj (Option.some.inj h)
          simp
      · by_cases hbackslash : c = backslash
        · subst hbackslash
          rw [stringFrom_backslash] at h
          obtain ⟨⟨others, after'⟩, hothers, heq⟩ := Option.map_eq_some_iff.mp h
          obtain ⟨rfl, rfl⟩ := Prod.mk.inj heq
          have hlt := ih _ (by rw [List.length_drop, List.length_cons]; omega) hothers rfl
          obtain ⟨hused, hshort⟩ := @escaped_short dialect rest
          rw [List.length_drop] at hlt
          rw [List.length_append, List.count_append]
          omega
        · rw [stringFrom_other hquote hbackslash] at h
          obtain ⟨⟨others, after'⟩, hothers, heq⟩ := Option.map_eq_some_iff.mp h
          obtain ⟨rfl, rfl⟩ := Prod.mk.inj heq
          have hlt := ih _ (by simp) hothers rfl
          rw [List.length_cons, List.count_cons_of_ne hquote]
          omega

/-! ## Backslashes -/

/-- A backslash that stands for itself is read like any other character. -/
theorem stringFrom_of_keepsBackslash {rest : List Char} (h : dialect.KeepsBackslash rest) :
    stringFrom dialect 0 (backslash :: rest) =
      (stringFrom dialect 0 rest).map fun (value, after) => (backslash :: value, after) := by
  have hplain (hescaped : dialect.escaped rest = ([backslash], 0)) :
      stringFrom dialect 0 (backslash :: rest) =
        (stringFrom dialect 0 rest).map fun (value, after) => (backslash :: value, after) := by
    rw [stringFrom_backslash, hescaped]
    rfl
  cases dialect with
  | mysql =>
    have hwild : ∃ c more, rest = c :: more ∧ (c = '%' ∨ c = '_') := by
      rcases h with ⟨more, rfl⟩ | ⟨more, rfl⟩
      · exact ⟨_, more, rfl, .inl rfl⟩
      · exact ⟨_, more, rfl, .inr rfl⟩
    obtain ⟨c, more, rfl, hc⟩ := hwild
    have hescaped : Dialect.mysql.escaped (c :: more) = ([backslash, c], 1) := by
      rw [Dialect.escaped, if_pos hc]
    have hquote : c ≠ singleQuote := by rcases hc with rfl | rfl <;> decide
    have hbackslash : c ≠ backslash := by rcases hc with rfl | rfl <;> decide
    rw [stringFrom_backslash, hescaped, stringFrom_other hquote hbackslash, Option.map_map]
    rfl
  | sqlserver =>
    apply hplain
    unfold Dialect.escaped
    split
    · next heq => cases heq
    · exact absurd (.inl ⟨_, rfl⟩) h
    · exact absurd (.inr ⟨_, rfl⟩) h
    · rfl
  | postgres => exact hplain rfl
  | sqlite => exact hplain rfl
  | oracle => exact hplain rfl

/-- Behind a backslash that does not stand for itself, a value that starts with one is shorter than
the text shows. -/
theorem length_add_count_lt_of_not_keepsBackslash {rest value after : List Char}
    (hkeeps : ¬dialect.KeepsBackslash rest)
    (h : stringFrom dialect 0 (backslash :: rest) = some (backslash :: value, after)) :
    value.length + value.count singleQuote + after.length + 1 < rest.length := by
  rw [stringFrom_backslash] at h
  obtain ⟨⟨others, after'⟩, hothers, heq⟩ := Option.map_eq_some_iff.mp h
  obtain ⟨hvalue, rfl⟩ := Prod.mk.inj heq
  have hlt := length_add_count_lt hothers
  rw [List.length_drop] at hlt
  cases dialect with
  | mysql =>
    match rest with
    | [] => cases hothers
    | c :: more =>
      have hwild : ¬(c = '%' ∨ c = '_') := by
        simpa [Dialect.KeepsBackslash, eq_comm] using hkeeps
      have hescaped : Dialect.mysql.escaped (c :: more) = ([unescaped c], 1) := by
        rw [Dialect.escaped, if_neg hwild]
      simp only [hescaped, List.singleton_append] at hvalue hlt
      obtain ⟨-, rfl⟩ := List.cons.inj hvalue
      rw [List.length_cons] at hlt ⊢
      omega
  | sqlserver =>
    have hbreak : ['\n'] <+: rest ∨ ['\r', '\n'] <+: rest := Classical.not_not.mp hkeeps
    have hescaped : (Dialect.sqlserver.escaped rest).1 = [] := by
      rcases hbreak with ⟨more, rfl⟩ | ⟨more, rfl⟩ <;> rfl
    rw [hescaped, List.nil_append] at hvalue
    subst hvalue
    rw [List.length_cons, List.count_cons_of_ne (by decide)] at hlt
    omega
  | postgres => exact absurd trivial hkeeps
  | sqlite => exact absurd trivial hkeeps
  | oracle => exact absurd trivial hkeeps

/-! ## Literals -/

/-- A string behind its opening quote, as it is written, and what follows it. -/
def written (s rest : List Char) : List Char :=
  s.flatMap sqlEscape ++ singleQuote :: rest

theorem written_cons {c : Char} (hquote : c ≠ singleQuote) (s rest : List Char) :
    written (c :: s) rest = c :: written s rest := by
  rw [written, List.flatMap_cons, sqlEscape, if_neg hquote]
  rfl

theorem written_quote (s rest : List Char) :
    written (singleQuote :: s) rest = singleQuote :: singleQuote :: written s rest := by
  rw [written, List.flatMap_cons, sqlEscape, if_pos rfl]
  rfl

theorem length_written (s rest : List Char) :
    (written s rest).length = s.length + s.count singleQuote + rest.length + 1 := by
  induction s with
  | nil => simp [written]
  | cons c s ih =>
    by_cases hquote : c = singleQuote
    · subst hquote
      simp only [written_quote, List.length_cons, List.count_cons_self, ih]
      omega
    · simp only [written_cons hquote, List.length_cons, List.count_cons_of_ne hquote, ih]
      omega

theorem prefix_written {front : List Char} (h : singleQuote ∉ front) (s rest : List Char) :
    front <+: written s rest ↔ front <+: s := by
  induction front generalizing s with
  | nil => simp
  | cons c front ih =>
    have hc : singleQuote ≠ c := fun heq => h (heq ▸ List.mem_cons_self)
    have hfront : singleQuote ∉ front := fun hmem => h (List.mem_cons_of_mem c hmem)
    cases s with
    | nil => simp [written, hc.symm]
    | cons d s =>
      by_cases hd : d = singleQuote
      · subst hd
        simp [written_quote, List.cons_prefix_cons, hc.symm]
      · rw [written_cons hd, List.cons_prefix_cons, List.cons_prefix_cons, ih hfront]

/-- Whether a backslash stands for itself is seen from the string that is written. -/
theorem keepsBackslash_written (s rest : List Char) :
    dialect.KeepsBackslash (written s rest) ↔ dialect.KeepsBackslash s := by
  have hiff {front : List Char} (h : singleQuote ∉ front) := prefix_written h s rest
  cases dialect with
  | mysql =>
    exact or_congr (hiff (by decide)) (hiff (by decide))
  | sqlserver =>
    exact not_congr (or_congr (hiff (by decide)) (hiff (by decide)))
  | postgres => rfl
  | sqlite => rfl
  | oracle => rfl

theorem stringFrom_written_iff {rest : List Char} (hrest : rest.head? ≠ some singleQuote)
    (s : List Char) :
    stringFrom dialect 0 (written s rest) = some (s, rest) ↔
      ∀ behind, backslash :: behind <:+ s → dialect.KeepsBackslash behind := by
  induction s with
  | nil =>
    have hread : stringFrom dialect 0 (written [] rest) = some ([], rest) := stringFrom_close hrest
    simp [hread]
  | cons c s ih =>
    have hcons {step : Option (List Char × List Char)} :
        (step.map fun (value, after) => (c :: value, after)) = some (c :: s, rest) ↔
          step = some (s, rest) := by
      simp [Option.map_eq_some_iff]
    have hsuffix : (∀ behind, backslash :: behind <:+ c :: s → dialect.KeepsBackslash behind) ↔
        (c = backslash → dialect.KeepsBackslash s) ∧
          ∀ behind, backslash :: behind <:+ s → dialect.KeepsBackslash behind := by
      simp only [List.suffix_cons_iff]
      grind
    rw [hsuffix, ← ih]
    by_cases hquote : c = singleQuote
    · subst hquote
      rw [written_quote, stringFrom_quotes, hcons]
      simp [singleQuote, backslash]
    · rw [written_cons hquote]
      by_cases hbackslash : c = backslash
      · subst hbackslash
        by_cases hkeeps : dialect.KeepsBackslash s
        · rw [stringFrom_of_keepsBackslash ((keepsBackslash_written s rest).mpr hkeeps), hcons]
          simp [hkeeps]
        · -- The value would be as long as the text allows only without this escape.
          have hlost : stringFrom dialect 0 (backslash :: written s rest) ≠
              some (backslash :: s, rest) := by
            intro hread
            have hlt := length_add_count_lt_of_not_keepsBackslash
              (mt (keepsBackslash_written s rest).mp hkeeps) hread
            rw [length_written] at hlt
            omega
          simp [hlost, hkeeps]
      · rw [stringFrom_other hquote hbackslash, hcons]
        simp [hbackslash]

/-- A string is read back from its literal exactly when each of its backslashes stands for
itself. -/
theorem string?_sqlLiteral_iff (s : String) {rest : List Char}
    (hrest : rest.head? ≠ some singleQuote) :
    string? dialect ((sqlLiteral s).toList ++ rest) = some (s.toList, rest) ↔
      ∀ behind, backslash :: behind <:+ s.toList → dialect.KeepsBackslash behind := by
  have htext : (sqlLiteral s).toList ++ rest = singleQuote :: written s.toList rest := by
    simp [sqlLiteral, enclose, written]
  rw [htext, string?, if_pos rfl, stringFrom_written_iff hrest]

/-- A backslash in front of the closing quote takes MySQL past the end of the literal. -/
example : string? .mysql (sqlLiteral "C:\\").toList = none := by
  decide

end Sql

namespace Renderer

/-- A constant string of a query is written as text that is read back as one string literal with
the string for its value, whatever follows that is no quote, exactly when each backslash of the
string stands for itself. MySQL takes a backslash for itself only in front of a wildcard, and SQL
Server unless a line ends behind it. -/
theorem strings_read_back_iff {α : Type} (r : Renderer α) (s : String) (bound : List α)
    {rest : List Char} (hrest : rest.head? ≠ some singleQuote) :
    ∃ text, (r.expr (.literal (.string s))).whole.run bound = .ok (text, bound) ∧
      (Sql.string? r.dialect (text.toList ++ rest) = some (s.toList, rest) ↔
        ∀ behind, backslash :: behind <:+ s.toList → r.dialect.KeepsBackslash behind) :=
  ⟨sqlLiteral s, rfl, Sql.string?_sqlLiteral_iff s hrest⟩

/-- A pattern for MySQL with a quote and an escaped wildcard, in front of the rest of its query. -/
theorem pattern_reads_back :
    " AND id = 1".toList.head? ≠ some singleQuote ∧
      ∃ text, (expr { dialect := .mysql, resolver := { ofVariable := .ok } }
        (.literal (.string "it's 5\\%"))).whole.run [] = .ok (text, []) ∧
      Sql.string? .mysql (text.toList ++ " AND id = 1".toList) =
        some ("it's 5\\%".toList, " AND id = 1".toList) := by
  have hrest : " AND id = 1".toList.head? ≠ some singleQuote := by decide
  obtain ⟨text, hrun, hread⟩ := strings_read_back_iff
    { dialect := .mysql, resolver := { ofVariable := Except.ok } } "it's 5\\%" [] hrest
  refine ⟨hrest, text, hrun, hread.mpr fun behind hbehind => ?_⟩
  have htext : "it's 5\\%".toList = ['i', 't', singleQuote, 's', ' ', '5', backslash, '%'] := rfl
  have hpercent : behind = ['%'] := by
    simpa [htext, List.suffix_cons_iff, singleQuote, backslash] using hbehind
  subst hpercent
  exact .inl (List.prefix_refl _)

end Renderer

end Sproc
