import Sproc.Proofs.Query.Grouping

/-!
# Names of several parts

A name of a table or column may have several parts, joined by dots. In T-SQL a part may stand in
brackets, where a closing bracket is written twice; a part with a dot or a bracket in it has to.
Query text shows the parts in the marks of its dialect, where they are needed.

A name is cut at its dots before brackets are looked at, and a doubled bracket is not made one
again. So the parts are read back from the query text exactly when none of them holds a dot or a
closing bracket.

## Main definitions

* `NamePart`: a part of a name, as it is written in T-SQL
* `multiPartName`: the parts joined

## Main results

* `Sql.lex_of_empty_mem`: where a part is lost, no name is read
* `NamePart.identifierPath_text`, `NamePart.two_le_length_identifierPath`: the parts that are found
* `Dialect.parts_read_back_iff`
-/

namespace Sproc

open Text

/-! ## Writing a name -/

/-- A part of a name. Without brackets it holds neither a dot nor a bracket. -/
structure NamePart where
  name : String
  bracketed : Bool
  name_ne_empty : name ≠ ""
  plain : bracketed = false → ∀ c ∈ name.toList, c ∉ ['.', '[', ']']

/-- A part as it is written in T-SQL. -/
def NamePart.text (part : NamePart) : String :=
  if part.bracketed then quoteName '[' ']' part.name else part.name

/-- The name that some parts make up. -/
def multiPartName (parts : List NamePart) : String :=
  String.intercalate "." (parts.map (·.text))

/-- Whether a part is found again: no dot cuts it, and no closing bracket in it was doubled. -/
def NamePart.IsFound (part : NamePart) : Prop :=
  '.' ∉ part.name.toList ∧ ']' ∉ part.name.toList

/-! ## Cutting at dots -/

theorem splitChars_append (separator : Char) (front back : List Char) :
    splitChars separator (front ++ separator :: back) =
      splitChars separator front ++ splitChars separator back := by
  induction front with
  | nil => exact if_pos rfl
  | cons c front ih =>
    rw [List.cons_append, splitChars, splitChars, ih]
    split
    · rfl
    · cases hfront : splitChars separator front with
      | nil => exact absurd hfront (splitChars_ne_nil separator front)
      | cons piece pieces => rfl

theorem splitChars_of_not_mem {separator : Char} {cs : List Char} (h : separator ∉ cs) :
    splitChars separator cs = [cs] := by
  induction cs with
  | nil => rfl
  | cons c cs ih =>
    obtain ⟨hc, hcs⟩ := not_or.mp (mt List.mem_cons.mpr h)
    rw [splitChars, if_neg (Ne.symm hc), ih hcs]

/-- Every other character stands in one of the pieces. -/
theorem exists_mem_splitChars {separator c : Char} (hc : c ≠ separator) {cs : List Char}
    (h : c ∈ cs) : ∃ piece ∈ splitChars separator cs, c ∈ piece := by
  induction cs with
  | nil => cases h
  | cons d cs ih =>
    rw [splitChars]
    split
    · next hd =>
      obtain ⟨piece, hpiece, hmem⟩ := ih (List.mem_of_ne_of_mem (hd ▸ hc) h)
      exact ⟨piece, List.mem_cons_of_mem _ hpiece, hmem⟩
    · cases hsplit : splitChars separator cs with
      | nil => exact absurd hsplit (splitChars_ne_nil separator cs)
      | cons piece pieces =>
        rcases List.mem_cons.mp h with rfl | hcs
        · exact ⟨_, List.mem_cons_self, List.mem_cons_self⟩
        · rw [hsplit] at ih
          obtain ⟨found, hfound, hmem⟩ := ih hcs
          rcases List.mem_cons.mp hfound with rfl | hothers
          · exact ⟨_, List.mem_cons_self, List.mem_cons_of_mem d hmem⟩
          · exact ⟨found, List.mem_cons_of_mem _ hothers, hmem⟩

theorem identifierPath_append (front back : String) :
    identifierPath (front ++ "." ++ back) = identifierPath front ++ identifierPath back := by
  have hchars : (front ++ "." ++ back).toList = front.toList ++ '.' :: back.toList := by simp
  simp only [identifierPath, splitOn, hchars, splitChars_append, List.map_append,
    List.filter_append]

/-- A name is taken apart part by part. -/
theorem identifierPath_multiPartName (first : NamePart) (others : List NamePart) :
    identifierPath (multiPartName (first :: others)) =
      (first :: others).flatMap fun part => identifierPath part.text := by
  induction others generalizing first with
  | nil => simp [multiPartName]
  | cons second others ih =>
    have htext : multiPartName (first :: second :: others) =
        first.text ++ "." ++ multiPartName (second :: others) := by
      simp [multiPartName, String.intercalate_cons_cons]
    rw [htext, identifierPath_append, ih]
    rfl

/-- A text that holds anything but dots has a part. -/
theorem one_le_length_identifierPath {text : String} {c : Char} (hc : c ≠ '.')
    (h : c ∈ text.toList) : 1 ≤ (identifierPath text).length := by
  obtain ⟨piece, hpiece, hmem⟩ := exists_mem_splitChars hc h
  have hne : (String.ofList piece).isEmpty = false := by
    cases piece with
    | nil => cases hmem
    | cons d piece => simp
  have hkept : String.ofList piece ∈ (splitOn '.' text).filter (!·.isEmpty) :=
    List.mem_filter.mpr ⟨List.mem_map_of_mem hpiece, by rw [hne]; rfl⟩
  rw [identifierPath, List.length_map]
  exact List.length_pos_of_mem hkept

theorem identifierPath_of_not_mem {text : String} (hne : text ≠ "") (h : '.' ∉ text.toList) :
    identifierPath text = [unbracket text] := by
  simp [identifierPath, splitOn, splitChars_of_not_mem h, hne]

/-! ## The parts that are found -/

/-- The characters of a name in brackets, where each closing bracket is written twice. -/
def doubled (cs : List Char) : List Char :=
  cs.flatMap fun c => if c = ']' then [c, c] else [c]

theorem length_doubled (cs : List Char) : (doubled cs).length = cs.length + cs.count ']' := by
  induction cs with
  | nil => rfl
  | cons c cs ih =>
    rw [doubled, List.flatMap_cons, List.length_append, ← doubled, ih]
    by_cases hc : c = ']'
    · subst hc
      simp
      omega
    · simp [hc, List.count_cons_of_ne hc]
      omega

theorem doubled_of_not_mem {cs : List Char} (h : ']' ∉ cs) : doubled cs = cs := by
  have hsingle : ∀ c ∈ cs, (if c = ']' then [c, c] else [c]) = [c] := by
    intro c hc
    exact if_neg (ne_of_mem_of_not_mem hc h)
  rw [doubled, List.flatMap_congr hsingle, List.flatMap_singleton']

theorem mem_doubled {c : Char} {cs : List Char} : c ∈ doubled cs ↔ c ∈ cs := by
  have hsingle (d : Char) : c ∈ (if d = ']' then [d, d] else [d]) ↔ c = d := by
    split <;> simp
  simp [doubled, hsingle]

theorem toList_quoteName (name : String) :
    (quoteName '[' ']' name).toList = '[' :: (doubled name.toList ++ [']']) := by
  simp [quoteName, doubled]

theorem unbracket_quoteName (name : String) :
    unbracket (quoteName '[' ']' name) = String.ofList (doubled name.toList) := by
  simp [unbracket, toList_quoteName, stripStart?, stripEnd?, restAfter?]

theorem unbracket_of_not_mem {text : String} (h : '[' ∉ text.toList) : unbracket text = text := by
  cases hcs : text.toList with
  | nil => simp [unbracket, stripStart?, restAfter?, hcs]
  | cons c cs =>
    have hc : '[' ≠ c := by
      rintro rfl
      simp [hcs] at h
    simp [unbracket, stripStart?, restAfter?, hcs, hc]

namespace NamePart

variable {part : NamePart}

theorem one_le_length_identifierPath_text (part : NamePart) :
    1 ≤ (identifierPath part.text).length := by
  cases hbracketed : part.bracketed with
  | true =>
    refine one_le_length_identifierPath (c := '[') (by decide) ?_
    simp [text, hbracketed, toList_quoteName]
  | false =>
    obtain ⟨c, hc⟩ := List.exists_mem_of_ne_nil part.name.toList
      (mt String.toList_eq_nil_iff.mp part.name_ne_empty)
    have hdot : c ≠ '.' := by
      rintro rfl
      simpa using part.plain hbracketed '.' hc
    exact one_le_length_identifierPath hdot (by simpa [text, hbracketed] using hc)

/-- A part without a dot is one part again, with its closing brackets doubled. -/
theorem identifierPath_text (hdot : '.' ∉ part.name.toList) :
    identifierPath part.text = [String.ofList (doubled part.name.toList)] := by
  cases hbracketed : part.bracketed with
  | true =>
    have htext : part.text = quoteName '[' ']' part.name := by simp [text, hbracketed]
    have hne : quoteName '[' ']' part.name ≠ "" := by
      simp [← String.toList_inj, toList_quoteName]
    rw [htext, identifierPath_of_not_mem hne, unbracket_quoteName]
    simpa [toList_quoteName, mem_doubled] using hdot
  | false =>
    have hplain := part.plain hbracketed
    have htext : part.text = part.name := by simp [text, hbracketed]
    have hopening : '[' ∉ part.name.toList := fun hmem => by simpa using hplain '[' hmem
    have hclosing : ']' ∉ part.name.toList := fun hmem => by simpa using hplain ']' hmem
    rw [htext, identifierPath_of_not_mem part.name_ne_empty hdot, unbracket_of_not_mem hopening,
      doubled_of_not_mem hclosing, String.ofList_toList]

/-- A dot cuts a part in two, which the brackets at both ends keep from being empty. -/
theorem two_le_length_identifierPath (hdot : '.' ∈ part.name.toList) :
    2 ≤ (identifierPath part.text).length := by
  have hbracketed : part.bracketed = true := by
    cases h : part.bracketed with
    | true => rfl
    | false => simpa using part.plain h '.' hdot
  obtain ⟨front, back, hcut⟩ := List.append_of_mem (mem_doubled.mpr hdot)
  have htext : part.text =
      String.ofList ('[' :: front) ++ "." ++ String.ofList (back ++ [']']) := by
    rw [← String.toList_inj]
    simp [text, hbracketed, toList_quoteName, hcut]
  -- Neither piece is dropped for being empty: each has a bracket.
  have hfront : 1 ≤ (identifierPath (String.ofList ('[' :: front))).length :=
    one_le_length_identifierPath (c := '[') (by decide) (by simp)
  have hback : 1 ≤ (identifierPath (String.ofList (back ++ [']']))).length :=
    one_le_length_identifierPath (c := ']') (by decide) (by simp)
  rw [htext, identifierPath_append, List.length_append]
  omega

/-- A part is found again exactly when it is the only part of its text. -/
theorem identifierPath_text_eq_iff (part : NamePart) :
    identifierPath part.text = [part.name] ↔ part.IsFound := by
  constructor
  · intro h
    have hdot : '.' ∉ part.name.toList := fun hmem => by
      have htwo := two_le_length_identifierPath hmem
      rw [h] at htwo
      simp at htwo
    refine ⟨hdot, fun hmem => ?_⟩
    rw [identifierPath_text hdot] at h
    have hlength := length_doubled part.name.toList
    have hcount := List.count_pos_iff.mpr hmem
    have hsame : doubled part.name.toList = part.name.toList := by
      simpa using congrArg String.toList (List.singleton_inj.mp h)
    rw [hsame] at hlength
    omega
  · intro h
    rw [identifierPath_text h.1, doubled_of_not_mem h.2, String.ofList_toList]

end NamePart

theorem length_le_length_flatMap {α β : Type} {f : α → List β} {list : List α}
    (h : ∀ x ∈ list, 1 ≤ (f x).length) : list.length ≤ (list.flatMap f).length := by
  induction list with
  | nil => exact Nat.le_refl 0
  | cons x list ih =>
    obtain ⟨hx, hlist⟩ := List.forall_mem_cons.mp h
    have hrest := ih hlist
    rw [List.flatMap_cons, List.length_append, List.length_cons]
    omega

/-- Lists of at least one element each make up a list of their own length only if each has one. -/
theorem flatMap_eq_map_iff {α β : Type} {f : α → List β} {g : α → β} {list : List α}
    (h : ∀ x ∈ list, 1 ≤ (f x).length) :
    list.flatMap f = list.map g ↔ ∀ x ∈ list, f x = [g x] := by
  induction list with
  | nil => simp
  | cons x list ih =>
    obtain ⟨hx, hlist⟩ := List.forall_mem_cons.mp h
    rw [List.flatMap_cons, List.map_cons, List.forall_mem_cons, ← ih hlist]
    constructor
    · intro heq
      have hlength := length_le_length_flatMap hlist
      have htotal := congrArg List.length heq
      rw [List.length_append, List.length_cons, List.length_map] at htotal
      obtain ⟨y, hy⟩ := List.length_eq_one_iff.mp (by omega : (f x).length = 1)
      rw [hy, List.singleton_append] at heq
      obtain ⟨rfl, hrest⟩ := List.cons.inj heq
      exact ⟨hy, hrest⟩
    · rintro ⟨hfirst, hothers⟩
      rw [hfirst, hothers, List.singleton_append]

/-! ## Reading the query text -/

namespace Sql

variable {dialect : Dialect}

theorem isWordStart_dot : isWordStart '.' = false := by
  decide

theorem ne_opening_dot : '.' ≠ dialect.opening := by
  cases dialect <;> decide

theorem spelled_empty : spelled dialect "" = "" := by
  have hquoting : needsQuoting "" = false := by decide
  rw [spelled, hquoting]
  rfl

/-- A dot does not stand behind a dot. -/
theorem lexFrom_dot_dot (next : Nat) (front : List String) (rest : List Char) :
    lexFrom dialect next (.dot front) ('.' :: rest) = none := by
  rw [lexFrom, Partial.push?, if_neg ne_opening_dot, isWordStart_dot]
  rfl

/-- A dot does not stand in front of a name. -/
theorem lex_dot (next : Nat) (rest : List Char) : lex dialect next ('.' :: rest) = none := by
  have hstart : Partial.start dialect '.' = .symbol ['.'] := by
    cases dialect <;> rfl
  have hfinish : (Partial.symbol ['.']).finish? next = none := rfl
  rw [lex_cons, hstart]
  cases rest with
  | nil => rw [lexFrom, hfinish]; rfl
  | cons c rest =>
    have hpush : (Partial.symbol ['.']).push? dialect c = none := by
      simp [Partial.push?, isSymbol, symbols]
    rw [lexFrom, hpush]
    dsimp only
    rw [hfinish]

/-- A part that is missing behind a dot breaks a name off. -/
theorem lexFrom_dot_eq_none (next : Nat) : ∀ {front path : List String}, "" ∈ path →
    lexFrom dialect next (.dot front)
      (String.intercalate "." (path.map (spelled dialect))).toList = none
  | front, [last], h => by
    obtain rfl := List.mem_singleton.mp h
    rw [List.map_singleton, String.intercalate_singleton, spelled_empty]
    rfl
  | front, first :: second :: others, h => by
    rw [toList_spelledPath]
    by_cases hfirst : first = ""
    · subst hfirst
      rw [spelled_empty]
      exact lexFrom_dot_dot next front _
    · obtain ⟨current, hread, hdot, -, -⟩ := lexFrom_part next front hfirst
      rw [hread, lexFrom, hdot]
      exact lexFrom_dot_eq_none next (List.mem_of_ne_of_mem (Ne.symm hfirst) h)

/-- Where a part is missing, the text is no name. -/
theorem lex_of_empty_mem (next : Nat) {path : List String} (h : "" ∈ path) (names : List String) :
    lex dialect next (String.intercalate "." (path.map (spelled dialect))).toList ≠
      some [.column names] := by
  obtain ⟨first, others, rfl⟩ := List.exists_cons_of_ne_nil (List.ne_nil_of_mem h)
  by_cases hfirst : first = ""
  · subst hfirst
    cases others with
    | nil =>
      rw [List.map_singleton, String.intercalate_singleton, spelled_empty]
      exact nofun
    | cons second others =>
      rw [toList_spelledPath, spelled_empty]
      exact fun hread => nomatch (lex_dot next _).symm.trans hread
  · have hnone := @lexFrom_dot_eq_none dialect next [] _ h
    obtain ⟨c, cs, hcs, hstart⟩ := @exists_path_cons dialect _ hfirst others
    rw [hcs] at hnone ⊢
    rw [lex_eq_dot next hstart, hnone]
    exact nofun

/-- The parts of a path are read back from its text exactly when none is missing. -/
theorem lex_path_iff (next : Nat) {path : List String} (hne : path ≠ []) (names : List String) :
    lex dialect next (String.intercalate "." (path.map (spelled dialect))).toList =
        some [.column names] ↔ "" ∉ path ∧ path = names := by
  by_cases hempty : "" ∈ path
  · exact iff_of_false (lex_of_empty_mem next hempty names) fun h => h.1 hempty
  · have hread : lex dialect next (String.intercalate "." (path.map (spelled dialect))).toList =
        some [.column path] := by
      have hends : Ends [] := fun c hc => nomatch hc
      have hpath := @lexes_path dialect next path hne
        (fun part hpart => ne_of_mem_of_not_mem hpart hempty) [] hends
      rw [List.append_nil] at hpath
      exact hpath
    rw [hread]
    simp [hempty]

end Sql

/-- A name of several parts, each with or without brackets, is written for every dialect as text
that is read back as these parts, exactly when no part holds a dot or a closing bracket. -/
theorem Dialect.parts_read_back_iff (dialect : Dialect) (first : NamePart)
    (others : List NamePart) (next : Nat) :
    Sql.lex dialect next (dialect.quoteIdentifier (multiPartName (first :: others))).toList =
        some [.column ((first :: others).map (·.name))] ↔
      ∀ part ∈ first :: others, part.IsFound := by
  have hpath : identifierPath (multiPartName (first :: others)) =
      (first :: others).flatMap fun part => identifierPath part.text :=
    identifierPath_multiPartName first others
  have hne : identifierPath (multiPartName (first :: others)) ≠ [] := by
    have hlength := length_le_length_flatMap
      fun part (_ : part ∈ first :: others) => part.one_le_length_identifierPath_text
    rw [← hpath] at hlength
    exact List.ne_nil_of_length_pos (by rw [List.length_cons] at hlength; omega)
  have hfound : (∀ part ∈ first :: others, part.IsFound) ↔
      identifierPath (multiPartName (first :: others)) = (first :: others).map (·.name) := by
    rw [hpath, flatMap_eq_map_iff fun part _ => part.one_le_length_identifierPath_text]
    simp only [NamePart.identifierPath_text_eq_iff]
  rw [Dialect.quoteIdentifier_eq, Sql.lex_path_iff next hne, hfound]
  constructor
  · exact fun h => h.2
  · intro h
    refine ⟨?_, h⟩
    rw [h]
    intro hmem
    obtain ⟨part, -, hname⟩ := List.mem_map.mp hmem
    exact part.name_ne_empty hname

/-- A dot in brackets cuts the part that holds it. -/
example : Sql.lex .mysql 1 (Dialect.mysql.quoteIdentifier "[Order.Details]").toList =
    some [.column ["[Order", "Details]"]] :=
  rfl

end Sproc
