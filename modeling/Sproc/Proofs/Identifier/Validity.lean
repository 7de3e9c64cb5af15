import Sproc.Proofs.Identifier.Words

/-!
# Valid names

Whatever ASCII characters an identifier is made of, the Go names that come from it are made of
letters and digits, a variable starting with a small letter and a function with a capital. The words
of the identifier have no other characters, so only the start of a name can go wrong: where no word
is left, or where the first one starts with a digit, the name gets a start of its own.

The marker in front of a procedure name is cut off by counting bytes. In ASCII each character takes
one byte, so that the cut never falls inside of a character.

## Main definitions

* `Identifier.IsPlainName`: letters and digits of ASCII, of which the first is of a given kind

## Main results

* `Identifier.isPlainName_toLower`, `Identifier.isPlainName_goWord`: the cases of one word
* `Identifier.isPlainName_withStart`: a name with a start of its own, where it needs one
* `Identifier.exists_procedureBase`: a bare procedure name
* `Identifier.go_names_are_valid`
-/

namespace Sproc.Identifier

open Text

/-- The characters of the given kind, and digits. -/
def orDigit (first : Char → Bool) (c : Char) : Bool :=
  first c || c.isDigit

/-- Letters and digits of ASCII, of which the first is of the given kind. -/
def IsPlainName (first : Char → Bool) (name : String) : Prop :=
  (∃ c ∈ name.toList.head?, first c = true) ∧ ∀ c ∈ name.toList, c.isAlphanum = true

instance (first : Char → Bool) (name : String) : Decidable (IsPlainName first name) :=
  decidable_of_iff (name.toList.head?.any first = true ∧ name.toList.all Char.isAlphanum = true)
    (and_congr (Option.any_eq_true first _) List.all_eq_true)

variable {first : Char → Bool} {name word ident : String}

theorem IsPlainName.append (h : IsPlainName first name) {ending : String}
    (hending : ∀ c ∈ ending.toList, c.isAlphanum = true) : IsPlainName first (name ++ ending) := by
  obtain ⟨⟨c, hhead, hc⟩, hall⟩ := h
  rw [IsPlainName, String.toList_append]
  refine ⟨⟨c, ?_, hc⟩, List.forall_mem_append.mpr ⟨hall, hending⟩⟩
  rw [List.head?_append, Option.mem_def.mp hhead]
  rfl

/-! ## Words -/

/-- The words of an identifier of ASCII are made of letters and digits, and none is empty. -/
theorem isPlainName_of_mem_words (hident : ∀ c ∈ ident.toList, isAscii c = true)
    (hword : word ∈ words ident) : IsPlainName Char.isAlphanum word := by
  obtain ⟨cs, hcs, rfl⟩ := List.mem_map.mp hword
  have hall : ∀ c ∈ cs, c.isAlphanum = true := by
    intro c hc
    obtain ⟨hmem, halnum⟩ := mem_of_mem_splitChars hcs hc
    rwa [isAlphanumeric_of_isAscii (hident c hmem)] at halnum
  obtain ⟨c, rest, rfl⟩ := List.exists_cons_of_ne_nil (ne_nil_of_mem_splitChars hcs)
  rw [IsPlainName, String.toList_ofList]
  exact ⟨⟨c, rfl, hall c List.mem_cons_self⟩, hall⟩

theorem IsPlainName.exists_cons (h : IsPlainName first word) :
    ∃ c rest, word.toList = c :: rest ∧ c.isAlphanum = true ∧
      ∀ d ∈ rest, d.isAlphanum = true := by
  obtain ⟨⟨c, hhead, -⟩, hall⟩ := h
  obtain ⟨rest, hlist⟩ := List.head?_eq_some_iff.mp hhead
  rw [hlist] at hall
  exact ⟨c, rest, hlist, List.forall_mem_cons.mp hall⟩

theorem isPlainName_toLower (h : IsPlainName Char.isAlphanum word) :
    IsPlainName (orDigit Char.isLower) (toLower word) := by
  have hascii : ∀ c ∈ word.toList, isAscii c = true := fun c hc => isAscii_of_isAlphanum (h.2 c hc)
  obtain ⟨c, rest, hlist, hc, hrest⟩ := h.exists_cons
  have hsmall : orDigit Char.isLower c.toLower = true :=
    of_isAscii (p := fun c => c.isAlphanum = true → orDigit Char.isLower c.toLower = true)
      (by decide) (isAscii_of_isAlphanum hc) hc
  rw [IsPlainName, toList_toLower_of_isAscii hascii, hlist]
  refine ⟨⟨c.toLower, rfl, hsmall⟩, List.forall_mem_map.mpr ?_⟩
  exact List.forall_mem_cons.mpr
    ⟨isAlphanum_toLower hc, fun d hd => isAlphanum_toLower (hrest d hd)⟩

theorem isPlainName_capitalize (h : IsPlainName Char.isAlphanum word) :
    IsPlainName (orDigit Char.isUpper) (capitalize word) := by
  obtain ⟨c, rest, hlist, hc, hrest⟩ := h.exists_cons
  have hcapital : orDigit Char.isUpper c.toUpper = true :=
    of_isAscii (p := fun c => c.isAlphanum = true → orDigit Char.isUpper c.toUpper = true)
      (by decide) (isAscii_of_isAlphanum hc) hc
  have hfirst : upperChars c = [c.toUpper] := if_pos (isAscii_of_isAlphanum hc)
  have hsmall : rest.flatMap lowerChars = rest.map Char.toLower := by
    rw [List.map_eq_flatMap]
    exact List.flatMap_congr fun d hd => if_pos (isAscii_of_isAlphanum (hrest d hd))
  rw [IsPlainName, capitalize, hlist]
  dsimp only
  rw [String.toList_ofList, hfirst, hsmall, List.singleton_append]
  refine ⟨⟨c.toUpper, rfl, hcapital⟩, List.forall_mem_cons.mpr ⟨isAlphanum_toUpper hc, ?_⟩⟩
  exact List.forall_mem_map.mpr fun d hd => isAlphanum_toLower (hrest d hd)

theorem isPlainName_goWord (h : IsPlainName Char.isAlphanum word) :
    IsPlainName (orDigit Char.isUpper) (goWord word) := by
  have hknown : ∀ known ∈ initialisms, IsPlainName Char.isUpper known := by decide
  rw [goWord, initialism?]
  generalize hfound : List.find? _ initialisms = found
  cases found with
  | some known =>
    obtain ⟨⟨c, hhead, hcapital⟩, hall⟩ := hknown known (List.mem_of_find?_eq_some hfound)
    refine ⟨⟨c, hhead, ?_⟩, hall⟩
    rw [orDigit, hcapital, Bool.true_or]
  | none => exact isPlainName_capitalize h

theorem isAlphanum_join_goWord {list : List String}
    (h : ∀ word ∈ list, IsPlainName Char.isAlphanum word) :
    ∀ c ∈ (String.join (list.map goWord)).toList, c.isAlphanum = true := by
  intro c hc
  rw [String.toList_join] at hc
  obtain ⟨image, himage, hmem⟩ := List.mem_flatMap.mp hc
  obtain ⟨word, hword, rfl⟩ := List.mem_map.mp himage
  exact (isPlainName_goWord (h word hword)).2 c hmem

/-! ## Names -/

/-- The words of an identifier joined are a name, unless there is none; but the name may start with
a digit. -/
theorem camelCase_cases (hident : ∀ c ∈ ident.toList, isAscii c = true) :
    camelCase ident = "" ∨ IsPlainName (orDigit Char.isLower) (camelCase ident) := by
  have hwords := fun word => @isPlainName_of_mem_words word ident hident
  unfold camelCase
  split
  next => exact .inl rfl
  next word rest hlist =>
    rw [hlist, List.forall_mem_cons] at hwords
    exact .inr ((isPlainName_toLower hwords.1).append (isAlphanum_join_goWord hwords.2))

theorem pascalCase_cases (hident : ∀ c ∈ ident.toList, isAscii c = true) :
    pascalCase ident = "" ∨ IsPlainName (orDigit Char.isUpper) (pascalCase ident) := by
  have hwords := fun word => @isPlainName_of_mem_words word ident hident
  rw [pascalCase]
  cases hlist : words ident with
  | nil => exact .inl rfl
  | cons word rest =>
    rw [hlist, List.forall_mem_cons] at hwords
    rw [List.map_cons, String.join_cons]
    exact .inr ((isPlainName_goWord hwords.1).append (isAlphanum_join_goWord hwords.2))

/-- A name that is empty or starts with a digit gets a start of its own. -/
theorem isPlainName_withStart (empty front : String)
    (hname : name = "" ∨ IsPlainName (orDigit first) name)
    (hempty : IsPlainName first empty) (hfront : IsPlainName first front) :
    IsPlainName first
      (if name.isEmpty then empty else if startsWithDigit name then front ++ name else name) := by
  rcases hname with rfl | hname
  · exact hempty
  · obtain ⟨⟨c, hhead, hc⟩, hall⟩ := hname
    have hne : name.isEmpty = false := by
      cases hempty : name.isEmpty with
      | false => rfl
      | true =>
        obtain rfl := String.isEmpty_iff.mp hempty
        cases hhead
    rw [hne, if_neg (by decide)]
    have hdigit : startsWithDigit name = c.isDigit := by
      rw [startsWithDigit, Option.mem_def.mp hhead, Option.any_some]
    rw [hdigit]
    split
    next => exact hfront.append hall
    next hletter =>
      refine ⟨⟨c, hhead, ?_⟩, hall⟩
      simpa [orDigit, hletter] using hc

/-! ## Procedure names -/

/-- Bytes of ASCII are counted off like characters. -/
theorem splitBytes?_of_isAscii {cs : List Char} (hcs : ∀ c ∈ cs, isAscii c = true) {n : Nat}
    (hn : n ≤ cs.length) : splitBytes? n cs = some (cs.take n, cs.drop n) := by
  induction n generalizing cs with
  | zero => rw [splitBytes?, List.take_zero, List.drop_zero]
  | succ n ih =>
    cases cs with
    | nil => cases hn
    | cons c cs =>
      obtain ⟨hc, hcs⟩ := List.forall_mem_cons.mp hcs
      have hsize := utf8Size_of_isAscii hc
      rw [splitBytes?, if_pos (by omega), hsize, Nat.add_sub_cancel,
        ih hcs (Nat.le_of_succ_le_succ hn)]
      rfl

/-- A marker is cut off or not there; the cut never falls inside of a character. -/
theorem exists_cutMarker (marker : String) {base : String}
    (hbase : ∀ c ∈ base.toList, isAscii c = true) :
    ∃ cut : Option String, cutMarker marker base = .ok cut ∧
      ∀ rest ∈ cut, rest.toList ⊆ base.toList := by
  have hsize : base.utf8ByteSize = base.toList.length := by
    rw [← utf8ByteSize_of_isAscii hbase, String.ofList_toList]
  rw [cutMarker, hsize]
  split
  next => exact ⟨none, rfl, nofun⟩
  next hlong =>
    rw [splitBytes?_of_isAscii hbase (by omega)]
    refine ⟨_, rfl, ?_⟩
    intro rest hrest
    split at hrest
    · obtain rfl := Option.some.inj hrest
      rw [String.toList_ofList]
      exact List.drop_subset _ _
    · cases hrest

theorem toList_baseName_subset (name : String) : (baseName name).toList ⊆ name.toList := by
  intro c hc
  simp only [baseName, stripBrackets, lastPart, dropEnd, dropStart, String.toList_ofList,
    List.mem_reverse] at hc
  have hmem := List.dropWhile_subset _ (List.mem_reverse.mp (List.dropWhile_subset _ hc))
  exact List.mem_reverse.mp (List.takeWhile_subset _ (List.mem_reverse.mp hmem))

/-- A procedure has a bare name, of characters of its own name. -/
theorem exists_procedureBase (hname : ∀ c ∈ name.toList, isAscii c = true) :
    ∃ base, procedureBase name = .ok base ∧ ∀ c ∈ base.toList, isAscii c = true := by
  have hsubset := toList_baseName_subset name
  have hbase : ∀ c ∈ (baseName name).toList, isAscii c = true := fun c hc => hname c (hsubset hc)
  obtain ⟨long, hlong, hlongRest⟩ := exists_cutMarker "usp_" hbase
  obtain ⟨short, hshort, hshortRest⟩ := exists_cutMarker "sp_" hbase
  rw [procedureBase]
  simp only [hlong, hshort, bind, Except.bind, pure, Except.pure]
  cases long with
  | some rest => exact ⟨rest, rfl, fun c hc => hbase c (hlongRest rest rfl hc)⟩
  | none =>
    cases short with
    | some rest => exact ⟨rest, rfl, fun c hc => hbase c (hshortRest rest rfl hc)⟩
    | none => exact ⟨baseName name, rfl, hbase⟩

/-- From every text of ASCII come a name of a Go variable, which starts with a small letter, and a
name of a Go function, which starts with a capital. -/
theorem go_names_are_valid (name : String) (hname : ∀ c ∈ name.toList, isAscii c = true) :
    IsPlainName Char.isLower (variableName name) ∧
      ∃ goName, functionName name = .ok goName ∧ IsPlainName Char.isUpper goName := by
  constructor
  · exact isPlainName_withStart "v" "v" (camelCase_cases hname) (by decide) (by decide)
  · obtain ⟨base, hbase, hascii⟩ := exists_procedureBase hname
    refine ⟨_, ?_, isPlainName_withStart "Procedure" "Proc"
      (pascalCase_cases hascii) (by decide) (by decide)⟩
    simp only [functionName, hbase, bind, Except.bind]
    split
    · rfl
    · split <;> rfl

/-- A digit behind the marker is no start of a name. -/
theorem usp_2fa_check_names_are_valid :
    (∀ c ∈ "[dbo].[usp_2fa check]".toList, isAscii c = true) ∧
      IsPlainName Char.isLower (variableName "[dbo].[usp_2fa check]") ∧
      ∃ goName, functionName "[dbo].[usp_2fa check]" = .ok goName ∧
        IsPlainName Char.isUpper goName := by
  have hascii : ∀ c ∈ "[dbo].[usp_2fa check]".toList, isAscii c = true :=
    List.all_eq_true.mp (by decide)
  exact ⟨hascii, go_names_are_valid "[dbo].[usp_2fa check]" hascii⟩

end Sproc.Identifier
