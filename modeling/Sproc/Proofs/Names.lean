import Mathlib.Data.List.Perm.Subperm
import Sproc.Proofs.Go.Reading
import Sproc.Proofs.Identifier.Words
import Sproc.Symbol

/-!
# Go names of variables

A variable of a procedure gets a Go name that is made of the words of its own name. Whatever that
name is, the Go name is an identifier and no keyword; and since a name that is taken is numbered
until it is free, no two variables of a table share one.

## Main definitions

* `SymbolTable.Built`: the tables that declarations and reservations produce
* `SymbolTable.Avoids`: no variable has one of some names

## Main results

* `Identifier.variableName_chars`: the characters of Go names
* `SymbolTable.exists_freshGoName`: the three forms of a Go name
* `SymbolTable.exists_isTaken_eq_false`, `SymbolTable.isTaken_freshGoName`: one of the numbers is
  free
* `SymbolTable.Built.isName`, `SymbolTable.Built.nodup`: what holds of every table
-/

namespace Sproc

open Go

/-! ## Characters -/

namespace Text

theorem isNameChar_of_isAlphanumeric {c : Char} (h : isAlphanumeric c = true) :
    isNameChar c = true := by
  by_cases hascii : isAscii c
  · simp only [isAlphanumeric, isAlphabetic, isNumeric, if_pos hascii] at h
    simp [isNameChar, Char.isAlphanum, h]
  · have hbeyond : 0x80 ≤ c.toNat := by simpa [isAscii] using hascii
    simp [isNameChar, hbeyond]

/-- Whether the images of a run of code points can stand in names: they lie beyond ASCII and are
characters, or the run is a single letter. -/
def CaseShift.keepsNames (shift : CaseShift) : Bool :=
  let low := shift.run.first + shift.delta
  let high := shift.run.last + shift.delta
  (0x80 ≤ low && (high < 0xD800 || (0xDFFF < low && high < 0x110000))) ||
    (shift.run.first == shift.run.last && isNameChar (Char.ofNat low.toNat))

theorem CaseShift.isNameChar_image {shift : CaseShift} (h : shift.keepsNames = true) {n : Nat}
    (hn : shift.run.contains n = true) : isNameChar (Char.ofNat (n + shift.delta).toNat) = true := by
  simp only [CodePointRun.contains, Bool.and_eq_true, decide_eq_true_eq] at hn
  simp only [keepsNames, Bool.or_eq_true, Bool.and_eq_true, decide_eq_true_eq, beq_iff_eq] at h
  rcases h with ⟨hlow, hvalid⟩ | ⟨hsingle, himage⟩
  · have hchar : (n + shift.delta).toNat.isValidChar := by
      unfold Nat.isValidChar
      omega
    have hnat : (Char.ofNat (n + shift.delta).toNat).toNat = (n + shift.delta).toNat := by
      rw [Char.ofNat, dif_pos hchar]
      rfl
    have hbeyond : 0x80 ≤ (n + shift.delta).toNat := by omega
    simp [isNameChar, hnat, hbeyond]
  · obtain rfl : n = shift.run.first := by omega
    exact himage

theorem isNameChar_of_mem_mapCase {shifts : List CaseShift} {expansions : List (Nat × List Nat)}
    (hshifts : shifts.all (·.keepsNames) = true)
    (hexpansions : expansions.all (·.2.all fun n => isNameChar (Char.ofNat n)) = true) {c d : Char}
    (hc : isNameChar c = true) (hd : d ∈ mapCase shifts expansions c) : isNameChar d = true := by
  unfold mapCase at hd
  split at hd
  next image himage =>
    obtain ⟨n, hn, rfl⟩ := List.mem_map.mp hd
    obtain ⟨front, back, rfl, -⟩ := List.lookup_eq_some_iff.mp himage
    have hmem : (c.toNat, image) ∈ front ++ (c.toNat, image) :: back := by simp
    exact List.all_eq_true.mp (List.all_eq_true.mp hexpansions _ hmem) n hn
  next =>
    split at hd
    next shift hshift =>
      obtain rfl := List.mem_singleton.mp hd
      have hrun : shift.run.contains c.toNat = true := by simpa using List.find?_some hshift
      refine CaseShift.isNameChar_image ?_ hrun
      exact List.all_eq_true.mp hshifts _ (List.mem_of_find?_eq_some hshift)
    next =>
      obtain rfl := List.mem_singleton.mp hd
      exact hc

/-- A change of case keeps the characters of names if its ASCII part and its table do. -/
theorem isNameChar_of_mem_change {ascii : Char → Char} {shifts : List CaseShift}
    {expansions : List (Nat × List Nat)}
    (hascii : ∀ n < 128, isNameChar (Char.ofNat n) = true → isNameChar (ascii (Char.ofNat n)) = true)
    (hshifts : shifts.all (·.keepsNames) = true)
    (hexpansions : expansions.all (·.2.all fun n => isNameChar (Char.ofNat n)) = true) {c d : Char}
    (hc : isNameChar c = true)
    (hd : d ∈ if isAscii c then [ascii c] else mapCase shifts expansions c) :
    isNameChar d = true := by
  split at hd
  next hsmall =>
    obtain rfl := List.mem_singleton.mp hd
    have hword := hascii c.toNat (by simpa [isAscii] using hsmall)
    rw [Char.ofNat_toNat] at hword
    exact hword hc
  next => exact isNameChar_of_mem_mapCase hshifts hexpansions hc hd

/-- Neither change of case leads out of the characters of names. -/
theorem isNameChar_of_mem_cased {c d : Char} (hc : isNameChar c = true)
    (hd : d ∈ lowerChars c ∨ d ∈ upperChars c) : isNameChar d = true :=
  hd.elim (isNameChar_of_mem_change (by decide) (by decide) (by decide) hc)
    (isNameChar_of_mem_change (by decide) (by decide) (by decide) hc)

theorem isNameChar_of_mem_lowerFrom {before cs : List Char} (hcs : ∀ c ∈ cs, isNameChar c = true) :
    ∀ d ∈ lowerFrom before cs, isNameChar d = true := by
  induction cs generalizing before with
  | nil => nofun
  | cons c rest ih =>
    rw [List.forall_mem_cons] at hcs
    unfold lowerFrom
    refine List.forall_mem_append.mpr ⟨?_, ih hcs.2⟩
    split
    · split <;> exact List.forall_mem_singleton.mpr (by decide)
    · exact fun d hd => isNameChar_of_mem_cased hcs.1 (.inl hd)

end Text

/-! ## Words -/

namespace Identifier

/-- The words of an identifier are made of letters and numbers. -/
theorem isNameChar_of_mem_words {ident word : String} (hword : word ∈ words ident) {c : Char}
    (hc : c ∈ word.toList) : isNameChar c = true := by
  obtain ⟨cs, hcs, rfl⟩ := List.mem_map.mp hword
  rw [String.toList_ofList] at hc
  exact Text.isNameChar_of_isAlphanumeric (mem_of_mem_splitChars hcs hc).2

theorem isNameChar_of_mem_goWord {word : String} (hword : ∀ c ∈ word.toList, isNameChar c = true) :
    ∀ c ∈ (goWord word).toList, isNameChar c = true := by
  unfold goWord initialism?
  dsimp only
  generalize hfound : List.find? _ initialisms = found
  cases found with
  | some known =>
    have hall : (initialisms.all fun known => known.toList.all isNameChar) = true := by decide
    exact List.all_eq_true.mp
      (List.all_eq_true.mp hall known (List.mem_of_find?_eq_some hfound))
  | none =>
    rw [Option.getD_none, capitalize]
    split
    next => nofun
    next first rest hlist =>
      rw [hlist, List.forall_mem_cons] at hword
      rw [String.toList_ofList]
      refine List.forall_mem_append.mpr ⟨fun d hd => Text.isNameChar_of_mem_cased hword.1 (.inr hd), ?_⟩
      intro d hd
      obtain ⟨c, hc, himage⟩ := List.mem_flatMap.mp hd
      exact Text.isNameChar_of_mem_cased (hword.2 c hc) (.inl himage)

theorem isNameChar_of_mem_camelCase {ident : String} :
    ∀ c ∈ (camelCase ident).toList, isNameChar c = true := by
  have hwords := @isNameChar_of_mem_words ident
  unfold camelCase
  split
  next => nofun
  next first rest hlist =>
    rw [hlist] at hwords
    rw [String.toList_append]
    refine List.forall_mem_append.mpr ⟨?_, ?_⟩
    · rw [Text.toLower, String.toList_ofList]
      exact Text.isNameChar_of_mem_lowerFrom fun c => hwords List.mem_cons_self
    · rw [String.toList_join]
      intro c hc
      obtain ⟨word, hword, hmem⟩ := List.mem_flatMap.mp hc
      obtain ⟨source, hsource, rfl⟩ := List.mem_map.mp hword
      exact isNameChar_of_mem_goWord
        (fun c => hwords (List.mem_cons_of_mem first hsource)) c hmem

/-- The Go variable for a name is made of letters and numbers and starts with a letter. -/
theorem variableName_chars (ident : String) :
    (∀ c ∈ (variableName ident).toList, isNameChar c = true) ∧
      ∃ c ∈ (variableName ident).toList.head?, c.isDigit = false := by
  have hcamel := @isNameChar_of_mem_camelCase ident
  unfold variableName
  dsimp only
  split
  · exact ⟨List.all_eq_true.mp rfl, 'v', rfl, rfl⟩
  · split
    next =>
      rw [String.toList_append]
      exact ⟨List.forall_mem_append.mpr ⟨List.all_eq_true.mp rfl, hcamel⟩, 'v', rfl, rfl⟩
    next hne hdigit =>
      refine ⟨hcamel, ?_⟩
      cases hlist : (camelCase ident).toList with
      | nil => simp_all
      | cons c rest =>
        refine ⟨c, rfl, ?_⟩
        simpa [startsWithDigit, hlist] using hdigit

end Identifier

/-! ## Marks and numbers -/

/-- A text with an ending that none of the given names has. -/
theorem append_notMem {ending : String} {names : List String}
    (h : ∀ name ∈ names, ¬ending.toList <:+ name.toList) (front : String) :
    front ++ ending ∉ names :=
  fun hmem => h _ hmem ⟨front.toList, String.toList_append.symm⟩

/-- A numbered text is none of the given names when these end in letters. -/
theorem append_toString_notMem {names : List String}
    (h : ∀ name ∈ names, name.toList.getLast?.all (!·.isDigit) = true) (base : String) (n : Nat) :
    base ++ toString n ∉ names := by
  intro hmem
  have hne : Nat.toDigits 10 n ≠ [] := Nat.toDigits_ne_nil
  have hlast : (base ++ toString n).toList.getLast? = some ((Nat.toDigits 10 n).getLast hne) := by
    rw [String.toList_append, Nat.toString_eq_repr, Nat.repr, String.toList_ofList,
      List.getLast?_append_of_ne_nil _ hne, List.getLast?_eq_some_getLast hne]
  have hdigit := Nat.isDigit_of_mem_toDigits (by decide) (by decide) (List.getLast_mem hne)
  have hletter := h _ hmem
  rw [hlast, Option.all_some, hdigit] at hletter
  cases hletter

/-- Different numbers make different names. -/
theorem append_toString_injective (base : String) {m n : Nat}
    (h : base ++ toString m = base ++ toString n) : m = n := by
  have hdigits : Nat.toDigits 10 m = Nat.toDigits 10 n := by
    have hlists := congrArg String.toList h
    rw [String.toList_append, String.toList_append] at hlists
    simpa [Nat.toString_eq_repr, Nat.repr] using List.append_cancel_left hlists
  calc
    m = Nat.ofDigitChars 10 (Nat.toDigits 10 m) 0 := Nat.ofDigitChars_ten_toDigits.symm
    _ = Nat.ofDigitChars 10 (Nat.toDigits 10 n) 0 := by rw [hdigits]
    _ = n := Nat.ofDigitChars_ten_toDigits

namespace SymbolTable

/-- The Go name of a variable as long as it is not taken. -/
def goBase (table : SymbolTable) (name : String) : String :=
  let plain := Identifier.variableName name
  if Identifier.isGoReserved plain || table.reserved.contains plain then plain ++ "Var" else plain

/-- A name that is taken is numbered. -/
theorem exists_freshGoName (table : SymbolTable) (name : String) :
    table.freshGoName name = table.goBase name ∨
      ∃ n : Nat, table.freshGoName name = table.goBase name ++ toString n := by
  unfold freshGoName
  dsimp only
  rw [← goBase]
  split
  · exact .inl rfl
  · generalize hfound : List.find? _ _ = found
    cases found with
    | none => exact .inl rfl
    | some candidate =>
      obtain ⟨n, -, rfl⟩ := List.mem_map.mp (List.mem_of_find?_eq_some hfound)
      exact .inr ⟨n + 2, rfl⟩

/-- A name that the table keeps from being taken, and that neither the mark nor a number can lead
to, is not the name of a variable. -/
theorem freshGoName_notMem {table : SymbolTable} {names : List String}
    (hkept : ∀ plain ∈ names, plain ∈ Identifier.goReserved ∨ plain ∈ table.reserved)
    (hmark : ∀ name ∈ names, ¬"Var".toList <:+ name.toList)
    (hnumber : ∀ name ∈ names, name.toList.getLast?.all (!·.isDigit) = true) (name : String) :
    table.freshGoName name ∉ names := by
  rcases table.exists_freshGoName name with heq | ⟨n, heq⟩
  · rw [heq, goBase]
    split
    · exact append_notMem hmark _
    next hfree =>
      intro hmem
      refine hfree ?_
      simpa [Identifier.isGoReserved] using hkept _ hmem
  · rw [heq]
    exact append_toString_notMem hnumber _ n

/-- Of one number more than there are variables, in a row, one makes a name that is free. -/
theorem exists_isTaken_eq_false (table : SymbolTable) (base : String) (first : Nat) :
    ∃ k ≤ table.symbols.length, table.isTaken (base ++ toString (first + k)) = false := by
  by_contra hnone
  let candidates := (List.range (table.symbols.length + 1)).map fun k => base ++ toString (first + k)
  have hnodup : candidates.Nodup :=
    List.Pairwise.map _ (fun m n hne heq => hne (by
      have := append_toString_injective base heq
      omega)) List.nodup_range
  have hall : candidates ⊆ table.symbols.map (·.goName) := by
    intro candidate hmem
    obtain ⟨k, hk, rfl⟩ := List.mem_map.mp hmem
    have htaken : table.isTaken (base ++ toString (first + k)) = true := by
      by_contra hfree
      exact hnone ⟨k, Nat.le_of_lt_succ (List.mem_range.mp hk), by simpa using hfree⟩
    simpa [isTaken] using htaken
  have hlength := (List.subperm_of_subset hnodup hall).length_le
  rw [List.length_map, List.length_map, List.length_range] at hlength
  exact Nat.not_succ_le_self _ hlength

/-- The Go name of a further variable is free: there are more numbers than variables. -/
theorem isTaken_freshGoName (table : SymbolTable) (name : String) :
    table.isTaken (table.freshGoName name) = false := by
  unfold freshGoName
  dsimp only
  rw [← goBase]
  generalize table.goBase name = base
  split
  next hfree => simpa using hfree
  next =>
    generalize hfound : List.find? _ _ = found
    cases found with
    | some candidate => simpa using List.find?_some hfound
    | none =>
      obtain ⟨k, hk, hfree⟩ := table.exists_isTaken_eq_false base 2
      have hmem : base ++ toString (2 + k) ∈
          (List.range (table.symbols.length + 1)).map fun n => base ++ toString (n + 2) :=
        List.mem_map.mpr ⟨k, List.mem_range.mpr (Nat.lt_succ_of_le hk), by rw [Nat.add_comm]⟩
      have htaken : table.isTaken (base ++ toString (2 + k)) = true := by
        simpa using List.find?_eq_none.mp hfound _ hmem
      exact absurd (hfree.symm.trans htaken) Bool.false_ne_true

/-- An ending of letters and digits keeps a name an identifier. -/
theorem chars_append {front ending : String}
    (hfront : (∀ c ∈ front.toList, isNameChar c = true) ∧
      ∃ c ∈ front.toList.head?, c.isDigit = false)
    (hending : ∀ c ∈ ending.toList, isNameChar c = true) :
    (∀ c ∈ (front ++ ending).toList, isNameChar c = true) ∧
      ∃ c ∈ (front ++ ending).toList.head?, c.isDigit = false := by
  obtain ⟨hall, c, hc, hdigit⟩ := hfront
  rw [String.toList_append]
  refine ⟨List.forall_mem_append.mpr ⟨hall, hending⟩, c, ?_, hdigit⟩
  rw [List.head?_append, Option.mem_def.mp hc]
  rfl

/-- Numbers are written in digits. -/
theorem isNameChar_of_mem_toString {n : Nat} {c : Char} (hc : c ∈ (toString n).toList) :
    isNameChar c = true := by
  rw [Nat.toString_eq_repr, Nat.repr, String.toList_ofList] at hc
  have hdigit := Nat.isDigit_of_mem_toDigits (by decide) (by decide) hc
  simp [isNameChar, Char.isAlphanum, hdigit]

/-- The Go name of a variable is an identifier. -/
theorem isName_freshGoName (table : SymbolTable) (name : String) :
    IsName (table.freshGoName name) := by
  have hbase : (∀ c ∈ (table.goBase name).toList, isNameChar c = true) ∧
      ∃ c ∈ (table.goBase name).toList.head?, c.isDigit = false := by
    unfold goBase
    dsimp only
    split
    · exact chars_append (Identifier.variableName_chars name) (List.all_eq_true.mp rfl)
    · exact Identifier.variableName_chars name
  have hchars : (∀ c ∈ (table.freshGoName name).toList, isNameChar c = true) ∧
      ∃ c ∈ (table.freshGoName name).toList.head?, c.isDigit = false := by
    rcases table.exists_freshGoName name with heq | ⟨n, heq⟩
    · rwa [heq]
    · rw [heq]
      exact chars_append hbase fun c hc => isNameChar_of_mem_toString hc
  have hreserved : ∀ word ∈ keywords, word ∈ Identifier.goReserved := by decide
  exact ⟨hchars.2, hchars.1, freshGoName_notMem (fun word hword => .inl (hreserved word hword))
    (by decide) (by decide) name⟩

/-- A declaration succeeds for a new name of a known type, and puts the variable behind the
others. -/
theorem declare_eq_ok_iff {table other : SymbolTable} {name type : String} {kind : SymbolKind}
    {symbol : Symbol} : table.declare name type kind = .ok (symbol, other) ↔
      table.contains name = false ∧
        (∃ info, TypeName.classify type = .ok info ∧
          symbol = ⟨name, table.freshGoName name, info, kind⟩) ∧
        other = { table with symbols := table.symbols ++ [symbol] } := by
  unfold declare
  cases hcontains : table.contains name with
  | true => simp [throw, throwThe, MonadExceptOf.throw, bind, Except.bind]
  | false =>
    cases hinfo : TypeName.classify type with
    | error fault => simp [bind, Except.bind]
    | ok info =>
      simp only [bind, Except.bind, pure, Except.pure]
      grind

/-- A table that declarations and reservations have produced. -/
inductive Built : SymbolTable → Prop
  | start : Built {}
  | reserve {table : SymbolTable} (name : String) : Built table → Built (table.reserve name)
  | declare {table other : SymbolTable} {name type : String} {kind : SymbolKind}
    {symbol : Symbol} : Built table → table.declare name type kind = .ok (symbol, other) →
    Built other

/-- Some names are kept from being taken, and no variable has one of them. -/
structure Avoids (table : SymbolTable) (names : List String) : Prop where
  kept : names ⊆ table.reserved
  free : ∀ symbol ∈ table.symbols, symbol.goName ∉ names

/-- Further names may be kept from being taken. -/
theorem Avoids.reserve {table : SymbolTable} {names : List String} (h : table.Avoids names)
    (name : String) : (table.reserve name).Avoids names :=
  ⟨fun _ hname => List.mem_append_left _ (h.kept hname), h.free⟩

/-- Names are avoided for good, as long as neither the mark nor a number can lead to them. -/
theorem Avoids.declare {table other : SymbolTable} {names : List String} {name type : String}
    {kind : SymbolKind} {symbol : Symbol} (h : table.Avoids names)
    (hmark : ∀ name ∈ names, ¬"Var".toList <:+ name.toList)
    (hnumber : ∀ name ∈ names, name.toList.getLast?.all (!·.isDigit) = true)
    (hdeclare : table.declare name type kind = .ok (symbol, other)) : other.Avoids names := by
  obtain ⟨-, ⟨info, -, rfl⟩, rfl⟩ := declare_eq_ok_iff.mp hdeclare
  refine ⟨h.kept, List.forall_mem_append.mpr ⟨h.free, List.forall_mem_singleton.mpr ?_⟩⟩
  exact freshGoName_notMem (fun plain hplain => .inr (h.kept hplain)) hmark hnumber _

/-- Every variable has an identifier for its Go name. -/
theorem Built.isName {table : SymbolTable} (h : table.Built) :
    ∀ symbol ∈ table.symbols, IsName symbol.goName := by
  induction h with
  | start => nofun
  | reserve name _ ih => exact ih
  | @declare table other name type kind symbol _ hdeclare ih =>
    obtain ⟨-, ⟨info, -, rfl⟩, rfl⟩ := declare_eq_ok_iff.mp hdeclare
    exact List.forall_mem_append.mpr
      ⟨ih, List.forall_mem_singleton.mpr (table.isName_freshGoName name)⟩

/-- A declaration keeps the Go names apart. -/
theorem nodup_goName_declare {table other : SymbolTable} {name type : String} {kind : SymbolKind}
    {symbol : Symbol} (hnodup : (table.symbols.map (·.goName)).Nodup)
    (hdeclare : table.declare name type kind = .ok (symbol, other)) :
    (other.symbols.map (·.goName)).Nodup := by
  obtain ⟨-, ⟨info, -, rfl⟩, rfl⟩ := declare_eq_ok_iff.mp hdeclare
  have hfree := table.isTaken_freshGoName name
  rw [List.map_append, List.nodup_append]
  refine ⟨hnodup, List.pairwise_singleton _ _, ?_⟩
  rintro taken hmem fresh hfresh rfl
  obtain rfl := List.mem_singleton.mp hfresh
  obtain ⟨symbol, hsymbol, hname⟩ := List.mem_map.mp hmem
  refine absurd hfree ?_
  rw [isTaken, Bool.not_eq_false, List.any_eq_true]
  exact ⟨symbol, hsymbol, by simpa using hname⟩

/-- No two variables share a Go name. -/
theorem Built.nodup {table : SymbolTable} (h : table.Built) :
    (table.symbols.map (·.goName)).Nodup := by
  induction h with
  | start => exact List.nodup_nil
  | reserve name _ ih => exact ih
  | declare _ hdeclare ih => exact nodup_goName_declare ih hdeclare

/-- Variables that differ in some text are found by it. -/
theorem find?_of_nodup {symbols : List Symbol} {text : Symbol → String}
    (hnodup : (symbols.map text).Nodup) {symbol : Symbol} (hmem : symbol ∈ symbols) :
    symbols.find? (text · == text symbol) = some symbol := by
  obtain ⟨front, back, rfl⟩ := List.append_of_mem hmem
  rw [List.map_append, List.nodup_append] at hnodup
  refine List.find?_eq_some_iff_append.mpr ⟨beq_self_eq_true _, front, back, rfl, fun other hother => ?_⟩
  have hne := hnodup.2.2 (text other) (List.mem_map_of_mem hother) (text symbol) List.mem_cons_self
  simpa using hne

/-- A variable is found by its Go name. -/
theorem Built.find?_goName {table : SymbolTable} (h : table.Built) {symbol : Symbol}
    (hmem : symbol ∈ table.symbols) :
    table.symbols.find? (·.goName == symbol.goName) = some symbol :=
  find?_of_nodup h.nodup hmem

end SymbolTable

end Sproc
