import Sproc.Proofs.Go.Spelling

/-!
# How code groups

Code as a tree is one thing, its text another: the text shows parentheses only where the code has
them. Here is said which tree code stands for, and when its text is read as that tree.

The strength that code is given is kept by names, numbers, calls and parentheses, and by operators
whose operands bind tightly enough. Four things are asked of code besides. A number must be spelled
as one. A minus must not meet another one, as the two would be read as one operator. A row of tests
must not be empty, and a single test that stands for the row must bind as tightly as a comparison.
And no composite literal may stand open in a test.

## Main definitions

* `Go.Expr.tree`: the tree that code stands for
* `Go.Expr.isLegible`: what is asked of code
* `Go.Expr.Groups`: the text of legible code is read as its tree, with operators of a given strength

## Main results

* `Go.Expr.Groups.parse_eq`: code that groups is read as its tree
* `groups_name`, `groups_int`, `groups_str`, `groups_zero`: atoms
* `Groups.member`, `groups_call`, `Groups.paren`, `groups_choose`: primary code
* `Groups.not`, `Groups.minus`, `groups_binary`, `groups_chain`: operators
-/

namespace Sproc

open Go.Syntax

/-! ## Trees of code -/

namespace GoType

/-- A type as the result type of a function literal. -/
def resultType : GoType → ResultType
  | decimal => .named (.packaged "decimal" "Decimal")
  | time => .named (.packaged "time" "Time")
  | bytes => .slice "byte"
  | type => .named (.own type.name)

/-- The tree of the zero value. -/
def zeroTree : GoType → Tree
  | bool => .name "false"
  | uint8 | int16 | int32 | int64 | float32 | float64 => .number "0"
  | decimal => .select (.name "decimal") "Zero"
  | string => .text "\"\""
  | bytes => .name "nil"
  | time => .composite (.select (.name "time") "Time")

end GoType

namespace Go

/-- The tree of a number, where a minus in front is an operator. -/
def numberTree (spelling : String) : Tree :=
  match Text.stripStart? "-" spelling with
  | some digits => .unary "-" (.number digits)
  | none => .number spelling

/-- Whether a text is a number, perhaps with a minus in front. -/
def isSigned (s : String) : Bool :=
  isNumeral ((Text.stripStart? "-" s).getD s)

/-- The binding strength of a number. -/
def signLevel (s : String) : Nat :=
  if Text.beginsWith "-" s then 8 else 10

theorem eq_append_of_stripStart? {front s rest : String}
    (h : Text.stripStart? front s = some rest) : s = front ++ rest := by
  obtain ⟨cs, hcs, rfl⟩ := Option.map_eq_some_iff.mp h
  apply String.toList_inj.mp
  rw [String.toList_append, String.toList_ofList, Text.restAfter?_eq_some_iff.mp hcs]

/-- The tree of a type that a value is converted to. -/
def conversionTree (type : String) : Tree :=
  if type = "[]byte" then .slice "byte" else .name type

/-- The tree of operands that are joined by an operator, from the left. -/
def chainTree (symbol : String) : List Tree → Tree
  | [] => .other ""
  | first :: others => others.foldl (Tree.attach symbol) first

namespace Expr

mutual

/-- The tree that code stands for. Operands of conjunctions, and likewise of disjunctions, are
joined from the left. Code that is no value is left as text. -/
def tree : Expr → Tree
  | .name id => .name id
  | .int n => numberTree (toString n)
  | .number spelling => numberTree spelling
  | .bool b => .name (if b then "true" else "false")
  | .nil => .name "nil"
  | .str s => .text (Text.goLiteral s)
  | .zero type => type.zeroTree
  | .member owner field => .select owner.tree field
  | .call function args => .call function.tree (trees args)
  | .convert type operand => .call (conversionTree type) [operand.tree]
  | .unary op operand => .unary op.symbol operand.tree
  | .binary symbol left right => .attach symbol left.tree right.tree
  | .chain symbol operands => chainTree symbol (trees operands)
  | .paren operand => .paren operand.tree
  | .choose type arms otherwise =>
    .call (.function type.resultType.tree (armTrees arms) otherwise.tree) []
  | .query sql => .other (Text.queryLiteral sql)
  | .message package type fields => .other (render (.message package type fields))
  | .asError operand => .other (render (.asError operand))
  | .spread items => .other (render (.spread items))

/-- The trees of several expressions. -/
def trees : List Expr → List Tree
  | [] => []
  | e :: rest => e.tree :: trees rest

/-- The trees of tests and their results. -/
def armTrees : List (Expr × Expr) → List (Tree × Tree)
  | [] => []
  | (test, result) :: rest => (test.tree, result.tree) :: armTrees rest

end

mutual

/-- Whether a composite literal stands open in code. -/
def isExposed : Expr → Bool
  | .zero type => type == .time
  | .member owner _ => owner.isExposed
  | .call function _ => function.isExposed
  | .unary _ operand => operand.isExposed
  | .binary _ left right => left.isExposed || right.isExposed
  | .chain _ operands => anyExposed operands
  | _ => false

/-- Whether a composite literal stands open in one of several expressions. -/
def anyExposed : List Expr → Bool
  | [] => false
  | e :: rest => e.isExposed || anyExposed rest

end

mutual

/-- What is asked of code: numbers are spelled as such, no minus stands right in front of another
one, rows of tests are not empty and a single test binds at least as tightly as a comparison, and no
composite literal stands open in a test. -/
def isLegible : Expr → Bool
  | .number spelling => isSigned spelling
  | .member owner _ => owner.isLegible
  | .call function args => function.isLegible && areLegible args
  | .convert _ operand => operand.isLegible
  | .unary op operand =>
    (op != .neg || operand.render.toList.head? != some '-') && operand.isLegible
  | .binary _ left right => left.isLegible && right.isLegible
  | .chain _ operands =>
    !operands.isEmpty && (operands.length != 1 || (trees operands).all (3 ≤ ·.level)) &&
      areLegible operands
  | .paren operand => operand.isLegible
  | .choose _ arms otherwise => armsLegible arms && otherwise.isLegible
  | .message _ _ fields => fieldsLegible fields
  | .asError operand => operand.isLegible
  | .spread items => areLegible items
  | _ => true

/-- The same of several expressions. -/
def areLegible : List Expr → Bool
  | [] => true
  | e :: rest => e.isLegible && areLegible rest

/-- The same of tests and their results. -/
def armsLegible : List (Expr × Expr) → Bool
  | [] => true
  | (test, result) :: rest =>
    !test.isExposed && test.isLegible && result.isLegible && armsLegible rest

/-- The same of the fields of a message. -/
def fieldsLegible : List (String × Expr) → Bool
  | [] => true
  | (_, value) :: rest => value.isLegible && fieldsLegible rest

end

theorem renderList_eq (es : List Expr) : renderList es = es.map render := by
  induction es with
  | nil => rw [renderList, List.map_nil]
  | cons e rest ih => rw [renderList, ih, List.map_cons]

theorem trees_eq (es : List Expr) : trees es = es.map tree := by
  induction es with
  | nil => rw [trees, List.map_nil]
  | cons e rest ih => rw [trees, ih, List.map_cons]

theorem armTrees_eq (arms : List (Expr × Expr)) :
    armTrees arms = arms.map fun arm => (arm.1.tree, arm.2.tree) := by
  induction arms with
  | nil => rw [armTrees, List.map_nil]
  | cons arm rest ih => rw [armTrees, ih, List.map_cons]

theorem anyExposed_of_mem {es : List Expr} {e : Expr} (he : e ∈ es) (h : e.isExposed = true) :
    anyExposed es = true := by
  induction es with
  | nil => cases he
  | cons first rest ih =>
    rw [anyExposed, Bool.or_eq_true]
    rcases List.mem_cons.mp he with rfl | hrest
    · exact .inl h
    · exact .inr (ih hrest)

theorem areLegible_iff {es : List Expr} : areLegible es = true ↔ ∀ e ∈ es, e.isLegible = true := by
  induction es with
  | nil => simp [areLegible]
  | cons e rest ih => simp [areLegible, ih]

theorem armsLegible_iff {arms : List (Expr × Expr)} :
    armsLegible arms = true ↔ ∀ arm ∈ arms,
      arm.1.isExposed = false ∧ arm.1.isLegible = true ∧ arm.2.isLegible = true := by
  induction arms with
  | nil => simp [armsLegible]
  | cons arm rest ih => simp [armsLegible, ih, and_assoc]

theorem renderArms_eq (arms : List (Expr × Expr)) :
    (renderArms arms).toList = arms.flatMap fun arm => "if ".toList ++ (arm.1.render.toList ++
      (" \x7b return ".toList ++ (arm.2.render.toList ++ " \x7d; ".toList))) := by
  induction arms with
  | nil => rw [renderArms, List.flatMap_nil]; rfl
  | cons arm rest ih => simp [renderArms, ih]

/-- The text of legible code is read as its tree, whose operators outside of brackets bind at least
as tightly as the given strength. Primary code can have a selector or arguments behind it. -/
def Groups (primary : Bool) (strength : Nat) (code : Expr) : Prop :=
  code.isLegible = true → ∃ ts, Syntax.Lexes primary code.render.toList ts ∧
    Syntax.Phrase code.isExposed strength ts code.tree

variable {code left right : Expr} {primary : Bool} {p q : Nat}

namespace Groups

/-- Code that groups is read as its tree. -/
theorem parse_eq (h : code.Groups primary p) (hlegible : code.isLegible = true) :
    parse code.render = some code.tree := by
  obtain ⟨ts, hlexes, hphrase⟩ := h hlegible
  rw [parse, hlexes.lex_self, Option.bind_some, Syntax.readOperand_eq_some hphrase]

theorem le_level (h : code.Groups primary p) (hlegible : code.isLegible = true) :
    p ≤ code.tree.level := by
  obtain ⟨ts, -, hphrase⟩ := h hlegible
  exact hphrase.le_level

theorem loosen (h : code.Groups primary q) (hle : p ≤ q) : code.Groups primary p := by
  intro hlegible
  obtain ⟨ts, hlexes, hphrase⟩ := h hlegible
  exact ⟨ts, hlexes, .loosen hphrase hle id⟩

theorem operand (h : code.Groups true p) : code.Groups primary p := by
  intro hlegible
  obtain ⟨ts, hlexes, hphrase⟩ := h hlegible
  exact ⟨ts, hlexes.operand, hphrase⟩

end Groups

/-! ## Atoms -/

/-- A text that is checked to be a name. -/
theorem isName_of_check {id : String} (h : (id.toList.head?.any (!·.isDigit) &&
    id.toList.all isNameChar && !keywords.contains id) = true) : IsName id := by
  rw [Bool.and_eq_true, Bool.and_eq_true] at h
  obtain ⟨⟨hstart, hchars⟩, hfree⟩ := h
  refine ⟨?_, List.all_eq_true.mp hchars, by simpa using hfree⟩
  obtain ⟨c, hc, hdigit⟩ := (Option.any_eq_true ..).mp hstart
  exact ⟨c, hc, by simpa using hdigit⟩

theorem groups_name {id : String} (h : IsName id) : (Expr.name id).Groups primary 10 :=
  fun _ => ⟨_, Syntax.lexes_name h, .name id⟩

theorem groups_bool (b : Bool) : (Expr.bool b).Groups primary 10 := by
  intro _
  cases b with
  | false =>
    have hname : IsName "false" := isName_of_check rfl
    exact ⟨_, Syntax.lexes_name hname, .name _⟩
  | true =>
    have hname : IsName "true" := isName_of_check rfl
    exact ⟨_, Syntax.lexes_name hname, .name _⟩

theorem isName_nil : IsName "nil" :=
  isName_of_check rfl

theorem groups_nil : Expr.nil.Groups primary 10 :=
  fun _ => ⟨_, Syntax.lexes_name isName_nil, .name _⟩

theorem groups_str (s : String) : (Expr.str s).Groups primary 10 :=
  fun _ => ⟨_, Syntax.lexes_str s, .text _⟩

/-- A number with or without a minus binds as tightly as it looks. -/
theorem groups_number (s : String) : (Expr.number s).Groups false (signLevel s) := by
  intro h
  rw [isLegible] at h
  rw [tree, numberTree, isSigned] at *
  rw [signLevel, Text.beginsWith]
  cases hstrip : Text.stripStart? "-" s with
  | none =>
    rw [hstrip] at h
    exact ⟨_, Syntax.lexes_numeral h, .number s⟩
  | some digits =>
    rw [hstrip] at h
    obtain rfl := eq_append_of_stripStart? hstrip
    have hlexes := (Syntax.lexes_numeral h).sign (.inr rfl) fun _ =>
      Syntax.head?_ne_minus_of_isNumeral h
    refine ⟨_, ?_, .sign (by decide) (.loosen (.number digits) (by decide) id)⟩
    simpa [render] using hlexes

/-- A negative integer is a minus and a natural number. -/
theorem stripStart?_toString (n : Int) :
    Text.stripStart? "-" (toString n) = if n < 0 then some (toString n.natAbs) else none := by
  cases n with
  | ofNat n =>
    have hnot : ¬Int.ofNat n < 0 := Int.not_lt.mpr (Int.natCast_nonneg n)
    rw [if_neg hnot]
    refine Option.eq_none_iff_forall_ne_some.mpr fun rest hrest => ?_
    have hnumeral := Syntax.head?_ne_minus_of_isNumeral (Syntax.isNumeral_toString n)
    have htext : toString n = "-" ++ rest := eq_append_of_stripStart? hrest
    rw [htext, String.toList_append] at hnumeral
    exact hnumeral rfl
  | negSucc n =>
    have htext : toString (Int.negSucc n) = "-" ++ toString (n + 1) := rfl
    have hrest : Text.restAfter? "-".toList (toString (Int.negSucc n)).toList =
        some (toString (n + 1)).toList := by
      rw [Text.restAfter?_eq_some_iff, htext, String.toList_append]
    rw [if_pos (Int.negSucc_lt_zero n), Text.stripStart?, hrest, Option.map_some,
      String.ofList_toList]
    rfl

theorem isSigned_toString (n : Int) : isSigned (toString n) = true := by
  rw [isSigned, stripStart?_toString]
  split
  · exact Syntax.isNumeral_toString n.natAbs
  · next h =>
    obtain ⟨m, rfl⟩ := Int.eq_ofNat_of_zero_le (Int.not_lt.mp h)
    exact Syntax.isNumeral_toString m

theorem signLevel_toString (n : Int) : signLevel (toString n) = if n < 0 then 8 else 10 := by
  rw [signLevel, Text.beginsWith, stripStart?_toString]
  split <;> rfl

/-- A constant integer. -/
theorem groups_int (n : Int) : (Expr.int n).Groups false (if n < 0 then 8 else 10) := by
  intro hlegible
  rw [← signLevel_toString n]
  exact groups_number (toString n) (by rw [isLegible]; exact isSigned_toString n)

/-! ## Types -/

theorem lexes_slice {element : String} (h : IsName element) :
    Syntax.Lexes primary ('[' :: ']' :: element.toList)
      [.mark '[', .mark ']', .name element] := by
  refine ⟨⟨'[', rfl, by decide⟩, fun rest hrest => ?_⟩
  rw [List.cons_append, List.cons_append, Syntax.lex_mark (by decide), Syntax.lex_mark (by decide),
    (Syntax.lexes_name h).lex_eq rest hrest]
  cases Syntax.lex rest <;> rfl

theorem isName_decimal : IsName "decimal" ∧ IsName "Decimal" ∧ IsName "Zero" :=
  ⟨isName_of_check rfl, isName_of_check rfl,
    isName_of_check rfl⟩

theorem isName_time : IsName "time" ∧ IsName "Time" :=
  ⟨isName_of_check rfl, isName_of_check rfl⟩

/-- The name of a type. -/
theorem lexes_resultType (type : GoType) :
    Syntax.Lexes primary type.name.toList type.resultType.tokens := by
  cases type with
  | decimal =>
    obtain ⟨hpackage, htype, -⟩ := isName_decimal
    exact (Syntax.lexes_name hpackage).member htype
  | time =>
    obtain ⟨hpackage, htype⟩ := isName_time
    exact (Syntax.lexes_name hpackage).member htype
  | bytes =>
    have hname : IsName "byte" := isName_of_check rfl
    exact lexes_slice hname
  | bool | uint8 | int16 | int32 | int64 | float32 | float64 | string =>
    exact Syntax.lexes_name (isName_of_check rfl)

/-- The zero value of a type. Only that of a number is no primary code. -/
theorem groups_zero (type : GoType) (h : primary = true → type.isNumeric = false) :
    (Expr.zero type).Groups primary 10 := by
  intro _
  cases type with
  | bool => exact groups_bool false rfl
  | decimal =>
    obtain ⟨hpackage, -, hzero⟩ := isName_decimal
    exact ⟨_, (Syntax.lexes_name hpackage).member hzero, .select _ (.name _)⟩
  | string => exact ⟨_, Syntax.lexes_str "", .text _⟩
  | bytes => exact ⟨_, Syntax.lexes_name isName_nil, .name _⟩
  | time =>
    have htype : Syntax.Lexes true GoType.time.name.toList _ := lexes_resultType .time
    refine ⟨_, ⟨⟨'t', rfl, by decide⟩, fun rest _ => ?_⟩, .composite (.packaged "time" "Time")⟩
    have htext : (Expr.zero .time).render.toList = GoType.time.name.toList ++ ['\x7b', '\x7d'] := rfl
    rw [htext, List.append_assoc, List.cons_append, List.singleton_append,
      htype.lex_eq _ (Syntax.follows_primary (by decide)), Syntax.lex_mark (by decide),
      Syntax.lex_mark (by decide)]
    cases Syntax.lex rest <;> rfl
  | uint8 | int16 | int32 | int64 | float32 | float64 =>
    cases primary with
    | true => cases h rfl
    | false => exact ⟨_, Syntax.lexes_numeral (by decide), .number "0"⟩

/-! ## Primary code -/

namespace Groups

/-- A member of primary code. -/
theorem member (h : code.Groups true 10) {field : String} (hfield : IsName field) :
    (Expr.member code field).Groups primary 10 := by
  intro hlegible
  obtain ⟨ts, hlexes, hphrase⟩ := h (by simpa [isLegible] using hlegible)
  refine ⟨_, ?_, .select field hphrase⟩
  simpa [render] using hlexes.member hfield

/-- Parentheses. -/
theorem paren (h : code.Groups false 1) : (Expr.paren code).Groups primary 10 := by
  intro hlegible
  obtain ⟨ts, hlexes, hphrase⟩ := h (by simpa [isLegible] using hlegible)
  refine ⟨_, ?_, .paren (.loosen hphrase (Nat.le_refl 1) fun _ => rfl)⟩
  simpa [render] using hlexes.parens

end Groups

/-- The parts of several expressions that group. -/
theorem exists_operands {es : List Expr} (h : ∀ e ∈ es, e.Groups false 1)
    (hlegible : ∀ e ∈ es, e.isLegible = true) :
    ∃ operands : List (Expr × List Syntax.Token), operands.map (·.1) = es ∧
      ∀ operand ∈ operands, Syntax.Lexes false operand.1.render.toList operand.2 ∧
        Syntax.Phrase true 1 operand.2 operand.1.tree := by
  induction es with
  | nil => exact ⟨[], rfl, nofun⟩
  | cons e rest ih =>
    rw [List.forall_mem_cons] at h hlegible
    obtain ⟨operands, rfl, hoperands⟩ := ih h.2 hlegible.2
    obtain ⟨ts, hlexes, hphrase⟩ := h.1 hlegible.1
    refine ⟨(e, ts) :: operands, rfl, List.forall_mem_cons.mpr ⟨⟨hlexes, ?_⟩, hoperands⟩⟩
    exact .loosen hphrase (Nat.le_refl 1) fun _ => rfl

/-- A call of primary code. -/
theorem groups_call (hfunction : code.Groups true 10) {args : List Expr}
    (hargs : ∀ arg ∈ args, arg.Groups false 1) : (Expr.call code args).Groups primary 10 := by
  intro hlegible
  rw [isLegible, Bool.and_eq_true, areLegible_iff] at hlegible
  obtain ⟨ts, hlexes, hphrase⟩ := hfunction hlegible.1
  obtain ⟨operands, rfl, hoperands⟩ := exists_operands hargs hlegible.2
  have htexts : renderList (operands.map (·.1)) =
      (operands.map fun operand => (operand.1.render, operand.2)).map (·.1) := by
    rw [renderList_eq, List.map_map, List.map_map]
    rfl
  have htrees : trees (operands.map (·.1)) =
      (operands.map fun operand => (operand.2, operand.1.tree)).map (·.2) := by
    rw [trees_eq, List.map_map, List.map_map]
    rfl
  have htokens : (operands.map fun operand => (operand.1.render, operand.2)).map (·.2) =
      (operands.map fun operand => (operand.2, operand.1.tree)).map (·.1) := by
    rw [List.map_map, List.map_map]
    rfl
  have hcall : Syntax.Lexes primary _ _ := hlexes.call
    (List.forall_mem_map.mpr fun operand hmem => (hoperands operand hmem).1 :
      ∀ operand ∈ operands.map fun operand => (operand.1.render, operand.2), _)
  rw [tree, htrees]
  refine ⟨_, ?_, .call hphrase (List.forall_mem_map.mpr fun operand hmem => (hoperands operand hmem).2)⟩
  rw [← htokens]
  simpa [render, htexts] using hcall

/-- The types that values are converted to by their spelling. -/
def conversions : List String :=
  ["int", "string", "[]byte", "uint8", "int16", "int32", "int64", "float32", "float64"]

/-- A conversion is a call. -/
theorem groups_convert {type : String} (htype : type ∈ conversions) (h : code.Groups false 1) :
    (Expr.convert type code).Groups primary 10 := by
  have hconversion : ∃ ts, Syntax.Lexes true type.toList ts ∧
      Syntax.Phrase false 10 ts (conversionTree type) := by
    simp only [conversions, List.mem_cons, List.not_mem_nil, or_false] at htype
    rcases htype with rfl | rfl | rfl | htype
    · exact ⟨_, Syntax.lexes_name (isName_of_check rfl), .name _⟩
    · exact ⟨_, Syntax.lexes_name (isName_of_check rfl), .name _⟩
    · have hname : IsName "byte" := isName_of_check rfl
      exact ⟨_, lexes_slice hname, .slice _⟩
    · rcases htype with rfl | rfl | rfl | rfl | rfl | rfl <;>
        exact ⟨_, Syntax.lexes_name (isName_of_check rfl), .name _⟩
  intro hlegible
  obtain ⟨ts, hlexes, hphrase⟩ := hconversion
  obtain ⟨rs, hlexes', hphrase'⟩ := h (by simpa [isLegible] using hlegible)
  have hoperand : ∀ operand ∈ [(code.render, rs)], Syntax.Lexes false operand.1.toList operand.2 :=
    List.forall_mem_singleton.mpr hlexes'
  have hargument : ∀ arg ∈ [(rs, code.tree)], Syntax.Phrase true 1 arg.1 arg.2 :=
    List.forall_mem_singleton.mpr (.loosen hphrase' (Nat.le_refl 1) fun _ => rfl)
  refine ⟨_, ?_, .call hphrase hargument⟩
  simpa [render, Text.commaSeparated] using hlexes.call hoperand

/-! ## Operators -/

/-- A negation. -/
theorem Groups.not (h : code.Groups false 8) : (Expr.unary .not code).Groups false 8 := by
  intro hlegible
  obtain ⟨ts, hlexes, hphrase⟩ := h (by simpa [isLegible] using hlegible)
  refine ⟨_, ?_, .sign (by decide) hphrase⟩
  simpa [render, UnaryOp.symbol] using hlexes.sign (.inl rfl) fun h => absurd h (by decide)

/-- A minus. That it meets no other one is asked of the code. -/
theorem Groups.minus (h : code.Groups false 8) : (Expr.unary .neg code).Groups false 8 := by
  intro hlegible
  rw [isLegible, Bool.and_eq_true] at hlegible
  obtain ⟨ts, hlexes, hphrase⟩ := h hlegible.2
  have hminus : code.render.toList.head? ≠ some '-' := by simpa using hlegible.1
  refine ⟨_, ?_, .sign (by decide) hphrase⟩
  simpa [render, UnaryOp.symbol] using hlexes.sign (.inr rfl) fun _ => hminus

/-- Two operands under a binary operator. The right one must bind tighter than the operator, unless
this is a conjunction or a disjunction. -/
theorem groups_binary {op : String} (hop : Syntax.strength? op = some p)
    (hq : p < q ∨ (op = "&&" ∨ op = "||") ∧ p ≤ q) (hl : left.Groups false p)
    (hr : right.Groups false q) : (Expr.binary op left right).Groups false p := by
  intro hlegible
  rw [isLegible, Bool.and_eq_true] at hlegible
  obtain ⟨ls, hllexes, hlphrase⟩ := hl hlegible.1
  obtain ⟨rs, hrlexes, hrphrase⟩ := hr hlegible.2
  have hleft : Syntax.Phrase (left.isExposed || right.isExposed) p ls left.tree :=
    .loosen hlphrase (Nat.le_refl p) fun h => by rw [h, Bool.true_or]
  have hright : Syntax.Phrase (left.isExposed || right.isExposed) q rs right.tree :=
    .loosen hrphrase (Nat.le_refl q) fun h => by rw [h, Bool.or_true]
  refine ⟨_, ?_, .attach hop hleft hright hq⟩
  simpa [render] using hllexes.binary hop hrlexes

/-- Operands behind others that have been joined by an operator. -/
theorem exists_joined {symbol : String} (hop : Syntax.strength? symbol = some p)
    (hq : p < q ∨ (symbol = "&&" ∨ symbol = "||") ∧ p ≤ q) {exposed : Bool} {others : List Expr}
    (h : ∀ e ∈ others, e.Groups false q ∧ e.isLegible = true ∧
      (e.isExposed = true → exposed = true)) {cs : List Char} {ts : List Syntax.Token} {t : Tree}
    (hlexes : Syntax.Lexes false cs ts) (hphrase : Syntax.Phrase exposed p ts t) :
    ∃ ts', Syntax.Lexes false
        (cs ++ others.flatMap fun e => ' ' :: (symbol.toList ++ ' ' :: e.render.toList)) ts' ∧
      Syntax.Phrase exposed p ts' ((trees others).foldl (Tree.attach symbol) t) := by
  induction others generalizing cs ts t with
  | nil => exact ⟨ts, by simpa using hlexes, hphrase⟩
  | cons e others ih =>
    rw [List.forall_mem_cons] at h
    obtain ⟨⟨hgroups, hlegible, hexposed⟩, hothers⟩ := h
    obtain ⟨rs, hrlexes, hrphrase⟩ := hgroups hlegible
    have hboth := Syntax.Phrase.attach hop hphrase (.loosen hrphrase (Nat.le_refl q) hexposed) hq
    obtain ⟨ts', hlexes', hphrase'⟩ := ih hothers (hlexes.binary hop hrlexes) hboth
    refine ⟨ts', ?_, hphrase'⟩
    simpa [List.append_assoc] using hlexes'

theorem render_chain (symbol : String) (first : Expr) (others : List Expr) :
    (Expr.chain symbol (first :: others)).render.toList = first.render.toList ++
      others.flatMap fun e => ' ' :: (symbol.toList ++ ' ' :: e.render.toList) := by
  rw [render, renderList_eq]
  induction others generalizing first with
  | nil => simp
  | cons next others ih =>
    have hrest := ih next
    simp only [List.map_cons] at hrest ⊢
    rw [String.intercalate_cons_cons, String.toList_append, String.toList_append, hrest]
    simp [List.append_assoc]

/-- Operands under one operator. All of them must bind tighter than the operator, unless this is a
conjunction or a disjunction. -/
theorem groups_chain {symbol : String} (hop : Syntax.strength? symbol = some p)
    (hq : p < q ∨ (symbol = "&&" ∨ symbol = "||") ∧ p ≤ q) {operands : List Expr}
    (hne : operands ≠ []) (h : ∀ e ∈ operands, e.Groups false q) :
    (Expr.chain symbol operands).Groups false p := by
  obtain ⟨first, others, rfl⟩ := List.exists_cons_of_ne_nil hne
  intro hlegible
  rw [isLegible, Bool.and_eq_true, areLegible_iff] at hlegible
  have hexposed (e : Expr) (he : e ∈ first :: others) :
      e.isExposed = true → anyExposed (first :: others) = true := anyExposed_of_mem he
  have hle : p ≤ q := by omega
  obtain ⟨ts, hlexes, hphrase⟩ := h first List.mem_cons_self (hlegible.2 first List.mem_cons_self)
  obtain ⟨ts', hlexes', hphrase'⟩ := exists_joined hop hq
    (fun e he => ⟨h e (List.mem_cons_of_mem first he), hlegible.2 e (List.mem_cons_of_mem first he),
      hexposed e (List.mem_cons_of_mem first he)⟩)
    hlexes (.loosen hphrase hle (hexposed first List.mem_cons_self))
  refine ⟨ts', ?_, hphrase'⟩
  rwa [render_chain]

/-- A single operand of a chain stands for the chain. -/
theorem groups_chain_singleton {symbol : String} (h : code.Groups false q)
    (hp : (Expr.chain symbol [code]).isLegible = true → p ≤ code.tree.level) :
    (Expr.chain symbol [code]).Groups false p := by
  intro hlegible
  have hpart := hlegible
  rw [isLegible, Bool.and_eq_true, areLegible_iff, List.forall_mem_singleton] at hpart
  obtain ⟨ts, hlexes, hphrase⟩ := h hpart.2
  refine ⟨ts, ?_, ?_⟩
  · simpa [render_chain] using hlexes
  · refine .loosen hphrase.tighten (hp hlegible) fun hopen => ?_
    rw [isExposed, anyExposed, hopen, Bool.true_or]

/-! ## Choices -/

/-- The tests and results of a choice that group. -/
theorem exists_arms {arms : List (Expr × Expr)}
    (h : ∀ arm ∈ arms, arm.1.Groups false 1 ∧ arm.2.Groups false 1)
    (hlegible : armsLegible arms = true) :
    ∃ parts : List (Syntax.Arm × List Char × List Char),
      armTrees arms = (parts.map (·.1)).map Syntax.Arm.tree ∧
      (renderArms arms).toList = parts.flatMap (fun part => "if ".toList ++ (part.2.1 ++
        (" \x7b return ".toList ++ (part.2.2 ++ " \x7d; ".toList)))) ∧
      ∀ part ∈ parts, (Syntax.Lexes false part.2.1 part.1.testTokens ∧
          Syntax.Lexes false part.2.2 part.1.resultTokens) ∧
        Syntax.Phrase false 1 part.1.testTokens part.1.test ∧
        Syntax.Phrase true 1 part.1.resultTokens part.1.result := by
  rw [renderArms_eq]
  induction arms with
  | nil => exact ⟨[], rfl, rfl, nofun⟩
  | cons arm rest ih =>
    rw [List.forall_mem_cons] at h
    rw [armsLegible_iff, List.forall_mem_cons] at hlegible
    obtain ⟨parts, htrees, htexts, hparts⟩ := ih h.2 (armsLegible_iff.mpr hlegible.2)
    obtain ⟨hexposed, htest, hresult⟩ := hlegible.1
    obtain ⟨ts, htlexes, htphrase⟩ := h.1.1 htest
    obtain ⟨rs, hrlexes, hrphrase⟩ := h.1.2 hresult
    refine ⟨(⟨ts, rs, arm.1.tree, arm.2.tree⟩, arm.1.render.toList, arm.2.render.toList) :: parts,
      ?_, ?_, List.forall_mem_cons.mpr ⟨⟨⟨htlexes, hrlexes⟩, ?_, ?_⟩, hparts⟩⟩
    · rw [armTrees, htrees]
      rfl
    · rw [List.flatMap_cons, List.flatMap_cons, htexts]
    · rwa [hexposed] at htphrase
    · exact .loosen hrphrase (Nat.le_refl 1) fun _ => rfl

/-- A choice is a call of a function literal. -/
theorem groups_choose (type : GoType) {arms : List (Expr × Expr)} {otherwise : Expr}
    (harms : ∀ arm ∈ arms, arm.1.Groups false 1 ∧ arm.2.Groups false 1)
    (hotherwise : otherwise.Groups false 1) : (Expr.choose type arms otherwise).Groups primary 10 := by
  intro hlegible
  rw [isLegible, Bool.and_eq_true] at hlegible
  obtain ⟨parts, htrees, htexts, hparts⟩ := exists_arms harms hlegible.1
  obtain ⟨ts, hlexes, hphrase⟩ := hotherwise hlegible.2
  have hfunction := Syntax.lexes_function (lexes_resultType type)
    (fun part hpart => (hparts part hpart).1) hlexes
  have htests : ∀ arm ∈ parts.map (·.1), Syntax.Phrase false 1 arm.testTokens arm.test :=
    List.forall_mem_map.mpr fun part hpart => (hparts part hpart).2.1
  have hresults : ∀ arm ∈ parts.map (·.1), Syntax.Phrase true 1 arm.resultTokens arm.result :=
    List.forall_mem_map.mpr fun part hpart => (hparts part hpart).2.2
  have hliteral : Syntax.Phrase false 10 _ _ := .function type.resultType htests hresults
    (.loosen hphrase (Nat.le_refl 1) fun _ => rfl)
  rw [← htrees] at hliteral
  have hnone : ∀ operand ∈ ([] : List (String × List Syntax.Token)),
      Syntax.Lexes false operand.1.toList operand.2 := nofun
  have hnone' : ∀ arg ∈ ([] : List (List Syntax.Token × Tree)), Syntax.Phrase true 1 arg.1 arg.2 :=
    nofun
  refine ⟨_, ?_, .call hliteral hnone'⟩
  simpa [render, htexts, Text.commaSeparated, List.append_assoc] using hfunction.call hnone

end Expr

end Go

end Sproc
