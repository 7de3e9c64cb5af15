import Sproc.Proofs.Go.Reading

/-!
# Reading Go expressions

The part of Go's grammar of expressions that generated code is written in. A text is cut into
tokens, each as long as it can be; the reader puts the tokens together by the strengths of their
operators, which group to the left. Besides operators there are selectors, calls, composite literals
without elements, and function literals whose body is a row of tests that return. A composite
literal may not stand open in the test of an `if`, where its brace would start the branch.

What a token list means is also said by a grammar with one level for each strength. The reader
accepts every phrase of the grammar, whatever surrounds it, and reads it as the grammar says.

Texts stand on one line. Characters beyond ASCII count as letters.

## Main definitions

* `Go.Syntax.Token`, `Go.Syntax.lex`: the tokens of a text
* `Go.Syntax.Tree`, `Go.Syntax.parse`: the tree that a text stands for, with its parentheses
* `Go.Syntax.Tree.level`: the binding strength of the outermost operator
* `Go.Syntax.Tree.attach`: two operands under an operator, conjunctions and disjunctions to the left
* `Go.Syntax.Phrase`: the grammar

## Main results

* `readOperand_phrase`, `readOperand_eq_some`: a phrase is read as the grammar says
* `Phrase.le_level`: the operators of a phrase bind at least as tightly as its strength
* `Phrase.attach`: conjunctions and disjunctions may be joined without parentheses
-/

namespace Sproc.Go.Syntax

/-! ## Tokens -/

/-- The smallest parts of a text. -/
inductive Token where
  | name (id : String)
  | keyword (word : String)
  | number (spelling : String)
  | text (spelling : String)
  | op (symbol : String)
  /-- A bracket or a separator. -/
  | mark (c : Char)
  deriving DecidableEq, Repr

/-- Brackets and separators. -/
def marks : List Char :=
  ['(', ')', '[', ']', '\x7b', '\x7d', ',', ';', '.']

/-- How far a number has been read. -/
inductive NumberPart where
  | whole
  | fraction
  /-- Right behind the letter in front of an exponent. -/
  | exponent
  /-- Right behind the sign of an exponent. -/
  | sign
  | power
  deriving DecidableEq, Repr

/-- How far a string has been read. -/
inductive TextPart where
  | plain
  /-- Right behind a backslash. -/
  | escape
  /-- In front of the given number of hexadecimal digits, and one more. -/
  | hex (more : Nat)
  | closed
  deriving DecidableEq, Repr

/-- A token that is still being read. -/
inductive Partial where
  | nothing
  | word (cs : List Char)
  | number (part : NumberPart) (cs : List Char)
  | text (part : TextPart) (cs : List Char)
  | symbol (cs : List Char)
  /-- What starts no token, or no token that an expression on one line can have. -/
  | broken
  deriving DecidableEq, Repr

/-- Whether a character is a hexadecimal digit. -/
def isHexDigit (c : Char) : Bool :=
  c.isDigit || ('a' ≤ c && c ≤ 'f') || ('A' ≤ c && c ≤ 'F')

/-- A number that is read on with one more character. No letter stands right behind a number. -/
def NumberPart.next? (part : NumberPart) (c : Char) : Option (Option NumberPart) :=
  match part with
  | .whole =>
    if c.isDigit then some (some .whole) else if c = '.' then some (some .fraction)
    else if c = 'e' ∨ c = 'E' then some (some .exponent)
    else if isNameChar c then some none else none
  | .fraction =>
    if c.isDigit then some (some .fraction)
    else if c = 'e' ∨ c = 'E' then some (some .exponent)
    else if isNameChar c then some none else none
  | .exponent =>
    if c.isDigit then some (some .power) else if c = '+' ∨ c = '-' then some (some .sign)
    else some none
  | .sign => if c.isDigit then some (some .power) else some none
  | .power =>
    if c.isDigit then some (some .power) else if isNameChar c then some none else none

/-- A string that is read on with one more character. -/
def TextPart.next? (part : TextPart) (c : Char) : Option (Option TextPart) :=
  match part with
  | .plain =>
    if c = Text.doubleQuote then some (some .closed)
    else if c = Text.backslash then some (some .escape)
    else if c = '\n' then some none else some (some .plain)
  | .escape =>
    if c = 'x' then some (some (.hex 1))
    else if c ∈ ['a', 'b', 'f', 'n', 'r', 't', 'v', Text.backslash, Text.doubleQuote] then
      some (some .plain)
    else some none
  | .hex more =>
    if isHexDigit c then
      match more with
      | 0 => some (some .plain)
      | more + 1 => some (some (.hex more))
    else some none
  | .closed => none

namespace Partial

/-- The token that a character starts. Blanks start none. -/
def start (c : Char) : Partial :=
  if c = ' ' ∨ c = '\t' ∨ c = '\r' then .nothing
  else if c = '\n' then .broken
  else if c.isDigit then .number .whole [c]
  else if isNameChar c then .word [c]
  else if c = Text.doubleQuote then .text .plain [c]
  else .symbol [c]

/-- The token with one more character, if there is such a token. Comments are none, and a number may
start with its point. -/
def push? : Partial → Char → Option Partial
  | .nothing, _ => none
  | .word cs, c => if isNameChar c then some (.word (cs ++ [c])) else none
  | .number part cs, c =>
    (part.next? c).map fun next => next.elim .broken fun part => .number part (cs ++ [c])
  | .text part cs, c =>
    (part.next? c).map fun next => next.elim .broken fun part => .text part (cs ++ [c])
  | .symbol cs, c =>
    if cs = ['/'] ∧ (c = '/' ∨ c = '*') then some .broken
    else if cs = ['.'] ∧ c.isDigit then some (.number .fraction (cs ++ [c]))
    else if isOperator (cs ++ [c]) then some (.symbol (cs ++ [c])) else none
  | .broken, _ => some .broken

/-- The token as it stands. A whole number has no superfluous zeros in front. -/
def finish? : Partial → Option (List Token)
  | .nothing => some []
  | .word cs =>
    let word := String.ofList cs
    some [if keywords.contains word then .keyword word else .name word]
  | .number part cs =>
    if (part = .whole ∧ ¬(1 < cs.length ∧ cs.head? = some '0')) ∨ part = .fraction ∨
      part = .power then some [.number (String.ofList cs)] else none
  | .text part cs => if part = .closed then some [.text (String.ofList cs)] else none
  | .symbol cs =>
    match cs with
    | [c] => if c ∈ marks then some [.mark c] else if isOperator cs then some [.op c.toString] else none
    | _ => if isOperator cs then some [.op (String.ofList cs)] else none
  | .broken => none

end Partial

/-- The tokens of a text behind a token that is still being read. -/
def lexFrom (current : Partial) : List Char → Option (List Token)
  | [] => current.finish?
  | c :: rest =>
    match current.push? c with
    | some longer => lexFrom longer rest
    | none => do
      let front ← current.finish?
      let back ← lexFrom (.start c) rest
      return front ++ back

/-- The tokens of a text. -/
def lex (cs : List Char) : Option (List Token) :=
  lexFrom .nothing cs

/-! ## Trees -/

/-- The tree that tokens stand for. Parentheses are part of it. -/
inductive Tree where
  | name (id : String)
  | number (spelling : String)
  | text (spelling : String)
  /-- The type of the slices of a type. -/
  | slice (element : String)
  | paren (inner : Tree)
  | select (owner : Tree) (field : String)
  | call (function : Tree) (args : List Tree)
  /-- A composite literal without elements. -/
  | composite (type : Tree)
  /-- A function literal with a result type, which returns the result of the first test that
  holds. -/
  | function (type : Tree) (arms : List (Tree × Tree)) (last : Tree)
  | unary (op : String) (operand : Tree)
  | binary (op : String) (left right : Tree)
  /-- An expression of another form, by its text. None is read. -/
  | other (text : String)

/-- Binary operators with their binding strengths. -/
def binaryOperators : List (String × Nat) := [
  ("||", 1), ("&&", 2), ("==", 3), ("!=", 3), ("<", 3), ("<=", 3), (">", 3), (">=", 3), ("+", 4),
  ("-", 4), ("|", 4), ("^", 4), ("*", 5), ("/", 5), ("%", 5), ("<<", 5), (">>", 5), ("&", 5),
  ("&^", 5)]

/-- The binding strength of a binary operator. -/
def strength? (op : String) : Option Nat :=
  (binaryOperators.find? (·.1 == op)).map (·.2)

theorem mem_binaryOperators {op : String} {p : Nat} (h : strength? op = some p) :
    (op, p) ∈ binaryOperators := by
  obtain ⟨⟨other, q⟩, hfind, rfl⟩ := Option.map_eq_some_iff.mp h
  have hop : other = op := by simpa using List.find?_some hfind
  exact hop ▸ List.mem_of_find?_eq_some hfind

theorem strength?_bounds {op : String} {p : Nat} (h : strength? op = some p) : 1 ≤ p ∧ p ≤ 5 := by
  have hall : ∀ entry ∈ binaryOperators, 1 ≤ entry.2 ∧ entry.2 ≤ 5 := by decide
  exact hall _ (mem_binaryOperators h)

/-- The operators that can stand in front of an operand. -/
def signs : List String :=
  ["+", "-", "!", "^", "*", "&", "<-"]

namespace Tree

/-- The binding strength of the outermost operator. -/
def level : Tree → Nat
  | unary _ _ => 8
  | binary op _ _ => (strength? op).getD 0
  | _ => 10

/-- Whether a tree can be the name of a type. -/
def isTypeName : Tree → Bool
  | name _ => true
  | select (name _) _ => true
  | _ => false

/-- Two operands under an operator that groups to the left: the operands of the right one, if it is
under the same operator, are joined one after the other. -/
def joinLeft (op : String) (left : Tree) : Tree → Tree
  | binary next l r =>
    if next = op then binary op (joinLeft op left l) r else binary op left (binary next l r)
  | right => binary op left right

/-- Two operands under an operator. The operands of a conjunction of conjunctions, and likewise of
disjunctions, are joined one after the other. -/
def attach (op : String) (left right : Tree) : Tree :=
  if op = "&&" ∨ op = "||" then joinLeft op left right else binary op left right

end Tree

/-- What an operand is read for. -/
inductive Hole where
  | paren
  /-- An operator in front of its operand. -/
  | sign (op : String)
  /-- The right operand of a binary operator of the given strength. -/
  | right (op : String) (left : Tree) (strength : Nat)
  /-- An argument of a call, behind those that have been read. -/
  | argument (function : Tree) (done : List Tree)
  /-- A test in the body of a function literal, behind the tests that have been read. -/
  | test (type : Tree) (arms : List (Tree × Tree))
  /-- What is returned where a test holds. -/
  | result (type : Tree) (arms : List (Tree × Tree)) (test : Tree)
  /-- What is returned where no test holds. -/
  | last (type : Tree) (arms : List (Tree × Tree))

/-- How tightly the operator around a hole binds. -/
def Hole.strength : Hole → Nat
  | .sign _ => 7
  | .right _ _ p => p
  | _ => 0

/-- Puts an operand into the holes around it, as long as these bind at least as tightly as what
follows. -/
def fill (least : Nat) : List Hole → Tree → List Hole × Tree
  | [], t => ([], t)
  | hole :: outer, t =>
    if hole.strength < least then (hole :: outer, t)
    else
      match hole with
      | .sign op => fill least outer (.unary op t)
      | .right op left _ => fill least outer (.binary op left t)
      | hole => (hole :: outer, t)

/-- Whether a composite literal may stand open: not in a test, up to the next bracket. -/
def allowsLiterals : List Hole → Bool
  | .test _ _ :: _ => false
  | .sign _ :: outer => allowsLiterals outer
  | .right _ _ _ :: outer => allowsLiterals outer
  | _ => true

mutual

/-- Reads on where an operand is due. -/
def readOperand (holes : List Hole) : List Token → Option Tree
  | .name id :: rest => readSuffix holes (.name id) rest
  | .number s :: rest => readSuffix holes (.number s) rest
  | .text s :: rest => readSuffix holes (.text s) rest
  | .mark '(' :: rest => readOperand (.paren :: holes) rest
  | .mark ')' :: rest =>
    match holes with
    | .argument function done :: outer => readSuffix outer (.call function done) rest
    | _ => none
  | .mark '[' :: .mark ']' :: .name id :: rest => readSuffix holes (.slice id) rest
  | .op symbol :: rest =>
    if symbol ∈ signs then readOperand (.sign symbol :: holes) rest else none
  | .keyword "func" :: .mark '(' :: .mark ')' :: rest => readType holes rest
  | _ => none

/-- Reads on behind an operand. -/
def readSuffix (holes : List Hole) (t : Tree) : List Token → Option Tree
  | [] =>
    match fill 1 holes t with
    | ([], whole) => some whole
    | _ => none
  | .mark '.' :: .name field :: rest => readSuffix holes (.select t field) rest
  | .mark '(' :: rest => readOperand (.argument t [] :: holes) rest
  | .mark '\x7b' :: .mark '\x7d' :: rest =>
    if t.isTypeName && allowsLiterals holes then readSuffix holes (.composite t) rest else none
  | .mark '\x7b' :: .keyword "return" :: rest =>
    match fill 1 holes t with
    | (.test type arms :: outer, test) => readOperand (.result type arms test :: outer) rest
    | _ => none
  | .mark ',' :: rest =>
    match fill 1 holes t with
    | (.argument function done :: outer, arg) =>
      readOperand (.argument function (done ++ [arg]) :: outer) rest
    | _ => none
  | .mark ')' :: rest =>
    match fill 1 holes t with
    | (.paren :: outer, inner) => readSuffix outer (.paren inner) rest
    | (.argument function done :: outer, arg) =>
      readSuffix outer (.call function (done ++ [arg])) rest
    | _ => none
  | .mark '\x7d' :: rest =>
    match fill 1 holes t with
    | (.result type arms test :: outer, value) =>
      readSeparator outer type (arms ++ [(test, value)]) rest
    | (.last type arms :: outer, value) => readSuffix outer (.function type arms value) rest
    | _ => none
  | .op symbol :: rest =>
    match strength? symbol with
    | some p => readOperand (.right symbol (fill p holes t).2 p :: (fill p holes t).1) rest
    | none => none
  | _ => none

/-- Reads on where the result type of a function literal is due. -/
def readType (holes : List Hole) : List Token → Option Tree
  | .name id :: .mark '\x7b' :: rest => readBody holes (.name id) [] rest
  | .name owner :: .mark '.' :: .name id :: .mark '\x7b' :: rest =>
    readBody holes (.select (.name owner) id) [] rest
  | .mark '[' :: .mark ']' :: .name id :: .mark '\x7b' :: rest =>
    readBody holes (.slice id) [] rest
  | _ => none

/-- Reads on where a statement of a function literal is due. -/
def readBody (holes : List Hole) (type : Tree) (arms : List (Tree × Tree)) :
    List Token → Option Tree
  | .keyword "if" :: rest => readOperand (.test type arms :: holes) rest
  | .keyword "return" :: rest => readOperand (.last type arms :: holes) rest
  | _ => none

/-- Reads on behind a statement of a function literal. -/
def readSeparator (holes : List Hole) (type : Tree) (arms : List (Tree × Tree)) :
    List Token → Option Tree
  | .mark ';' :: rest => readBody holes type arms rest
  | _ => none

end

/-- The tree of a text. -/
def parse (s : String) : Option Tree :=
  (lex s.toList).bind (readOperand [])

/-! ## The grammar -/

/-- Token lists with commas between them. -/
def separated : List (List Token) → List Token
  | [] => []
  | [ts] => ts
  | ts :: next :: rest => ts ++ .mark ',' :: separated (next :: rest)

/-- A type with a name of its own or that of the package in front. -/
inductive TypeName where
  | own (id : String)
  | packaged (package id : String)

/-- The tokens of a type name. -/
def TypeName.tokens : TypeName → List Token
  | own id => [.name id]
  | packaged package id => [.name package, .mark '.', .name id]

/-- The tree of a type name. -/
def TypeName.tree : TypeName → Tree
  | own id => .name id
  | packaged package id => .select (.name package) id

/-- The result type of a function literal. -/
inductive ResultType where
  | named (type : TypeName)
  | slice (element : String)

/-- The tokens of a result type. -/
def ResultType.tokens : ResultType → List Token
  | named type => type.tokens
  | slice element => [.mark '[', .mark ']', .name element]

/-- The tree of a result type. -/
def ResultType.tree : ResultType → Tree
  | named type => type.tree
  | slice element => .slice element

/-- A test of a function literal and what is returned where it holds, in tokens and as trees. -/
structure Arm where
  testTokens : List Token
  resultTokens : List Token
  test : Tree
  result : Tree

/-- The tokens of a test and its branch. -/
def Arm.tokens (arm : Arm) : List Token :=
  .keyword "if" :: (arm.testTokens ++ .mark '\x7b' :: .keyword "return" ::
    (arm.resultTokens ++ [.mark '\x7d', .mark ';']))

/-- The trees of a test and its branch. -/
def Arm.tree (arm : Arm) : Tree × Tree :=
  (arm.test, arm.result)

/-- A token list is an expression whose operators outside of brackets bind at least as tightly as
the given strength. Composite literals stand open in it only if it is said to be exposed. -/
inductive Phrase : Bool → Nat → List Token → Tree → Prop
  | name {exposed : Bool} (id : String) : Phrase exposed 10 [.name id] (.name id)
  | number {exposed : Bool} (s : String) : Phrase exposed 10 [.number s] (.number s)
  | text {exposed : Bool} (s : String) : Phrase exposed 10 [.text s] (.text s)
  | slice {exposed : Bool} (id : String) :
    Phrase exposed 10 [.mark '[', .mark ']', .name id] (.slice id)
  | composite (type : TypeName) :
    Phrase true 10 (type.tokens ++ [.mark '\x7b', .mark '\x7d']) (.composite type.tree)
  | paren {exposed : Bool} {ts : List Token} {t : Tree} : Phrase true 1 ts t →
    Phrase exposed 10 (.mark '(' :: (ts ++ [.mark ')'])) (.paren t)
  | select {exposed : Bool} {ts : List Token} {t : Tree} (field : String) : Phrase exposed 10 ts t →
    Phrase exposed 10 (ts ++ [.mark '.', .name field]) (.select t field)
  | call {exposed : Bool} {ts : List Token} {t : Tree} {args : List (List Token × Tree)} :
    Phrase exposed 10 ts t → (∀ arg ∈ args, Phrase true 1 arg.1 arg.2) →
    Phrase exposed 10 (ts ++ .mark '(' :: (separated (args.map (·.1)) ++ [.mark ')']))
      (.call t (args.map (·.2)))
  | function {exposed : Bool} {ts : List Token} {t : Tree} (type : ResultType) {arms : List Arm} :
    (∀ arm ∈ arms, Phrase false 1 arm.testTokens arm.test) →
    (∀ arm ∈ arms, Phrase true 1 arm.resultTokens arm.result) → Phrase true 1 ts t →
    Phrase exposed 10
      (.keyword "func" :: .mark '(' :: .mark ')' :: (type.tokens ++ .mark '\x7b' ::
        (arms.flatMap Arm.tokens ++ .keyword "return" :: (ts ++ [.mark '\x7d']))))
      (.function type.tree (arms.map Arm.tree) t)
  | sign {exposed : Bool} {op : String} {ts : List Token} {t : Tree} : op ∈ signs →
    Phrase exposed 8 ts t → Phrase exposed 8 (.op op :: ts) (.unary op t)
  | binary {exposed : Bool} {op : String} {p : Nat} {ls rs : List Token} {l r : Tree} :
    strength? op = some p → Phrase exposed p ls l → Phrase exposed (p + 1) rs r →
    Phrase exposed p (ls ++ .op op :: rs) (.binary op l r)
  | loosen {exposed open' : Bool} {p q : Nat} {ts : List Token} {t : Tree} : Phrase exposed q ts t →
    p ≤ q → (exposed = true → open' = true) → Phrase open' p ts t

/-- Every operator of a phrase that stands outside of brackets binds at least as tightly as the
strength of the phrase; so does the outermost one. -/
theorem Phrase.le_level {exposed : Bool} {p : Nat} {ts : List Token} {t : Tree}
    (h : Phrase exposed p ts t) : p ≤ t.level := by
  induction h with
  | composite type => exact Nat.le_refl 10
  | binary hop _ _ _ _ =>
    rw [Tree.level, hop]
    exact Nat.le_refl _
  | loosen _ hle _ ih => exact Nat.le_trans hle ih
  | _ => exact Nat.le_refl _

/-- A phrase is also one of the strength of its outermost operator. -/
theorem Phrase.tighten {exposed : Bool} {p : Nat} {ts : List Token} {t : Tree}
    (h : Phrase exposed p ts t) : Phrase exposed t.level ts t := by
  induction h with
  | name id => exact .name id
  | number s => exact .number s
  | text s => exact .text s
  | slice id => exact .slice id
  | composite type => exact .composite type
  | paren hinner => exact .paren hinner
  | select field howner => exact .select field howner
  | call hfunction hargs => exact .call hfunction hargs
  | function type htest hresult hlast => exact .function type htest hresult hlast
  | sign hop hoperand => exact .sign hop hoperand
  | binary hop hl hr =>
    rw [Tree.level, hop]
    exact .binary hop hl hr
  | loosen _ _ hexposed ih => exact .loosen ih (Nat.le_refl _) hexposed

/-- What follows does not go on with an operand that has just been read. -/
def Stops (rest : List Token) : Prop :=
  rest.head? ≠ some (.mark '.') ∧ rest.head? ≠ some (.mark '(') ∧
    rest.take 2 ≠ [.mark '\x7b', .mark '\x7d']

/-- What follows an operand does not bind tighter than the given strength, if it is an operator; and
it goes on with the operand only if that is a primary one. -/
structure Closes (p : Nat) (rest : List Token) : Prop where
  operator : ∀ op q, rest.head? = some (.op op) → strength? op = some q → q ≤ p
  stops : p < 10 → Stops rest

/-- All holes around an operand bind looser than the given strength. -/
def Below (p : Nat) (holes : List Hole) : Prop :=
  ∀ hole ∈ holes.head?, hole.strength < p

theorem Closes.mono {p q : Nat} {rest : List Token} (h : Closes p rest) (hle : p ≤ q) :
    Closes q rest where
  operator op s hhead hs := Nat.le_trans (h.operator op s hhead hs) hle
  stops hlt := h.stops (Nat.lt_of_le_of_lt hle hlt)

theorem below_cons {p : Nat} {hole : Hole} {holes : List Hole} (h : hole.strength < p) :
    Below p (hole :: holes) := by
  intro other hother
  obtain rfl := Option.some.inj hother
  exact h

theorem fill_of_below {p : Nat} {holes : List Hole} (h : Below p holes) (t : Tree) :
    fill p holes t = (holes, t) := by
  cases holes with
  | nil => rfl
  | cons hole outer =>
    have hlt : hole.strength < p := h hole rfl
    cases hole <;> exact if_pos hlt

/-- Behind an operand with which nothing goes on, only what filling its holes yields matters. -/
theorem readSuffix_congr {holes holes' : List Hole} {t t' : Tree} {rest : List Token}
    (hstops : Stops rest) (hend : fill 1 holes t = fill 1 holes' t')
    (hop : ∀ op p, rest.head? = some (.op op) → strength? op = some p →
      fill p holes t = fill p holes' t') :
    readSuffix holes t rest = readSuffix holes' t' rest := by
  obtain ⟨hdot, hcall, hliteral⟩ := hstops
  unfold readSuffix
  split
  case h_2 => exact absurd rfl hdot
  case h_3 => exact absurd rfl hcall
  case h_4 => exact absurd rfl hliteral
  case h_9 op rest =>
    cases hp : strength? op with
    | none => rfl
    | some p =>
      dsimp only
      rw [hop op p rfl hp]
  case h_10 => rfl
  all_goals rw [hend]

section Readers

variable {holes : List Hole} {rest : List Token} {t : Tree}

/-- An operator in front is applied before anything else is looked at. -/
theorem readSuffix_sign (op : String) (hstops : Stops rest) :
    readSuffix (.sign op :: holes) t rest = readSuffix holes (.unary op t) rest := by
  have hfill {p : Nat} (hp : p ≤ 7) :
      fill p (.sign op :: holes) t = fill p holes (.unary op t) := if_neg (Nat.not_lt.mpr hp)
  apply readSuffix_congr hstops (hfill (by decide))
  intro other p _ hp
  have hbounds := strength?_bounds hp
  exact hfill (by omega)

/-- A binary operator is applied before one that does not bind tighter. -/
theorem readSuffix_right {op : String} {p : Nat} (left : Tree) (hop : strength? op = some p)
    (hrest : Closes p rest) :
    readSuffix (.right op left p :: holes) t rest = readSuffix holes (.binary op left t) rest := by
  have hbounds := strength?_bounds hop
  have hfill {q : Nat} (hq : q ≤ p) :
      fill q (.right op left p :: holes) t = fill q holes (.binary op left t) :=
    if_neg (Nat.not_lt.mpr hq)
  apply readSuffix_congr (hrest.stops (by omega)) (hfill hbounds.1)
  intro other q hhead hq
  exact hfill (hrest.operator other q hhead hq)

/-- A binary operator waits for its right operand. -/
theorem readSuffix_operator {op : String} {p : Nat} (hop : strength? op = some p)
    (hbelow : Below p holes) :
    readSuffix holes t (.op op :: rest) = readOperand (.right op t p :: holes) rest := by
  rw [readSuffix, hop]
  dsimp only
  rw [fill_of_below hbelow]

/-- Behind a bracket or a separator nothing is left of an operand. -/
theorem closes_mark {p : Nat} {c : Char} (hc : c ∈ [')', ',', '\x7d', ';']) :
    Closes p (.mark c :: rest) where
  operator _ _ hhead := by cases hhead
  stops _ := by
    simp only [List.mem_cons, List.not_mem_nil, or_false] at hc
    rcases hc with rfl | rfl | rfl | rfl <;> simp [Stops]

/-- The arguments of a call are read one after the other, once each of them is read. -/
theorem readOperand_args {args : List (List Token × Tree)}
    (h : ∀ arg ∈ args, ∀ holes rest, allowsLiterals holes = true → Below 1 holes →
      Closes 1 rest → readOperand holes (arg.1 ++ rest) = readSuffix holes arg.2 rest)
    (function : Tree) (done : List Tree) (hempty : args = [] → done = []) :
    readOperand (.argument function done :: holes)
        (separated (args.map (·.1)) ++ .mark ')' :: rest) =
      readSuffix holes (.call function (done ++ args.map (·.2))) rest := by
  have hbelow (done : List Tree) : Below 1 (Hole.argument function done :: holes) :=
    below_cons Nat.one_pos
  induction args generalizing done with
  | nil =>
    obtain rfl := hempty rfl
    simp [separated, readOperand]
  | cons first others ih =>
    rw [List.forall_mem_cons] at h
    cases others with
    | nil =>
      simp only [List.map_cons, List.map_nil, separated]
      rw [h.1 _ _ rfl (hbelow done) (closes_mark (by decide)), readSuffix,
        fill_of_below (hbelow done)]
    | cons second others =>
      have hrest := ih h.2 (done ++ [first.2]) nofun
      simp only [List.map_cons, separated, List.append_assoc, List.cons_append] at hrest ⊢
      rw [h.1 _ _ rfl (hbelow done) (closes_mark (by decide)), readSuffix,
        fill_of_below (hbelow done)]
      simpa using hrest

theorem readType_tokens (type : ResultType) :
    readType holes (type.tokens ++ .mark '\x7b' :: rest) = readBody holes type.tree [] rest := by
  cases type with
  | named type => cases type <;> rw [ResultType.tokens, TypeName.tokens] <;> rfl
  | slice element => rfl

/-- The tests of a function literal are read one after the other, once each of their parts is
read. -/
theorem readBody_arms {arms : List Arm}
    (htest : ∀ arm ∈ arms, ∀ holes rest, Below 1 holes → Closes 1 rest →
      readOperand holes (arm.testTokens ++ rest) = readSuffix holes arm.test rest)
    (hresult : ∀ arm ∈ arms, ∀ holes rest, allowsLiterals holes = true → Below 1 holes →
      Closes 1 rest →
      readOperand holes (arm.resultTokens ++ rest) = readSuffix holes arm.result rest)
    (type : Tree) (done : List (Tree × Tree)) :
    readBody holes type done (arms.flatMap Arm.tokens ++ rest) =
      readBody holes type (done ++ arms.map Arm.tree) rest := by
  induction arms generalizing done with
  | nil => rw [List.flatMap_nil, List.nil_append, List.map_nil, List.append_nil]
  | cons arm others ih =>
    rw [List.forall_mem_cons] at htest hresult
    have hbelow : Below 1 (Hole.test type done :: holes) := below_cons Nat.one_pos
    have hbelow' : Below 1 (Hole.result type done arm.test :: holes) := below_cons Nat.one_pos
    have hopen (rest : List Token) : Closes 1 (Token.mark '\x7b' :: .keyword "return" :: rest) :=
      ⟨nofun, fun _ => by simp [Stops]⟩
    simp only [List.flatMap_cons, Arm.tokens, List.append_assoc, List.cons_append,
      List.nil_append, List.map_cons]
    rw [readBody, htest.1 _ _ hbelow (hopen _), readSuffix, fill_of_below hbelow]
    dsimp only
    rw [hresult.1 _ _ rfl hbelow' (closes_mark (by decide)), readSuffix, fill_of_below hbelow']
    dsimp only
    rw [readSeparator, ih htest.2 hresult.2]
    simp [Arm.tree]

/-- A phrase is read as the grammar says: behind it, the reader has its tree for an operand. Where
it is exposed, composite literals must be allowed to stand open. -/
theorem readOperand_phrase {exposed : Bool} {p : Nat} {ts : List Token}
    (h : Phrase exposed p ts t) (holes : List Hole) (rest : List Token)
    (hallows : exposed = true → allowsLiterals holes = true) (hbelow : Below p holes)
    (hrest : Closes p rest) : readOperand holes (ts ++ rest) = readSuffix holes t rest := by
  induction h generalizing holes rest with
  | name | number | text => rw [List.singleton_append, readOperand]
  | slice => rw [List.cons_append, List.cons_append, List.singleton_append, readOperand]
  | composite type =>
    have hliterals := hallows rfl
    cases type <;> simp [TypeName.tokens, TypeName.tree, readOperand, readSuffix, Tree.isTypeName,
      hliterals]
  | @paren exposed ts t _ ih =>
    have hopened : Below 1 (Hole.paren :: holes) := below_cons Nat.one_pos
    rw [List.cons_append, List.append_assoc, List.singleton_append, readOperand,
      ih _ _ (fun _ => rfl) hopened (closes_mark (by decide)), readSuffix, fill_of_below hopened]
  | @select exposed ts t field _ ih =>
    have hmember : Closes 10 (Token.mark '.' :: .name field :: rest) := ⟨nofun, nofun⟩
    rw [List.append_assoc, List.cons_append, List.singleton_append,
      ih holes _ hallows hbelow hmember, readSuffix]
  | @call exposed ts t args _ _ ih ihargs =>
    have hopen (rest : List Token) : Closes 10 (Token.mark '(' :: rest) := ⟨nofun, nofun⟩
    rw [List.append_assoc, List.cons_append, List.append_assoc, List.singleton_append,
      ih holes _ hallows hbelow (hopen _), readSuffix,
      readOperand_args (fun arg harg holes rest hallows => ihargs arg harg holes rest fun _ => hallows)
        t [] (fun _ => rfl), List.nil_append]
  | @function exposed ts t type arms _ _ _ ihtest ihresult ih =>
    have hbelow' : Below 1 (Hole.last type.tree (arms.map Arm.tree) :: holes) :=
      below_cons Nat.one_pos
    simp only [List.cons_append, List.append_assoc, List.nil_append]
    rw [readOperand, readType_tokens, readBody_arms
      (fun arm harm holes rest => ihtest arm harm holes rest nofun)
      (fun arm harm holes rest hallows => ihresult arm harm holes rest fun _ => hallows),
      readBody, List.nil_append, ih _ _ (fun _ => rfl) hbelow' (closes_mark (by decide)),
      readSuffix, fill_of_below hbelow']
  | @sign exposed op ts t hop _ ih =>
    have hinside : Below 8 (Hole.sign op :: holes) := below_cons (Nat.lt_succ_self 7)
    rw [List.cons_append, readOperand, if_pos hop, ih (.sign op :: holes) _ hallows hinside hrest,
      readSuffix_sign op (hrest.stops (by decide))]
  | @binary exposed op p ls rs l r hop _ _ ihleft ihright =>
    have hinside : Below (p + 1) (Hole.right op l p :: holes) := below_cons (Nat.lt_succ_self p)
    have hoperator : Closes p (Token.op op :: (rs ++ rest)) := by
      refine ⟨fun other q hhead hq => ?_, fun _ => by simp [Stops]⟩
      cases hhead
      exact Nat.le_of_eq (Option.some.inj (hq.symm.trans hop))
    rw [List.append_assoc, List.cons_append, ihleft holes _ hallows hbelow hoperator,
      readSuffix_operator hop hbelow,
      ihright (.right op l p :: holes) _ hallows hinside (hrest.mono (Nat.le_succ p)),
      readSuffix_right l hop hrest]
  | @loosen exposed open' p q ts t _ hle hexposed ih =>
    refine ih holes rest (fun h => hallows (hexposed h)) (fun hole hhole => ?_) (hrest.mono hle)
    exact Nat.lt_of_lt_of_le (hbelow hole hhole) hle

/-- A phrase that is the whole text is read as its tree. -/
theorem readOperand_eq_some {exposed : Bool} {p : Nat} {ts : List Token}
    (h : Phrase exposed p ts t) : readOperand [] ts = some t := by
  have hend : Closes p [] := ⟨nofun, fun _ => by simp [Stops]⟩
  have hread := readOperand_phrase h [] [] (fun _ => rfl) nofun hend
  rwa [List.append_nil, readSuffix, fill] at hread

end Readers

/-! ## Conjunctions and disjunctions -/

/-- No two operators share the strength of a conjunction or disjunction. -/
theorem eq_of_strength? {op other : String} {p : Nat} (hop : op = "&&" ∨ op = "||")
    (hp : strength? op = some p) (hother : strength? other = some p) : other = op := by
  have hall : ∀ entry ∈ binaryOperators,
      (entry.2 = 2 → entry.1 = "&&") ∧ (entry.2 = 1 → entry.1 = "||") := by decide
  have hmem := hall _ (mem_binaryOperators hother)
  rcases hop with rfl | rfl
  · obtain rfl := Option.some.inj hp
    exact hmem.1 rfl
  · obtain rfl := Option.some.inj hp
    exact hmem.2 rfl

/-- The right operand of a conjunction may be a conjunction without parentheses, and likewise for
disjunctions: the operands are then joined one after the other. -/
theorem Phrase.join {exposed exposed' : Bool} {op : String} {p q : Nat} {ls rs : List Token}
    {l r : Tree} (hlogical : op = "&&" ∨ op = "||") (hop : strength? op = some p)
    (hr : Phrase exposed' q rs r) (hexposed : exposed' = true → exposed = true) (hq : p ≤ q)
    (hl : Phrase exposed p ls l) : Phrase exposed p (ls ++ .op op :: rs) (Tree.joinLeft op l r) := by
  have hbounds := strength?_bounds hop
  have htight {exposed' : Bool} {q : Nat} {rs : List Token} {r : Tree}
      (hr : Phrase exposed' q rs r) (hexposed : exposed' = true → exposed = true) (hlt : p < q) :
      Phrase exposed p (ls ++ .op op :: rs) (.binary op l r) :=
    .binary hop hl (.loosen hr hlt hexposed)
  induction hr with
  | name id => exact htight (.name id) hexposed (by omega)
  | number s => exact htight (.number s) hexposed (by omega)
  | text s => exact htight (.text s) hexposed (by omega)
  | slice id => exact htight (.slice id) hexposed (by omega)
  | composite type => exact htight (.composite type) hexposed (by omega)
  | paren hinner => exact htight (.paren hinner) hexposed (by omega)
  | select field howner => exact htight (.select field howner) hexposed (by omega)
  | call hfunction hargs => exact htight (.call hfunction hargs) hexposed (by omega)
  | function type htest hresult hlast =>
    exact htight (.function type htest hresult hlast) hexposed (by omega)
  | sign hsign hoperand => exact htight (.sign hsign hoperand) hexposed (by omega)
  | @binary exposed' other q ls' rs' l' r' hother hl' hr' ihleft =>
    rw [Tree.joinLeft]
    rcases Nat.lt_or_eq_of_le hq with hlt | rfl
    · have hne : other ≠ op := by
        rintro rfl
        exact absurd (Option.some.inj (hop.symm.trans hother)) (Nat.ne_of_lt hlt)
      rw [if_neg hne]
      exact htight (.binary hother hl' hr') hexposed hlt
    · obtain rfl := eq_of_strength? hlogical hop hother
      rw [if_pos rfl]
      have hwhole := Phrase.binary hop (ihleft hexposed (Nat.le_refl p))
        (.loosen hr' (Nat.le_refl _) hexposed)
      rwa [List.append_assoc, List.cons_append] at hwhole
  | loosen _ hle hexposed' ih => exact ih (fun h => hexposed (hexposed' h)) (Nat.le_trans hq hle)

/-- Two phrases under an operator. The right one must bind tighter than the operator, unless this is
a conjunction or a disjunction. -/
theorem Phrase.attach {exposed : Bool} {op : String} {p q : Nat} {ls rs : List Token} {l r : Tree}
    (hop : strength? op = some p) (hl : Phrase exposed p ls l) (hr : Phrase exposed q rs r)
    (hq : p < q ∨ (op = "&&" ∨ op = "||") ∧ p ≤ q) :
    Phrase exposed p (ls ++ .op op :: rs) (Tree.attach op l r) := by
  rw [Tree.attach]
  split
  · next hlogical =>
    have hle : p ≤ q := by omega
    exact Phrase.join hlogical hop hr id hle hl
  · next hlogical =>
    have hlt : p < q := hq.resolve_right fun h => hlogical h.1
    exact .binary hop hl (.loosen hr hlt id)

end Sproc.Go.Syntax
