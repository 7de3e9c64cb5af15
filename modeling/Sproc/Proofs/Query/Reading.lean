import Sproc.Ast.Expr
import Sproc.Dialect

/-!
# Reading conditions of queries

The text of a condition as a database takes it. The text is cut into tokens, each as long as it can
be, and two minus signs start a comment; the tokens are put together by the strengths of their
operators. A disjunction binds loosest, then come a conjunction, a negation, the predicates, sums,
products and the sign of a number. A placeholder without a number of its own takes the next one.

What a token list means is also said by a grammar with one level for each strength. The reader
accepts every phrase of the grammar, whatever surrounds it, and reads it as the grammar says.

## Main definitions

* `Sql.Token`, `Sql.lex`: the tokens of a text
* `Sql.readOperand`, `Sql.read`: the expression that tokens stand for
* `Sql.Phrase`: the grammar
* `Sql.Lexes`: a text is cut into tokens, whatever follows

## Main results

* `Sql.readOperand_phrase`: a phrase is read as the grammar says
* `Sql.Phrase.join`: conjunctions and disjunctions may be joined without parentheses
* `Sql.Lexes.space`, `Sql.Lexes.parens`, `Sql.Lexes.minus`, `Sql.lexes_path`, `Sql.lexes_hole`:
  how texts are cut
-/

namespace Sproc

namespace Dialect

/-- The mark that opens a quoted identifier. -/
def opening : Dialect → Char
  | mysql => Text.backQuote
  | sqlserver => '['
  | postgres | sqlite | oracle => Text.doubleQuote

/-- The mark that closes a quoted identifier; inside of it, the mark is written twice. -/
def closing : Dialect → Char
  | mysql => Text.backQuote
  | sqlserver => ']'
  | postgres | sqlite | oracle => Text.doubleQuote

/-- What stands in front of the number of a placeholder. -/
def holeMark : Dialect → List Char
  | postgres => ['$']
  | mysql | sqlite => ['?']
  | sqlserver => ['@', 'p']
  | oracle => [':', 'p']

end Dialect

namespace Sql

/-! ## Tokens -/

/-- Words that are no names. -/
inductive Keyword where
  | and
  | or
  | not
  | is
  | null
  | like
  | between
  /-- The word in front of a list. -/
  | among
  deriving DecidableEq, Repr

namespace Keyword

/-- Every keyword. -/
def all : List Keyword := [and, or, not, is, null, like, between, among]

/-- A keyword in capitals. -/
def text : Keyword → String
  | and => "AND"
  | or => "OR"
  | not => "NOT"
  | is => "IS"
  | null => "NULL"
  | like => "LIKE"
  | between => "BETWEEN"
  | among => "IN"

/-- A keyword in small letters. -/
def lower : Keyword → String
  | and => "and"
  | or => "or"
  | not => "not"
  | is => "is"
  | null => "null"
  | like => "like"
  | between => "between"
  | among => "in"

/-- The keyword that a word is, in any case. -/
def ofWord? (word : String) : Option Keyword :=
  all.find? (·.lower == Text.toLower word)

/-- A word that need not be quoted is no keyword. -/
theorem ofWord?_eq_none {word : String} (h : needsQuoting word = false) : ofWord? word = none := by
  have hfree : Text.toLower word ∉ reservedWords := by
    intro hmem
    simp [needsQuoting, hmem] at h
  have hreserved : ∀ keyword : Keyword, keyword.lower ∈ reservedWords := by
    intro keyword
    cases keyword <;> decide
  apply List.find?_eq_none.mpr
  intro keyword _ hsame
  exact hfree (beq_iff_eq.mp hsame ▸ hreserved keyword)

end Keyword

/-- The smallest parts of a text. -/
inductive Token where
  | number (value : Nat)
  /-- A placeholder with its number. -/
  | hole (number : Nat)
  /-- A column with the names that qualify it. -/
  | column (path : List String)
  | keyword (word : Keyword)
  | symbol (s : String)
  deriving DecidableEq, Repr

/-- Operators and punctuation. -/
def symbols : List String :=
  ["(", ")", ",", "+", "-", "*", "/", "%", "=", "<>", "<", "<=", ">", ">="]

/-- Whether characters are an operator or punctuation. -/
def isSymbol (cs : List Char) : Bool :=
  symbols.any (·.toList == cs)

/-- Whether a character can stand in an identifier that is not quoted. -/
def isWordChar (c : Char) : Bool :=
  Text.isAlphanumeric c || c == '_'

/-- Whether a character can start an identifier that is not quoted. -/
def isWordStart (c : Char) : Bool :=
  isWordChar c && !Text.isNumeric c

/-- A token that is still being read. A column is one token with all of its names. -/
inductive Partial where
  | nothing
  | digits (cs : List Char)
  | word (path : List String) (cs : List Char)
  | quoted (path : List String) (cs : List Char)
  /-- Behind a closing mark, which may be the first of two. -/
  | closed (path : List String) (cs : List Char)
  | dot (path : List String)
  /-- A placeholder, with what is left of its mark and the digits behind it. -/
  | hole (mark cs : List Char)
  | symbol (cs : List Char)
  | comment

namespace Partial

variable (dialect : Dialect)

/-- The token that a character starts. Blanks start none. -/
def start (c : Char) : Partial :=
  if Text.isSpace c then .nothing
  else if c.isDigit then .digits [c]
  else if c = dialect.opening then .quoted [] []
  else if dialect.holeMark.head? = some c then .hole dialect.holeMark.tail []
  else if isWordStart c then .word [] [c]
  else .symbol [c]

/-- The token with one more character, if there is such a token. -/
def push? : Partial → Char → Option Partial
  | .nothing, _ => none
  | .digits cs, c => if c.isDigit then some (.digits (cs ++ [c])) else none
  | .word path cs, c =>
    if isWordChar c then some (.word path (cs ++ [c]))
    else if c = '.' then some (.dot (path ++ [String.ofList cs]))
    else none
  | .quoted path cs, c =>
    if c = dialect.closing then some (.closed path cs) else some (.quoted path (cs ++ [c]))
  | .closed path cs, c =>
    if c = dialect.closing then some (.quoted path (cs ++ [c]))
    else if c = '.' then some (.dot (path ++ [String.ofList cs]))
    else none
  | .dot path, c =>
    if c = dialect.opening then some (.quoted path [])
    else if isWordStart c then some (.word path [c])
    else none
  | .hole (m :: mark) cs, c => if c = m then some (.hole mark cs) else none
  | .hole [] cs, c => if c.isDigit then some (.hole [] (cs ++ [c])) else none
  | .symbol cs, c =>
    if cs = ['-'] ∧ c = '-' then some .comment
    else if isSymbol (cs ++ [c]) then some (.symbol (cs ++ [c]))
    else none
  | .comment, c => if c = '\n' then none else some .comment

/-- The token as it stands, where the next placeholder has the given number; and the number of the
placeholder behind it. -/
def finish? (next : Nat) : Partial → Option (List Token × Nat)
  | .nothing => some ([], next)
  | .digits cs => some ([.number (Nat.ofDigitChars 10 cs 0)], next)
  | .word path cs =>
    match Keyword.ofWord? (String.ofList cs) with
    | some keyword => if path.isEmpty then some ([.keyword keyword], next) else none
    | none => some ([.column (path ++ [String.ofList cs])], next)
  | .quoted _ _ => none
  | .closed path cs => some ([.column (path ++ [String.ofList cs])], next)
  | .dot _ => none
  | .hole [] [] => some ([.hole next], next + 1)
  | .hole [] cs => some ([.hole (Nat.ofDigitChars 10 cs 0)], next + 1)
  | .hole (_ :: _) _ => none
  | .symbol cs => if isSymbol cs then some ([.symbol (String.ofList cs)], next) else none
  | .comment => some ([], next)

end Partial

section Lexing

variable (dialect : Dialect)

/-- The tokens of a text behind a token that is still being read. -/
def lexFrom (next : Nat) (current : Partial) : List Char → Option (List Token)
  | [] => (current.finish? next).map (·.1)
  | c :: rest =>
    match current.push? dialect c with
    | some longer => lexFrom next longer rest
    | none =>
      match current.finish? next with
      | some (front, after) => (lexFrom after (.start dialect c) rest).map (front ++ ·)
      | none => none

/-- The tokens of a text, where the next placeholder has the given number. -/
def lex (next : Nat) (cs : List Char) : Option (List Token) :=
  lexFrom dialect next .nothing cs

end Lexing

/-! ## Expressions -/

/-- The strength of a binary operator. -/
def level : BinaryOp → Nat
  | .or => 1
  | .and => 2
  | .eq | .notEq | .lt | .ltEq | .gt | .gtEq | .like | .notLike => 5
  | .add | .sub => 6
  | .mul | .div | .mod => 7

/-- The tokens of a binary operator. -/
def operatorTokens : BinaryOp → List Token
  | .and => [.keyword .and]
  | .or => [.keyword .or]
  | .like => [.keyword .like]
  | .notLike => [.keyword .not, .keyword .like]
  | op => [.symbol op.sqlSymbol]

/-- The binary operator that a token is. -/
def binaryOp? : Token → Option BinaryOp
  | .keyword .and => some .and
  | .keyword .or => some .or
  | .keyword .like => some .like
  | .symbol s => [.add, .sub, .mul, .div, .mod, .eq, .notEq, .lt, .ltEq, .gt, .gtEq].find?
      fun op : BinaryOp => op.sqlSymbol == s
  | _ => none

/-- A column by the names of its path. -/
def columnOf (path : List String) : Expr :=
  .column ⟨none, String.intercalate "." path⟩

/-- What an operand is read for. -/
inductive Hole where
  | paren
  | minus
  | not
  /-- The right operand of a binary operator. -/
  | right (op : BinaryOp) (left : Expr)
  /-- The lower bound of a range. -/
  | low (e : Expr) (negated : Bool)
  /-- The upper bound of a range. -/
  | high (e : Expr) (negated : Bool) (low : Expr)
  /-- A member of a list behind the given ones. -/
  | member (e : Expr) (negated : Bool) (members : List Expr)

/-- How tightly the operator around a hole binds. Parentheses do not bind. -/
def Hole.strength : Hole → Nat
  | .paren | .member _ _ _ => 0
  | .not => 3
  | .low _ _ | .high _ _ _ => 5
  | .minus => 8
  | .right op _ => level op

/-- Puts an operand into the holes around it, as long as these bind at least as tightly as what
follows, and up to one that is closed by a token of its own. -/
def fill (least : Nat) : List Hole → Expr → List Hole × Expr
  | [], t => ([], t)
  | hole :: outer, t =>
    if hole.strength < least then (hole :: outer, t)
    else
      match hole with
      | .minus => fill least outer (.unary .neg t)
      | .not => fill least outer (.unary .not t)
      | .right op left => fill least outer (.binary op left t)
      | .high e negated low => fill least outer (.between e low t negated)
      | hole => (hole :: outer, t)

section Reading

-- The variables that placeholders stand for, by their numbers.
variable (names : Nat → Option String)

mutual

/-- Reads on where an operand is due. -/
def readOperand (holes : List Hole) : List Token → Option Expr
  | .number n :: rest => readOperator holes (.literal (.int n)) rest
  | .hole i :: rest =>
    match names i with
    | some name => readOperator holes (.variable name) rest
    | none => none
  | .column path :: rest => readOperator holes (columnOf path) rest
  | .symbol "(" :: rest => readOperand (.paren :: holes) rest
  | .symbol "-" :: rest => readOperand (.minus :: holes) rest
  | .keyword .not :: rest => readOperand (.not :: holes) rest
  | .symbol ")" :: rest =>
    -- Only an empty list closes here.
    match holes with
    | .member e negated [] :: outer => readOperator outer (.inList e [] negated) rest
    | _ => none
  | _ => none

/-- Reads on behind an operand. -/
def readOperator (holes : List Hole) (t : Expr) : List Token → Option Expr
  | [] =>
    match fill 1 holes t with
    | ([], whole) => some whole
    | _ => none
  | .symbol ")" :: rest =>
    match fill 1 holes t with
    | (.paren :: outer, inner) => readOperator outer inner rest
    | (.member e negated members :: outer, last) =>
      readOperator outer (.inList e (members ++ [last]) negated) rest
    | _ => none
  | .symbol "," :: rest =>
    match fill 1 holes t with
    | (.member e negated members :: outer, next) =>
      readOperand (.member e negated (members ++ [next]) :: outer) rest
    | _ => none
  | .keyword .and :: rest =>
    -- Behind the lower bound of a range, the word leads to the upper one.
    match fill 2 holes t with
    | (.low e negated :: outer, low) => readOperand (.high e negated low :: outer) rest
    | (outer, left) => readOperand (.right .and left :: outer) rest
  | .keyword .is :: .keyword .null :: rest =>
    readOperator (fill 5 holes t).1 (.isNull (fill 5 holes t).2 false) rest
  | .keyword .is :: .keyword .not :: .keyword .null :: rest =>
    readOperator (fill 5 holes t).1 (.isNull (fill 5 holes t).2 true) rest
  | .keyword .among :: .symbol "(" :: rest =>
    readOperand (.member (fill 5 holes t).2 false [] :: (fill 5 holes t).1) rest
  | .keyword .not :: .keyword .among :: .symbol "(" :: rest =>
    readOperand (.member (fill 5 holes t).2 true [] :: (fill 5 holes t).1) rest
  | .keyword .between :: rest => readOperand (.low (fill 5 holes t).2 false :: (fill 5 holes t).1) rest
  | .keyword .not :: .keyword .between :: rest =>
    readOperand (.low (fill 5 holes t).2 true :: (fill 5 holes t).1) rest
  | .keyword .not :: .keyword .like :: rest =>
    readOperand (.right .notLike (fill 5 holes t).2 :: (fill 5 holes t).1) rest
  | token :: rest =>
    match binaryOp? token with
    | some op => readOperand (.right op (fill (level op) holes t).2 :: (fill (level op) holes t).1) rest
    | none => none

end

attribute [simp] readOperand readOperator

/-- The expression of a text, where the next placeholder has the given number. -/
def read (dialect : Dialect) (next : Nat) (s : String) : Option Expr :=
  (lex dialect next s.toList).bind (readOperand names [])

end Reading

/-! ## The grammar -/

/-- Token lists with commas between them. -/
def separated : List (List Token) → List Token
  | [] => []
  | [last] => last
  | first :: others => first ++ .symbol "," :: separated others

/-- The tokens that negate a predicate. -/
def negation (negated : Bool) : List Token :=
  if negated then [.keyword .not] else []

/-- A token list is an expression whose operators outside of parentheses bind at least as tightly as
the given strength. -/
inductive Phrase (names : Nat → Option String) : Nat → List Token → Expr → Prop
  | number (n : Nat) : Phrase names 10 [.number n] (.literal (.int n))
  | hole {i : Nat} {name : String} : names i = some name →
    Phrase names 10 [.hole i] (.variable name)
  | column (path : List String) : Phrase names 10 [.column path] (columnOf path)
  | paren {ts : List Token} {t : Expr} : Phrase names 1 ts t →
    Phrase names 10 (.symbol "(" :: (ts ++ [.symbol ")"])) t
  | minus {ts : List Token} {t : Expr} : Phrase names 9 ts t →
    Phrase names 9 (.symbol "-" :: ts) (.unary .neg t)
  | not {ts : List Token} {t : Expr} : Phrase names 4 ts t →
    Phrase names 4 (.keyword .not :: ts) (.unary .not t)
  | binary (op : BinaryOp) {ls rs : List Token} {l r : Expr} : Phrase names (level op) ls l →
    Phrase names (level op + 1) rs r →
    Phrase names (level op) (ls ++ (operatorTokens op ++ rs)) (.binary op l r)
  | isNull (negated : Bool) {ts : List Token} {t : Expr} : Phrase names 5 ts t →
    Phrase names 5 (ts ++ .keyword .is :: (negation negated ++ [.keyword .null]))
      (.isNull t negated)
  | inList (negated : Bool) (members : List (List Token × Expr)) {ts : List Token} {t : Expr} :
    Phrase names 5 ts t → (∀ member ∈ members, Phrase names 1 member.1 member.2) →
    Phrase names 5 (ts ++ (negation negated ++ .keyword .among :: .symbol "(" ::
      (separated (members.map (·.1)) ++ [.symbol ")"]))) (.inList t (members.map (·.2)) negated)
  | between (negated : Bool) {ts ls hs : List Token} {t low high : Expr} : Phrase names 5 ts t →
    Phrase names 6 ls low → Phrase names 6 hs high →
    Phrase names 5 (ts ++ (negation negated ++ .keyword .between :: (ls ++ .keyword .and :: hs)))
      (.between t low high negated)
  | loosen {p q : Nat} {ts : List Token} {t : Expr} : Phrase names q ts t → p ≤ q →
    Phrase names p ts t

/-- How tightly the next token binds, if it is an operator. -/
def demand? : List Token → Option Nat
  | .keyword .is :: _ | .keyword .among :: _ | .keyword .between :: _ | .keyword .not :: _ => some 5
  | token :: _ => (binaryOp? token).map level
  | [] => none

/-- The next token does not bind tighter than the given strength, if it is an operator. -/
def Closes (p : Nat) (rest : List Token) : Prop :=
  ∀ q, demand? rest = some q → q ≤ p

/-- All holes around an operand bind looser than the given strength. -/
def Below (p : Nat) (holes : List Hole) : Prop :=
  ∀ hole ∈ holes.head?, hole.strength < p

theorem level_mem (op : BinaryOp) : level op ∈ [1, 2, 5, 6, 7] := by
  cases op <;> decide

theorem one_le_level (op : BinaryOp) : 1 ≤ level op := by
  cases op <;> decide

theorem demand?_mem {rest : List Token} {q : Nat} (h : demand? rest = some q) :
    q ∈ [1, 2, 5, 6, 7] := by
  unfold demand? at h
  split at h
  · cases h; decide
  · cases h; decide
  · cases h; decide
  · cases h; decide
  · obtain ⟨op, -, rfl⟩ := Option.map_eq_some_iff.mp h
    exact level_mem op
  · cases h

theorem Closes.mono {p q : Nat} {rest : List Token} (h : Closes p rest) (hle : p ≤ q) :
    Closes q rest :=
  fun s hs => Nat.le_trans (h s hs) hle

theorem Below.mono {p q : Nat} {holes : List Hole} (h : Below p holes) (hle : p ≤ q) :
    Below q holes :=
  fun hole hhole => Nat.lt_of_lt_of_le (h hole hhole) hle

theorem below_cons {p : Nat} {hole : Hole} {outer : List Hole} (h : hole.strength < p) :
    Below p (hole :: outer) := by
  intro other hother
  obtain rfl := Option.some.inj hother
  exact h

theorem fill_of_below {p : Nat} {holes : List Hole} (h : Below p holes) (t : Expr) :
    fill p holes t = (holes, t) := by
  cases holes with
  | nil => rfl
  | cons hole outer =>
    have hlt : hole.strength < p := h hole rfl
    cases hole <;> exact if_pos hlt

/-- Behind an operand, only what filling its holes yields matters. -/
theorem readOperator_congr {names : Nat → Option String} {holes holes' : List Hole} {t t' : Expr}
    {rest : List Token} (hend : fill 1 holes t = fill 1 holes' t')
    (hop : ∀ q, demand? rest = some q → fill q holes t = fill q holes' t') :
    readOperator names holes t rest = readOperator names holes' t' rest := by
  unfold readOperator
  split
  · rw [hend]
  · rw [hend]
  · rw [hend]
  · rw [hop 2 rfl]
  · rw [hop 5 rfl]
  · rw [hop 5 rfl]
  · rw [hop 5 rfl]
  · rw [hop 5 rfl]
  · rw [hop 5 rfl]
  · rw [hop 5 rfl]
  · rw [hop 5 rfl]
  · next token rest _ _ _ _ _ _ _ _ _ _ =>
    cases htoken : binaryOp? token with
    | none => rfl
    | some op =>
      dsimp only
      have hdemand : demand? (token :: rest) = some (level op) := by
        cases token with
        | keyword word => cases word <;> simp_all [binaryOp?, demand?]
        | _ => simp_all [demand?]
      rw [hop _ hdemand]

section Readers

variable {names : Nat → Option String} {p : Nat} {holes : List Hole} {rest : List Token} {t : Expr}

/-- The sign of a number is applied before anything else is looked at. -/
theorem readOperator_minus :
    readOperator names (.minus :: holes) t rest = readOperator names holes (.unary .neg t) rest := by
  have hfill {q : Nat} (hq : q ≤ 8) :
      fill q (.minus :: holes) t = fill q holes (.unary .neg t) := if_neg (Nat.not_lt.mpr hq)
  apply readOperator_congr (hfill (by decide))
  intro q hq
  apply hfill
  have hmem := demand?_mem hq
  simp only [List.mem_cons, List.not_mem_nil, or_false] at hmem
  omega

/-- A negation is applied before conjunctions and disjunctions. -/
theorem readOperator_not (hrest : Closes 4 rest) :
    readOperator names (.not :: holes) t rest = readOperator names holes (.unary .not t) rest := by
  have hfill {q : Nat} (hq : q ≤ 3) :
      fill q (.not :: holes) t = fill q holes (.unary .not t) := if_neg (Nat.not_lt.mpr hq)
  apply readOperator_congr (hfill (by decide))
  intro q hq
  apply hfill
  have hmem := demand?_mem hq
  have hle := hrest q hq
  simp only [List.mem_cons, List.not_mem_nil, or_false] at hmem
  omega

/-- A binary operator is applied before one that does not bind tighter. -/
theorem readOperator_right (op : BinaryOp) (left : Expr) (hrest : Closes (level op) rest) :
    readOperator names (.right op left :: holes) t rest =
      readOperator names holes (.binary op left t) rest := by
  have hfill {q : Nat} (hq : q ≤ level op) :
      fill q (.right op left :: holes) t = fill q holes (.binary op left t) :=
    if_neg (Nat.not_lt.mpr hq)
  apply readOperator_congr
  · exact hfill (one_le_level op)
  · intro q hq
    exact hfill (hrest q hq)

/-- A range is complete before an operator that does not bind tighter. -/
theorem readOperator_high (e low : Expr) (negated : Bool) (hrest : Closes 5 rest) :
    readOperator names (.high e negated low :: holes) t rest =
      readOperator names holes (.between e low t negated) rest := by
  have hfill {q : Nat} (hq : q ≤ 5) :
      fill q (.high e negated low :: holes) t = fill q holes (.between e low t negated) :=
    if_neg (Nat.not_lt.mpr hq)
  apply readOperator_congr (hfill (by decide))
  intro q hq
  exact hfill (hrest q hq)

/-- A binary operator waits for its right operand. -/
theorem readOperator_operator (op : BinaryOp) (hbelow : Below (level op) holes) :
    readOperator names holes t (operatorTokens op ++ rest) =
      readOperand names (.right op t :: holes) rest := by
  cases op with
  | and =>
    have hfill : fill 2 holes t = (holes, t) := fill_of_below hbelow t
    rw [operatorTokens, List.singleton_append, readOperator, hfill]
    -- No conjunction is read for the lower bound of a range.
    split
    · next e negated outer low heq =>
      cases heq
      exact absurd (hbelow _ rfl) (by simp [Hole.strength, level])
    · next heq =>
      cases heq
      rfl
  | _ =>
    have hfill := fill_of_below hbelow t
    simp only [level] at hfill
    simp [operatorTokens, BinaryOp.sqlSymbol, readOperator, binaryOp?, level, hfill]

/-- What follows an operand that is a predicate's: the predicate waits for nothing else. -/
theorem demand?_negation (negated : Bool) {token : Token} (h : demand? (token :: rest) = some 5) :
    demand? (negation negated ++ token :: rest) = some 5 := by
  cases negated with
  | false => exact h
  | true => rfl

theorem readOperator_isNull (negated : Bool) (hbelow : Below 5 holes) :
    readOperator names holes t (.keyword .is :: (negation negated ++ .keyword .null :: rest)) =
      readOperator names holes (.isNull t negated) rest := by
  cases negated with
  | false => rw [negation, if_neg nofun, List.nil_append, readOperator, fill_of_below hbelow]
  | true =>
    rw [negation, if_pos rfl, List.singleton_append, readOperator, fill_of_below hbelow]

theorem readOperator_among (negated : Bool) (hbelow : Below 5 holes) :
    readOperator names holes t
        (negation negated ++ .keyword .among :: .symbol "(" :: rest) =
      readOperand names (.member t negated [] :: holes) rest := by
  cases negated with
  | false => rw [negation, if_neg nofun, List.nil_append, readOperator, fill_of_below hbelow]
  | true =>
    rw [negation, if_pos rfl, List.singleton_append, readOperator, fill_of_below hbelow]

theorem readOperator_between (negated : Bool) (hbelow : Below 5 holes) :
    readOperator names holes t (negation negated ++ .keyword .between :: rest) =
      readOperand names (.low t negated :: holes) rest := by
  cases negated with
  | false => rw [negation, if_neg nofun, List.nil_append, readOperator, fill_of_below hbelow]
  | true =>
    rw [negation, if_pos rfl, List.singleton_append, readOperator, fill_of_below hbelow]

/-- The members of a list are read one after the other, once each of them is read. -/
theorem readOperand_members {members : List (List Token × Expr)}
    (h : ∀ member ∈ members, ∀ holes rest, Below 1 holes → Closes 1 rest →
      readOperand names holes (member.1 ++ rest) = readOperator names holes member.2 rest)
    (e : Expr) (negated : Bool) (done : List Expr) (hempty : members = [] → done = []) :
    readOperand names (.member e negated done :: holes)
        (separated (members.map (·.1)) ++ .symbol ")" :: rest) =
      readOperator names holes (.inList e (done ++ members.map (·.2)) negated) rest := by
  have hbelow (done : List Expr) : Below 1 (Hole.member e negated done :: holes) :=
    below_cons Nat.one_pos
  induction members generalizing done with
  | nil =>
    obtain rfl := hempty rfl
    simp [separated, readOperand]
  | cons first others ih =>
    rw [List.forall_mem_cons] at h
    cases others with
    | nil =>
      have hclosed : Closes 1 (Token.symbol ")" :: rest) := nofun
      simp only [List.map_cons, List.map_nil, separated]
      rw [h.1 _ _ (hbelow done) hclosed, readOperator, fill_of_below (hbelow done)]
    | cons second others =>
      have hnext : Closes 1 (Token.symbol "," ::
          (separated ((second :: others).map (·.1)) ++ .symbol ")" :: rest)) := nofun
      have hrest := ih h.2 (done ++ [first.2]) nofun
      simp only [List.map_cons, separated, List.append_assoc, List.cons_append] at hrest hnext ⊢
      rw [h.1 _ _ (hbelow done) hnext, readOperator, fill_of_below (hbelow done)]
      simpa using hrest

/-- A phrase is read as the grammar says: behind it, the reader has its expression for an operand. -/
theorem readOperand_phrase {ts : List Token} (h : Phrase names p ts t) (holes : List Hole)
    (rest : List Token) (hbelow : Below p holes) (hrest : Closes p rest) :
    readOperand names holes (ts ++ rest) = readOperator names holes t rest := by
  induction h generalizing holes rest with
  | number n => rw [List.singleton_append, readOperand]
  | hole hname =>
    rw [List.singleton_append, readOperand, hname]
  | column path => rw [List.singleton_append, readOperand]
  | @paren ts t _ ih =>
    have hopened : Below 1 (Hole.paren :: holes) := below_cons Nat.one_pos
    have hclosed : Closes 1 (Token.symbol ")" :: rest) := nofun
    rw [List.cons_append, List.append_assoc, List.singleton_append, readOperand,
      ih _ _ hopened hclosed, readOperator, fill_of_below hopened]
  | @minus ts t _ ih =>
    have hinside : Below 9 (Hole.minus :: holes) := below_cons (by decide)
    have hclosed : Closes 9 rest := by
      intro q hq
      have hmem := demand?_mem hq
      simp only [List.mem_cons, List.not_mem_nil, or_false] at hmem
      omega
    rw [List.cons_append, readOperand, ih _ _ hinside hclosed, readOperator_minus]
  | @not ts t _ ih =>
    have hinside : Below 4 (Hole.not :: holes) := below_cons (by decide)
    rw [List.cons_append, readOperand, ih _ _ hinside hrest, readOperator_not hrest]
  | @binary op ls rs l r _ _ ihleft ihright =>
    have hop : Closes (level op) (operatorTokens op ++ (rs ++ rest)) := by
      intro q hq
      cases op <;> cases hq <;> decide
    have hinside : Below (level op + 1) (Hole.right op l :: holes) :=
      below_cons (Nat.lt_succ_self _)
    rw [List.append_assoc, List.append_assoc, ihleft _ _ hbelow hop,
      readOperator_operator op hbelow, ihright _ _ hinside (hrest.mono (Nat.le_succ _)),
      readOperator_right op l hrest]
  | @isNull negated ts t _ ih =>
    have hop : Closes 5 (Token.keyword .is :: (negation negated ++ .keyword .null :: rest)) := by
      intro q hq
      cases hq
      exact Nat.le_refl 5
    rw [List.append_assoc, List.cons_append, List.append_assoc, List.singleton_append,
      ih _ _ hbelow hop, readOperator_isNull negated hbelow]
  | @inList negated members ts t _ _ ih ihmembers =>
    have hop (rest : List Token) :
        Closes 5 (negation negated ++ .keyword .among :: .symbol "(" :: rest) := by
      intro q hq
      rw [demand?_negation negated rfl] at hq
      cases hq
      exact Nat.le_refl 5
    simp only [List.append_assoc, List.cons_append, List.nil_append]
    rw [ih _ _ hbelow (hop _), readOperator_among negated hbelow,
      readOperand_members ihmembers t negated [] (fun _ => rfl), List.nil_append]
  | @between negated ts ls hs t low high _ _ _ ih ihlow ihhigh =>
    have hop (rest : List Token) :
        Closes 5 (negation negated ++ .keyword .between :: rest) := by
      intro q hq
      rw [demand?_negation negated rfl] at hq
      cases hq
      exact Nat.le_refl 5
    have hlow : Below 6 (Hole.low t negated :: holes) := below_cons (by simp [Hole.strength])
    have hhigh : Below 6 (Hole.high t negated low :: holes) := below_cons (by simp [Hole.strength])
    have hand : Closes 6 (Token.keyword .and :: (hs ++ rest)) := by
      intro q hq
      cases hq
      decide
    simp only [List.append_assoc, List.cons_append]
    rw [ih _ _ hbelow (hop _), readOperator_between negated hbelow, ihlow _ _ hlow hand,
      readOperator]
    have hfill : fill 2 (.low t negated :: holes) low = (.low t negated :: holes, low) :=
      if_neg (by simp [Hole.strength])
    rw [hfill]
    dsimp only
    rw [ihhigh _ _ hhigh (hrest.mono (by decide)), readOperator_high t low negated hrest]
  | loosen _ hle ih => exact ih _ _ (hbelow.mono hle) (hrest.mono hle)

/-- A phrase that is the whole text is read as its expression. -/
theorem readOperand_eq_some {ts : List Token} (h : Phrase names p ts t) :
    readOperand names [] ts = some t := by
  have hread := readOperand_phrase h [] [] nofun nofun
  rwa [List.append_nil, readOperator, fill] at hread

end Readers

end Sql

/-! ## Conjunctions and disjunctions -/

namespace Expr

/-- A chain of an operator with one more operand at its left end. -/
def attach (op : BinaryOp) (first : Expr) : Expr → Expr
  | .binary other left right =>
    if other = op then .binary op (first.attach op left) right
    else .binary op first (.binary other left right)
  | e => .binary op first e

/-- A condition whose conjunctions and disjunctions all group to the left. -/
def regrouped : Expr → Expr
  | .binary op left right =>
    if op.isLogical then left.regrouped.attach op right.regrouped else .binary op left right
  | .unary .not e => .unary .not e.regrouped
  | e => e

theorem attach_assoc (op : BinaryOp) (a b c : Expr) :
    (a.attach op b).attach op c = a.attach op (b.attach op c) := by
  fun_induction attach op b c with
  | case1 left right ih => simp [attach, ih]
  | case2 other left right hne => simp [attach, hne]
  | case3 e hnot =>
    cases e with
    | binary other left right => exact absurd rfl (hnot other left right)
    | _ => simp [attach]

theorem regrouped_logical {op : BinaryOp} (h : op.isLogical = true) (left right : Expr) :
    (binary op left right).regrouped = left.regrouped.attach op right.regrouped :=
  if_pos h

theorem regrouped_assoc {op : BinaryOp} (h : op.isLogical = true) (a b c : Expr) :
    (binary op (binary op a b) c).regrouped = (binary op a (binary op b c)).regrouped := by
  simp only [regrouped_logical h, attach_assoc]

end Expr

namespace Sql

variable {names : Nat → Option String}

/-- No two operators share the strength of a conjunction or disjunction. -/
theorem eq_of_level {op other : BinaryOp} (hop : op.isLogical = true)
    (hlevel : level other = level op) : other = op := by
  cases op <;> cases hop <;> cases other <;> first | rfl | cases hlevel

/-- The right operand of a conjunction may be a conjunction without parentheses, and likewise for
disjunctions: the phrase groups differently then. -/
theorem Phrase.join {op : BinaryOp} (hop : op.isLogical = true) {q : Nat} {rs : List Token}
    {r : Expr} (hr : Phrase names q rs r) (hq : level op ≤ q) {ls : List Token} {l : Expr}
    (hl : Phrase names (level op) ls l) :
    ∃ t, Phrase names (level op) (ls ++ (operatorTokens op ++ rs)) t ∧
      t.regrouped = (Expr.binary op l r).regrouped := by
  have hloose : level op < 4 := by
    cases op <;> cases hop <;> decide
  have htight {q : Nat} {rs : List Token} {r : Expr} (hr : Phrase names q rs r)
      (hlt : level op < q) : ∃ t, Phrase names (level op) (ls ++ (operatorTokens op ++ rs)) t ∧
        t.regrouped = (Expr.binary op l r).regrouped :=
    ⟨_, .binary op hl (hr.loosen hlt), rfl⟩
  induction hr with
  | number n => exact htight (.number n) (by omega)
  | hole hname => exact htight (.hole hname) (by omega)
  | column path => exact htight (.column path) (by omega)
  | paren hinner => exact htight (.paren hinner) (by omega)
  | minus hoperand => exact htight (.minus hoperand) (by omega)
  | not hoperand => exact htight (.not hoperand) hloose
  | @binary other ls' rs' l' r' hl' hr' ihleft =>
    rcases Nat.lt_or_eq_of_le hq with hlt | heq
    · exact htight (.binary other hl' hr') hlt
    · obtain rfl := eq_of_level hop heq.symm
      obtain ⟨t, hphrase, hsame⟩ := ihleft (Nat.le_refl _)
      refine ⟨.binary other t r', ?_, ?_⟩
      · have hwhole := Phrase.binary other hphrase hr'
        rwa [List.append_assoc, List.append_assoc] at hwhole
      · rw [← Expr.regrouped_assoc hop, Expr.regrouped_logical hop, hsame,
          Expr.regrouped_logical hop (.binary other l l')]
  | isNull negated hoperand => exact htight (.isNull negated hoperand) (by omega)
  | inList negated members hoperand hmembers =>
    exact htight (.inList negated members hoperand hmembers) (by omega)
  | between negated hoperand hlow hhigh =>
    exact htight (.between negated hoperand hlow hhigh) (by omega)
  | loosen _ hle ih => exact ih (Nat.le_trans hq hle)

/-! ## Texts -/

/-- What can stand right behind an operand. -/
def Ends (rest : List Char) : Prop :=
  ∀ c ∈ rest.head?, c = ' ' ∨ c = ')' ∨ c = ','

variable {dialect : Dialect}

/-- The text of an operand is cut into the given tokens, whatever follows. The next placeholder has
one number in front of the text and another behind it. -/
def Lexes (dialect : Dialect) (next : Nat) (cs : List Char) (ts : List Token) (after : Nat) : Prop :=
  ∀ rest, Ends rest → lex dialect next (cs ++ rest) = (lex dialect after rest).map (ts ++ ·)

theorem lex_cons (next : Nat) (c : Char) (rest : List Char) :
    lex dialect next (c :: rest) = lexFrom dialect next (.start dialect c) rest := by
  have hfront : lex dialect next (c :: rest) =
      (lexFrom dialect next (.start dialect c) rest).map ([] ++ ·) := rfl
  rw [hfront]
  cases lexFrom dialect next (.start dialect c) rest <;> rfl

theorem lex_space (next : Nat) (rest : List Char) :
    lex dialect next (' ' :: rest) = lex dialect next rest :=
  lex_cons next ' ' rest

/-- A token ends where the next character does not belong to it. -/
theorem lexFrom_finish {current : Partial} {next after : Nat} {ts : List Token} {rest : List Char}
    (hrest : ∀ c ∈ rest.head?, current.push? dialect c = none)
    (hfinish : current.finish? next = some (ts, after)) :
    lexFrom dialect next current rest = (lex dialect after rest).map (ts ++ ·) := by
  cases rest with
  | nil =>
    rw [lexFrom, hfinish]
    simp [lex, lexFrom, Partial.finish?]
  | cons c rest =>
    rw [lexFrom, hrest c rfl, hfinish, lex_cons]

theorem lexFrom_digits (next : Nat) (front : List Char) {cs : List Char}
    (h : ∀ c ∈ cs, c.isDigit = true) (rest : List Char) :
    lexFrom dialect next (.digits front) (cs ++ rest) =
      lexFrom dialect next (.digits (front ++ cs)) rest := by
  induction cs generalizing front with
  | nil => rw [List.append_nil, List.nil_append]
  | cons c cs ih =>
    rw [List.forall_mem_cons] at h
    rw [List.cons_append, lexFrom, Partial.push?, if_pos h.1]
    dsimp only
    rw [ih (front ++ [c]) h.2, List.append_assoc, List.singleton_append]

theorem lexFrom_word (next : Nat) (path : List String) (front : List Char) {cs : List Char}
    (h : ∀ c ∈ cs, isWordChar c = true) (rest : List Char) :
    lexFrom dialect next (.word path front) (cs ++ rest) =
      lexFrom dialect next (.word path (front ++ cs)) rest := by
  induction cs generalizing front with
  | nil => rw [List.append_nil, List.nil_append]
  | cons c cs ih =>
    rw [List.forall_mem_cons] at h
    rw [List.cons_append, lexFrom, Partial.push?, if_pos h.1]
    dsimp only
    rw [ih (front ++ [c]) h.2, List.append_assoc, List.singleton_append]

theorem lexFrom_index (next : Nat) (front : List Char) {cs : List Char}
    (h : ∀ c ∈ cs, c.isDigit = true) (rest : List Char) :
    lexFrom dialect next (.hole [] front) (cs ++ rest) =
      lexFrom dialect next (.hole [] (front ++ cs)) rest := by
  induction cs generalizing front with
  | nil => rw [List.append_nil, List.nil_append]
  | cons c cs ih =>
    rw [List.forall_mem_cons] at h
    rw [List.cons_append, lexFrom, Partial.push?, if_pos h.1]
    dsimp only
    rw [ih (front ++ [c]) h.2, List.append_assoc, List.singleton_append]

/-- Behind the opening mark, a name is read up to its closing mark. -/
theorem lexFrom_quoted (next : Nat) (path : List String) (front cs rest : List Char) :
    lexFrom dialect next (.quoted path front)
        ((cs.flatMap fun c => if c = dialect.closing then [c, c] else [c]) ++
          dialect.closing :: rest) =
      lexFrom dialect next (.closed path (front ++ cs)) rest := by
  induction cs generalizing front with
  | nil =>
    rw [List.flatMap_nil, List.nil_append, lexFrom, Partial.push?, if_pos rfl, List.append_nil]
  | cons c cs ih =>
    rw [List.flatMap_cons, List.append_assoc]
    have hrest := ih (front ++ [c])
    rw [List.append_assoc, List.singleton_append] at hrest
    by_cases hc : c = dialect.closing
    · rw [if_pos hc, List.cons_append, List.singleton_append, lexFrom, Partial.push?, if_pos hc]
      dsimp only
      rw [lexFrom, Partial.push?, if_pos hc]
      exact hrest
    · rw [if_neg hc, List.singleton_append, lexFrom, Partial.push?, if_neg hc]
      exact hrest

namespace Lexes

variable {next middle after : Nat} {cs ds : List Char} {ts us : List Token}

theorem nil (next : Nat) : Lexes dialect next [] [] next := by
  intro rest _
  rw [List.nil_append]
  simp

/-- Two texts with a blank between them. -/
theorem space (hc : Lexes dialect next cs ts middle) (hd : Lexes dialect middle ds us after) :
    Lexes dialect next (cs ++ ' ' :: ds) (ts ++ us) after := by
  intro rest hrest
  have hends : Ends (' ' :: (ds ++ rest)) := by
    intro c hc
    exact .inl (Option.some.inj hc).symm
  rw [List.append_assoc, List.cons_append, hc _ hends, lex_space, hd rest hrest, Option.map_map]
  simp [Function.comp_def]

end Lexes

/-- An operator or punctuation of one character, in front of what does not make a longer one. -/
theorem lex_symbol {c : Char} (next : Nat) (hstart : Partial.start dialect c = .symbol [c])
    (hsymbol : isSymbol [c] = true) {rest : List Char}
    (hrest : ∀ d ∈ rest.head?, (Partial.symbol [c]).push? dialect d = none) :
    lex dialect next (c :: rest) =
      (lex dialect next rest).map (.symbol (String.ofList [c]) :: ·) := by
  have hfinish : (Partial.symbol [c]).finish? next =
      some ([.symbol (String.ofList [c])], next) := if_pos hsymbol
  rw [lex_cons, hstart]
  exact lexFrom_finish hrest hfinish

/-- Parentheses and commas are complete. -/
theorem lex_punctuation {c : Char} (next : Nat) (hc : c ∈ ['(', ')', ',']) (rest : List Char) :
    lex dialect next (c :: rest) =
      (lex dialect next rest).map (.symbol (String.ofList [c]) :: ·) := by
  simp only [List.mem_cons, List.not_mem_nil, or_false] at hc
  apply lex_symbol
  · rcases hc with rfl | rfl | rfl <;> cases dialect <;> rfl
  · rcases hc with rfl | rfl | rfl <;> rfl
  · intro d _
    rcases hc with rfl | rfl | rfl <;> simp [Partial.push?, isSymbol, symbols]

namespace Lexes

variable {next middle after : Nat} {cs ds : List Char} {ts us : List Token}

/-- Two members of a list. -/
theorem comma (hc : Lexes dialect next cs ts middle) (hd : Lexes dialect middle ds us after) :
    Lexes dialect next (cs ++ ',' :: ' ' :: ds) (ts ++ .symbol "," :: us) after := by
  intro rest hrest
  have hends : Ends (',' :: ' ' :: (ds ++ rest)) := by
    intro c hc
    exact .inr (.inr (Option.some.inj hc).symm)
  have hcomma : lex dialect middle (',' :: ' ' :: (ds ++ rest)) =
      (lex dialect middle (' ' :: (ds ++ rest))).map (.symbol "," :: ·) :=
    lex_punctuation middle (by decide) _
  rw [List.append_assoc, List.cons_append, List.cons_append, hc _ hends, hcomma, lex_space,
    hd rest hrest, Option.map_map, Option.map_map]
  simp [Function.comp_def]

/-- A text in parentheses. -/
theorem parens (hc : Lexes dialect next cs ts after) :
    Lexes dialect next ('(' :: (cs ++ [')'])) (.symbol "(" :: (ts ++ [Token.symbol ")"])) after := by
  intro rest _
  have hends : Ends (')' :: rest) := by
    intro c hc
    exact .inr (.inl (Option.some.inj hc).symm)
  have hopen : lex dialect next ('(' :: (cs ++ ')' :: rest)) =
      (lex dialect next (cs ++ ')' :: rest)).map (.symbol "(" :: ·) :=
    lex_punctuation next (by decide) _
  have hclose : lex dialect after (')' :: rest) = (lex dialect after rest).map (.symbol ")" :: ·) :=
    lex_punctuation after (by decide) rest
  rw [List.cons_append, List.append_assoc, List.singleton_append, hopen, hc _ hends, hclose,
    Option.map_map, Option.map_map]
  simp [Function.comp_def]

/-- A sign in front of a number, unless the text of the number has one. -/
theorem minus (hc : Lexes dialect next cs ts after) (hunsigned : ∃ c ∈ cs.head?, c ≠ '-') :
    Lexes dialect next ('-' :: cs) (.symbol "-" :: ts) after := by
  intro rest hrest
  obtain ⟨c, hhead, hc'⟩ := hunsigned
  have hsign : lex dialect next ('-' :: (cs ++ rest)) =
      (lex dialect next (cs ++ rest)).map (.symbol "-" :: ·) := by
    apply lex_symbol
    · cases dialect <;> rfl
    · rfl
    · intro d hd
      rw [List.head?_append, Option.mem_def.mp hhead] at hd
      obtain rfl := Option.some.inj hd
      simp [Partial.push?, hc', isSymbol, symbols]
  rw [List.cons_append, hsign, hc rest hrest, Option.map_map]
  simp [Function.comp_def]

end Lexes

theorem not_isDigit_of_ends {c : Char} (h : c = ' ' ∨ c = ')' ∨ c = ',') : c.isDigit = false := by
  rcases h with rfl | rfl | rfl <;> rfl

theorem not_isWordChar_of_ends {c : Char} (h : c = ' ' ∨ c = ')' ∨ c = ',') :
    isWordChar c = false := by
  rcases h with rfl | rfl | rfl <;> rfl

theorem isDigit_of_mem_toDigits {n : Nat} {c : Char} (h : c ∈ Nat.toDigits 10 n) :
    c.isDigit = true :=
  Nat.isDigit_of_mem_toDigits (by decide) (by decide) h

theorem start_of_isDigit {c : Char} (h : c.isDigit = true) :
    Partial.start dialect c = .digits [c] := by
  have hspace : Text.isSpace c = false := by
    cases hspace : Text.isSpace c with
    | false => rfl
    | true =>
      simp only [Text.isSpace, Bool.or_eq_true, beq_iff_eq] at hspace
      rcases hspace with ((rfl | rfl) | rfl) | rfl <;> cases h
  rw [Partial.start, hspace, if_neg nofun, if_pos h]

/-- A number. -/
theorem lexes_number (next n : Nat) :
    Lexes dialect next (Nat.toDigits 10 n) [.number n] next := by
  intro rest hrest
  have hall : ∀ c ∈ Nat.toDigits 10 n, c.isDigit = true := fun _ => isDigit_of_mem_toDigits
  have hfinish : (Partial.digits (Nat.toDigits 10 n)).finish? next = some ([.number n], next) := by
    simp [Partial.finish?, Nat.ofDigitChars_ten_toDigits]
  obtain ⟨c, cs, hcs⟩ := List.exists_cons_of_ne_nil (Nat.toDigits_ne_nil (n := n) (b := 10))
  rw [hcs] at hall hfinish ⊢
  rw [List.forall_mem_cons] at hall
  rw [List.cons_append, lex_cons, start_of_isDigit hall.1, lexFrom_digits next _ hall.2,
    List.singleton_append]
  apply lexFrom_finish _ hfinish
  intro d hd
  rw [Partial.push?, not_isDigit_of_ends (hrest d hd)]
  rfl

/-- A placeholder, which has the next number. -/
theorem lexes_hole (next : Nat) :
    Lexes dialect next (dialect.placeholder next).toList [.hole next] (next + 1) := by
  intro rest hrest
  have hall : ∀ c ∈ Nat.toDigits 10 next, c.isDigit = true := fun _ => isDigit_of_mem_toDigits
  have hpush (cs : List Char) :
      ∀ c ∈ rest.head?, (Partial.hole [] cs).push? dialect c = none := by
    intro c hc
    rw [Partial.push?, not_isDigit_of_ends (hrest c hc)]
    rfl
  -- Behind its mark, the number of a placeholder is read.
  have hindex : lexFrom dialect next (.hole [] []) (Nat.toDigits 10 next ++ rest) =
      (lex dialect (next + 1) rest).map ([.hole next] ++ ·) := by
    rw [lexFrom_index next [] hall, List.nil_append]
    apply lexFrom_finish (hpush _)
    obtain ⟨c, cs, hcs⟩ := List.exists_cons_of_ne_nil (Nat.toDigits_ne_nil (n := next) (b := 10))
    have hvalue := Nat.ofDigitChars_ten_toDigits (n := next)
    rw [hcs] at hvalue ⊢
    rw [Partial.finish?]
    · simp [hvalue]
    · nofun
  have hplain : lexFrom dialect next (.hole [] []) rest =
      (lex dialect (next + 1) rest).map ([.hole next] ++ ·) :=
    lexFrom_finish (hpush _) rfl
  cases dialect with
  | mysql =>
    have hcs : (Dialect.placeholder .mysql next).toList = ['?'] := by simp [Dialect.placeholder]
    rw [hcs]
    exact (lex_cons next '?' _).trans hplain
  | sqlite =>
    have hcs : (Dialect.placeholder .sqlite next).toList = ['?'] := by simp [Dialect.placeholder]
    rw [hcs]
    exact (lex_cons next '?' _).trans hplain
  | postgres =>
    have hcs : (Dialect.placeholder .postgres next).toList = '$' :: Nat.toDigits 10 next := by
      simp [Dialect.placeholder, ToString.toString, Nat.repr]
    rw [hcs]
    exact (lex_cons next '$' _).trans hindex
  | sqlserver =>
    have hcs : (Dialect.placeholder .sqlserver next).toList =
        '@' :: 'p' :: Nat.toDigits 10 next := by
      simp [Dialect.placeholder, ToString.toString, Nat.repr]
    rw [hcs]
    exact (lex_cons next '@' _).trans hindex
  | oracle =>
    have hcs : (Dialect.placeholder .oracle next).toList = ':' :: 'p' :: Nat.toDigits 10 next := by
      simp [Dialect.placeholder, ToString.toString, Nat.repr]
    rw [hcs]
    exact (lex_cons next ':' _).trans hindex

/-! ## Words and names -/

theorem isWordChar_of_isWordStart {c : Char} (h : isWordStart c = true) : isWordChar c = true := by
  rw [isWordStart, Bool.and_eq_true] at h
  exact h.1

/-- A character that starts a word starts nothing else. -/
theorem start_of_isWordStart {c : Char} (h : isWordStart c = true) (hopening : c ≠ dialect.opening) :
    Partial.start dialect c = .word [] [c] := by
  have hword := isWordChar_of_isWordStart h
  have hspace : Text.isSpace c = false := by
    cases hspace : Text.isSpace c with
    | false => rfl
    | true =>
      simp only [Text.isSpace, Bool.or_eq_true, beq_iff_eq] at hspace
      rcases hspace with ((rfl | rfl) | rfl) | rfl <;> cases hword
  have hdigit : c.isDigit = false := by
    cases hdigit : c.isDigit with
    | false => rfl
    | true =>
      have hascii : Text.isAscii c = true := by
        simp only [Char.isDigit, Bool.and_eq_true, decide_eq_true_eq] at hdigit
        have hle : c.toNat ≤ 57 := UInt32.le_iff_toNat_le.mp hdigit.2
        simp only [Text.isAscii, decide_eq_true_eq]
        omega
      simp [isWordStart, Text.isNumeric, hascii, hdigit] at h
  have hmark : dialect.holeMark.head? ≠ some c := by
    intro hmark
    cases dialect <;> cases hmark <;> cases hword
  rw [Partial.start, hspace, if_neg nofun, hdigit, if_neg nofun, if_neg hopening, if_neg hmark,
    if_pos h]

/-- No word holds the mark of a quoted name. -/
theorem isWordChar_opening : isWordChar dialect.opening = false := by
  cases dialect <;> rfl

theorem ne_opening {c : Char} (h : isWordChar c = true) : c ≠ dialect.opening := by
  rintro rfl
  rw [isWordChar_opening] at h
  cases h

/-- A keyword in capitals. -/
theorem lexes_keyword (next : Nat) (keyword : Keyword) :
    Lexes dialect next keyword.text.toList [.keyword keyword] next := by
  intro rest hrest
  obtain ⟨c, cs, hcs⟩ : ∃ c cs, keyword.text.toList = c :: cs := by
    cases keyword <;> exact ⟨_, _, rfl⟩
  have hfound : Keyword.ofWord? keyword.text = some keyword := by
    cases keyword <;> decide +kernel
  have hchars : ∀ d ∈ keyword.text.toList, isWordChar d = true :=
    List.all_eq_true.mp (by cases keyword <;> rfl)
  have hstart : isWordStart c = true := by
    cases keyword <;> · cases hcs; rfl
  have hfinish : (Partial.word [] (c :: cs)).finish? next = some ([.keyword keyword], next) := by
    rw [← hcs, Partial.finish?, String.ofList_toList, hfound]
    rfl
  rw [hcs, List.forall_mem_cons] at hchars
  rw [hcs, List.cons_append, lex_cons, start_of_isWordStart hstart (ne_opening hchars.1),
    lexFrom_word next [] _ hchars.2, List.singleton_append]
  apply lexFrom_finish _ hfinish
  intro d hd
  have hword := not_isWordChar_of_ends (hrest d hd)
  rw [Partial.push?, hword]
  rcases hrest d hd with rfl | rfl | rfl <;> rfl

/-- A binary operator in front of a blank. -/
theorem lexes_operator (next : Nat) (op : BinaryOp) (rest : List Char) :
    lex dialect next (op.sqlSymbol.toList ++ ' ' :: rest) =
      (lex dialect next rest).map (operatorTokens op ++ ·) := by
  have hword (keyword : Keyword) (rest : List Char) :
      lex dialect next (keyword.text.toList ++ ' ' :: rest) =
        (lex dialect next rest).map ([.keyword keyword] ++ ·) := by
    have hends : Ends (' ' :: rest) := by
      intro c hc
      exact .inl (Option.some.inj hc).symm
    rw [lexes_keyword next keyword _ hends, lex_space]
  have hsymbol (cs : List Char) (hstart : lex dialect next (cs ++ ' ' :: rest) =
      lexFrom dialect next (.symbol cs) (' ' :: rest)) (hsymbol : isSymbol cs = true)
      (hpush : (Partial.symbol cs).push? dialect ' ' = none) :
      lex dialect next (cs ++ ' ' :: rest) =
        (lex dialect next rest).map ([.symbol (String.ofList cs)] ++ ·) := by
    rw [hstart, ← lex_space next rest]
    apply lexFrom_finish
    · intro d hd
      obtain rfl := Option.some.inj hd
      exact hpush
    · exact if_pos hsymbol
  cases op
  case and => exact hword .and rest
  case or => exact hword .or rest
  case like => exact hword .like rest
  case notLike =>
    -- Two words.
    have hwords := hword .not (Keyword.like.text.toList ++ ' ' :: rest)
    rw [hword .like rest, Option.map_map] at hwords
    exact hwords
  all_goals
    refine hsymbol _ ?_ rfl rfl
    rw [BinaryOp.sqlSymbol]
    cases dialect <;> exact lex_cons _ _ _

/-- Two operands around a binary operator, with blanks around it. -/
theorem Lexes.binary {next middle after : Nat} {ls rs : List Char} {lts rts : List Token}
    (op : BinaryOp) (hl : Lexes dialect next ls lts middle)
    (hr : Lexes dialect middle rs rts after) :
    Lexes dialect next (ls ++ ' ' :: (op.sqlSymbol.toList ++ ' ' :: rs))
      (lts ++ (operatorTokens op ++ rts)) after := by
  intro rest hrest
  have hends : Ends (' ' :: (op.sqlSymbol.toList ++ ' ' :: (rs ++ rest))) := by
    intro c hc
    exact .inl (Option.some.inj hc).symm
  simp only [List.append_assoc, List.cons_append]
  rw [hl _ hends, lex_space, lexes_operator, hr rest hrest, Option.map_map, Option.map_map]
  simp [Function.comp_def]

/-- One name of a column, quoted where needed. -/
def spelled (dialect : Dialect) (part : String) : String :=
  if needsQuoting part then quoteName dialect.opening dialect.closing part else part

/-- A name that need not be quoted is a word. -/
theorem exists_word {part : String} (hne : part ≠ "") (hplain : needsQuoting part = false) :
    ∃ c cs, part.toList = c :: cs ∧ isWordStart c = true ∧ ∀ d ∈ cs, isWordChar d = true := by
  simp only [needsQuoting, Bool.or_eq_false_iff, List.any_eq_false] at hplain
  obtain ⟨⟨-, hchars⟩, hhead⟩ := hplain
  have hword : ∀ c ∈ part.toList, isWordChar c = true := by
    intro c hc
    have hchar := hchars c hc
    cases hword : isWordChar c <;> simp_all [isWordChar]
  cases hlist : part.toList with
  | nil => exact absurd (String.toList_eq_nil_iff.mp hlist) hne
  | cons c cs =>
    rw [hlist] at hhead hword
    have hnumeric : Text.isNumeric c = false := hhead
    rw [List.forall_mem_cons] at hword
    exact ⟨c, cs, rfl, by rw [isWordStart, hword.1, hnumeric]; rfl, hword.2⟩

/-- What a name starts with, quoted or not. -/
theorem exists_spelled {part : String} (hne : part ≠ "") :
    ∃ c cs, (spelled dialect part).toList = c :: cs ∧
      (c = dialect.opening ∨ isWordStart c = true) := by
  cases hquoting : needsQuoting part with
  | true =>
    have htext : (spelled dialect part).toList = dialect.opening ::
        ((part.toList.flatMap fun c => if c = dialect.closing then [c, c] else [c]) ++
          [dialect.closing]) := by
      simp [spelled, hquoting, quoteName]
    exact ⟨_, _, htext, .inl rfl⟩
  | false =>
    obtain ⟨c, cs, hcs, hstart, -⟩ := exists_word hne hquoting
    exact ⟨c, cs, by simp [spelled, hquoting, hcs], .inr hstart⟩

/-- A name is read up to its end, and what follows shows whether it was the last one. -/
theorem lexFrom_part (next : Nat) (path : List String) {part : String} (hne : part ≠ "") :
    ∃ current, (∀ rest, lexFrom dialect next (.dot path) ((spelled dialect part).toList ++ rest) =
        lexFrom dialect next current rest) ∧
      current.push? dialect '.' = some (.dot (path ++ [part])) ∧
      (∀ c, c = ' ' ∨ c = ')' ∨ c = ',' → current.push? dialect c = none) ∧
      current.finish? next = some ([.column (path ++ [part])], next) := by
  cases hquoting : needsQuoting part with
  | true =>
    refine ⟨.closed path part.toList, ?_, ?_, ?_, ?_⟩
    · intro rest
      have htext : (spelled dialect part).toList ++ rest = dialect.opening ::
          ((part.toList.flatMap fun c => if c = dialect.closing then [c, c] else [c]) ++
            dialect.closing :: rest) := by
        simp [spelled, hquoting, quoteName]
      rw [htext, lexFrom, Partial.push?, if_pos rfl]
      exact lexFrom_quoted next path [] part.toList rest
    · cases dialect <;> simp [Partial.push?, Dialect.closing, Text.doubleQuote, Text.backQuote]
    · intro c hc
      have hclosing : c ≠ dialect.closing := by
        rcases hc with rfl | rfl | rfl <;> cases dialect <;> decide
      have hdot : c ≠ '.' := by
        rcases hc with rfl | rfl | rfl <;> decide
      rw [Partial.push?, if_neg hclosing, if_neg hdot]
    · rw [Partial.finish?, String.ofList_toList]
  | false =>
    obtain ⟨c, cs, hcs, hstart, hchars⟩ := exists_word hne hquoting
    refine ⟨.word path part.toList, ?_, ?_, ?_, ?_⟩
    · intro rest
      have htext : spelled dialect part = part := by
        rw [spelled, hquoting]
        rfl
      have hopening : c ≠ dialect.opening := ne_opening (isWordChar_of_isWordStart hstart)
      rw [htext, hcs, List.cons_append, lexFrom, Partial.push?, if_neg hopening, if_pos hstart]
      exact lexFrom_word next path [c] hchars rest
    · rw [Partial.push?, String.ofList_toList]
      rfl
    · intro c hc
      rw [Partial.push?, not_isWordChar_of_ends hc]
      rcases hc with rfl | rfl | rfl <;> rfl
    · rw [Partial.finish?, String.ofList_toList, Keyword.ofWord?_eq_none hquoting]

/-- A name of several parts is its first part, a dot, and the others. -/
theorem toList_spelledPath (first second : String) (others : List String) :
    (String.intercalate "." ((first :: second :: others).map (spelled dialect))).toList =
      (spelled dialect first).toList ++ '.' ::
        (String.intercalate "." ((second :: others).map (spelled dialect))).toList := by
  simp [String.intercalate_cons_cons, String.append_assoc]

theorem lexFrom_path (next : Nat) : ∀ (path parts : List String), parts ≠ [] →
    (∀ part ∈ parts, part ≠ "") → ∀ rest, Ends rest →
    lexFrom dialect next (.dot path)
        ((String.intercalate "." (parts.map (spelled dialect))).toList ++ rest) =
      (lex dialect next rest).map ([.column (path ++ parts)] ++ ·)
  | path, [last], _, hparts, rest, hrest => by
    obtain ⟨current, hread, -, hpush, hfinish⟩ :=
      lexFrom_part next path (hparts last List.mem_cons_self)
    rw [List.map_singleton, String.intercalate_singleton, hread]
    exact lexFrom_finish (fun c hc => hpush c (hrest c hc)) hfinish
  | path, first :: second :: others, _, hparts, rest, hrest => by
    rw [List.forall_mem_cons] at hparts
    obtain ⟨current, hread, hdot, -, -⟩ :=
      lexFrom_part next path hparts.1
    have hothers := lexFrom_path next (path ++ [first]) (second :: others) nofun hparts.2 rest hrest
    rw [toList_spelledPath, List.append_assoc, List.cons_append, hread, lexFrom, hdot]
    dsimp only
    rw [hothers, List.append_assoc, List.singleton_append]

/-- A name is read in front as it is behind a dot. -/
theorem lex_eq_dot (next : Nat) {c : Char} (h : c = dialect.opening ∨ isWordStart c = true)
    (rest : List Char) :
    lex dialect next (c :: rest) = lexFrom dialect next (.dot []) (c :: rest) := by
  rw [lex_cons, lexFrom, Partial.push?]
  rcases h with rfl | hstart
  · rw [if_pos rfl]
    cases dialect <;> rfl
  · have hopening : c ≠ dialect.opening := ne_opening (isWordChar_of_isWordStart hstart)
    rw [if_neg hopening, if_pos hstart, start_of_isWordStart hstart hopening]

/-- The text of a column starts as its first name does. -/
theorem exists_path_cons {first : String} (hne : first ≠ "") (others : List String) :
    ∃ c cs, (String.intercalate "." ((first :: others).map (spelled dialect))).toList = c :: cs ∧
      (c = dialect.opening ∨ isWordStart c = true) := by
  obtain ⟨c, cs, hcs, hstart⟩ := exists_spelled hne
  cases others with
  | nil => exact ⟨c, cs, by simpa using hcs, hstart⟩
  | cons second others =>
    exact ⟨c, _, by rw [toList_spelledPath, hcs, List.cons_append], hstart⟩

theorem exists_path {path : List String} (hne : path ≠ []) (hpath : ∀ part ∈ path, part ≠ "") :
    ∃ c cs, (String.intercalate "." (path.map (spelled dialect))).toList = c :: cs ∧
      (c = dialect.opening ∨ isWordStart c = true) := by
  obtain ⟨first, others, rfl⟩ := List.exists_cons_of_ne_nil hne
  exact exists_path_cons (hpath first List.mem_cons_self) others

/-- A column with the names that qualify it, as it is written. -/
theorem lexes_path (next : Nat) {path : List String} (hne : path ≠ [])
    (hpath : ∀ part ∈ path, part ≠ "") :
    Lexes dialect next (String.intercalate "." (path.map (spelled dialect))).toList
      [.column path] next := by
  intro rest hrest
  have hread := @lexFrom_path dialect next [] path hne hpath rest hrest
  obtain ⟨c, cs, hcs, hstart⟩ := @exists_path dialect path hne hpath
  rw [hcs, List.cons_append] at hread ⊢
  rw [lex_eq_dot next hstart, hread, List.nil_append]

end Sql

end Sproc
