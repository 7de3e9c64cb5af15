import Sproc.Go.Expr

/-!
# Reading conditions

The text of a condition as Go takes it. The text is cut into tokens, each as long as it can be; the
tokens are put together by the strengths of their operators, which group to the left; and the result
is evaluated where the variables have values. Integers are words of 32 bits.

What a token list means is also said by a grammar with one level for each strength. The reader
accepts every phrase of the grammar, whatever surrounds it, and reads it as the grammar says.

Characters beyond ASCII count as letters.

## Main definitions

* `Go.Token`, `Go.lex`: the tokens of a text
* `Go.Term`, `Go.readOperand`, `Go.read`: the tree that tokens stand for
* `Go.Datum`, `Go.Term.eval`: the value of a tree
* `Go.Phrase`: the grammar
* `Go.Lexes`: a text is cut into tokens, whatever follows

## Main results

* `Go.readOperand_phrase`: a phrase is read as the grammar says
* `Go.Phrase.join`: conjunctions and disjunctions may be joined without parentheses
* `Go.Lexes.binary`, `Go.Lexes.parens`, `Go.lexes_int`, `Go.lexes_name`: how texts are cut
-/

namespace Sproc.Go

/-! ## Tokens -/

/-- The smallest parts of a text. -/
inductive Token where
  | name (id : String)
  | int (value : Nat)
  | op (symbol : String)
  deriving DecidableEq, Repr

/-- Operators and punctuation. -/
def operators : List String := [
  "+", "-", "*", "/", "%", "&", "|", "^", "<<", ">>", "&^", "+=", "-=", "*=", "/=", "%=", "&=", "|=",
  "^=", "<<=", ">>=", "&^=", "&&", "||", "<-", "++", "--", "==", "<", ">", "=", "!", "~", "!=", "<=",
  ">=", ":=", "(", ")", "[", "]", "\x7b", "\x7d", ",", ";", ".", ":"]

/-- Words that are no names. -/
def keywords : List String := [
  "break", "case", "chan", "const", "continue", "default", "defer", "else", "fallthrough", "for",
  "func", "go", "goto", "if", "import", "interface", "map", "package", "range", "return", "select",
  "struct", "switch", "type", "var"]

/-- Whether characters are an operator. -/
def isOperator (cs : List Char) : Bool :=
  operators.any (·.toList == cs)

/-- Whether a character can stand in a name. -/
def isNameChar (c : Char) : Bool :=
  c.isAlphanum || c == '_' || 0x80 ≤ c.toNat

/-- A token that is still being read. -/
inductive Partial where
  | nothing
  | word (cs : List Char)
  | digits (cs : List Char)
  | symbol (cs : List Char)

namespace Partial

/-- The token that a character starts. Blanks start none. -/
def start (c : Char) : Partial :=
  if c = ' ' ∨ c = '\t' ∨ c = '\n' ∨ c = '\r' then .nothing
  else if c.isDigit then .digits [c]
  else if isNameChar c then .word [c]
  else .symbol [c]

/-- The token with one more character, if there is such a token. -/
def push? : Partial → Char → Option Partial
  | .nothing, _ => none
  | .word cs, c => if isNameChar c then some (.word (cs ++ [c])) else none
  | .digits cs, c => if c.isDigit then some (.digits (cs ++ [c])) else none
  | .symbol cs, c => if isOperator (cs ++ [c]) then some (.symbol (cs ++ [c])) else none

/-- The token as it stands. Numbers are decimal, so no zero may lead them. -/
def finish? : Partial → Option (List Token)
  | .nothing => some []
  | .word cs => if keywords.contains (String.ofList cs) then none else some [.name (String.ofList cs)]
  | .digits cs =>
    let n := Nat.ofDigitChars 10 cs 0
    if Nat.toDigits 10 n = cs then some [.int n] else none
  | .symbol cs => if isOperator cs then some [.op (String.ofList cs)] else none

end Partial

/-- The tokens of a text behind a token that is still being read. -/
def lexFrom (current : Partial) : List Char → Option (List Token)
  | [] => current.finish?
  | c :: rest =>
    match current.push? c with
    | some longer => lexFrom longer rest
    | none => do
      let front ← current.finish?
      let back ← lexFrom (.start c) rest
      return front ++ back

/-- The tokens of a text. -/
def lex (cs : List Char) : Option (List Token) :=
  lexFrom .nothing cs

/-! ## Trees -/

/-- The tree that tokens stand for. -/
inductive Term where
  | name (id : String)
  | int (value : Nat)
  | unary (op : String) (operand : Term)
  | binary (op : String) (left right : Term)
  deriving DecidableEq, Repr

/-- The binding strength of a binary operator. -/
def strength? : String → Option Nat
  | "||" => some 1
  | "&&" => some 2
  | "==" | "!=" | "<" | "<=" | ">" | ">=" => some 3
  | "+" | "-" => some 4
  | "*" => some 5
  | _ => none

/-- What an operand is read for. -/
inductive Hole where
  | paren
  /-- An operator in front of its operand. -/
  | sign (op : String)
  /-- The right operand of a binary operator of the given strength. -/
  | right (op : String) (left : Term) (strength : Nat)

/-- How tightly the operator around a hole binds. -/
def Hole.strength : Hole → Nat
  | .paren => 0
  | .sign _ => 7
  | .right _ _ p => p

/-- Puts an operand into the holes around it, as long as these bind at least as tightly as what
follows. -/
def fill (least : Nat) : List Hole → Term → List Hole × Term
  | [], t => ([], t)
  | hole :: outer, t =>
    if hole.strength < least then (hole :: outer, t)
    else
      match hole with
      | .paren => (.paren :: outer, t)
      | .sign op => fill least outer (.unary op t)
      | .right op left _ => fill least outer (.binary op left t)

mutual

/-- Reads on where an operand is due. -/
def readOperand (holes : List Hole) : List Token → Option Term
  | .name id :: rest => readOperator holes (.name id) rest
  | .int n :: rest => readOperator holes (.int n) rest
  | .op "(" :: rest => readOperand (.paren :: holes) rest
  | .op "!" :: rest => readOperand (.sign "!" :: holes) rest
  | .op "-" :: rest => readOperand (.sign "-" :: holes) rest
  | _ => none

/-- Reads on behind an operand. -/
def readOperator (holes : List Hole) (t : Term) : List Token → Option Term
  | [] =>
    match fill 1 holes t with
    | ([], whole) => some whole
    | _ => none
  | .op symbol :: rest =>
    if symbol = ")" then
      match fill 1 holes t with
      | (.paren :: outer, inner) => readOperator outer inner rest
      | _ => none
    else
      match strength? symbol with
      | some p =>
        let (outer, left) := fill p holes t
        readOperand (.right symbol left p :: outer) rest
      | none => none
  | _ => none

end

/-- The tree of a text. -/
def read (s : String) : Option Term :=
  (lex s.toList).bind (readOperand [])

/-! ## Values -/

/-- The value of a condition or of an operand. -/
inductive Datum where
  | int (n : Int)
  | bool (b : Bool)
  deriving DecidableEq, Repr

/-- An integer as a word of 32 bits. -/
def wrap32 (n : Int) : Int :=
  Int.bmod n 0x100000000

/-- An integer that fits a word of 32 bits. -/
def IsWord (n : Int) : Prop :=
  -0x80000000 ≤ n ∧ n < 0x80000000

instance (n : Int) : Decidable (IsWord n) :=
  inferInstanceAs (Decidable (_ ∧ _))

theorem wrap32_of_isWord {n : Int} (h : IsWord n) : wrap32 n = n := by
  obtain ⟨hlow, hhigh⟩ := h
  exact Int.bmod_eq_of_le_mul_two (by omega) (by omega)

/-- The value of an operator in front of its operand. -/
def applySign : String → Datum → Option Datum
  | "!", .bool b => some (.bool !b)
  | "-", .int n => some (.int (wrap32 (-n)))
  | _, _ => none

/-- The value of a binary operator. -/
def applyOperator : String → Datum → Datum → Option Datum
  | "||", .bool a, .bool b => some (.bool (a || b))
  | "&&", .bool a, .bool b => some (.bool (a && b))
  | "==", .bool a, .bool b => some (.bool (a == b))
  | "!=", .bool a, .bool b => some (.bool (a != b))
  | "==", .int a, .int b => some (.bool (a == b))
  | "!=", .int a, .int b => some (.bool (a != b))
  | "<", .int a, .int b => some (.bool (a < b))
  | "<=", .int a, .int b => some (.bool (a ≤ b))
  | ">", .int a, .int b => some (.bool (b < a))
  | ">=", .int a, .int b => some (.bool (b ≤ a))
  | "+", .int a, .int b => some (.int (wrap32 (a + b)))
  | "-", .int a, .int b => some (.int (wrap32 (a - b)))
  | "*", .int a, .int b => some (.int (wrap32 (a * b)))
  | _, _, _ => none

/-- The value of a tree, where the variables have values. -/
def Term.eval (env : String → Option Datum) : Term → Option Datum
  | .name id => env id
  | .int n => some (.int n)
  | .unary op operand => do applySign op (← operand.eval env)
  | .binary op left right => do applyOperator op (← left.eval env) (← right.eval env)

/-! ## The grammar -/

/-- A token list is an expression whose operators outside of parentheses bind at least as tightly as
the given strength. -/
inductive Phrase : Nat → List Token → Term → Prop
  | name (id : String) : Phrase 10 [.name id] (.name id)
  | int (n : Nat) : Phrase 10 [.int n] (.int n)
  | paren {ts : List Token} {t : Term} : Phrase 1 ts t → Phrase 10 (.op "(" :: (ts ++ [.op ")"])) t
  | sign {op : String} {ts : List Token} {t : Term} : op ∈ ["!", "-"] → Phrase 8 ts t →
    Phrase 8 (.op op :: ts) (.unary op t)
  | binary {op : String} {p : Nat} {ls rs : List Token} {l r : Term} : strength? op = some p →
    Phrase p ls l → Phrase (p + 1) rs r → Phrase p (ls ++ .op op :: rs) (.binary op l r)
  | loosen {p q : Nat} {ts : List Token} {t : Term} : Phrase q ts t → p ≤ q → Phrase p ts t

theorem strength?_bounds {op : String} {p : Nat} (h : strength? op = some p) : 1 ≤ p ∧ p ≤ 5 := by
  unfold strength? at h
  split at h
  all_goals
    cases h
    try decide

/-- The next token does not bind tighter than the given strength, if it is an operator. -/
def Closes (p : Nat) (rest : List Token) : Prop :=
  ∀ op q, rest.head? = some (.op op) → strength? op = some q → q ≤ p

/-- All holes around an operand bind looser than the given strength. -/
def Below (p : Nat) (holes : List Hole) : Prop :=
  ∀ hole ∈ holes.head?, hole.strength < p

theorem fill_of_below {p : Nat} {holes : List Hole} (h : Below p holes) (t : Term) :
    fill p holes t = (holes, t) := by
  cases holes with
  | nil => rfl
  | cons hole outer =>
    have hlt : hole.strength < p := h hole rfl
    cases hole <;> exact if_pos hlt

theorem fill_sign {p : Nat} (h : p ≤ 7) (op : String) (holes : List Hole) (t : Term) :
    fill p (.sign op :: holes) t = fill p holes (.unary op t) :=
  if_neg (Nat.not_lt.mpr h)

theorem fill_right {p q : Nat} (h : p ≤ q) (op : String) (left : Term) (holes : List Hole)
    (t : Term) : fill p (.right op left q :: holes) t = fill p holes (.binary op left t) :=
  if_neg (Nat.not_lt.mpr h)

/-- Behind an operand, only what filling its holes yields matters. -/
theorem readOperator_congr {holes holes' : List Hole} {t t' : Term} {rest : List Token}
    (hend : fill 1 holes t = fill 1 holes' t')
    (hop : ∀ op p, rest.head? = some (.op op) → strength? op = some p →
      fill p holes t = fill p holes' t') :
    readOperator holes t rest = readOperator holes' t' rest := by
  cases rest with
  | nil => rw [readOperator, readOperator, hend]
  | cons token rest =>
    cases token with
    | name | int => rfl
    | op symbol =>
      rw [readOperator, readOperator, hend]
      split
      · rfl
      · split
        next p hp => rw [hop symbol p rfl hp]
        next => rfl

/-- An operator in front is applied before anything else is looked at. -/
theorem readOperator_sign (op : String) (holes : List Hole) (t : Term) (rest : List Token) :
    readOperator (.sign op :: holes) t rest = readOperator holes (.unary op t) rest := by
  refine readOperator_congr (fill_sign (by decide) op holes t) fun other p _ hp => ?_
  have hbounds := strength?_bounds hp
  exact fill_sign (by omega) op holes t

/-- A binary operator is applied before one that does not bind tighter. -/
theorem readOperator_right {op : String} {p : Nat} (left : Term) (holes : List Hole) (t : Term)
    {rest : List Token} (hp : 1 ≤ p) (hrest : Closes p rest) :
    readOperator (.right op left p :: holes) t rest =
      readOperator holes (.binary op left t) rest := by
  refine readOperator_congr (fill_right hp op left holes t) fun other q hhead hq => ?_
  exact fill_right (hrest other q hhead hq) op left holes t

/-- A phrase is read as the grammar says: behind it, the reader has its tree for an operand. -/
theorem readOperand_phrase {p : Nat} {ts : List Token} {t : Term} (h : Phrase p ts t)
    (holes : List Hole) (rest : List Token) (hbelow : Below p holes) (hrest : Closes p rest) :
    readOperand holes (ts ++ rest) = readOperator holes t rest := by
  induction h generalizing holes rest with
  | name | int => rw [List.singleton_append, readOperand]
  | @paren ts t _ ih =>
    have hopened : Below 1 (Hole.paren :: holes) := by
      intro hole hhole
      obtain rfl := Option.some.inj hhole
      decide
    have hclosed : Closes 1 (Token.op ")" :: rest) := by
      intro op q hhead hq
      obtain rfl : ")" = op := by simpa using hhead
      cases hq
    have hinner := ih (.paren :: holes) (.op ")" :: rest) hopened hclosed
    rw [List.cons_append, List.append_assoc, List.singleton_append, readOperand, hinner,
      readOperator, if_pos rfl, fill_of_below hopened]
  | @sign op ts t hop _ ih =>
    have hinside : Below 8 (Hole.sign op :: holes) := by
      intro hole hhole
      obtain rfl := Option.some.inj hhole
      exact Nat.lt_succ_self 7
    have hclosed : Closes 8 rest := by
      intro other q _ hq
      have hbounds := strength?_bounds hq
      omega
    have hread : readOperand holes (.op op :: (ts ++ rest)) =
        readOperand (.sign op :: holes) (ts ++ rest) := by
      simp only [List.mem_cons, List.not_mem_nil, or_false] at hop
      rcases hop with rfl | rfl <;> rw [readOperand]
    rw [List.cons_append, hread, ih _ _ hinside hclosed, readOperator_sign]
  | @binary op p ls rs l r hp _ _ ihleft ihright =>
    have hbounds := strength?_bounds hp
    have hop : Closes p (Token.op op :: (rs ++ rest)) := by
      intro other q hhead hq
      obtain rfl : op = other := by simpa using hhead
      exact Nat.le_of_eq (Option.some.inj (hq.symm.trans hp))
    have hinside : Below (p + 1) (Hole.right op l p :: holes) := by
      intro hole hhole
      obtain rfl := Option.some.inj hhole
      exact Nat.lt_succ_self p
    have hclosed : Closes (p + 1) rest := fun other q hhead hq =>
      Nat.le_succ_of_le (hrest other q hhead hq)
    have hsymbol : op ≠ ")" := by
      rintro rfl
      cases hp
    rw [List.append_assoc, List.cons_append, ihleft holes _ hbelow hop, readOperator,
      if_neg hsymbol, hp]
    dsimp only
    rw [fill_of_below hbelow, ihright _ _ hinside hclosed,
      readOperator_right l holes r hbounds.1 hrest]
  | @loosen p q ts t _ hle ih =>
    refine ih holes rest (fun hole hhole => ?_) fun op s hhead hs => ?_
    · exact Nat.lt_of_lt_of_le (hbelow hole hhole) hle
    · exact Nat.le_trans (hrest op s hhead hs) hle

/-- A phrase that is the whole text is read as its tree. -/
theorem readOperand_eq_some {p : Nat} {ts : List Token} {t : Term} (h : Phrase p ts t) :
    readOperand [] ts = some t := by
  have hread := readOperand_phrase h [] [] nofun nofun
  rwa [List.append_nil, readOperator, fill] at hread

/-! ## Conjunctions and disjunctions -/

/-- Conjunctions and disjunctions take truth values and are associative. -/
theorem exists_logical {op : String} (hop : op ∈ ["||", "&&"]) :
    ∃ f : Bool → Bool → Bool, (∀ a b c, f (f a b) c = f a (f b c)) ∧
      ∀ x y, applyOperator op x y =
        match x, y with
        | .bool a, .bool b => some (.bool (f a b))
        | _, _ => none := by
  simp only [List.mem_cons, List.not_mem_nil, or_false] at hop
  rcases hop with rfl | rfl
  · refine ⟨or, Bool.or_assoc, fun x y => ?_⟩
    cases x <;> cases y <;> rfl
  · refine ⟨and, Bool.and_assoc, fun x y => ?_⟩
    cases x <;> cases y <;> rfl

theorem eval_assoc {op : String} (hop : op ∈ ["||", "&&"]) (env : String → Option Datum)
    (a b c : Term) : (Term.binary op (.binary op a b) c).eval env =
      (Term.binary op a (.binary op b c)).eval env := by
  obtain ⟨f, hassoc, happly⟩ := exists_logical hop
  simp only [Term.eval, happly]
  cases a.eval env with
  | none => rfl
  | some x =>
    cases b.eval env with
    | none => rfl
    | some y =>
      cases c.eval env with
      | none => cases x <;> cases y <;> rfl
      | some z =>
        cases x <;> cases y <;> cases z <;> first
          | rfl
          | exact congrArg (some ∘ Datum.bool) (hassoc _ _ _)

/-- No two operators share the strength of a conjunction or disjunction. -/
theorem eq_of_strength? {op other : String} {p : Nat} (hop : op ∈ ["||", "&&"])
    (hp : strength? op = some p) (hother : strength? other = some p) : other = op := by
  simp only [List.mem_cons, List.not_mem_nil, or_false] at hop
  rcases hop with rfl | rfl
  all_goals
    obtain rfl := Option.some.inj hp
    unfold strength? at hother
    split at hother <;> simp_all

/-- The right operand of a conjunction may be a conjunction without parentheses, and likewise for
disjunctions: the phrase groups differently then and means the same. -/
theorem Phrase.join {op : String} {p : Nat} (hop : op ∈ ["||", "&&"])
    (hp : strength? op = some p) {q : Nat} {rs : List Token} {r : Term} (hr : Phrase q rs r)
    (hq : p ≤ q) {ls : List Token} {l : Term} (hl : Phrase p ls l) :
    ∃ t, Phrase p (ls ++ .op op :: rs) t ∧
      ∀ env, t.eval env = (Term.binary op l r).eval env := by
  have hbounds := strength?_bounds hp
  have htight {q : Nat} {rs : List Token} {r : Term} (hr : Phrase q rs r) (hlt : p < q) :
      ∃ t, Phrase p (ls ++ .op op :: rs) t ∧ ∀ env, t.eval env = (Term.binary op l r).eval env :=
    ⟨_, .binary hp hl (hr.loosen hlt), fun _ => rfl⟩
  induction hr with
  | name id => exact htight (.name id) (by omega)
  | int n => exact htight (.int n) (by omega)
  | paren hinner => exact htight (.paren hinner) (by omega)
  | sign hsign hoperand => exact htight (.sign hsign hoperand) (by omega)
  | @binary other q ls' rs' l' r' hother hl' hr' ihleft =>
    rcases Nat.lt_or_eq_of_le hq with hlt | rfl
    · exact htight (.binary hother hl' hr') hlt
    · obtain rfl := eq_of_strength? hop hp hother
      obtain ⟨t, hphrase, heval⟩ := ihleft (Nat.le_refl p)
      refine ⟨.binary other t r', ?_, fun env => ?_⟩
      · have hwhole := Phrase.binary hp hphrase hr'
        rwa [List.append_assoc, List.cons_append] at hwhole
      · rw [← eval_assoc hop, Term.eval, heval]
        rfl
  | loosen _ hle ih => exact ih (Nat.le_trans hq hle)

/-! ## Texts -/

/-- What can stand right behind an operand. -/
def Ends (rest : List Char) : Prop :=
  ∀ c ∈ rest.head?, c = ' ' ∨ c = ')'

/-- An operand starts with a character of a name or a number, with a parenthesis or with a sign. -/
def Starts (cs : List Char) : Prop :=
  ∃ c ∈ cs.head?, isNameChar c = true ∨ c = '(' ∨ c = '!' ∨ c = '-'

/-- The text of an operand is cut into the given tokens, whatever follows. -/
structure Lexes (cs : List Char) (ts : List Token) : Prop where
  starts : Starts cs
  lex_eq : ∀ rest, Ends rest → lex (cs ++ rest) = (lex rest).map (ts ++ ·)

theorem lex_cons (c : Char) (rest : List Char) : lex (c :: rest) = lexFrom (.start c) rest := by
  have hfront : lex (c :: rest) = (lexFrom (.start c) rest).bind fun back => some ([] ++ back) := rfl
  rw [hfront]
  cases lexFrom (.start c) rest <;> rfl

theorem lex_space (rest : List Char) : lex (' ' :: rest) = lex rest :=
  lex_cons ' ' rest

/-- A token ends where the next character does not belong to it. -/
theorem lexFrom_finish {current : Partial} {ts : List Token} {rest : List Char}
    (hrest : ∀ c ∈ rest.head?, current.push? c = none) (hfinish : current.finish? = some ts) :
    lexFrom current rest = (lex rest).map (ts ++ ·) := by
  cases rest with
  | nil =>
    rw [lexFrom, hfinish]
    simp [lex, lexFrom, Partial.finish?]
  | cons c rest =>
    rw [lexFrom, hrest c rfl, hfinish, lex_cons]
    cases lexFrom (.start c) rest <;> rfl

theorem lexFrom_word (front : List Char) {cs : List Char} (h : ∀ c ∈ cs, isNameChar c = true)
    (rest : List Char) : lexFrom (.word front) (cs ++ rest) = lexFrom (.word (front ++ cs)) rest := by
  induction cs generalizing front with
  | nil => rw [List.append_nil, List.nil_append]
  | cons c cs ih =>
    rw [List.forall_mem_cons] at h
    rw [List.cons_append, lexFrom, Partial.push?, if_pos h.1]
    dsimp only
    rw [ih (front ++ [c]) h.2, List.append_assoc, List.singleton_append]

theorem lexFrom_digits (front : List Char) {cs : List Char} (h : ∀ c ∈ cs, c.isDigit = true)
    (rest : List Char) :
    lexFrom (.digits front) (cs ++ rest) = lexFrom (.digits (front ++ cs)) rest := by
  induction cs generalizing front with
  | nil => rw [List.append_nil, List.nil_append]
  | cons c cs ih =>
    rw [List.forall_mem_cons] at h
    rw [List.cons_append, lexFrom, Partial.push?, if_pos h.1]
    dsimp only
    rw [ih (front ++ [c]) h.2, List.append_assoc, List.singleton_append]

/-- A text that Go takes for a name. -/
structure IsName (id : String) : Prop where
  starts : ∃ c ∈ id.toList.head?, c.isDigit = false
  chars : ∀ c ∈ id.toList, isNameChar c = true
  free : id ∉ keywords

theorem ne_blank_of_isNameChar {c : Char} (h : isNameChar c = true) :
    ¬(c = ' ' ∨ c = '\t' ∨ c = '\n' ∨ c = '\r') := by
  rintro (rfl | rfl | rfl | rfl) <;> revert h <;> decide

theorem lexes_name {id : String} (h : IsName id) : Lexes id.toList [.name id] := by
  obtain ⟨⟨c, hc, hdigit⟩, hchars, hfree⟩ := h
  obtain ⟨cs, hcs⟩ : ∃ cs, id.toList = c :: cs := by
    cases hlist : id.toList with
    | nil => rw [hlist] at hc; cases hc
    | cons d cs =>
      rw [hlist] at hc
      exact ⟨cs, by rw [Option.some.inj hc]⟩
  rw [hcs, List.forall_mem_cons] at hchars
  have hstart : Partial.start c = .word [c] := by
    rw [Partial.start, if_neg (ne_blank_of_isNameChar hchars.1), if_neg (by simp [hdigit]),
      if_pos hchars.1]
  have hfinish : (Partial.word (c :: cs)).finish? = some [.name id] := by
    have hid : String.ofList (c :: cs) = id := by rw [← hcs, String.ofList_toList]
    have hnot : keywords.contains id = false := by simpa using hfree
    rw [Partial.finish?, hid, hnot]
    rfl
  rw [hcs]
  refine ⟨⟨c, rfl, .inl hchars.1⟩, fun rest hrest => ?_⟩
  rw [List.cons_append, lex_cons, hstart, lexFrom_word _ hchars.2, List.singleton_append]
  refine lexFrom_finish (fun d hd => ?_) hfinish
  rcases hrest d hd with rfl | rfl <;> rfl

theorem lexes_digits (n : Nat) : Lexes (Nat.toDigits 10 n) [.int n] := by
  have hall : ∀ c ∈ Nat.toDigits 10 n, c.isDigit = true := fun c hc =>
    Nat.isDigit_of_mem_toDigits (by decide) (by decide) hc
  have hfinish : (Partial.digits (Nat.toDigits 10 n)).finish? = some [.int n] := by
    simp [Partial.finish?, Nat.ofDigitChars_ten_toDigits]
  obtain ⟨c, cs, hcs⟩ := List.exists_cons_of_ne_nil (Nat.toDigits_ne_nil (n := n) (b := 10))
  rw [hcs] at hall hfinish ⊢
  rw [List.forall_mem_cons] at hall
  have hname : isNameChar c = true := by simp [isNameChar, Char.isAlphanum, hall.1]
  have hstart : Partial.start c = .digits [c] := by
    rw [Partial.start, if_neg (ne_blank_of_isNameChar hname), if_pos hall.1]
  refine ⟨⟨c, rfl, .inl hname⟩, fun rest hrest => ?_⟩
  rw [List.cons_append, lex_cons, hstart, lexFrom_digits _ hall.2, List.singleton_append]
  refine lexFrom_finish (fun d hd => ?_) hfinish
  rcases hrest d hd with rfl | rfl <;> rfl

/-- An operator of one character, in front of an operand. -/
theorem lex_symbol {c : Char} (hstart : Partial.start c = .symbol [c])
    (hoperator : isOperator [c] = true) {rest : List Char}
    (hrest : ∀ d ∈ rest.head?, isOperator [c, d] = false) :
    lex (c :: rest) = (lex rest).map (.op (String.singleton c) :: ·) := by
  have hfinish : (Partial.symbol [c]).finish? = some [.op (String.singleton c)] := by
    rw [Partial.finish?, if_pos hoperator, String.singleton_eq_ofList]
  rw [lex_cons, hstart]
  refine lexFrom_finish (fun d hd => ?_) hfinish
  rw [Partial.push?]
  exact if_neg (by simp [hrest d hd])

/-- A parenthesis or a sign makes one operator with an equals sign or a second minus only. -/
theorem isOperator_pair {c d : Char} (hc : c ∈ ['(', ')', '!', '-'])
    (hd : d ≠ '=' ∧ (c = '-' → d ≠ '-')) : isOperator [c, d] = false := by
  simp only [List.mem_cons, List.not_mem_nil, or_false] at hc
  rcases hc with rfl | rfl | rfl | rfl <;> simp [isOperator, operators] at hd ⊢ <;> grind

/-- A parenthesis or a sign in front of what does not make a longer operator of it. -/
theorem lex_punctuation {c : Char} (hc : c ∈ ['(', ')', '!', '-']) {rest : List Char}
    (hrest : ∀ d ∈ rest.head?, d ≠ '=' ∧ (c = '-' → d ≠ '-')) :
    lex (c :: rest) = (lex rest).map (.op (String.singleton c) :: ·) := by
  refine lex_symbol ?_ ?_ fun d hd => isOperator_pair hc (hrest d hd)
  all_goals
    simp only [List.mem_cons, List.not_mem_nil, or_false] at hc
    rcases hc with rfl | rfl | rfl | rfl <;> rfl

theorem Starts.head?_append {cs : List Char} (h : Starts cs) (rest : List Char) :
    (cs ++ rest).head? = cs.head? := by
  obtain ⟨c, hc, -⟩ := h
  rw [List.head?_append, Option.mem_def.mp hc]
  rfl

/-- No operand starts with an equals sign. -/
theorem Starts.ne_equals {cs : List Char} (h : Starts cs) (rest : List Char) {d : Char}
    (hd : d ∈ (cs ++ rest).head?) : d ≠ '=' := by
  rw [h.head?_append] at hd
  obtain ⟨c, hc, hclass⟩ := h
  obtain rfl := Option.mem_unique hc hd
  rintro rfl
  revert hclass
  decide

/-- An operand in parentheses. -/
theorem Lexes.parens {cs : List Char} {ts : List Token} (h : Lexes cs ts) :
    Lexes ('(' :: (cs ++ [')'])) (.op "(" :: (ts ++ [Token.op ")"])) := by
  refine ⟨⟨'(', rfl, .inr (.inl rfl)⟩, fun rest hrest => ?_⟩
  have hclose : lex (')' :: rest) = (lex rest).map (.op ")" :: ·) := by
    refine lex_punctuation (by decide) fun d hd => ?_
    rcases hrest d hd with rfl | rfl <;> decide
  have hinner : lex (cs ++ ')' :: rest) = (lex (')' :: rest)).map (ts ++ ·) := by
    refine h.lex_eq _ fun d hd => .inr ?_
    exact (Option.some.inj hd).symm
  have hopen : lex ('(' :: (cs ++ ')' :: rest)) = (lex (cs ++ ')' :: rest)).map (.op "(" :: ·) :=
    lex_punctuation (by decide) fun d hd => ⟨h.starts.ne_equals _ hd, nofun⟩
  rw [List.cons_append, List.append_assoc, List.singleton_append, hopen, hinner, hclose]
  cases lex rest <;> simp

/-- An operand behind a negation. -/
theorem Lexes.not {cs : List Char} {ts : List Token} (h : Lexes cs ts) :
    Lexes ('!' :: cs) (.op "!" :: ts) := by
  refine ⟨⟨'!', rfl, .inr (.inr (.inl rfl))⟩, fun rest hrest => ?_⟩
  have hsign : lex ('!' :: (cs ++ rest)) = (lex (cs ++ rest)).map (.op "!" :: ·) :=
    lex_punctuation (by decide) fun d hd => ⟨h.starts.ne_equals _ hd, nofun⟩
  rw [List.cons_append, hsign, h.lex_eq rest hrest]
  cases lex rest <;> simp

/-- The characters of a binary operator make one token, which a blank ends. -/
theorem lexFrom_operator {op : String} {p : Nat} (hop : strength? op = some p) :
    (∀ rest, lex (op.toList ++ rest) = lexFrom (.symbol op.toList) rest) ∧
      (Partial.symbol op.toList).push? ' ' = none ∧
      (Partial.symbol op.toList).finish? = some [.op op] := by
  unfold strength? at hop
  split at hop
  case h_12 => cases hop
  all_goals exact ⟨fun rest => lex_cons _ _, rfl, rfl⟩

/-- Two operands around a binary operator, with blanks around it. -/
theorem Lexes.binary {op : String} {p : Nat} (hop : strength? op = some p) {ls rs : List Char}
    {lts rts : List Token} (hl : Lexes ls lts) (hr : Lexes rs rts) :
    Lexes (ls ++ (' ' :: (op.toList ++ ' ' :: rs))) (lts ++ .op op :: rts) := by
  refine ⟨?_, fun rest hrest => ?_⟩
  · obtain ⟨c, hc, hclass⟩ := hl.starts
    exact ⟨c, by rwa [hl.starts.head?_append], hclass⟩
  have hsymbol : lex (op.toList ++ ' ' :: (rs ++ rest)) =
      (lex (' ' :: (rs ++ rest))).map (.op op :: ·) := by
    obtain ⟨hread, hpush, hfinish⟩ := lexFrom_operator hop
    rw [hread]
    refine lexFrom_finish (fun d hd => ?_) hfinish
    obtain rfl := Option.some.inj hd
    exact hpush
  have hleft : lex (ls ++ ' ' :: (op.toList ++ ' ' :: (rs ++ rest))) =
      (lex (' ' :: (op.toList ++ ' ' :: (rs ++ rest)))).map (lts ++ ·) := by
    refine hl.lex_eq _ fun d hd => .inl ?_
    exact (Option.some.inj hd).symm
  simp only [List.append_assoc, List.cons_append]
  rw [hleft, lex_space, hsymbol, lex_space, hr.lex_eq rest hrest]
  cases lex rest <;> simp

/-- A constant integer is a number, or one with a minus in front, which is a token of its own. -/
theorem lexes_int (n : Int) : ∃ ts t, Lexes (toString n).toList ts ∧
    Phrase (if n < 0 then 8 else 10) ts t ∧ ∀ env, IsWord n → t.eval env = some (.int n) := by
  cases n with
  | ofNat n =>
    have htext : (toString (Int.ofNat n)).toList = Nat.toDigits 10 n := by
      simp [ToString.toString, Int.repr, Nat.repr]
    refine ⟨[.int n], .int n, ?_, ?_, fun _ _ => rfl⟩
    · rw [htext]
      exact lexes_digits n
    · have hnot : ¬Int.ofNat n < 0 := Int.not_lt.mpr (Int.natCast_nonneg n)
      rw [if_neg hnot]
      exact .int n
  | negSucc n =>
    have htext : (toString (Int.negSucc n)).toList = '-' :: Nat.toDigits 10 (n + 1) := by
      simp [ToString.toString, Int.repr, Nat.repr]
    have hdigits := lexes_digits (n + 1)
    refine ⟨[.op "-", .int (n + 1)], .unary "-" (.int (n + 1)), ?_, ?_, fun _ hword => ?_⟩
    · rw [htext]
      refine ⟨⟨'-', rfl, .inr (.inr (.inr rfl))⟩, fun rest hrest => ?_⟩
      have hsign : lex ('-' :: (Nat.toDigits 10 (n + 1) ++ rest)) =
          (lex (Nat.toDigits 10 (n + 1) ++ rest)).map (.op "-" :: ·) := by
        refine lex_punctuation (by decide) fun d hd => ⟨hdigits.starts.ne_equals _ hd, ?_⟩
        rw [hdigits.starts.head?_append] at hd
        have hdigit := Nat.isDigit_of_mem_toDigits (by decide) (by decide) (List.mem_of_mem_head? hd)
        rintro - rfl
        revert hdigit
        decide
      rw [List.cons_append, hsign, hdigits.lex_eq rest hrest]
      cases lex rest <;> rfl
    · rw [if_pos (Int.negSucc_lt_zero n)]
      exact .sign (by decide) (.loosen (.int (n + 1)) (by decide))
    · have hneg : -((n + 1 : Nat) : Int) = Int.negSucc n := rfl
      rw [Term.eval, Term.eval, ← wrap32_of_isWord hword, ← hneg]
      rfl

/-! ## Code -/

/-- The text of an expression is read as a tree whose operators outside of parentheses bind at least
as tightly as the given strength. -/
def Expr.ReadsAs (code : Expr) (strength : Nat) (t : Term) : Prop :=
  ∃ ts, Lexes code.render.toList ts ∧ Phrase strength ts t

namespace Expr.ReadsAs

variable {code left right : Expr} {op : String} {p q : Nat} {t u : Term}

/-- Code that is read as a tree is read so as a whole. -/
theorem read_eq (h : code.ReadsAs p t) : Go.read code.render = some t := by
  obtain ⟨ts, hlexes, hphrase⟩ := h
  have hlex := hlexes.lex_eq [] nofun
  have htokens : lex code.render.toList = some ts := by
    rw [List.append_nil] at hlex
    rw [hlex]
    simp [lex, lexFrom, Partial.finish?]
  rw [Go.read, htokens, Option.bind_some, readOperand_eq_some hphrase]

theorem congr {code' : Expr} (h : code.ReadsAs p t) (htext : code'.render = code.render) :
    code'.ReadsAs p t := by
  rwa [ReadsAs, htext]

theorem loosen (h : code.ReadsAs q t) (hle : p ≤ q) : code.ReadsAs p t := by
  obtain ⟨ts, hlexes, hphrase⟩ := h
  exact ⟨ts, hlexes, hphrase.loosen hle⟩

theorem name {id : String} (h : IsName id) : (Expr.name id).ReadsAs 10 (.name id) :=
  ⟨_, lexes_name h, .name id⟩

theorem int (n : Int) : ∃ t, (Expr.int n).ReadsAs (if n < 0 then 8 else 10) t ∧
    ∀ env, IsWord n → t.eval env = some (.int n) := by
  obtain ⟨ts, t, hlexes, hphrase, heval⟩ := lexes_int n
  exact ⟨t, ⟨ts, hlexes, hphrase⟩, heval⟩

theorem paren (h : code.ReadsAs 1 t) : (Expr.paren code).ReadsAs 10 t := by
  obtain ⟨ts, hlexes, hphrase⟩ := h
  refine ⟨_, ?_, .paren hphrase⟩
  have htext : (Expr.paren code).render.toList = '(' :: (code.render.toList ++ [')']) := by
    simp [render]
  rw [htext]
  exact hlexes.parens

theorem not (h : code.ReadsAs 8 t) : (Expr.unary .not code).ReadsAs 8 (.unary "!" t) := by
  obtain ⟨ts, hlexes, hphrase⟩ := h
  refine ⟨_, ?_, .sign (by decide) hphrase⟩
  have htext : (Expr.unary .not code).render.toList = '!' :: code.render.toList := by
    simp [render, UnaryOp.symbol]
  rw [htext]
  exact hlexes.not

/-- The tokens of two operands around a binary operator. -/
theorem lexes_binary (hop : strength? op = some p) {lts rts : List Token}
    (hl : Lexes left.render.toList lts) (hr : Lexes right.render.toList rts) :
    Lexes (Expr.binary op left right).render.toList (lts ++ .op op :: rts) := by
  have htext : (Expr.binary op left right).render.toList =
      left.render.toList ++ (' ' :: (op.toList ++ ' ' :: right.render.toList)) := by
    simp [render]
  rw [htext]
  exact hl.binary hop hr

theorem binary (hop : strength? op = some p) (hl : left.ReadsAs p t)
    (hr : right.ReadsAs (p + 1) u) : (Expr.binary op left right).ReadsAs p (.binary op t u) := by
  obtain ⟨lts, hllexes, hlphrase⟩ := hl
  obtain ⟨rts, hrlexes, hrphrase⟩ := hr
  exact ⟨_, lexes_binary hop hllexes hrlexes, .binary hop hlphrase hrphrase⟩

/-- Conjunctions and disjunctions, where the right operand may be one as well. -/
theorem join (hlogical : op ∈ ["||", "&&"]) (hop : strength? op = some p) (hl : left.ReadsAs p t)
    (hr : right.ReadsAs p u) : ∃ whole, (Expr.binary op left right).ReadsAs p whole ∧
      ∀ env, whole.eval env = (Term.binary op t u).eval env := by
  obtain ⟨lts, hllexes, hlphrase⟩ := hl
  obtain ⟨rts, hrlexes, hrphrase⟩ := hr
  obtain ⟨whole, hphrase, heval⟩ := Phrase.join hlogical hop hrphrase (Nat.le_refl p) hlphrase
  exact ⟨whole, ⟨_, lexes_binary hop hllexes hrlexes, hphrase⟩, heval⟩

end Expr.ReadsAs

theorem Expr.render_chain_singleton (symbol : String) (e : Expr) :
    (Expr.chain symbol [e]).render = e.render := by
  simp [render, renderList]

/-- A chain is its first operand joined with the chain of the others. -/
theorem Expr.render_chain_cons (symbol : String) (e next : Expr) (rest : List Expr) :
    (Expr.chain symbol (e :: next :: rest)).render =
      (Expr.binary symbol e (.chain symbol (next :: rest))).render := by
  simp [render, renderList, String.intercalate_cons_cons, String.append_assoc]

end Sproc.Go
