import Sproc.Proofs.Query.Placeholders
import Sproc.Proofs.Query.Reading

/-!
# Grouping of conditions

A condition is written with as few parentheses as its operators need. The text of a condition over
columns, variables that hold no strings, and integers is read back as that condition, whatever is
nested in what. Chains of conjunctions, and of disjunctions, come back grouped to the left, and a
negative number comes back as the sign of a positive one.

One kind of nesting is lost: a sign in front of a sign makes the mark of a comment.

## Main definitions

* `ColumnRef.path`: the names that a column is written with
* `Expr.plain`: what the text of an expression can show
* `Expr.IsQueryTerm`, `Expr.IsQueryCondition`: the conditions over terms
* `Expr.isDoubleSign`: a sign in front of a sign
* `Fragment.ReadsAs`: the text of a fragment is read as an expression

## Main results

* `Render.term_readsAs`, `Render.condition_readsAs`: each nesting is read back
* `Renderer.condition_reads_back`
-/

namespace Sproc

/-! ## Columns -/

/-- The names in a dotted name, without brackets. -/
def identifierPath (name : String) : List String :=
  ((Text.splitOn '.' name).filter (!·.isEmpty)).map unbracket

namespace ColumnRef

/-- The names that a column is written with: those of its table, and its own. -/
def path (ref : ColumnRef) : List String :=
  (ref.table.elim [] fun table => identifierPath (unbracket table)) ++
    identifierPath (unbracket ref.name)

/-- A column that has a name, as has its table if it names one. -/
structure IsNamed (ref : ColumnRef) : Prop where
  name : identifierPath (unbracket ref.name) ≠ []
  table : ∀ table ∈ ref.table, identifierPath (unbracket table) ≠ []
  parts : ∀ part ∈ ref.path, part ≠ ""

end ColumnRef

variable {dialect : Dialect}

theorem escapeIdentifierWith_eq (quote : String → String) (name : String) :
    escapeIdentifierWith quote name = String.intercalate "." ((identifierPath name).map fun part =>
      if needsQuoting part then quote part else part) := by
  simp only [escapeIdentifierWith, identifierPath, List.map_map, Function.comp_def]

/-- An identifier is written name by name. -/
theorem Dialect.quoteIdentifier_eq (name : String) :
    dialect.quoteIdentifier name =
      String.intercalate "." ((identifierPath name).map (Sql.spelled dialect)) := by
  cases dialect <;> exact escapeIdentifierWith_eq _ name

/-- A column is written by its path. -/
theorem Render.column_eq {ref : ColumnRef} (h : ref.IsNamed) :
    column dialect ref = String.intercalate "." (ref.path.map (Sql.spelled dialect)) := by
  unfold column columnName ColumnRef.path
  cases htable : ref.table with
  | none => simp [Dialect.quoteIdentifier_eq]
  | some table =>
    simp only [Dialect.quoteIdentifier_eq, Option.elim_some, List.map_append]
    rw [String.intercalate_append_of_ne_nil]
    · simpa using h.table table (by rw [htable]; rfl)
    · simpa using h.name

/-! ## Conditions -/

namespace Expr

mutual

/-- What the text of an expression can show: a column is its path, and a negative number is the sign
of a positive one. -/
def plain : Expr → Expr
  | .literal (.int n) =>
    if n < 0 then .unary .neg (.literal (.int n.natAbs)) else .literal (.int n)
  | .column ref => Sql.columnOf ref.path
  | .unary op e => .unary op e.plain
  | .binary op left right => .binary op left.plain right.plain
  | .isNull e negated => .isNull e.plain negated
  | .inList e list negated => .inList e.plain (plainList list) negated
  | .between e low high negated => .between e.plain low.plain high.plain negated
  | e => e

/-- What the texts of expressions can show. -/
def plainList : List Expr → List Expr
  | [] => []
  | e :: rest => e.plain :: plainList rest

end

section Sorts

variable {α : Type} (resolver : Resolver α)

/-- A value in a condition: columns, variables that hold no strings, integers and arithmetic. -/
inductive IsQueryTerm : Expr → Prop
  | field {ref : ColumnRef} : ref.IsNamed → IsQueryTerm (.column ref)
  | plain {name : String} : resolver.isString name = false → IsQueryTerm (.variable name)
  | integer (n : Int) : IsQueryTerm (.literal (.int n))
  | minus {e : Expr} : IsQueryTerm e → IsQueryTerm (.unary .neg e)
  | arithmetic {op : BinaryOp} {left right : Expr} : op.isArithmetic = true → IsQueryTerm left →
    IsQueryTerm right → IsQueryTerm (.binary op left right)

/-- A condition: predicates of terms, and what connects them. -/
inductive IsQueryCondition : Expr → Prop
  | comparison {op : BinaryOp} {left right : Expr} : Sql.level op = 5 →
    IsQueryTerm resolver left → IsQueryTerm resolver right → IsQueryCondition (.binary op left right)
  | isNull {e : Expr} (negated : Bool) : IsQueryTerm resolver e →
    IsQueryCondition (.isNull e negated)
  | inList {e : Expr} {list : List Expr} (negated : Bool) : IsQueryTerm resolver e →
    (∀ member ∈ list, IsQueryTerm resolver member) → IsQueryCondition (.inList e list negated)
  | between {e low high : Expr} (negated : Bool) : IsQueryTerm resolver e →
    IsQueryTerm resolver low → IsQueryTerm resolver high → IsQueryCondition (.between e low high negated)
  | not {e : Expr} : IsQueryCondition e → IsQueryCondition (.unary .not e)
  | logical {op : BinaryOp} {left right : Expr} : op.isLogical = true → IsQueryCondition left →
    IsQueryCondition right → IsQueryCondition (.binary op left right)

end Sorts

/-- Whether the text of an expression starts with the sign of a number. -/
def isSigned : Expr → Bool
  | .unary .neg _ => true
  | .literal (.int n) => n < 0
  | _ => false

/-- Whether an expression is a sign in front of a sign. -/
def isDoubleSign : Expr → Bool
  | .unary .neg e => e.isSigned
  | _ => false

/-- How tightly the text of an expression binds. -/
def level : Expr → Nat
  | .binary op _ _ => Sql.level op
  | .isNull _ _ | .inList _ _ _ | .between _ _ _ _ => 5
  | .unary .not _ => 4
  | .unary .neg _ => 9
  | .literal (.int n) => if n < 0 then 9 else 10
  | _ => 10

/-- Values of a condition are not strings, so sums of them are no concatenations. -/
theorem IsQueryTerm.not_isStringy {α : Type} {resolver : Resolver α} {e : Expr}
    (h : e.IsQueryTerm resolver) :
    Render.isStringy resolver e = false := by
  induction h with
  | field _ => rfl
  | plain hname => exact hname
  | integer _ => rfl
  | minus _ _ => rfl
  | @arithmetic op left right hop _ _ ihleft ihright =>
    cases op with
    | add => rw [Render.isStringy, ihleft, ihright]; rfl
    | _ => rfl

end Expr

/-! ## Fragments -/

namespace Fragment

variable {α : Type} {names : Nat → Option String}

/-- The characters of a fragment whose first placeholder has the given number. -/
def chars (dialect : Dialect) (next : Nat) (fragment : Fragment α) : List Char :=
  (fragment.renderFrom dialect.placeholder next).toList

@[simp]
theorem chars_append (next : Nat) (front back : Fragment α) :
    chars dialect next (front ++ back) =
      chars dialect next front ++ chars dialect (next + front.args.length) back := by
  simp [chars, renderFrom_append]

@[simp]
theorem chars_ofText (next : Nat) (s : String) :
    chars dialect next (ofText s : Fragment α) = s.toList := by
  simp [chars, ofText, renderFrom]

@[simp]
theorem chars_ofArg (next : Nat) (value : α) :
    chars dialect next (ofArg value) = (dialect.placeholder next).toList := by
  simp [chars, ofArg, renderFrom]

/-- The text of a fragment whose first placeholder has the given number is read as an expression
whose operators outside of parentheses bind at least as tightly as the given strength. -/
def ReadsAs (fragment : Fragment α) (dialect : Dialect) (names : Nat → Option String)
    (next level : Nat) (t : Expr) : Prop :=
  ∃ ts, Sql.Lexes dialect next (fragment.chars dialect next) ts (next + fragment.args.length) ∧
    Sql.Phrase names level ts t

namespace ReadsAs

variable {body left right : Fragment α} {next p q : Nat} {t u : Expr}

theorem loosen (h : body.ReadsAs dialect names next q t) (hle : p ≤ q) :
    body.ReadsAs dialect names next p t := by
  obtain ⟨ts, hlexes, hphrase⟩ := h
  exact ⟨ts, hlexes, hphrase.loosen hle⟩

/-- A fragment that is read as an expression is read so as a whole. -/
theorem read_eq (h : body.ReadsAs dialect names next p t) :
    Sql.read names dialect next (body.renderFrom dialect.placeholder next) = some t := by
  obtain ⟨ts, hlexes, hphrase⟩ := h
  have hlex := hlexes [] nofun
  have htokens : Sql.lex dialect next (body.chars dialect next) = some ts := by
    rw [List.append_nil] at hlex
    rw [hlex]
    simp [Sql.lex, Sql.lexFrom, Sql.Partial.finish?]
  rw [Sql.read, ← chars, htokens, Option.bind_some, Sql.readOperand_eq_some hphrase]

theorem parenthesized (h : body.ReadsAs dialect names next 1 t) :
    body.parenthesized.ReadsAs dialect names next 10 t := by
  obtain ⟨ts, hlexes, hphrase⟩ := h
  refine ⟨_, ?_, .paren hphrase⟩
  have htext : body.parenthesized.chars dialect next = '(' :: (body.chars dialect next ++ [')']) := by
    simp [Fragment.parenthesized]
  rw [htext, args_parenthesized]
  exact hlexes.parens

theorem minus (h : body.ReadsAs dialect names next 9 t)
    (hunsigned : ∃ c ∈ (body.chars dialect next).head?, c ≠ '-') :
    (ofText "-" ++ body : Fragment α).ReadsAs dialect names next 9 (.unary .neg t) := by
  obtain ⟨ts, hlexes, hphrase⟩ := h
  refine ⟨_, ?_, .minus hphrase⟩
  have htext : chars dialect next (ofText "-" ++ body) = '-' :: body.chars dialect next := by
    simp
  rw [htext, args_append, args_ofText, List.nil_append]
  exact hlexes.minus hunsigned

theorem not (h : body.ReadsAs dialect names next 4 t) :
    (ofText "NOT " ++ body : Fragment α).ReadsAs dialect names next 4 (.unary .not t) := by
  obtain ⟨ts, hlexes, hphrase⟩ := h
  refine ⟨_, ?_, .not hphrase⟩
  have htext : chars dialect next (ofText "NOT " ++ body) =
      Sql.Keyword.not.text.toList ++ ' ' :: body.chars dialect next := by
    simp [Sql.Keyword.text]
  rw [htext, args_append, args_ofText, List.nil_append]
  exact (Sql.lexes_keyword next .not).space hlexes

/-- The tokens of two operands around a binary operator. -/
theorem lexes_binary (op : BinaryOp) {lts rts : List Sql.Token}
    (hl : Sql.Lexes dialect next (left.chars dialect next) lts (next + left.args.length))
    (hr : Sql.Lexes dialect (next + left.args.length)
      (right.chars dialect (next + left.args.length)) rts
      (next + left.args.length + right.args.length)) :
    Sql.Lexes dialect next
      (chars dialect next (left ++ ofText (" " ++ op.sqlSymbol ++ " ") ++ right))
      (lts ++ (Sql.operatorTokens op ++ rts))
      (next + (left ++ ofText (" " ++ op.sqlSymbol ++ " ") ++ right).args.length) := by
  have htext : chars dialect next (left ++ ofText (" " ++ op.sqlSymbol ++ " ") ++ right) =
      left.chars dialect next ++ (' ' :: (op.sqlSymbol.toList ++ ' ' ::
        right.chars dialect (next + left.args.length))) := by
    simp
  have hcount : next + (left ++ ofText (" " ++ op.sqlSymbol ++ " ") ++ right).args.length =
      next + left.args.length + right.args.length := by
    simp [Nat.add_assoc]
  rw [htext, hcount]
  exact hl.binary op hr

theorem binary (op : BinaryOp) (hl : left.ReadsAs dialect names next (Sql.level op) t)
    (hr : right.ReadsAs dialect names (next + left.args.length) (Sql.level op + 1) u) :
    (left ++ ofText (" " ++ op.sqlSymbol ++ " ") ++ right).ReadsAs dialect names next
      (Sql.level op) (.binary op t u) := by
  obtain ⟨lts, hllexes, hlphrase⟩ := hl
  obtain ⟨rts, hrlexes, hrphrase⟩ := hr
  exact ⟨_, lexes_binary op hllexes hrlexes, .binary op hlphrase hrphrase⟩

/-- Conjunctions and disjunctions, where the right operand may be one as well. -/
theorem join {op : BinaryOp} (hop : op.isLogical = true)
    (hl : left.ReadsAs dialect names next (Sql.level op) t)
    (hr : right.ReadsAs dialect names (next + left.args.length) (Sql.level op) u) :
    ∃ whole, (left ++ ofText (" " ++ op.sqlSymbol ++ " ") ++ right).ReadsAs dialect names next
      (Sql.level op) whole ∧ whole.regrouped = (Expr.binary op t u).regrouped := by
  obtain ⟨lts, hllexes, hlphrase⟩ := hl
  obtain ⟨rts, hrlexes, hrphrase⟩ := hr
  obtain ⟨whole, hphrase, hsame⟩ := Sql.Phrase.join hop hrphrase (Nat.le_refl _) hlphrase
  exact ⟨whole, ⟨_, lexes_binary op hllexes hrlexes, hphrase⟩, hsame⟩

/-- The word that negates a predicate, in front of what negates it. -/
theorem lexes_negation (negated : Bool) {after : Nat} {cs : List Char} {ts : List Sql.Token}
    (h : Sql.Lexes dialect next cs ts after) :
    Sql.Lexes dialect next ((Render.negation negated).toList ++ cs) (Sql.negation negated ++ ts)
      after := by
  cases negated with
  | false => exact h
  | true => exact (Sql.lexes_keyword next .not).space h

theorem isNull (negated : Bool) (h : body.ReadsAs dialect names next 5 t) :
    (body ++ ofText (if negated then " IS NOT NULL" else " IS NULL")).ReadsAs dialect names next 5
      (.isNull t negated) := by
  obtain ⟨ts, hlexes, hphrase⟩ := h
  refine ⟨_, ?_, .isNull negated hphrase⟩
  rw [args_append, args_ofText, List.append_nil, chars_append, chars_ofText]
  have hnull : Sql.Lexes dialect (next + body.args.length) _ _ _ :=
    lexes_negation negated (Sql.lexes_keyword _ .null)
  have hall := hlexes.space ((Sql.lexes_keyword _ .is).space hnull)
  cases negated <;> exact hall

/-- The members of a list with commas between them. -/
def MembersReadAs (members : List (Fragment α)) (dialect : Dialect) (names : Nat → Option String)
    (next : Nat) (list : List Expr) : Prop :=
  ∃ tokens : List (List Sql.Token × Expr), tokens.map (·.2) = list ∧
    (∀ member ∈ tokens, Sql.Phrase names 1 member.1 member.2) ∧
    Sql.Lexes dialect next (chars dialect next (joined ", " members))
      (Sql.separated (tokens.map (·.1))) (next + (members.flatMap args).length) ∧
    tokens.length = members.length

theorem members_nil : MembersReadAs ([] : List (Fragment α)) dialect names next [] :=
  ⟨[], rfl, nofun, .nil next, rfl⟩

theorem members_cons {members : List (Fragment α)} {list : List Expr}
    (h : body.ReadsAs dialect names next 1 t)
    (hrest : MembersReadAs members dialect names (next + body.args.length) list) :
    MembersReadAs (body :: members) dialect names next (t :: list) := by
  obtain ⟨ts, hlexes, hphrase⟩ := h
  obtain ⟨tokens, rfl, hphrases, hlexess, hlength⟩ := hrest
  refine ⟨(ts, t) :: tokens, rfl, List.forall_mem_cons.mpr ⟨hphrase, hphrases⟩, ?_,
    congrArg Nat.succ hlength⟩
  have hcount : next + ((body :: members).flatMap args).length =
      next + body.args.length + (members.flatMap args).length := by
    simp [Nat.add_assoc]
  rw [hcount]
  -- The last member stands without a comma.
  cases members with
  | nil =>
    obtain rfl := List.length_eq_zero_iff.mp hlength
    simpa [joined, Sql.separated] using hlexes
  | cons second others =>
    obtain ⟨token, tokens, rfl⟩ := List.exists_cons_of_length_eq_add_one hlength
    have htext : chars dialect next (joined ", " (body :: second :: others)) =
        body.chars dialect next ++ ',' :: ' ' ::
          chars dialect (next + body.args.length) (joined ", " (second :: others)) := by
      simp [joined]
    rw [htext]
    exact hlexes.comma hlexess

theorem inList (negated : Bool) {members : List (Fragment α)} {list : List Expr}
    (h : body.ReadsAs dialect names next 5 t)
    (hmembers : MembersReadAs members dialect names (next + body.args.length) list) :
    (body ++ ofText (" " ++ Render.negation negated ++ "IN (") ++ joined ", " members ++
      ofText ")").ReadsAs dialect names next 5 (.inList t list negated) := by
  obtain ⟨ts, hlexes, hphrase⟩ := h
  obtain ⟨tokens, rfl, hphrases, hlexess, -⟩ := hmembers
  refine ⟨_, ?_, .inList negated tokens hphrase hphrases⟩
  have htext : chars dialect next (body ++ ofText (" " ++ Render.negation negated ++ "IN (") ++
      joined ", " members ++ ofText ")") = body.chars dialect next ++ ' ' ::
        ((Render.negation negated).toList ++ (Sql.Keyword.among.text.toList ++ ' ' ::
          '(' :: (chars dialect (next + body.args.length) (joined ", " members) ++ [')']))) := by
    simp [Sql.Keyword.text]
  have hcount : next + (body ++ ofText (" " ++ Render.negation negated ++ "IN (") ++
      joined ", " members ++ ofText ")").args.length =
        next + body.args.length + (members.flatMap args).length := by
    simp [Nat.add_assoc]
  rw [htext, hcount]
  exact hlexes.space (lexes_negation negated ((Sql.lexes_keyword _ .among).space hlexess.parens))

theorem between (negated : Bool) {low high : Fragment α} {l h : Expr}
    (hbody : body.ReadsAs dialect names next 5 t)
    (hlow : low.ReadsAs dialect names (next + body.args.length) 6 l)
    (hhigh : high.ReadsAs dialect names (next + body.args.length + low.args.length) 6 h) :
    (body ++ ofText (" " ++ Render.negation negated ++ "BETWEEN ") ++ low ++ ofText " AND " ++
      high).ReadsAs dialect names next 5 (.between t l h negated) := by
  obtain ⟨ts, hlexes, hphrase⟩ := hbody
  obtain ⟨lts, hllexes, hlphrase⟩ := hlow
  obtain ⟨hts, hhlexes, hhphrase⟩ := hhigh
  refine ⟨_, ?_, .between negated hphrase hlphrase hhphrase⟩
  have htext : chars dialect next (body ++ ofText (" " ++ Render.negation negated ++ "BETWEEN ") ++
      low ++ ofText " AND " ++ high) = body.chars dialect next ++ ' ' ::
        ((Render.negation negated).toList ++ (Sql.Keyword.between.text.toList ++ ' ' ::
          (low.chars dialect (next + body.args.length) ++ ' ' :: (Sql.Keyword.and.text.toList ++
            ' ' :: high.chars dialect (next + body.args.length + low.args.length))))) := by
    simp [Sql.Keyword.text]
  have hcount : next + (body ++ ofText (" " ++ Render.negation negated ++ "BETWEEN ") ++ low ++
      ofText " AND " ++ high).args.length =
        next + body.args.length + low.args.length + high.args.length := by
    simp [Nat.add_assoc]
  rw [htext, hcount]
  exact hlexes.space (lexes_negation negated ((Sql.lexes_keyword _ .between).space
    (hllexes.space ((Sql.lexes_keyword _ .and).space hhlexes))))

end ReadsAs

end Fragment

/-! ## Rendering -/

section Names

/-- A numbering gives every variable of a list of references the number of its placeholder. -/
def Numbered (names : Nat → Option String) (next : Nat) (references : List Reference) : Prop :=
  ∀ index name, references[index]? = some (.variable name) → names (next + index) = some name

variable {names : Nat → Option String} {next : Nat} {front back : List Reference}

theorem Numbered.left (h : Numbered names next (front ++ back)) : Numbered names next front := by
  intro index name hname
  apply h index name
  rw [List.getElem?_append_left (List.getElem?_eq_some_iff.mp hname).1, hname]

theorem Numbered.right (h : Numbered names next (front ++ back)) :
    Numbered names (next + front.length) back := by
  intro index name hname
  rw [Nat.add_assoc]
  apply h
  rw [List.getElem?_append_right (Nat.le_add_right _ _), Nat.add_sub_cancel_left, hname]

end Names

namespace Render

variable {α : Type} {resolver : Resolver α} {names : Nat → Option String} {next : Nat}

/-- The level of the grammar for a strength by which parentheses are set. -/
def levelOf : Nat → Nat
  | 0 => 0
  | 1 => 1
  | 2 => 2
  | 3 => 5
  | 4 => 6
  | 5 => 7
  | _ => 9

theorem level_eq (op : BinaryOp) : Sql.level op = levelOf op.precedence := by
  cases op <;> rfl

theorem level_of_strength? {e : Expr} {child : Nat} (h : strength? e = some child) :
    0 < child ∧ child ≤ 5 ∧ e.level = levelOf child := by
  unfold strength? at h
  split at h
  · next op _ _ =>
    cases h
    refine ⟨?_, ?_, level_eq op⟩ <;> cases op <;> decide
  · cases h; exact ⟨by decide, by decide, rfl⟩
  · cases h; exact ⟨by decide, by decide, rfl⟩
  · cases h; exact ⟨by decide, by decide, rfl⟩
  · cases h

theorem levelOf_lt : ∀ b < 7, ∀ a < b, levelOf a < levelOf b := by
  decide

/-- Parentheses are set where the operator around an operand needs them. -/
theorem operand_readsAs {e t : Expr} {body : Fragment α} {parent p : Nat} {right : Bool}
    (h : body.ReadsAs dialect names next e.level t) (hloose : strength? e = none → p ≤ e.level)
    (hparent : parent ≤ 6) (hp : p ≤ levelOf parent + if right then 1 else 0) :
    (operand e parent right body).ReadsAs dialect names next p t := by
  have hbound : levelOf parent ≤ 9 := by
    rcases Nat.lt_or_eq_of_le hparent with hlt | rfl
    · exact Nat.le_of_lt (levelOf_lt 6 (by decide) parent hlt)
    · exact Nat.le_refl _
  have hten : p ≤ 10 := by
    cases right <;> simp at hp <;> omega
  unfold operand
  cases hstrength : strength? e with
  | none => exact h.loosen (hloose hstrength)
  | some child =>
    obtain ⟨hpos, hchild, hlevel⟩ := level_of_strength? hstrength
    rw [hlevel] at h
    dsimp only
    split
    · have hone : 1 ≤ levelOf child := levelOf_lt child (by omega) 0 hpos
      exact (h.loosen hone).parenthesized.loosen hten
    · next htight =>
      apply h.loosen
      simp only [Bool.or_eq_true, decide_eq_true_eq, Bool.and_eq_true, beq_iff_eq, not_or,
        Nat.not_lt, not_and] at htight
      obtain ⟨hle, hright⟩ := htight
      rcases Nat.lt_or_eq_of_le hle with hlt | rfl
      · have := levelOf_lt child (by omega) parent hlt
        cases right <;> simp at hp <;> omega
      · cases right with
        | false => simpa using hp
        | true => exact absurd rfl (hright rfl)

/-- The characters of an integer. -/
theorem int_chars (n : Int) : (toString n).toList =
    if n < 0 then '-' :: Nat.toDigits 10 n.natAbs else Nat.toDigits 10 n.natAbs := by
  cases n with
  | ofNat n =>
    have hnot : ¬ Int.ofNat n < 0 := Int.not_lt.mpr (Int.natCast_nonneg n)
    rw [if_neg hnot]
    simp [ToString.toString, Int.repr, Nat.repr]
  | negSucc n =>
    rw [if_pos (Int.negSucc_lt_zero n)]
    simp [ToString.toString, Int.repr, Nat.repr]

theorem digits_head (n : Nat) : ∃ c ∈ (Nat.toDigits 10 n).head?, c ≠ '-' := by
  obtain ⟨c, cs, hcs⟩ := List.exists_cons_of_ne_nil (Nat.toDigits_ne_nil (n := n) (b := 10))
  have hdigit : c.isDigit = true :=
    Sql.isDigit_of_mem_toDigits (n := n) (by rw [hcs]; exact List.mem_cons_self)
  refine ⟨c, by rw [hcs]; rfl, ?_⟩
  rintro rfl
  cases hdigit

/-- The text of a term does not start with a sign, unless the term is a sign or a negative number. -/
theorem operand_head {e : Expr} {body : Fragment α} (h : e.IsQueryTerm resolver)
    (hsigned : e.isSigned = false) (hbody : (expr dialect resolver e).whole = .ok body) :
    ∃ c ∈ ((operand e 6 false body).chars dialect next).head?, c ≠ '-' := by
  cases h with
  | field hnamed =>
    cases hbody
    obtain ⟨c, cs, hcs, hstart⟩ := Sql.exists_path
      (List.append_ne_nil_of_right_ne_nil _ hnamed.name) hnamed.parts
    refine ⟨c, ?_, ?_⟩
    · simp only [operand, strength?, Fragment.chars_ofText, column_eq hnamed]
      rw [ColumnRef.path, hcs]
      rfl
    · rintro rfl
      rcases hstart with hstart | hstart
      · cases dialect <;> cases hstart
      · cases hstart
  | plain _ =>
    obtain ⟨value, -, rfl⟩ := map_eq_ok.mp hbody
    simp only [operand, strength?, Fragment.chars_ofArg]
    cases dialect <;> simp [Dialect.placeholder, ToString.toString]
  | integer n =>
    cases hbody
    simp only [operand, strength?, Fragment.chars_ofText, literal]
    have hn : ¬ n < 0 := by simpa [Expr.isSigned] using hsigned
    rw [int_chars, if_neg hn]
    exact digits_head n.natAbs
  | minus h => cases hsigned
  | @arithmetic op left right hop hl hr =>
    have hparens : operand (.binary op left right) 6 false body = body.parenthesized := by
      cases op <;> rfl
    rw [hparens]
    exact ⟨'(', by simp [Fragment.parenthesized], by decide⟩

theorem length_args {e : Expr} {body : Fragment α}
    (h : (expr dialect resolver e).whole = .ok body) :
    body.args.length = (e.references dialect resolver).length :=
  ((expr_answered e).whole body h).length_eq.symm

/-- Two operands around a binary operator, if their sum is no concatenation. -/
theorem binary_whole {op : BinaryOp} {left right : Expr}
    (h : op = .add → isStringy resolver left = false ∧ isStringy resolver right = false)
    {fragment : Fragment α} (hwhole : (expr dialect resolver (.binary op left right)).whole = .ok fragment) :
    ∃ l r, (expr dialect resolver left).whole = .ok l ∧ (expr dialect resolver right).whole = .ok r ∧
      fragment = operand left op.precedence false l ++ .ofText (" " ++ op.sqlSymbol ++ " ") ++
        operand right op.precedence (!op.isLogical) r := by
  by_cases hop : op = .add
  · subst hop
    obtain ⟨hl, hr⟩ := h rfl
    simp only [expr, hl, hr, if_true, Bool.or_self, Bool.false_eq_true, if_false] at hwhole
    obtain ⟨l, hleft, hwhole⟩ := bind_eq_ok.mp hwhole
    obtain ⟨r, hright, hwhole⟩ := bind_eq_ok.mp hwhole
    cases hwhole
    exact ⟨l, r, hleft, hright, rfl⟩
  · simp only [expr, if_neg hop, single] at hwhole
    obtain ⟨l, hleft, hwhole⟩ := bind_eq_ok.mp hwhole
    obtain ⟨r, hright, hwhole⟩ := bind_eq_ok.mp hwhole
    cases hwhole
    exact ⟨l, r, hleft, hright, rfl⟩

/-- A term that is never put in parentheses binds tightest. -/
theorem term_level {e : Expr} (h : e.IsQueryTerm resolver) (hnone : strength? e = none) :
    9 ≤ e.level := by
  cases h with
  | field _ => exact Nat.le_succ 9
  | plain _ => exact Nat.le_succ 9
  | integer n =>
    simp only [Expr.level]
    split <;> decide
  | minus _ => exact Nat.le_refl 9
  | arithmetic _ _ _ => cases hnone

/-- A condition that is never put in parentheses is a negation. -/
theorem condition_level {e : Expr} (h : e.IsQueryCondition resolver) (hnone : strength? e = none) :
    4 ≤ e.level := by
  cases h with
  | not _ => exact Nat.le_refl 4
  | _ => cases hnone

/-- What a term is written as is read as that term. -/
theorem term_readsAs {e : Expr} (h : e.IsQueryTerm resolver) :
    ∀ {next : Nat} {fragment : Fragment α}, (expr dialect resolver e).whole = .ok fragment →
      e.any Expr.isDoubleSign = false → Numbered names next (e.references dialect resolver) →
      fragment.ReadsAs dialect names next e.level e.plain := by
  induction h with
  | @field ref hnamed =>
    intro next fragment hwhole _ _
    cases hwhole
    refine ⟨_, ?_, .column ref.path⟩
    rw [Fragment.chars_ofText, column_eq hnamed]
    exact Sql.lexes_path next (List.append_ne_nil_of_right_ne_nil _ hnamed.name) hnamed.parts
  | @plain name _ =>
    intro next fragment hwhole _ hnames
    obtain ⟨value, -, rfl⟩ := map_eq_ok.mp hwhole
    refine ⟨_, ?_, .hole (hnames 0 name rfl)⟩
    rw [Fragment.chars_ofArg]
    exact Sql.lexes_hole next
  | integer n =>
    intro next fragment hwhole _ _
    cases hwhole
    simp only [Expr.level, Expr.plain]
    have habs : Sql.Lexes dialect next (Nat.toDigits 10 n.natAbs) [.number n.natAbs] next :=
      Sql.lexes_number next n.natAbs
    by_cases hn : n < 0
    · rw [if_pos hn, if_pos hn]
      refine ⟨_, ?_, .minus (.loosen (.number n.natAbs) (by decide))⟩
      rw [Fragment.chars_ofText, literal, int_chars, if_pos hn]
      exact habs.minus (digits_head _)
    · have hvalue : (n.natAbs : Int) = n := Int.natAbs_of_nonneg (Int.not_lt.mp hn)
      rw [if_neg hn, if_neg hn, ← hvalue]
      refine ⟨_, ?_, .number n.natAbs⟩
      rw [Fragment.chars_ofText, literal, hvalue, int_chars, if_neg hn]
      exact habs
  | @minus e hterm ih =>
    intro next fragment hwhole hsigns hnames
    obtain ⟨body, hbody, hwhole⟩ := bind_eq_ok.mp hwhole
    cases hwhole
    simp only [Expr.any, Expr.walk, List.any_cons, Bool.or_eq_false_iff, Expr.isDoubleSign] at hsigns
    apply Fragment.ReadsAs.minus
    · exact operand_readsAs (ih hbody hsigns.2 hnames) (term_level hterm) (by decide) (by decide)
    · exact operand_head hterm hsigns.1 hbody
  | @arithmetic op left right hop hleft hright ihleft ihright =>
    intro next fragment hwhole hsigns hnames
    obtain ⟨l, r, hl, hr, rfl⟩ :=
      binary_whole (fun _ => ⟨hleft.not_isStringy, hright.not_isStringy⟩) hwhole
    simp only [Expr.any, Expr.walk, List.any_cons, List.any_append, Bool.or_eq_false_iff] at hsigns
    have hlevel : Sql.level op + 1 ≤ 9 ∧ (!op.isLogical) = true := by
      cases op <;> first | exact ⟨by decide, rfl⟩ | cases hop
    have hprecedence : op.precedence ≤ 6 := by
      cases op <;> decide
    apply Fragment.ReadsAs.binary
    · apply operand_readsAs (ihleft hl hsigns.2.1 hnames.left)
      · exact fun hnone => Nat.le_trans (by omega) (term_level hleft hnone)
      · exact hprecedence
      · rw [level_eq]; exact Nat.le_refl _
    · rw [args_operand, length_args hl]
      apply operand_readsAs (ihright hr hsigns.2.2 hnames.right)
      · exact fun hnone => Nat.le_trans (by omega) (term_level hright hnone)
      · exact hprecedence
      · rw [level_eq, hlevel.2]; exact Nat.le_refl _

/-- What the members of a list are written as is read as these members. -/
theorem members_readAs : ∀ {list : List Expr}, (∀ e ∈ list, e.IsQueryTerm resolver) →
    ∀ {next : Nat} {members : List (Fragment α)}, exprs dialect resolver list = .ok members →
      (walkList list).any Expr.isDoubleSign = false →
      Numbered names next (listReferences dialect resolver list) →
      Fragment.ReadsAs.MembersReadAs members dialect names next (Expr.plainList list)
  | [], _, next, members, hmembers, _, _ => by
    cases hmembers
    exact Fragment.ReadsAs.members_nil
  | e :: rest, hterms, next, members, hmembers, hsigns, hnames => by
    rw [List.forall_mem_cons] at hterms
    rw [walkList, List.any_append, Bool.or_eq_false_iff] at hsigns
    obtain ⟨body, hbody, hmembers⟩ := bind_eq_ok.mp hmembers
    obtain ⟨others, hothers, hmembers⟩ := bind_eq_ok.mp hmembers
    cases hmembers
    have hone : 1 ≤ e.level := by
      cases hterms.1 with
      | integer n =>
        simp only [Expr.level]
        split <;> decide
      | arithmetic hop _ _ => exact Sql.one_le_level _
      | _ => simp [Expr.level]
    apply Fragment.ReadsAs.members_cons
    · exact (term_readsAs hterms.1 hbody hsigns.1 hnames.left).loosen hone
    · rw [length_args hbody]
      exact members_readAs hterms.2 hothers hsigns.2 hnames.right

/-- What a condition is written as is read as that condition, up to the grouping of chains. -/
theorem condition_readsAs {e : Expr} (h : e.IsQueryCondition resolver) :
    ∀ {next : Nat} {fragment : Fragment α}, (expr dialect resolver e).whole = .ok fragment →
      e.any Expr.isDoubleSign = false → Numbered names next (e.references dialect resolver) →
      ∃ t, fragment.ReadsAs dialect names next e.level t ∧ t.regrouped = e.plain.regrouped := by
  have hterm {e : Expr} (h : e.IsQueryTerm resolver) {next parent p : Nat} {right : Bool}
      {body : Fragment α} (hbody : (expr dialect resolver e).whole = .ok body)
      (hsigns : e.walk.any Expr.isDoubleSign = false)
      (hnames : Numbered names next (e.references dialect resolver)) (hparent : parent ≤ 6)
      (hp : p ≤ levelOf parent + if right then 1 else 0) (hnine : p ≤ 9) :
      (operand e parent right body).ReadsAs dialect names next p e.plain :=
    operand_readsAs (term_readsAs h hbody hsigns hnames)
      (fun hnone => Nat.le_trans hnine (term_level h hnone)) hparent hp
  induction h with
  | @comparison op left right hop hleft hright =>
    intro next fragment hwhole hsigns hnames
    obtain ⟨l, r, hl, hr, rfl⟩ :=
      binary_whole (fun _ => ⟨hleft.not_isStringy, hright.not_isStringy⟩) hwhole
    simp only [Expr.any, Expr.walk, List.any_cons, List.any_append, Bool.or_eq_false_iff] at hsigns
    have hprecedence : op.precedence = 3 ∧ (!op.isLogical) = true := by
      cases op <;> first | exact ⟨rfl, rfl⟩ | cases hop
    refine ⟨_, Fragment.ReadsAs.binary op (t := left.plain) (u := right.plain) ?_ ?_, rfl⟩
    · rw [hop, hprecedence.1]
      exact hterm hleft hl hsigns.2.1 hnames.left (by decide) (by decide) (by decide)
    · rw [hop, hprecedence.1, hprecedence.2, args_operand, length_args hl]
      exact hterm hright hr hsigns.2.2 hnames.right (by decide) (by decide) (by decide)
  | isNull negated h =>
    intro next fragment hwhole hsigns hnames
    obtain ⟨body, hbody, hwhole⟩ := bind_eq_ok.mp hwhole
    cases hwhole
    simp only [Expr.any, Expr.walk, List.any_cons, Bool.or_eq_false_iff] at hsigns
    refine ⟨_, Fragment.ReadsAs.isNull negated ?_, rfl⟩
    exact hterm h hbody hsigns.2 hnames (by decide) (by decide) (by decide)
  | inList negated h hlist =>
    intro next fragment hwhole hsigns hnames
    obtain ⟨body, hbody, hwhole⟩ := bind_eq_ok.mp hwhole
    obtain ⟨members, hmembers, hwhole⟩ := bind_eq_ok.mp hwhole
    cases hwhole
    simp only [Expr.any, Expr.walk, List.any_cons, List.any_append, Bool.or_eq_false_iff] at hsigns
    refine ⟨_, Fragment.ReadsAs.inList negated ?_ ?_, rfl⟩
    · exact hterm h hbody hsigns.2.1 hnames.left (by decide) (by decide) (by decide)
    · rw [args_operand, length_args hbody]
      exact members_readAs hlist hmembers hsigns.2.2 hnames.right
  | between negated h hlow hhigh =>
    intro next fragment hwhole hsigns hnames
    obtain ⟨body, hbody, hwhole⟩ := bind_eq_ok.mp hwhole
    obtain ⟨lower, hlower, hwhole⟩ := bind_eq_ok.mp hwhole
    obtain ⟨upper, hupper, hwhole⟩ := bind_eq_ok.mp hwhole
    cases hwhole
    simp only [Expr.any, Expr.walk, List.any_cons, List.any_append, Bool.or_eq_false_iff] at hsigns
    refine ⟨_, Fragment.ReadsAs.between negated ?_ ?_ ?_, rfl⟩
    · exact hterm h hbody hsigns.2.1 hnames.left (by decide) (by decide) (by decide)
    · rw [args_operand, length_args hbody]
      exact hterm hlow hlower hsigns.2.2.1 hnames.right.left (by decide) (by decide) (by decide)
    · rw [args_operand, args_operand, length_args hbody, length_args hlower]
      exact hterm hhigh hupper hsigns.2.2.2 hnames.right.right (by decide) (by decide) (by decide)
  | @not e h ih =>
    intro next fragment hwhole hsigns hnames
    obtain ⟨body, hbody, hwhole⟩ := bind_eq_ok.mp hwhole
    cases hwhole
    simp only [Expr.any, Expr.walk, List.any_cons, Bool.or_eq_false_iff] at hsigns
    obtain ⟨t, hread, hsame⟩ := ih hbody hsigns.2 hnames
    refine ⟨.unary .not t, Fragment.ReadsAs.not ?_, ?_⟩
    · exact operand_readsAs hread (condition_level h) (by decide) (by decide)
    · rw [Expr.plain, Expr.regrouped, Expr.regrouped, hsame]
  | @logical op left right hop hleft hright ihleft ihright =>
    intro next fragment hwhole hsigns hnames
    have hadd : op ≠ .add := by
      rintro rfl
      cases hop
    obtain ⟨l, r, hl, hr, rfl⟩ := binary_whole (absurd · hadd) hwhole
    simp only [Expr.any, Expr.walk, List.any_cons, List.any_append, Bool.or_eq_false_iff] at hsigns
    obtain ⟨t, hreadl, hsamel⟩ := ihleft hl hsigns.2.1 hnames.left
    obtain ⟨u, hreadr, hsamer⟩ := ihright hr hsigns.2.2 hnames.right
    have hprecedence : op.precedence ≤ 6 ∧ Sql.level op ≤ 4 := by
      cases op <;> first | exact ⟨by decide, by decide⟩ | cases hop
    have hlevel : Sql.level op ≤ levelOf op.precedence + 0 := Nat.le_of_eq (level_eq op)
    have hleft' : (operand left op.precedence false l).ReadsAs _ _ _ (Sql.level op) t :=
      operand_readsAs hreadl
        (fun hnone => Nat.le_trans hprecedence.2 (condition_level hleft hnone)) hprecedence.1 hlevel
    have hright' : (operand right op.precedence false r).ReadsAs _ _ _ (Sql.level op) u :=
      operand_readsAs hreadr
        (fun hnone => Nat.le_trans hprecedence.2 (condition_level hright hnone)) hprecedence.1 hlevel
    rw [← length_args hl, ← args_operand] at hright'
    obtain ⟨whole, hread, hsame⟩ := Fragment.ReadsAs.join hop hleft' hright'
    refine ⟨whole, ?_, ?_⟩
    · rw [hop]
      exact hread
    · rw [hsame, Expr.plain, Expr.regrouped_logical hop, Expr.regrouped_logical hop, hsamel, hsamer]

/-- The variable that a placeholder stands for: the first one has the given number. -/
def variableOf (references : List Reference) (next index : Nat) : Option String :=
  match references[index - next]? with
  | some (.variable name) => if next ≤ index then some name else none
  | _ => none

theorem numbered_variableOf (references : List Reference) (next : Nat) :
    Numbered (variableOf references next) next references := by
  intro index name hname
  rw [variableOf, Nat.add_sub_cancel_left, hname]
  exact if_pos (Nat.le_add_right _ _)

end Render

namespace Renderer

open Render

variable {α : Type}

/-- The text of a condition, whatever arguments have been bound before, is read as that condition,
if no sign of a number stands in front of a sign. -/
theorem condition_reads_back (dialect : Dialect) (resolver : Resolver α) (e : Expr)
    (bound bound' : List α) (text : String) (hcondition : e.IsQueryCondition resolver)
    (hsigns : e.any Expr.isDoubleSign = false)
    (hrun : (expr { dialect, resolver } e).whole.run bound = .ok (text, bound')) :
    ∃ t, Sql.read (variableOf (e.references dialect resolver) (bound.length + 1)) dialect
        (bound.length + 1) text = some t ∧
      t.regrouped = e.plain.regrouped := by
  rw [(expr_gives { dialect, resolver } e).whole bound] at hrun
  obtain ⟨fragment, hwhole, heq⟩ := map_eq_ok.mp hrun
  obtain ⟨rfl, -⟩ := Prod.mk.inj heq
  obtain ⟨t, hread, hsame⟩ := condition_readsAs hcondition hwhole hsigns
    (numbered_variableOf (e.references dialect resolver) (bound.length + 1))
  exact ⟨t, hread.read_eq, hsame⟩

/-- The resolver that knows every variable and takes none for a string. -/
def numbers : Resolver String where
  ofVariable name := .ok name

/-- A condition in which each operator needs parentheses for some operand and none for another. -/
def overdue : Expr :=
  .binary .and
    (.binary .or
      (.unary .not (.binary .eq
        (.binary .sub (.column ⟨some "o", "order"⟩)
          (.binary .sub (.variable "@paid") (.unary .neg (.column ⟨none, "fee"⟩))))
        (.literal (.int (-3)))))
      (.isNull (.column ⟨none, "[due date]"⟩) true))
    (.binary .and
      (.between (.column ⟨none, "age"⟩) (.literal (.int 1))
        (.binary .mul (.variable "@limit") (.binary .add (.column ⟨none, "rate"⟩)
          (.literal (.int 1)))) true)
      (.inList (.column ⟨none, "state"⟩) [.literal (.int 0), .variable "@state"] false))

theorem isCondition_overdue : overdue.IsQueryCondition numbers := by
  have hfield {ref : ColumnRef} (h : ref.IsNamed) : (Expr.column ref).IsQueryTerm numbers :=
    .field h
  have hplain (name : String) : (Expr.variable name).IsQueryTerm numbers := .plain rfl
  apply Expr.IsQueryCondition.logical rfl
  · apply Expr.IsQueryCondition.logical rfl
    · apply Expr.IsQueryCondition.not
      apply Expr.IsQueryCondition.comparison rfl _ (.integer _)
      apply Expr.IsQueryTerm.arithmetic rfl (hfield ⟨by decide, by decide, by decide⟩)
      exact .arithmetic rfl (hplain _) (.minus (hfield ⟨by decide, by decide, by decide⟩))
    · exact .isNull _ (hfield ⟨by decide, by decide, by decide⟩)
  · apply Expr.IsQueryCondition.logical rfl
    · apply Expr.IsQueryCondition.between _ (hfield ⟨by decide, by decide, by decide⟩)
        (.integer _)
      exact .arithmetic rfl (hplain _)
        (.arithmetic rfl (hfield ⟨by decide, by decide, by decide⟩) (.integer _))
    · apply Expr.IsQueryCondition.inList _ (hfield ⟨by decide, by decide, by decide⟩)
      simp only [List.forall_mem_cons]
      exact ⟨.integer _, hplain _, nofun⟩

theorem overdue_reads_back : ∃ text bound t,
    (expr { dialect := .sqlserver, resolver := numbers } overdue).whole.run [] = .ok (text, bound) ∧
    Sql.read (variableOf (overdue.references .sqlserver numbers) 1) .sqlserver 1 text = some t ∧
    t.regrouped = overdue.plain.regrouped := by
  obtain ⟨t, hread, hsame⟩ :=
    condition_reads_back .sqlserver numbers overdue [] _ _ isCondition_overdue (by decide) rfl
  exact ⟨_, _, t, rfl, hread, hsame⟩

end Renderer

end Sproc
