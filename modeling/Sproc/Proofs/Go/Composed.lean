import Sproc.Proofs.Go.Grouping
import Sproc.Proofs.Go.Qualifier

/-!
# How value code is composed

The Go code of a T-SQL value is composed by a small number of rules: variables, constants and zero
values; functions of certain packages and methods of certain names; conversions, operators, choices
and parentheses. The rules say which operands need parentheses and which packages are needed, so
that everything else that is to be known of value code follows by induction on its composition.

## Main definitions

* `Go.packageFunctions`, `Go.valueMethods`: what values are made with
* `Go.Expr.Composed`: the rules

## Main results

* `Go.Expr.Composed.groups`: composed code is read as its tree, if it is legible
* `Go.Expr.Composed.qualified`: composed code only names variables and packages in stock
-/

namespace Sproc

namespace Go

/-- The functions that values are made with, by their packages. -/
def packageFunctions : List (String × String) :=
  [("time", "Now"), ("decimal", "NewFromInt"), ("decimal", "NewFromFloat"),
    ("decimal", "RequireFromString"), ("fmt", "Sprint"), ("math", "Mod"), ("math", "Floor"),
    ("math", "Ceil"), ("strings", "ToUpper"), ("strings", "ToLower"), ("strings", "TrimLeft"),
    ("strings", "TrimRight"), ("strings", "TrimSpace"), ("strings", "ReplaceAll"),
    ("strings", "Index"), ("utf8", "RuneCountInString"), ("tsqlrt", "BitValue"),
    ("tsqlrt", "ParseBit"), ("tsqlrt", "ParseInt"), ("tsqlrt", "ParseFloat"),
    ("tsqlrt", "ParseDateTime"), ("tsqlrt", "Like"), ("tsqlrt", "NewID"), ("tsqlrt", "Coalesce"),
    ("tsqlrt", "Substring"), ("tsqlrt", "Left"), ("tsqlrt", "Right"), ("tsqlrt", "Abs"),
    ("tsqlrt", "Round"), ("tsqlrt", "DateAdd"), ("tsqlrt", "DateDiff"), ("tsqlrt", "TranCount")]

/-- The methods that values are made with. -/
def valueMethods : List String :=
  ["Neg", "IsZero", "IntPart", "InexactFloat64", "String", "Add", "Sub", "Mul", "Div", "Mod", "Cmp",
    "Equal", "Before", "After", "Abs", "Floor", "Ceil", "Round", "Year", "Month", "Day", "UTC",
    "Error"]

namespace Expr

/-- How value code is composed. Code of a strength stands as an operand wherever no more than that
strength is asked for, and primary code may have a selector behind it. -/
inductive Composed (stock : Stock) : Bool → Nat → Expr → Prop
  | name {primary : Bool} {id : String} : stock.names id → Composed stock primary 10 (.name id)
  | int (n : Int) : Composed stock false (if n < 0 then 8 else 10) (.int n)
  | number (spelling : String) : Composed stock false (signLevel spelling) (.number spelling)
  | bool {primary : Bool} (b : Bool) : Composed stock primary 10 (.bool b)
  | nil {primary : Bool} : Composed stock primary 10 .nil
  | str {primary : Bool} (s : String) : Composed stock primary 10 (.str s)
  | zero {primary : Bool} {type : GoType} : stock.HasType type →
    (primary = true → type.isNumeric = false) → Composed stock primary 10 (.zero type)
  | packaged {primary : Bool} {package function : String} {args : List Expr} :
    (package, function) ∈ packageFunctions → stock.packages package →
    (∀ arg ∈ args, Composed stock false 1 arg) →
    Composed stock primary 10 (.invoke (.name package) function args)
  | method {primary : Bool} {owner : Expr} {name : String} {args : List Expr} :
    name ∈ valueMethods → Composed stock true 10 owner →
    (∀ arg ∈ args, Composed stock false 1 arg) →
    Composed stock primary 10 (.invoke owner name args)
  | len {primary : Bool} {e : Expr} : Composed stock false 1 e →
    Composed stock primary 10 (.call (.name "len") [e])
  | convert {primary : Bool} {type : String} {e : Expr} : type ∈ conversions →
    Composed stock false 1 e → Composed stock primary 10 (.convert type e)
  | not {e : Expr} : Composed stock false 8 e → Composed stock false 8 (.unary .not e)
  | minus {e : Expr} : Composed stock false 8 e → Composed stock false 8 (.unary .neg e)
  | binary {op : String} {p q : Nat} {left right : Expr} : Syntax.strength? op = some p →
    p < q ∨ (op = "&&" ∨ op = "||") ∧ p ≤ q → Composed stock false p left →
    Composed stock false q right → Composed stock false p (.binary op left right)
  | chain {symbol : String} {p q : Nat} {operands : List Expr} : Syntax.strength? symbol = some p →
    p < q ∨ (symbol = "&&" ∨ symbol = "||") ∧ p ≤ q → operands ≠ [] →
    (∀ e ∈ operands, Composed stock false q e) → Composed stock false p (.chain symbol operands)
  | alone {symbol : String} {p : Nat} {e : Expr} : Composed stock false p e →
    Composed stock false p (.chain symbol [e])
  /-- A row of at most one test is taken for a comparison, whatever the test is. -/
  | row {symbol : String} {tests : List Expr} : tests.length ≤ 1 →
    (∀ e ∈ tests, Composed stock false 1 e) → Composed stock false 3 (.chain symbol tests)
  | paren {primary : Bool} {e : Expr} : Composed stock false 1 e →
    Composed stock primary 10 (.paren e)
  | choose {primary : Bool} {type : GoType} {arms : List (Expr × Expr)} {otherwise : Expr} :
    stock.HasType type → (∀ arm ∈ arms, Composed stock false 1 arm.1) →
    (∀ arm ∈ arms, Composed stock false 1 arm.2) → Composed stock false 1 otherwise →
    Composed stock primary 10 (.choose type arms otherwise)
  | loosen {primary : Bool} {p q : Nat} {e : Expr} : Composed stock primary q e → p ≤ q →
    Composed stock primary p e
  | operand {p : Nat} {e : Expr} : Composed stock true p e → Composed stock false p e

variable {stock : Stock} {primary : Bool} {p : Nat} {e : Expr}

/-! ## Grouping -/

/-- The names of the functions and packages that values are made with are names. -/
theorem isName_packageFunctions {package function : String}
    (h : (package, function) ∈ packageFunctions) : IsName package ∧ IsName function := by
  have hall : ∀ entry ∈ packageFunctions,
      (entry.1.toList.head?.any (!·.isDigit) && entry.1.toList.all isNameChar &&
        !keywords.contains entry.1) = true ∧
      (entry.2.toList.head?.any (!·.isDigit) && entry.2.toList.all isNameChar &&
        !keywords.contains entry.2) = true := by
    decide +kernel
  exact ⟨isName_of_check (hall _ h).1, isName_of_check (hall _ h).2⟩

theorem isName_valueMethods {name : String} (h : name ∈ valueMethods) : IsName name := by
  have hall : ∀ name ∈ valueMethods, (name.toList.head?.any (!·.isDigit) &&
      name.toList.all isNameChar && !keywords.contains name) = true := by
    decide +kernel
  exact isName_of_check (hall _ h)

/-- A row of at most one test groups as tightly as a comparison, if it is legible. -/
theorem groups_row {symbol : String} {tests : List Expr} (hlength : tests.length ≤ 1)
    (h : ∀ e ∈ tests, e.Groups false 1) : (Expr.chain symbol tests).Groups false 3 := by
  intro hlegible
  rcases tests with _ | ⟨test, _ | ⟨next, rest⟩⟩
  · simp [isLegible] at hlegible
  · refine groups_chain_singleton (h test List.mem_cons_self) (fun hchain => ?_) hlegible
    simp only [isLegible, trees, Bool.and_eq_true, Bool.or_eq_true] at hchain
    simpa using hchain.1.2
  · simp at hlength

/-- Composed code is read as its tree, with operators of its strength, if it is legible. -/
theorem Composed.groups (h : e.Composed stock primary p)
    (hnames : ∀ id, stock.names id → IsName id) : e.Groups primary p := by
  induction h with
  | name hid => exact groups_name (hnames _ hid)
  | int n => exact groups_int n
  | number spelling => exact groups_number spelling
  | bool b => exact groups_bool b
  | nil => exact groups_nil
  | str s => exact groups_str s
  | zero _ hprimary => exact groups_zero _ hprimary
  | packaged hfunction _ _ ihargs =>
    obtain ⟨hpackage, hname⟩ := isName_packageFunctions hfunction
    exact groups_call ((groups_name hpackage).member hname) ihargs
  | method hname _ _ ihowner ihargs =>
    exact groups_call (ihowner.member (isName_valueMethods hname)) ihargs
  | len _ ih =>
    have hlen : IsName "len" := isName_of_check rfl
    exact groups_call (groups_name hlen) (List.forall_mem_singleton.mpr ih)
  | convert htype _ ih => exact groups_convert htype ih
  | not _ ih => exact ih.not
  | minus _ ih => exact ih.minus
  | binary hop hq _ _ ihl ihr => exact groups_binary hop hq ihl ihr
  | chain hop hq hne _ ih => exact groups_chain hop hq hne ih
  | alone _ ih =>
    refine groups_chain_singleton ih fun hlegible => ih.le_level ?_
    rw [isLegible, Bool.and_eq_true, areLegible_iff] at hlegible
    exact hlegible.2 _ List.mem_cons_self
  | row hlength _ ih => exact groups_row hlength ih
  | paren _ ih => exact ih.paren
  | choose _ _ _ _ ihtests ihresults ihotherwise =>
    exact groups_choose _ (fun arm harm => ⟨ihtests arm harm, ihresults arm harm⟩) ihotherwise
  | loosen _ hle ih => exact ih.loosen hle
  | operand _ ih => exact ih.operand

/-! ## Qualifiers -/

theorem composed_name {id : String} (h : (Expr.name id).Composed stock primary p) :
    stock.names id := by
  generalize he : Expr.name id = e at h
  induction h with
  | name hid =>
    cases he
    exact hid
  | loosen _ _ ih => exact ih he
  | operand _ ih => exact ih he
  | _ => cases he

/-- The types of conversions belong to no package. -/
theorem has_convert {type : String} {operand : Expr} (htype : type ∈ conversions)
    (h : stock.Has operand.qualifiers) : stock.Has (Expr.convert type operand).qualifiers := by
  have hnone : ∀ type ∈ conversions, spellingQualifiers type = [] := by decide
  rwa [qualifiers, hnone type htype, List.nil_append]

/-- Composed code is no message. -/
theorem Composed.ne_message (h : e.Composed stock primary p) (package type : String)
    (fields : List (String × Expr)) : e ≠ .message package type fields := by
  induction h with
  | loosen _ _ ih | operand _ ih => exact ih
  | _ => exact fun heq => by cases heq

/-- Composed code only names variables and packages in stock. -/
theorem Composed.qualified (h : e.Composed stock primary p) : stock.Has e.qualifiers := by
  induction h with
  | zero htype _ => simpa [qualifiers] using htype
  | packaged _ hpackage _ ihargs =>
    exact Stock.has_call (by simp [qualifiers, Stock.Covers, hpackage]) ihargs
  | method _ howner _ ihowner ihargs =>
    refine Stock.has_call (Stock.has_member _ ihowner fun id hid => ?_) ihargs
    exact .inl (composed_name (hid ▸ howner))
  | len _ ih => exact Stock.has_call (by simp [qualifiers]) (List.forall_mem_singleton.mpr ih)
  | convert htype _ ih => exact has_convert htype ih
  | not _ ih | minus _ ih => simpa [qualifiers] using ih
  | binary _ _ _ _ ihl ihr => simp [qualifiers, ihl, ihr]
  | chain _ _ _ _ ih | row _ _ ih => simpa [qualifiers] using ih
  | alone _ ih | paren _ ih => simpa [qualifiers, exprQualifiers] using ih
  | choose htype _ _ _ ihtests ihresults ihotherwise =>
    simp only [qualifiers, Stock.has_append, Stock.has_typeQualifiers, Stock.has_choiceQualifiers]
    exact ⟨htype, fun arm harm => ⟨ihtests arm harm, ihresults arm harm⟩, ihotherwise⟩
  | loosen _ _ ih => exact ih
  | operand _ ih => exact ih
  | _ => simp [qualifiers]

end Expr

end Go

end Sproc
