import Sproc.Proofs.Lower.Drawing
import Sproc.Proofs.Lower.Invariant

/-!
# Value code is read back

The text of a value's code is read as the tree that the code stands for, with operators that bind as
tightly as the value says. This needs what `Go.Expr.isLegible` asks of code: the generation puts no
parentheses between two minus signs, takes a row of one test for a comparison, and leaves the zero
time open in the tests of a choice.

## Main results

* `lowerExpr_reads_back`: the code of an expression is read as its tree
-/

namespace Sproc

open Lower

/-- All that has a proper name is in stock. -/
def Go.Stock.proper : Go.Stock where
  names := IsName
  packages _ := True

/-- Variables have been declared. -/
def Invariant.built : Invariant where
  holds symbols _ := symbols.Built
  declares hdeclare hbuilt := .declare hbuilt hdeclare

namespace Go.Stock

theorem hasType_proper (type : GoType) : proper.HasType type :=
  fun _ _ => trivial

theorem own_proper : proper.Own where
  kept id hid := by
    have hall : ∀ id ∈ ["rowCount", "lastInsertID", "tx", "caught"],
        (id.toList.head?.any (!·.isDigit) && id.toList.all isNameChar &&
          !keywords.contains id) = true := by
      decide
    exact Go.Expr.isName_of_check (hall id hid)
  numbered base hbase n := by
    have hbases : ∀ base ∈ ["exists", "scalar"], (base.toList.all isNameChar &&
        base.toList.head?.any (!·.isDigit)) = true := by
      decide
    obtain ⟨hall, hhead⟩ := Bool.and_eq_true_iff.mp (hbases base hbase)
    obtain ⟨first, hfirst, hletter⟩ := (Option.any_eq_true ..).mp hhead
    have hchars := SymbolTable.chars_append
      ⟨List.all_eq_true.mp hall, first, hfirst, by simpa using hletter⟩
      (fun d hd => SymbolTable.isNameChar_of_mem_toString hd : ∀ d ∈ (toString n).toList, _)
    exact ⟨hchars.2, hchars.1, append_toString_notMem (by decide) base n⟩
  database := .inr trivial
  results _ _ := .inr trivial

/-- What the declarations have produced serves the stock of proper names. -/
theorem serves_proper {config : Config} {p : Progress} (h : p.symbols.Built) :
    proper.Serves config p where
  names := h.isName
  types symbol _ := hasType_proper symbol.type.go
  packages _ _ _ := trivial

end Go.Stock

namespace Lower

variable {c : Context} {before after : Progress} {expr : Expr} {hint : Option GoType} {value : Value}

/-- The values of expressions fit. -/
theorem fits_lowerExpr (h : (lowerExpr expr hint).Runs c before value after)
    (hbuilt : before.symbols.Built) : Go.Stock.proper.Fits value := by
  have hqueries : QueriesHaveEffect c Invariant.built.discipline.effect :=
    queriesHaveEffect Invariant.built.permissive_discipline.regular.forms
  have hafter : after.symbols.Built := ((hasEffect_lowerExpr hqueries expr hint) h hbuilt).1
  have hdraws : (lowerExpr expr hint).DrawsOn Go.Stock.proper c True Go.Stock.proper.Fits :=
    drawsOn_lowerExpr Go.Stock.own_proper expr hint fun _ type _ => Go.Stock.hasType_proper type
  obtain ⟨-, _, -, hadded⟩ := hdraws h fun _ _ => .inr trivial
  exact (hadded (Go.Stock.serves_proper hafter) trivial).2

/-- The code of an expression is read as the tree that it stands for, wherever it is legible. Its
operators bind at least as tightly as the value says, unless a number has been read from a string;
then they bind at least as tightly as a sign. -/
theorem lowerExpr_reads_back (h : (lowerExpr expr hint).Runs c before value after)
    (hbuilt : before.symbols.Built) (hlegible : value.code.isLegible = true) :
    Go.Syntax.parse value.code.render = some value.code.tree ∧
      min value.strength 8 ≤ value.code.tree.level ∧
      (value.strength ≤ value.code.tree.level ∨ ∃ spelling, value.code = .number spelling) := by
  have hfits := fits_lowerExpr h hbuilt
  have hnames : ∀ id, Go.Stock.proper.names id → Go.IsName id := fun _ hid => hid
  have hloose := hfits.loose.groups hnames
  refine ⟨hloose.parse_eq hlegible, hloose.le_level hlegible, ?_⟩
  rcases hfits.bounded with hle | hten
  · left
    calc
      value.strength = min value.strength 8 := (Nat.min_eq_left hle).symm
      _ ≤ value.code.tree.level := hloose.le_level hlegible
  · rcases hfits.tight hten with hcode | ⟨-, hnumber⟩
    · left
      rw [hten]
      exact (hcode.groups hnames).le_level hlegible
    · exact .inr hnumber

/-- A balance. -/
def balanceTable : SymbolTable :=
  { symbols := [⟨"@balance", "balance", ⟨.int32, "INT"⟩, .declared⟩] }

/-- A negated product in a list: `NOT -(@balance * (@balance - -1)) IN (2, -3)`. -/
def refund : Expr :=
  .unary .not (.inList (.unary .neg (.binary .mul (.variable "@balance")
    (.binary .sub (.variable "@balance") (.ofInt (-1))))) [.ofInt 2, .ofInt (-3)] false)

/-- Where it stands. -/
def refundContext : Context :=
  { config := {}, procedure := ⟨"usp_Refund", [], []⟩, functionName := "Refund", verb := none,
    survey := {} }

/-- All groups of the product and the list are read back. -/
theorem refund_reads_back : ∃ value after,
    (lowerExpr refund none).Runs refundContext { symbols := balanceTable } value after ∧
      value.code.render =
        "!(-(balance * (balance - -1)) == 2 || -(balance * (balance - -1)) == -3)" ∧
      Go.Syntax.parse value.code.render = some value.code.tree ∧
      value.strength ≤ value.code.tree.level := by
  have hdeclare : ({} : SymbolTable).declare "@balance" "INT" .declared =
      .ok (⟨"@balance", "balance", ⟨.int32, "INT"⟩, .declared⟩, balanceTable) :=
    SymbolTable.declare_eq_ok_iff.mpr
      ⟨rfl, ⟨⟨.int32, "INT"⟩, by decide +kernel, by decide +kernel⟩, rfl⟩
  have hcode : ((lowerExpr refund none).execute refundContext
      { symbols := balanceTable }).1.toOption.map
        (fun value => (value.code.render, value.code.isLegible, value.strength)) =
      some ("!(-(balance * (balance - -1)) == 2 || -(balance * (balance - -1)) == -3)", true, 8) := by
    decide +kernel
  generalize houtcome : (lowerExpr refund none).execute refundContext { symbols := balanceTable } =
    outcome at hcode
  obtain ⟨outcome, after⟩ := outcome
  cases outcome with
  | error error => simp [Except.toOption] at hcode
  | ok value =>
    simp only [Except.toOption, Option.map_some, Option.some.injEq, Prod.mk.injEq] at hcode
    obtain ⟨htext, hlegible, hstrength⟩ := hcode
    obtain ⟨hparse, hlevel, -⟩ := lowerExpr_reads_back houtcome (.declare .start hdeclare) hlegible
    exact ⟨value, after, houtcome, htext, hparse, hstrength ▸ hlevel⟩

/-- Two minus signs that meet are no code. -/
example : Go.Syntax.parse "--balance" = none :=
  rfl

end Lower

end Sproc
