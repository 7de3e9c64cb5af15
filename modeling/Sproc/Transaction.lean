/-!
# Transactions

What is known about the transaction at a point of a procedure: it is open on every path, on none, or
the paths disagree.

## Main definitions

* `TransactionState`, `TransactionState.join`
-/

namespace Sproc

/-- Knowledge about the transaction at a point. -/
structure TransactionState where
  /-- A transaction is open on every path to this point. -/
  active : Bool := false
  /-- The paths to this point disagree. -/
  uncertain : Bool := false
  deriving DecidableEq, Repr

/-- What is known where two paths meet. -/
def TransactionState.join (a b : TransactionState) : TransactionState :=
  ⟨a.active && b.active, a.uncertain || b.uncertain || a.active != b.active⟩

/-- The order of two paths does not matter. -/
theorem TransactionState.join_comm (a b : TransactionState) : a.join b = b.join a := by
  simp [join, Bool.and_comm, Bool.or_comm, bne_comm]

/-- A path that agrees with itself tells nothing new. -/
theorem TransactionState.join_self (a : TransactionState) : a.join a = a := by
  simp [join]

end Sproc
