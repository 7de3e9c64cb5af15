/-!
# Sets of code points

A property of characters is stored as a list of runs of code points. A run may skip every other code
point, which is how the alternating blocks of capital and small letters are written down.
-/

namespace Sproc.Text

/-- The code points `first`, `first + step`, … up to `last`. -/
structure CodePointRun where
  first : Nat
  last : Nat
  step : Nat

/-- Whether a code point lies in a run. -/
def CodePointRun.contains (run : CodePointRun) (n : Nat) : Bool :=
  run.first ≤ n && n ≤ run.last && (n - run.first) % run.step == 0

/-- A set of code points as runs. -/
abbrev CodePointSet := List CodePointRun

/-- Whether a character belongs to a set of code points. -/
def CodePointSet.contains (set : CodePointSet) (c : Char) : Bool :=
  set.any (·.contains c.toNat)

/-- Whether a character is one of the first 128. -/
def isAscii (c : Char) : Bool :=
  c.toNat < 128

end Sproc.Text
