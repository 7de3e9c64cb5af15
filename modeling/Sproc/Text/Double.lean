import Sproc.Text.Number

/-!
# The range of doubles

Which decimal numbers are finite as floating-point numbers of 64 bits. A number is rounded to the
nearest double, and at half a unit above the largest double that becomes infinity.

## Main definitions

* `nearestDouble`: a natural number rounded to the 53 bits of a double
* `isFinite`: whether a decimal number rounds to a finite double
* `isFiniteScaled`: the same for a significand and a power of ten that are rounded one by one
-/

namespace Sproc.Text

/-- The least number whose nearest double is infinite. -/
def doubleLimit : Nat :=
  Nat.pow 2 1024 - Nat.pow 2 970

/-- The double nearest to a natural number; halfway between two of them, the even one. -/
def nearestDouble (n : Nat) : Nat :=
  let unit := Nat.pow 2 (n.log2 - 52)
  let mantissa := n / unit
  let rest := n % unit
  let up := unit < 2 * rest || (unit = 2 * rest && mantissa % 2 = 1)
  (if up then mantissa + 1 else mantissa) * unit

/-- A number of at most 53 bits is a double. -/
theorem nearestDouble_eq_self {n : Nat} (h : n.log2 ≤ 52) : nearestDouble n = n := by
  have unit : n.log2 - 52 = 0 := by omega
  simp [nearestDouble, unit]
  omega

/-- Whether `digits · 10 ^ exponent` rounds to a finite double. -/
def isFinite (digits : List Char) (exponent : Int) : Bool :=
  let significant := digits.dropWhile (· == '0')
  let n := decimalValue significant
  let magnitude := exponent + significant.length
  -- Far from the limit the number of digits decides, and no large power is computed.
  if n = 0 || magnitude < 300 then true
  else if magnitude > 310 then false
  else if 0 ≤ exponent then n * Nat.pow 10 exponent.toNat < doubleLimit
  else n < doubleLimit * Nat.pow 10 (-exponent).toNat

/-- Whether the product of the doubles nearest to `significand` and to `10 ^ exponent` rounds to a
finite double. The power itself has to be finite, unless there is nothing to scale. -/
def isFiniteScaled (significand : Nat) (exponent : Int) : Bool :=
  if significand = 0 || exponent < 0 then true
  else if exponent > 308 then false
  else nearestDouble significand * nearestDouble (Nat.pow 10 exponent.toNat) < doubleLimit

end Sproc.Text
