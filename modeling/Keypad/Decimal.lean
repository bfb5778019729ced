/-
Decimal numbers `digits * 10 ^ exponent`, and the doubles they are read as.

* `Decimal.nearestIndex` is the index of the double nearest to a decimal, in
  exact arithmetic.
* `Decimal.index` is the same, without writing out the powers of ten of a
  decimal that is plainly too large or too small for a double.
-/
import Keypad.Binary64

namespace Keypad

/-- The number `digits * 10 ^ exponent`. -/
structure Decimal where
  digits : Nat
  exponent : Int
  deriving Repr, DecidableEq

namespace Decimal

-- Powers are those of the core library, whatever else is in scope.
attribute [local instance (high)] instPowNat

/-- The decimal is `numerator / denominator`. -/
def numerator (d : Decimal) : Nat := d.digits * 10 ^ d.exponent.toNat

def denominator (d : Decimal) : Nat := 10 ^ (-d.exponent).toNat

/-- How many decimal digits a natural number has; zero has one. -/
def digitCount (n : Nat) : Nat := (Nat.toDigits 10 n).length

/-- One more than the exponent of the leading digit: a non-zero decimal is
below `10 ^ d.order` and not below a tenth of it. -/
def order (d : Decimal) : Int := digitCount d.digits + d.exponent

/-- The index of the double nearest to the decimal. -/
def nearestIndex (d : Decimal) : Nat :=
  Binary64.nearest (d.numerator * Binary64.unitsPerOne) d.denominator

/-- The index of the double nearest to the decimal: from `10 ^ 309` on it is
infinity, below `10 ^ -324` it is zero, and only in between are the powers of
ten written out. -/
def index (d : Decimal) : Nat :=
  if d.digits = 0 then 0
  else if 309 < d.order then Binary64.infinity
  else if d.order ≤ -324 then 0
  else d.nearestIndex

end Decimal

end Keypad
