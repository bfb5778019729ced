/-
Doubles by index.

The doubles from zero to infinity are counted upwards: zero has index 0, the
least positive double index 1, infinity index `infinity`. The index is what
the bits of a double spell without the sign, so the order of values is the
order of indices, and the parity of a significand is the parity of an index.

* `units n` is the value at index `n`, in units of `2 ^ -1074`, the least
  positive double.
* `nearest a b` is the index whose value is nearest to `a / b` units, an
  exact half going to the even index.
-/

namespace Keypad.Binary64

-- Powers are those of the core library, whatever else is in scope.
attribute [local instance (high)] instPowNat

/-- How many indices a binade has. -/
def binadeSize : Nat := 2 ^ (52 : Nat)

/-- How many units the number one has. -/
def unitsPerOne : Nat := 2 ^ (1074 : Nat)

/-- The index of infinity. -/
def infinity : Nat := 2047 * binadeSize

/-- The value of the double at index `n`, in units. In the lowest two binades
neighbours are a unit apart, and in each further one twice as far as in the
one before it. -/
def units (n : Nat) : Nat :=
  if n < binadeSize then n else (binadeSize + n % binadeSize) * 2 ^ (n / binadeSize - 1)

/-- `a / b` rounded to an integer, an exact half to the even one. -/
def roundQuotient (a b : Nat) : Nat :=
  let q := a / b
  let r := 2 * (a % b)
  if r < b ∨ (r = b ∧ q % 2 = 0) then q else q + 1

/-- How many bits below the leading 53 a quantity of `q` units has. -/
def surplusBits (q : Nat) : Nat := Nat.log2 q - 52

/-- The index of the double nearest to `a / b` units. The quotient is rounded
to the leading 53 bits; a carry out of them leads to the next binade by
itself, and whatever lies beyond the finite doubles is infinity. -/
def nearest (a b : Nat) : Nat :=
  let shift := surplusBits (a / b)
  min (shift * binadeSize + roundQuotient a (b * 2 ^ shift)) infinity

/-! ## Words -/

/-- The bit of a word that tells the sign. -/
def signBit : Nat := 2 ^ (63 : Nat)

/-- The bit of a word that tells a NaN that is not signaling. -/
def quietBit : Nat := 2 ^ (51 : Nat)

/-- The index of a double's magnitude. Above `infinity` stand the NaNs. -/
def index (x : Float) : Nat := x.toBits.toNat % signBit

def isNegative (x : Float) : Bool := signBit ≤ x.toBits.toNat

/-- The double of the given sign and index. -/
def ofIndex (negative : Bool) (n : Nat) : Float :=
  Float.ofBits (UInt64.ofNat (if negative then signBit + n else n))

/-- The one NaN that is a value. -/
def nan : Float := ofIndex false (infinity + quietBit)

end Keypad.Binary64
