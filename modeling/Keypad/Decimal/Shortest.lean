/-
The shortest decimal that is read back as a given double.

The multiples of a power of ten form a grid, and the coarser the grid, the
fewer digits its points have. `shortest` goes from the coarsest grid that
could have a point to finer ones and stops at the first where one of the two
neighbours of the double's value is read back as that double. Of two such
neighbours it takes the nearer, of two equally near ones the upper.
-/
import Keypad.Decimal

namespace Keypad.Decimal

-- Powers are those of the core library, whatever else is in scope.
attribute [local instance (high)] instPowNat

/-- Where the double at index `n` lies on the grid of multiples of `10 ^ e`:
at `a / b` grid steps from zero. -/
def gridPosition (n : Nat) (e : Int) : Nat × Nat :=
  (Binary64.units n * 10 ^ (-e).toNat, Binary64.unitsPerOne * 10 ^ e.toNat)

/-- The neighbour of the double at index `n`, on the grid of multiples of
`10 ^ e`, that is read back as that double: the nearer one if both are. -/
def gridPoint? (n : Nat) (e : Int) : Option Decimal :=
  let (a, b) := gridPosition n e
  let lower : Decimal := ⟨a / b, e⟩
  let upper : Decimal := ⟨a / b + 1, e⟩
  if lower.nearestIndex = n ∧ (2 * (a % b) < b ∨ upper.nearestIndex ≠ n) then some lower
  else if upper.nearestIndex = n then some upper
  else none

/-- No multiple of a greater power of ten than this one is read back as the
double at index `n`: they are not below the next double. -/
def coarsest (n : Nat) : Int :=
  let next := Binary64.units (n + 1)
  digitCount (next / Binary64.unitsPerOne) - digitCount (Binary64.unitsPerOne / next) + 1

/-- All digits of the double at index `n`. -/
def exact (n : Nat) : Decimal := ⟨Binary64.units n * 5 ^ (1074 : Nat), -1074⟩

/-- The first grid point met on the way from `10 ^ e` through `steps` finer
grids, or else all digits. -/
def descend (n : Nat) : Nat → Int → Decimal
  | 0, _ => exact n
  | steps + 1, e => (gridPoint? n e).getD (descend n steps (e - 1))

/-- The shortest decimal that is read back as the double at index `n`, and
the nearest of the shortest ones. On the grid of `10 ^ -1074` every double is
a grid point, so the search has an end. -/
def shortest (n : Nat) : Decimal :=
  if n = 0 then ⟨0, 0⟩ else descend n (coarsest n + 1074).toNat (coarsest n)

end Keypad.Decimal
