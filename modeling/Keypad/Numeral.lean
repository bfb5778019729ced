/-
Numerals: the texts that stand for a number, and the double they stand for.

A numeral is an optional sign and then `inf`, `infinity` or `nan` in any
letter case, or decimal digits with an optional point, at least one digit in
all, and an optional exponent: `e` or `E`, an optional sign, digits.

* `Numeral.ofChars?` reads a text that is a numeral as a whole.
* `Numeral.leading?` reads the longest initial part of a text that is one.
* `Numeral.value` is the double nearest to the number, an exact half going
  to the even one.
-/
import Keypad.Decimal

namespace Keypad

/-- The number of a numeral without its sign. -/
inductive Magnitude where
  | decimal (d : Decimal)
  | infinity
  | nan
  deriving Repr, DecidableEq

/-- A number as written: a sign and a magnitude. -/
structure Numeral where
  negative : Bool
  magnitude : Magnitude
  deriving Repr, DecidableEq

namespace Numeral

/-- The number spelled by decimal digits, the most significant first. -/
def digitsValue (ds : List Char) : Nat := Nat.ofDigitChars 10 ds 0

/-- Splits a sign off: whether it is a minus, and what follows it. -/
def splitSign : List Char → Bool × List Char
  | '+' :: rest => (false, rest)
  | '-' :: rest => (true, rest)
  | cs => (false, cs)

/-- Reads digits with an optional sign as a whole number. -/
def integer? (cs : List Char) : Option Int :=
  let (negative, ds) := splitSign cs
  if ds ≠ [] ∧ ds.all Char.isDigit then
    some (if negative then -(digitsValue ds : Int) else digitsValue ds)
  else none

/-- Reads what may follow the digits of a decimal: nothing, or an exponent. -/
def exponent? : List Char → Option Int
  | [] => some 0
  | c :: cs => if c = 'e' ∨ c = 'E' then integer? cs else none

/-- Splits the digits after a decimal point off, if there is a point. -/
def splitFraction : List Char → List Char × List Char
  | '.' :: rest => rest.span Char.isDigit
  | cs => ([], cs)

/-- Reads an unsigned decimal. The digits after the point lower the
exponent, one each. -/
def decimal? (cs : List Char) : Option Decimal :=
  let (whole, rest) := cs.span Char.isDigit
  let (fraction, rest) := splitFraction rest
  if whole = [] ∧ fraction = [] then none
  else (exponent? rest).map fun e => ⟨digitsValue (whole ++ fraction), e - fraction.length⟩

def magnitude? (cs : List Char) : Option Magnitude :=
  let word := cs.map Char.toLower
  if word = ['i', 'n', 'f'] ∨ word = ['i', 'n', 'f', 'i', 'n', 'i', 't', 'y'] then some .infinity
  else if word = ['n', 'a', 'n'] then some .nan
  else (decimal? cs).map .decimal

/-- Reads a text that is a numeral as a whole. -/
def ofChars? (cs : List Char) : Option Numeral :=
  let (negative, rest) := splitSign cs
  (magnitude? rest).map (⟨negative, ·⟩)

/-- The numeral spelled by the longest of the initial parts of `cs` that have
at most `n` characters and are numerals. -/
def leadingWithin? (cs : List Char) : Nat → Option Numeral
  | 0 => none
  | n + 1 => (ofChars? (cs.take (n + 1))).or (leadingWithin? cs n)

/-- The numeral spelled by the longest initial part that is one. -/
def leading? (cs : List Char) : Option Numeral := leadingWithin? cs cs.length

/-- The double nearest to the number. -/
def value (n : Numeral) : Float :=
  match n.magnitude with
  | .decimal d => Binary64.ofIndex n.negative d.index
  | .infinity => Binary64.ofIndex n.negative Binary64.infinity
  | .nan => Binary64.nan

end Numeral

end Keypad
