/-
Doubles as text.

`NumberText.read` takes the longest initial part that is a numeral, and is
NaN where there is none. `NumberText.write` writes the shortest decimal that
is read back as the same double, in a style: `display` for the display, `log`
for log records.
-/
import Keypad.Decimal.Shortest
import Keypad.Numeral

namespace Keypad

namespace Decimal

/-- The digits before and after the decimal point. -/
def parts (d : Decimal) : List Char × List Char :=
  let ds := Nat.toDigits 10 d.digits
  if 0 ≤ d.exponent then (ds ++ List.replicate d.exponent.toNat '0', [])
  else if 0 < d.order then (ds.take d.order.toNat, ds.drop d.order.toNat)
  else (['0'], List.replicate (-d.order).toNat '0' ++ ds)

/-- Whole digits and, if there are any, a point and the other digits. -/
def joinParts (whole fraction : List Char) : List Char :=
  if fraction = [] then whole else whole ++ '.' :: fraction

/-- The decimal without an exponent. -/
def positional (d : Decimal) : List Char := joinParts d.parts.1 d.parts.2

/-- The decimal without an exponent and with a point in any case. -/
def pointed (d : Decimal) : List Char :=
  joinParts d.parts.1 (if d.parts.2 = [] then ['0'] else d.parts.2)

/-- The decimal with one digit before the point, and an exponent. -/
def scientific (d : Decimal) : List Char :=
  let ds := Nat.toDigits 10 d.digits
  joinParts (ds.take 1) (ds.drop 1) ++ 'e' :: (toString (d.order - 1)).toList

end Decimal

namespace NumberText

/-- The double that a literal stands for. -/
def readChars (cs : List Char) : Float :=
  ((Numeral.leading? cs).map Numeral.value).getD Binary64.nan

/-- The double that a literal stands for: the longest initial part that is a
numeral counts, and a literal without one is NaN. -/
def read (text : String) : Float := readChars text.toList

/-- What the styles of writing a double differ in. -/
structure Style where
  infinity : String
  /-- Whether negative zero keeps its sign. -/
  signedZero : Bool
  /-- How a finite magnitude is laid out. -/
  finite : Decimal → List Char

/-- The display spells infinity out, shows no sign on zero, and never uses an
exponent. -/
def display : Style := ⟨"Infinity", false, Decimal.positional⟩

/-- Log records always show a decimal point, but from `10 ^ 16` on and below
`10 ^ -4` they use an exponent instead. -/
def log : Style :=
  ⟨"inf", true, fun d =>
    if d.digits = 0 ∨ (-4 < d.order ∧ d.order ≤ 16) then d.pointed else d.scientific⟩

/-- Whether a minus is written in front of a double. -/
def Style.showsMinus (style : Style) (x : Float) : Bool :=
  Binary64.isNegative x && (Binary64.index x != 0 || style.signedZero)

def writeChars (style : Style) (x : Float) : List Char :=
  let n := Binary64.index x
  if Binary64.infinity < n then ['N', 'a', 'N']
  else (if style.showsMinus x then ['-'] else []) ++
    (if n = Binary64.infinity then style.infinity.toList else style.finite (.shortest n))

def write (style : Style) (x : Float) : String := String.ofList (writeChars style x)

/-- A double as the display shows it. -/
def shown (x : Float) : String := write display x

end NumberText

end Keypad
