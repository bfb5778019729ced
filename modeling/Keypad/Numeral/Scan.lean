/-
The numeral that a text begins with, found in one pass from left to right.

The pass looks no further than the numeral goes, apart from the characters
that decide whether there is an exponent.
-/
import Keypad.Numeral

namespace Keypad.Numeral.Scan

/-- The sign that a text begins with, if any. -/
def sign : List Char → List Char
  | '+' :: _ => ['+']
  | '-' :: _ => ['-']
  | _ => []

/-- The word that a text begins with, in any letter case: the first of the
given ones that it does begin with. -/
def word? (words : List (List Char)) (cs : List Char) : Option (List Char) :=
  (words.find? fun w => (cs.take w.length).map Char.toLower = w).map fun w => cs.take w.length

/-- The words for numbers that are not decimals. A longer one comes before
one that it begins with. -/
def words : List (List Char) :=
  [['i', 'n', 'f', 'i', 'n', 'i', 't', 'y'], ['i', 'n', 'f'], ['n', 'a', 'n']]

/-- The exponent that a text begins with, if there is a digit in it. -/
def exponent : List Char → List Char
  | [] => []
  | c :: cs =>
    let s := sign cs
    let digits := (cs.drop s.length).takeWhile Char.isDigit
    if (c = 'e' ∨ c = 'E') ∧ digits ≠ [] then c :: s ++ digits else []

/-- The digits that a text begins with, with an optional point among them. -/
def mantissa (cs : List Char) : List Char :=
  let whole := cs.takeWhile Char.isDigit
  match cs.drop whole.length with
  | '.' :: rest => whole ++ '.' :: rest.takeWhile Char.isDigit
  | _ => whole

/-- The decimal that a text begins with, if there is a digit in it. -/
def decimal? (cs : List Char) : Option (List Char) :=
  let m := mantissa cs
  if m.any Char.isDigit then some (m ++ exponent (cs.drop m.length)) else none

/-- The numeral that a text begins with, as text. -/
def leading? (cs : List Char) : Option (List Char) :=
  let s := sign cs
  let rest := cs.drop s.length
  ((word? words rest).or (decimal? rest)).map (s ++ ·)

end Keypad.Numeral.Scan
