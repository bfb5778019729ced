/-
TOML values that are single words: numbers, booleans, dates and times.

The word is read as a whole. Which of the forms it has is clear from the
word, as no word has two of them.

A whole number is read closely only if its value is asked for. Until then the
letter of a base need not be followed by digits, and what follows the first
underscore of a number in base ten need not be digits. A word of that kind
has the value `unreadable`.
-/
import Keypad.Numeral
import Keypad.Program.Toml.Table

namespace Keypad.Program.Toml.Scalar

-- Powers are those of the core library, whatever else is in scope.
attribute [local instance (high)] instPowNat

/-! ## Digits and underscores -/

/-- Takes the underscores out of a word of digits. Each of them has to stand
between two digits. -/
def digits? (isDigit : Char → Bool) (afterDigit : Bool) : List Char → Option (List Char)
  | [] => if afterDigit then some [] else none
  | '_' :: cs => if afterDigit then digits? isDigit false cs else none
  | c :: cs => if isDigit c then (digits? isDigit true cs).map (c :: ·) else none

def isHexDigit (c : Char) : Bool := c.isDigit || ('a' ≤ c.toLower && c.toLower ≤ 'f')

/-- Takes the underscores out of a word of any characters. Each of them has to
stand between two digits of base sixteen. -/
def looseDigits? (afterDigit : Bool) : List Char → Option (List Char)
  | [] => some []
  | '_' :: cs => if afterDigit && cs.head?.any isHexDigit then looseDigits? false cs else none
  | c :: cs => (looseDigits? (isHexDigit c) cs).map (c :: ·)

/-- Whether a word of more than one character begins with a zero. -/
def hasLeadingZero (cs : List Char) : Bool := cs.head? = some '0' && cs ≠ ['0']

/-- The value of a digit of any base up to sixteen. -/
def digitValue (c : Char) : Nat :=
  if c.isDigit then c.toNat - '0'.toNat else c.toLower.toNat - 'a'.toNat + 10

/-- The number spelled by digits of a base, the most significant first. -/
def valueIn (base : Nat) (ds : List Char) : Nat := ds.foldl (fun n c => base * n + digitValue c) 0

/-! ## Whole numbers -/

/-- A whole number as a value, if 128 bits are enough for it. -/
def ofInteger (n : Int) : Value :=
  if -2 ^ (127 : Nat) ≤ n ∧ n < 2 ^ (128 : Nat) then .integer n else .unreadable

/-- The digits of a base, by the letter that a word in that base has after
its leading zero. -/
def base? : Char → Option (Nat × (Char → Bool))
  | 'x' => some (16, isHexDigit)
  | 'o' => some (8, fun c => '0' ≤ c && c ≤ '7')
  | 'b' => some (2, fun c => c = '0' || c = '1')
  | _ => none

def based? : List Char → Option Value
  | '0' :: letter :: cs => do
    let (base, isDigit) ← base? letter
    if cs = [] then some .unreadable
    else (digits? isDigit false cs).map fun ds => ofInteger (valueIn base ds)
  | _ => none

/-- Whether a word without its sign is taken for a whole number in base ten:
it has nothing but digits up to the first underscore, and nowhere a sign of a
fraction, of an exponent or of a date with a time. -/
def looksWhole (cs : List Char) : Bool :=
  let rest := cs.dropWhile Char.isDigit
  cs ≠ [] && (rest = [] || rest.head? = some '_') &&
    rest.all fun c => c ≠ '.' && c ≠ 'e' && c ≠ 'E' && c ≠ ' '

/-- Reads a whole number in base ten with an optional sign. -/
def whole? (word : List Char) : Option Value := do
  let (negative, cs) := Numeral.splitSign word
  if !looksWhole cs || hasLeadingZero cs then none
  else
    let ds ← looseDigits? false cs
    return if !ds.all Char.isDigit then .unreadable
      else ofInteger (if negative then -valueIn 10 ds else valueIn 10 ds)

/-! ## Other numbers -/

/-- Reads the digits of a fraction and takes the underscores out of them; no
point, no digits. -/
def fraction? : List Char → Option (List Char)
  | [] => some []
  | '.' :: cs => (digits? Char.isDigit false cs).map ('.' :: ·)
  | _ => none

/-- Reads an exponent and takes the underscores out of it. -/
def exponent? : List Char → Option (List Char)
  | [] => some []
  | _ :: cs => do
    let (negative, cs) := Numeral.splitSign cs
    return 'e' :: (if negative then ['-'] else []) ++ (← digits? Char.isDigit false cs)

/-- Reads a number with a fraction, an exponent or both, as a numeral. -/
def numeral? (word : List Char) : Option Numeral := do
  let (negative, cs) := Numeral.splitSign word
  let (mantissa, exponent) := cs.span fun c => c ≠ 'e' && c ≠ 'E'
  let (whole, fraction) := mantissa.span fun c => c ≠ '.'
  if hasLeadingZero whole then none
  else
    let ds ← digits? Char.isDigit false whole
    let text := ds ++ (← fraction? fraction) ++ (← exponent? exponent)
    return { (← Numeral.ofChars? text) with negative }

/-- Reads infinity or NaN, with an optional sign. -/
def special? (word : List Char) : Option Numeral :=
  let (negative, cs) := Numeral.splitSign word
  if cs = ['i', 'n', 'f'] then some ⟨negative, .infinity⟩
  else if cs = ['n', 'a', 'n'] then some ⟨negative, .nan⟩
  else none

/-- A number written with digits as a value, if it is not too large. -/
def ofNumeral (n : Numeral) : Value :=
  if Binary64.index n.value = Binary64.infinity then .unreadable else .float n.value

/-! ## Dates and times -/

def twoDigits? : List Char → Option (Nat × List Char)
  | a :: b :: rest => if a.isDigit && b.isDigit then some (valueIn 10 [a, b], rest) else none
  | _ => none

def expect? (c : Char) : List Char → Option (List Char)
  | d :: rest => if d = c then some rest else none
  | [] => none

def daysIn (year month : Nat) : Nat :=
  if month = 2 then if year % 4 = 0 ∧ (year % 100 ≠ 0 ∨ year % 400 = 0) then 29 else 28
  else if month = 4 ∨ month = 6 ∨ month = 9 ∨ month = 11 then 30
  else 31

/-- Reads a date of the calendar; the answer is what follows it. -/
def date? (cs : List Char) : Option (List Char) := do
  let (century, cs) ← twoDigits? cs
  let (year, cs) ← twoDigits? cs
  let (month, cs) ← twoDigits? (← expect? '-' cs)
  let (day, cs) ← twoDigits? (← expect? '-' cs)
  if 1 ≤ month ∧ month ≤ 12 ∧ 1 ≤ day ∧ day ≤ daysIn (100 * century + year) month then some cs
  else none

/-- Reads the digits of a fraction of a second, if there is a point. -/
def secondFraction? : List Char → Option (List Char)
  | '.' :: cs =>
    let rest := cs.dropWhile Char.isDigit
    if rest.length = cs.length then none else some rest
  | cs => some cs

/-- Reads a time of day, with or without seconds; the answer is what follows
it. -/
def time? (cs : List Char) : Option (List Char) := do
  let (hour, cs) ← twoDigits? cs
  let (minute, cs) ← twoDigits? (← expect? ':' cs)
  if 23 < hour ∨ 59 < minute then none
  else
    match cs with
    | ':' :: cs =>
      let (second, cs) ← twoDigits? cs
      if 60 < second then none else secondFraction? cs
    | _ => some cs

/-- Whether a text is an offset from universal time. -/
def isOffset : List Char → Bool
  | ['Z'] | ['z'] => true
  | '+' :: cs | '-' :: cs =>
    match twoDigits? cs with
    | some (hour, ':' :: cs) =>
      match twoDigits? cs with
      | some (minute, []) => hour ≤ 23 && minute ≤ 59
      | _ => false
    | _ => false
  | _ => false

def isDatetime (word : List Char) : Bool :=
  match date? word with
  | some [] => true
  | some (separator :: cs) =>
    (separator = 'T' || separator = 't' || separator = ' ') &&
      match time? cs with
      | some rest => rest.isEmpty || isOffset rest
      | none => false
  | none => time? word == some []

/-! ## Words -/

def ofWord? (word : List Char) : Option Value :=
  if word = ['t', 'r', 'u', 'e'] then some (.boolean true)
  else if word = ['f', 'a', 'l', 's', 'e'] then some (.boolean false)
  else
    (based? word).or <|
      (whole? word).or <|
        ((special? word).map fun n => Value.float n.value).or <|
          ((numeral? word).map ofNumeral).or <|
            if isDatetime word then some (.datetime (String.ofList word)) else none

/-- Whether a character can be part of a word: any that has no meaning of its
own between values. -/
def isWordChar (c : Char) : Bool :=
  c ∉ ['=', ',', '[', ']', '\x7b', '\x7d', '#', ' ', '\t', '\r', '\n']

/-- Whether a word goes on after a tab, given what follows the tab: after all
tabs comes a part of the word, which begins with no point and no quote. -/
def continues (cs : List Char) : Bool :=
  (cs.dropWhile (· = '\t')).head?.any fun c => isWordChar c && c ≠ '.' && c ≠ '"' && c ≠ '\''

/-- Splits the word off that a text begins with. -/
def splitWord : List Char → List Char × List Char
  | [] => ([], [])
  | c :: cs =>
    if isWordChar c || (c = '\t' && continues cs) then
      let (word, rest) := splitWord cs
      (c :: word, rest)
    else ([], c :: cs)

/-- Reads the word that a text begins with. A date goes on after a space if a
time follows. -/
def read? (cs : List Char) : Option (Value × List Char) :=
  let (word, rest) := splitWord cs
  match date? word, rest with
  | some [], ' ' :: c :: after =>
    if c.isDigit then
      let (time, rest) := splitWord (c :: after)
      (ofWord? (word ++ ' ' :: time)).map (·, rest)
    else (ofWord? word).map (·, rest)
  | _, _ => (ofWord? word).map (·, rest)

end Keypad.Program.Toml.Scalar
