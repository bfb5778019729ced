/-
TOML strings: four kinds of quotes.

Between double quotes a backslash begins an escape, between single quotes
nothing does. Three quotes in place of one allow line breaks, and one or two
quotes inside.
-/
import Keypad.Program.Toml.Scalar

namespace Keypad.Program.Toml.Quoted

/-- Whether a character can stand in a string or a comment: any but the
controls, of which the tab is allowed. -/
def isTextChar (c : Char) : Bool := c = '\t' || (' ' ≤ c && c ≠ '\x7f')

/-- Whether a character can stand in a string of a kind that allows line
breaks or not, given what follows it. A carriage return is allowed as part of
a line break only. -/
def isAllowed (multiline : Bool) (c : Char) (rest : List Char) : Bool :=
  isTextChar c || (multiline && (c = '\n' || (c = '\r' && rest.head? = some '\n')))

/-- Where a quote closes a string: the quotes that still belong to the string
and what follows it. One quote closes a string on one line; otherwise three
do, the last three of up to five. -/
def closing? (quote : Char) (multiline : Bool) (rest : List Char) :
    Option (List Char × List Char) :=
  if multiline then
    match rest with
    | a :: b :: after =>
      if a = quote ∧ b = quote then
        let inside := (after.take 2).takeWhile (· = quote)
        some (inside, after.drop inside.length)
      else none
    | _ => none
  else some ([], rest)

def withChar (c : Char) : Option (List Char × List Char) → Option (List Char × List Char) :=
  Option.map fun (text, rest) => (c :: text, rest)

/-! ## Single quotes -/

/-- Reads what stands between single quotes. -/
def literal? (multiline : Bool) : List Char → Option (List Char × List Char)
  | [] => none
  | c :: rest =>
    match if c = '\'' then closing? c multiline rest else none with
    | some closed => some closed
    | none =>
      if isAllowed multiline c rest then withChar c (literal? multiline rest) else none

/-! ## Double quotes -/

/-- Where the reading of a string between double quotes stands. -/
inductive Progress where
  | plain
  | escape
  /-- Inside an escape by code point: so many digits are missing, and those
  read have this value. -/
  | codePoint (missing value : Nat)
  /-- Inside white space that a backslash removes, before or after the line
  break in it. -/
  | fold (broken : Bool)
  deriving Repr, DecidableEq

/-- The character that a letter after a backslash stands for. -/
def escaped? : Char → Option Char
  | 'b' => some '\x08'
  | 't' => some '\t'
  | 'n' => some '\n'
  | 'f' => some '\x0c'
  | 'r' => some '\r'
  | 'e' => some '\x1b'
  | '"' => some '"'
  | '\\' => some '\\'
  | _ => none

/-- The number of digits of an escape by code point, by its letter. -/
def codeLength? : Char → Option Nat
  | 'x' => some 2
  | 'u' => some 4
  | 'U' => some 8
  | _ => none

/-- The character of a code point. Surrogates have none. -/
def ofCodePoint? (n : Nat) : Option Char := if n.isValidChar then some (Char.ofNat n) else none

def isSpace (c : Char) : Bool := c = ' ' || c = '\t'

/-- How reading goes on in front of a character: removed white space ends
where something else begins, but not before the line break in it. -/
def Progress.before (p : Progress) (c : Char) : Progress :=
  if p = .fold true ∧ !isSpace c ∧ c ≠ '\n' ∧ c ≠ '\r' then .plain else p

/-- Reads what stands between double quotes. -/
def basic? (multiline : Bool) : Progress → List Char → Option (List Char × List Char)
  | _, [] => none
  | p, c :: rest =>
    match p.before c with
    | .plain =>
      match if c = '"' then closing? c multiline rest else none with
      | some closed => some closed
      | none =>
        if c = '\\' then basic? multiline .escape rest
        else if isAllowed multiline c rest then withChar c (basic? multiline .plain rest)
        else none
    | .escape =>
      match escaped? c, codeLength? c with
      | some d, _ => withChar d (basic? multiline .plain rest)
      | none, some n => basic? multiline (.codePoint n 0) rest
      | none, none =>
        if multiline && isSpace c then basic? multiline (.fold false) rest
        else if multiline && c = '\n' then basic? multiline (.fold true) rest
        else if multiline && c = '\r' && rest.head? = some '\n' then
          basic? multiline (.fold false) rest
        else none
    | .codePoint missing value =>
      if Scalar.isHexDigit c then
        let value := 16 * value + Scalar.digitValue c
        if missing ≤ 1 then
          (ofCodePoint? value).bind fun d => withChar d (basic? multiline .plain rest)
        else basic? multiline (.codePoint (missing - 1) value) rest
      else none
    | .fold broken =>
      if isSpace c then basic? multiline (.fold broken) rest
      else if c = '\n' then basic? multiline (.fold true) rest
      else if c = '\r' && rest.head? = some '\n' then basic? multiline (.fold broken) rest
      else none

/-! ## Any quotes -/

/-- Leaves out the line break right after three opening quotes. -/
def dropLineBreak : List Char → List Char
  | '\n' :: rest => rest
  | '\r' :: '\n' :: rest => rest
  | cs => cs

def line? : List Char → Option (String × List Char)
  | '"' :: rest => (basic? false .plain rest).map fun (text, rest) => (String.ofList text, rest)
  | '\'' :: rest => (literal? false rest).map fun (text, rest) => (String.ofList text, rest)
  | _ => none

/-- Reads a string of any kind. -/
def read? : List Char → Option (String × List Char)
  | '"' :: '"' :: '"' :: rest =>
    (basic? true .plain (dropLineBreak rest)).map fun (text, rest) => (String.ofList text, rest)
  | '\'' :: '\'' :: '\'' :: rest =>
    (literal? true (dropLineBreak rest)).map fun (text, rest) => (String.ofList text, rest)
  | cs => line? cs

end Keypad.Program.Toml.Quoted
