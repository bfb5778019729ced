/-
The statements of a TOML document: keys with their values, and headers.

Reading answers what was read and the rest of the text. Recursion that is not
on the text itself is bounded by a number of steps that the length of the
text gives, as every second step reads a character.
-/
import Keypad.Program.Toml.Quoted

namespace Keypad.Program.Toml

/-- A statement of a document. A key has a path, the parts before its last
one. -/
inductive Statement where
  | pair (path : List String) (key : String) (v : Value)
  | table (path : List String) (key : String)
  /-- The header of a further table of an array of tables. -/
  | element (path : List String) (key : String)

namespace Statement

/-! ## Blank space -/

/-- Leaves out the white space at the start of a line. -/
def skipSpaces (cs : List Char) : List Char := cs.dropWhile Quoted.isSpace

/-- Leaves out white space, line breaks and comments. -/
def skipBlank? (inComment : Bool) : List Char → Option (List Char)
  | [] => some []
  | '\n' :: rest => skipBlank? false rest
  | '\r' :: '\n' :: rest => skipBlank? false rest
  | c :: rest =>
    if inComment then if Quoted.isTextChar c then skipBlank? true rest else none
    else if c = '#' then skipBlank? true rest
    else if Quoted.isSpace c then skipBlank? false rest
    else some (c :: rest)

/-- Reads a line break or the end of the text. -/
def lineBreak? : List Char → Option (List Char)
  | [] => some []
  | '\n' :: rest => some rest
  | '\r' :: '\n' :: rest => some rest
  | _ => none

/-- Reads the end of a line, with an optional comment. -/
def lineEnd? (cs : List Char) : Option (List Char) :=
  match skipSpaces cs with
  | '#' :: rest => lineBreak? (rest.dropWhile Quoted.isTextChar)
  | rest => lineBreak? rest

/-! ## Keys -/

def isBareChar (c : Char) : Bool := c.isAlphanum || c = '_' || c = '-'

def keyPart? (cs : List Char) : Option (String × List Char) :=
  match cs.span isBareChar with
  | ([], _) => Quoted.line? cs
  | (bare, rest) => some (String.ofList bare, rest)

/-- How many parts a key can have, and how deep arrays and tables between
braces can be nested. -/
def depthLimit : Nat := 80

/-- Reads a key of at most so many parts, with points between them. -/
def keyWithin? : Nat → List Char → Option (List String × String × List Char)
  | 0, _ => none
  | parts + 1, cs => do
    let (part, rest) ← keyPart? (skipSpaces cs)
    match skipSpaces rest with
    | '.' :: rest =>
      let (path, key, rest) ← keyWithin? parts rest
      return (part :: path, key, rest)
    | rest => return ([], part, rest)

def key? (cs : List Char) : Option (List String × String × List Char) := keyWithin? depthLimit cs

/-! ## Values -/

mutual

/-- Reads a value, with at most `depth` levels of nesting in it. -/
def value? : Nat → Nat → List Char → Option (Value × List Char)
  | 0, _, _ => none
  | steps + 1, depth, cs =>
    match cs, depth with
    | '[' :: rest, depth + 1 => (items? steps depth rest).map fun (vs, rest) => (.array vs, rest)
    | '{' :: rest, depth + 1 =>
      (pairs? steps depth [] rest).map fun (es, rest) => (.table .inline es, rest)
    | '"' :: _, _ | '\'' :: _, _ => (Quoted.read? cs).map fun (text, rest) => (.string text, rest)
    | _, _ => Scalar.read? cs

/-- Reads the items of an array, up to the bracket that closes it. -/
def items? : Nat → Nat → List Char → Option (List Value × List Char)
  | 0, _, _ => none
  | steps + 1, depth, cs => do
    match ← skipBlank? false cs with
    | ']' :: rest => return ([], rest)
    | cs =>
      let (v, rest) ← value? steps depth cs
      match ← skipBlank? false rest with
      | ']' :: rest => return ([v], rest)
      | ',' :: rest =>
        let (vs, rest) ← items? steps depth rest
        return (v :: vs, rest)
      | _ => none

/-- Reads the entries of a table between braces, up to the brace that closes
it, in addition to those read before. Line breaks and comments can stand
anywhere but inside keys. -/
def pairs? : Nat → Nat → Entries → List Char → Option (Entries × List Char)
  | 0, _, _, _ => none
  | steps + 1, depth, es, cs => do
    match ← skipBlank? false cs with
    | '}' :: rest => return (es, rest)
    | cs =>
      let (path, key, rest) ← key? cs
      let rest ← Scalar.expect? '=' (← skipBlank? false rest)
      let (v, rest) ← value? steps depth (← skipBlank? false rest)
      let es ← es.assign path key v
      match ← skipBlank? false rest with
      | '}' :: rest => return (es, rest)
      | ',' :: rest => pairs? steps depth es rest
      | _ => none

end

/-! ## Statements -/

def read? (cs : List Char) : Option (Statement × List Char) :=
  match cs with
  | '[' :: '[' :: cs => do
    let (path, key, rest) ← key? cs
    return (.element path key, ← Scalar.expect? ']' (← Scalar.expect? ']' rest))
  | '[' :: cs => do
    let (path, key, rest) ← key? cs
    return (.table path key, ← Scalar.expect? ']' rest)
  | cs => do
    let (path, key, rest) ← key? cs
    let (v, rest) ←
      value? (2 * cs.length + 2) depthLimit (skipSpaces (← Scalar.expect? '=' rest))
    return (.pair path key v, rest)

/-- Reads statements on lines of their own, up to the end of the text. -/
def readAll? : Nat → List Char → Option (List Statement)
  | 0, _ => none
  | steps + 1, cs => do
    match ← skipBlank? false cs with
    | [] => return []
    | cs =>
      let (s, rest) ← read? cs
      return s :: (← readAll? steps (← lineEnd? rest))

end Statement

end Keypad.Program.Toml
