/-
Bytes and texts as lines.

A line ends with a line feed or with the input; a carriage return before the
line feed belongs to the end of the line. Text is encoded in UTF-8.
-/

namespace Keypad.Text

section

variable {α : Type} [DecidableEq α]

/-- A line in reverse, without the carriage return that its end may begin
with. -/
def withoutReturn (cr : α) : List α → List α
  | [] => []
  | c :: rest => if c = cr then rest else c :: rest

/-- The lines of an input that was read up to `begun`, which is what came
after the last line feed, in reverse. -/
def linesFrom (cr lf : α) (begun : List α) : List α → List (List α)
  | [] => if begun = [] then [] else [begun.reverse]
  | c :: rest =>
    if c = lf then (withoutReturn cr begun).reverse :: linesFrom cr lf [] rest
    else linesFrom cr lf (c :: begun) rest

end

/-- The lines of bytes, without their ends. -/
def byteLines (bytes : List UInt8) : List (List UInt8) := linesFrom 13 10 [] bytes

/-- The lines of a text, without their ends. -/
def lines (text : String) : List String :=
  (linesFrom '\r' '\n' [] text.toList).map String.ofList

/-- Lines as a text, each with its end. -/
def unlines (ls : List String) : String := String.join (ls.map (· ++ "\n"))

def ofBytes? (bytes : List UInt8) : Option String := String.fromUTF8? ⟨bytes.toArray⟩

end Keypad.Text
