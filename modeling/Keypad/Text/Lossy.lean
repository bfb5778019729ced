/-
Bytes as a text in any case.

Where bytes are no text, a mark stands for what cannot be read: one mark for
each longest run of bytes that could have begun a character, and one for each
byte that could not.
-/
import Keypad.Text.Lines

namespace Keypad.Text

/-- The first and last of some bytes in a row. -/
structure ByteRange where
  first : UInt8
  last : UInt8
  deriving Repr, DecidableEq

def ByteRange.holds (r : ByteRange) (b : UInt8) : Bool := r.first ≤ b && b ≤ r.last

/-- Any byte that goes on with a character. -/
def continuation : ByteRange := ⟨0x80, 0xBF⟩

/-- The bytes that go on with a character, where the first byte begins one.
Behind some first bytes the next one is restricted, so that no character has
two encodings, none is a surrogate, and none is beyond the last code point. -/
def following? (b : UInt8) : Option (List ByteRange) :=
  if b ≤ 0x7F then some []
  else if b < 0xC2 then none
  else if b ≤ 0xDF then some [continuation]
  else if b = 0xE0 then some [⟨0xA0, 0xBF⟩, continuation]
  else if b = 0xED then some [⟨0x80, 0x9F⟩, continuation]
  else if b ≤ 0xEF then some [continuation, continuation]
  else if b = 0xF0 then some [⟨0x90, 0xBF⟩, continuation, continuation]
  else if b ≤ 0xF3 then some [continuation, continuation, continuation]
  else if b = 0xF4 then some [⟨0x80, 0x8F⟩, continuation, continuation]
  else none

/-- What stands for bytes that cannot be read. -/
def replacementMark : Char := '\ufffd'

/-- Where the reading of bytes has led. -/
structure Reading where
  chars : List Char
  /-- The bytes of a character that is not complete, the last one first. -/
  begun : List UInt8
  /-- The bytes that are still to come for it. -/
  due : List ByteRange

namespace Reading

/-- Ends the character that was begun, if there is one, before it is
complete. -/
def cut (r : Reading) : Reading :=
  if r.begun = [] then r else ⟨r.chars ++ [replacementMark], [], []⟩

/-- Takes one more byte of a character, of which these are still to come
then. -/
def take (r : Reading) (b : UInt8) : List ByteRange → Reading
  | [] => ⟨r.chars ++ ((ofBytes? (b :: r.begun).reverse).elim [] String.toList), [], []⟩
  | due => ⟨r.chars, b :: r.begun, due⟩

/-- Begins a character, if the byte is a first one. -/
def start (r : Reading) (b : UInt8) : Reading :=
  match following? b with
  | some due => r.take b due
  | none => ⟨r.chars ++ [replacementMark], [], []⟩

def step (r : Reading) (b : UInt8) : Reading :=
  match r.due with
  | [] => r.start b
  | range :: due => if range.holds b then r.take b due else r.cut.start b

end Reading

/-- The text of bytes, with marks for what cannot be read. -/
def lossy (bytes : List UInt8) : String :=
  match ofBytes? bytes with
  | some text => text
  | none => String.ofList (bytes.foldl Reading.step ⟨[], [], []⟩).cut.chars

end Keypad.Text
