/-
TOML documents: a text, its statements, and the table that they make up.
-/
import Keypad.Program.Toml.Statement

namespace Keypad.Program.Toml

/-- A key with its value, as a statement gives it. -/
structure Pair where
  path : List String
  key : String
  value : Value

/-- A header with the pairs under it. -/
structure Section where
  /-- Whether the header appends to an array of tables. -/
  isElement : Bool
  path : List String
  key : String
  pairs : List Pair

namespace Document

/-- Splits statements into the pairs before the first header and the sections
that headers begin. -/
def split : List Statement → List Pair × List Section
  | [] => ([], [])
  | .pair path key v :: rest => ((⟨path, key, v⟩ :: (split rest).1), (split rest).2)
  | .table path key :: rest => ([], ⟨false, path, key, (split rest).1⟩ :: (split rest).2)
  | .element path key :: rest => ([], ⟨true, path, key, (split rest).1⟩ :: (split rest).2)

def addPairs (pairs : List Pair) (es : Entries) : Option Entries :=
  pairs.foldlM (fun es p => es.assign p.path p.key p.value) es

def addSection (es : Entries) (s : Section) : Option Entries :=
  if s.isElement then es.appendTable s.path s.key (addPairs s.pairs)
  else es.openTable s.path s.key (addPairs s.pairs)

/-- The table that statements make up. -/
def ofStatements? (ss : List Statement) : Option Entries := do
  let (pairs, sections) := split ss
  sections.foldlM addSection (← addPairs pairs [])

/-- Leaves out the byte order mark that a text may begin with. -/
def dropMark : List Char → List Char
  | '\ufeff' :: rest => rest
  | cs => cs

/-- The table that a text makes up, if it is a document. -/
def ofText? (text : String) : Option Entries := do
  let cs := dropMark text.toList
  ofStatements? (← Statement.readAll? (cs.length + 1) cs)

end Document

end Keypad.Program.Toml
