/-
TOML values and tables, and how tables grow.

A key can be given a value once. Tables can be extended from several places
of a document, but not from everywhere: a table written between braces is
complete, a table has at most one header, and a dotted key adds only to
tables that dotted keys made.
-/

namespace Keypad.Program.Toml

inductive Origin where
  /-- Braces. -/
  | inline
  /-- A dotted key. -/
  | dotted
  /-- The header of a table inside it. -/
  | implied
  /-- Its own header. -/
  | header
  deriving Repr, DecidableEq

inductive Value where
  | string (text : String)
  | integer (n : Int)
  | float (x : Float)
  /-- A number that cannot be read, as it is too large or is no number after
  all. This is an error only where its value is asked for. -/
  | unreadable
  | boolean (b : Bool)
  | datetime (text : String)
  | array (items : List Value)
  | table (origin : Origin) (entries : List (String × Value))
  /-- An array of tables made by headers: the latest table and the earlier
  ones. -/
  | tables (latest : List (String × Value)) (earlier : List (List (String × Value)))

/-- The keys and values of a table, in the order of their first mention. -/
abbrev Entries := List (String × Value)

namespace Entries

/-- Adds a key that is not there yet. -/
def add (es : Entries) (key : String) (v : Value) : Option Entries :=
  if (es.lookup key).isNone then some (es ++ [(key, v)]) else none

/-- Puts a value in the place of another. -/
def replace (es : Entries) (key : String) (v : Value) : Entries :=
  es.map fun (k, old) => (k, if k = key then v else old)

/-- Changes the table that a path leads to, out of a table of a given origin.
Tables missing on the way are made, with the origin `made`. The path leads
through the latest table of an array of tables, but through no table that is
complete, and where it makes tables by dotted keys, through no table that has
a header. -/
def updateAt (made : Origin) (change : Origin → Entries → Option Entries) :
    List String → Origin → Entries → Option Entries
  | [], origin, es => change origin es
  | key :: path, _, es =>
    match es.lookup key with
    | none => (updateAt made change path made []).map fun sub => es ++ [(key, .table made sub)]
    | some (.table origin sub) =>
      if origin = .inline ∨ (made = .dotted ∧ origin = .header) then none
      else (updateAt made change path origin sub).map fun sub => es.replace key (.table origin sub)
    | some (.tables latest earlier) =>
      (updateAt made change path .header latest).map fun latest =>
        es.replace key (.tables latest earlier)
    | some _ => none

/-- Gives a value to a key, which may be dotted: `path` are its parts before
the last. -/
def assign (es : Entries) (path : List String) (key : String) (v : Value) : Option Entries :=
  updateAt .dotted
    (fun origin es => if path ≠ [] ∧ origin ≠ .dotted then none else es.add key v)
    path .header es

/-- Opens the table of a header and fills it. Its entries so far are those of
the tables inside it that had their headers before. -/
def openTable (es : Entries) (path : List String) (key : String)
    (fill : Entries → Option Entries) : Option Entries :=
  updateAt .implied
    (fun _ es =>
      match es.lookup key with
      | none => (fill []).map fun t => es ++ [(key, .table .header t)]
      | some (.table .implied sub) => (fill sub).map fun t => es.replace key (.table .header t)
      | some _ => none)
    path .header es

/-- Appends a table to an array of tables and fills it. -/
def appendTable (es : Entries) (path : List String) (key : String)
    (fill : Entries → Option Entries) : Option Entries :=
  updateAt .implied
    (fun _ es =>
      match es.lookup key with
      | none => (fill []).map fun t => es ++ [(key, .tables t [])]
      | some (.tables latest earlier) =>
        (fill []).map fun t => es.replace key (.tables t (latest :: earlier))
      | some _ => none)
    path .header es

end Entries

end Keypad.Program.Toml
