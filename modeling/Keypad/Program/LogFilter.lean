/-
Reading the text that says what is logged.

The text is a row of directives with commas between them. A directive gives a
level, or a target, or both with an equals sign between them; a target stands
for all those that begin with it, and a directive without one for all targets.
What decides on an event is the directive with the longest target that it
falls under, the last of those. A text without directives stands for errors.
-/
import Keypad.Log

namespace Keypad.Program.LogFilter

open Log (Event Filter Level)

structure Directive where
  target : List Char
  /-- The level up to which events are logged, if any are. -/
  limit : Option Level

/-- The parts of a text between separators. -/
def parts (separator : Char) (cs : List Char) : List (List Char) :=
  cs.foldr
    (fun c done =>
      if c = separator then [] :: done
      else
        match done with
        | part :: done => (c :: part) :: done
        | [] => [[c]])
    [[]]

/-- The limit that a word stands for: the name of a level in any case or its
number, where `off` and zero mean that nothing is logged. -/
def limit? (word : List Char) : Option (Option Level) :=
  let name := String.ofList (word.map Char.toLower)
  if name = "off" then some none
  else ((Level.ofName? name).map some).or (name.toNat?.bind fun n => (none :: Level.all.map some)[n]?)

def isTarget (word : List Char) : Bool :=
  word ≠ [] && word.all fun c => c.isAlphanum || c = '_' || c = ':' || c = '-'

namespace Directive

def ofChars? (cs : List Char) : Option Directive :=
  match parts '=' cs with
  | [word] =>
    ((limit? word).map fun limit => ⟨[], limit⟩).or
      (if isTarget word then some ⟨word, some .trace⟩ else none)
  | [target, word] => if isTarget target then (limit? word).map fun limit => ⟨target, limit⟩ else none
  | _ => none

/-- Whether an event falls under a directive. -/
def covers (d : Directive) (e : Event) : Bool := d.target.isPrefixOf e.target.toList

end Directive

/-- The directive that decides on an event. -/
def decisive? (ds : List Directive) (e : Event) : Option Directive :=
  (ds.filter (·.covers e)).foldl
    (fun best d => if best.all fun b => b.target.length ≤ d.target.length then some d else best) none

def ofDirectives (ds : List Directive) : Filter :=
  let ds := if ds.isEmpty then [⟨[], some .error⟩] else ds
  fun e => ((decisive? ds e).bind Directive.limit).any fun l => Log.upTo l e

def directives (text : String) : List (List Char) := (parts ',' text.toList).filter (· ≠ [])

/-- What is logged according to a text of directives. -/
def ofText? (text : String) : Option Filter :=
  ((directives text).mapM Directive.ofChars?).map ofDirectives

/-- What is logged according to those parts of a text that are directives. -/
def ofParts (text : String) : Filter := ofDirectives ((directives text).filterMap Directive.ofChars?)

end Keypad.Program.LogFilter
