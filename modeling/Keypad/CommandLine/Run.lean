/-
Runs of the program: what it prints and with which code it exits.

Keystrokes come from the arguments, and the display is printed at the end; or
else they come from the lines of the standard input, and the display is
printed after each line. The keys of an argument or line are pressed only if
all its characters are keys, and the first text with a character that is none
ends the run.

How arguments, settings files and the variable for logging are written, and in
which words a failure is told, is left open: a run is given conventions for it.
-/
import Keypad.Calculator
import Keypad.CommandLine.Options
import Keypad.Settings.File

namespace Keypad.CommandLine

structure Printed where
  out : String
  /-- Records among it stand without their times and colours. -/
  err : String
  deriving Repr, DecidableEq

/-- What a finished run leaves: its exit code and what it has printed. -/
structure Ending where
  code : UInt8
  printed : Printed
  deriving Repr, DecidableEq

inductive Failure where
  | settings (e : Settings.FileError)
  | keystrokes (text : String) (e : UnknownKey)
  | input (e : ReadError)
  deriving Repr, DecidableEq

namespace Failure

/-- What was being done. -/
def context : Failure → String
  | settings e => e.message
  | keystrokes text _ => s!"in keystrokes {Text.quoted text}"
  | input _ => "reading stdin"

/-- What went wrong with it. -/
def cause : Failure → String
  | settings e => e.cause
  | keystrokes _ e => e.message
  | input e => e.message

end Failure

/-! ## Conventions -/

/-- The conventions that a run is given. -/
structure Conventions where
  /-- What the arguments ask for, or what is said about a mistake in them. -/
  arguments : List Argument → Except String Request
  /-- The format of settings files. -/
  format : Settings.Format
  /-- What is logged according to a text, if the whole text can be read. -/
  directives? : String → Option Log.Filter
  /-- What is logged according to the parts of a text that can be read. -/
  directives : String → Log.Filter
  /-- A failure in words: what was being done, and what went wrong with it. -/
  describe : String → String → String

/-- Descriptions hold what was being done word for word, and so what went wrong
with it if that takes one line. -/
def Conventions.TellsAll (v : Conventions) : Prop :=
  ∀ context cause, context.toList <:+: (v.describe context cause).toList ∧
    ('\n' ∉ cause.toList → cause.toList <:+: (v.describe context cause).toList)

/-- The report for the user. -/
def Conventions.report (v : Conventions) (f : Failure) : String :=
  s!"Error: {v.describe f.context f.cause}\n"

/-! ## Settings and logging -/

/-- The settings of a run: those of the file if there is one, with the error
marker of the arguments if there is one, and with postfix orders shown if the
file or the arguments ask for it. -/
def resolveSettings (format : Settings.Format) (o : Options)
    (readFile : Path → Except ReadError (List UInt8)) : Except Settings.FileError Settings := do
  let s ← match o.config with
    | some path => Settings.ofFile format path (readFile path)
    | none => pure .default
  return ⟨o.errorMarker.getD s.errorMarker, s.showPostfix || o.showPostfix⟩

/-- What a run logs: what the environment says, or else debug lines if the
arguments ask for them and warnings if not. -/
def resolveFilter (v : Conventions) (o : Options) (logVariable : Option String) : Log.Filter :=
  (logVariable.bind v.directives?).getD (v.directives (if o.verbose then "debug" else "warn"))

/-! ## Pressing keys -/

/-- What is reported before a key is pressed: the postfix order of what is to
be solved, if the settings say so. -/
def announcement (c : Calculator) : Key → List String
  | .solve =>
    if c.settings.showPostfix then (c.postfixText?.map fun text => s!"postfix: {text}").toList
    else []
  | _ => []

/-- Presses keys, gathering the reports for the standard error. -/
def pressKeys (filter : Log.Filter) (c : Calculator) : List Key → Calculator × List String
  | [] => (c, [])
  | key :: keys =>
    let reaction := c.press key
    let (final, reports) := pressKeys filter reaction.calculator keys
    (final, announcement c key ++ Log.records filter reaction.log ++ reports)

/-- Presses the keys of a text if all of its characters are keys. -/
def feed (filter : Log.Filter) (c : Calculator) (text : String) :
    Except Failure (Calculator × List String) :=
  match Key.ofText text with
  | .ok keys => .ok (pressKeys filter c keys)
  | .error e => .error (.keystrokes text e)

/-- Feeds one line of the standard input. -/
def feedLine (filter : Log.Filter) (c : Calculator) (line : List UInt8) :
    Except Failure (Calculator × List String) :=
  match Text.ofBytes? line with
  | some text => feed filter c text
  | none => .error (.input .notText)

/-! ## Runs -/

namespace Ending

/-- The ending of a run that fails. -/
def ofFailure (v : Conventions) (f : Failure) : Ending := ⟨1, "", v.report f⟩

/-- The ending of a run that printed something before the rest of it. -/
def after (before : Printed) (rest : Ending) : Ending :=
  ⟨rest.code, before.out ++ rest.printed.out, before.err ++ rest.printed.err⟩

end Ending

/-- The rest of a run that takes its keystrokes from arguments. -/
def runTexts (v : Conventions) (filter : Log.Filter) (c : Calculator) : List String → Ending
  | [] => ⟨0, c.display ++ "\n", ""⟩
  | text :: texts =>
    match feed filter c text with
    | .ok (c, reports) => .after ⟨"", Text.unlines reports⟩ (runTexts v filter c texts)
    | .error f => .ofFailure v f

/-- The rest of a run that takes its keystrokes from lines of the standard
input. -/
def runLines (v : Conventions) (filter : Log.Filter) (c : Calculator) : List (List UInt8) → Ending
  | [] => ⟨0, "", ""⟩
  | line :: lines =>
    match feedLine filter c line with
    | .ok (c, reports) =>
      .after ⟨c.display ++ "\n", Text.unlines reports⟩ (runLines v filter c lines)
    | .error f => .ofFailure v f

/-- The surroundings of a run. -/
structure Surroundings where
  /-- What reading the file at a path answers. -/
  readFile : Path → Except ReadError (List UInt8)
  input : List UInt8
  /-- The variable that says what is logged, if it is set to a text. -/
  logVariable : Option String

def runOptions (v : Conventions) (s : Surroundings) (o : Options) : Ending :=
  match resolveSettings v.format o s.readFile with
  | .error e => .ofFailure v (.settings e)
  | .ok settings =>
    let filter := resolveFilter v o s.logVariable
    let c := Calculator.new settings
    if o.keys = [] then runLines v filter c (Text.byteLines s.input)
    else runTexts v filter c o.keys

/-- A run with given arguments. A mistake in the arguments has an exit code of
its own. -/
def run (v : Conventions) (s : Surroundings) (args : List Argument) : Ending :=
  match v.arguments args with
  | .error mistake => ⟨2, "", mistake⟩
  | .ok (.inform text) => ⟨0, text, ""⟩
  | .ok (.run o) => runOptions v s o

end Keypad.CommandLine
