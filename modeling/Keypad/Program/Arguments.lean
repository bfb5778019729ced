/-
Reading the arguments of the program.

Arguments are read from left to right. Those that begin with a minus are
options, up to `--`; a minus alone is a key. Reading stops at the first
mistake and at the first request for help or for the version.
-/
import Keypad.CommandLine.Options

namespace Keypad.Program.Arguments

open CommandLine (Argument Options Request)

def versionText : String := "awesome-calc 0.1.0\n"

def helpText : String := Text.unlines [
  "Keypad calculator. Keys: 0-9 . , + - * / ^ = C",
  "",
  "Usage: awesome-calc [OPTIONS] [KEYS]...",
  "",
  "Arguments:",
  "  [KEYS]...  Keystroke strings, fed in order into a single session. Reads lines from stdin when omitted",
  "",
  "Options:",
  "      --config <PATH>        TOML settings file",
  "      --error-marker <TEXT>  Text shown when an expression cannot be evaluated",
  "      --show-postfix         Print the postfix form of each expression on stderr before it is solved",
  "  -v, --verbose              Enable debug logging (overridden by RUST_LOG)",
  "  -h, --help                 Print help",
  "  -V, --version              Print version"]

/-- A mistake in the arguments. -/
inductive Mistake where
  /-- An argument that is no text. -/
  | notText
  | unknown (option : String)
  | repeated (option : String)
  | missingValue (option : String)
  | unexpectedValue (option : String)
  deriving Repr, DecidableEq

def Mistake.message : Mistake → String
  | notText => "invalid UTF-8 was detected in one or more arguments"
  | unknown option => s!"unexpected argument '{option}'"
  | repeated option => s!"the argument '{option}' cannot be used multiple times"
  | missingValue option => s!"a value is required for '{option}'"
  | unexpectedValue option => s!"unexpected value for '{option}'"

/-- What an argument does to the options read so far: it changes them, or ends
the reading. -/
inductive Verdict where
  | proceed (o : Options)
  | stop (r : Except Mistake Request)

/-! ## Options -/

def noOptions : Options := ⟨[], none, none, false, false⟩

def addKeys (o : Options) (text : String) : Options := { o with keys := o.keys ++ [text] }

/-- Sets the path of the settings file, which cannot be empty. -/
def setConfig (o : Options) (path : String) : Except Mistake Options :=
  if o.config.isSome then .error (.repeated "--config <PATH>")
  else if path = "" then .error (.missingValue "--config <PATH>")
  else .ok { o with config := some (.ofText path) }

def setErrorMarker (o : Options) (text : String) : Except Mistake Options :=
  if o.errorMarker.isSome then .error (.repeated "--error-marker <TEXT>")
  else .ok { o with errorMarker := some text }

def setShowPostfix (o : Options) : Except Mistake Options :=
  if o.showPostfix then .error (.repeated "--show-postfix") else .ok { o with showPostfix := true }

def setVerbose (o : Options) : Except Mistake Options :=
  if o.verbose then .error (.repeated "--verbose") else .ok { o with verbose := true }

/-- The setter of an option that takes a value, by its name. -/
def valueOption? : String → Option (Options → String → Except Mistake Options)
  | "--config" => some setConfig
  | "--error-marker" => some setErrorMarker
  | _ => none

/-- Goes on with changed options, unless the change was a mistake. -/
def Verdict.ofChange : Except Mistake Options → Verdict
  | .ok o => proceed o
  | .error e => stop (.error e)

/-- What an option without a value does, by its name. -/
def flag (o : Options) : String → Verdict
  | "--show-postfix" => .ofChange (setShowPostfix o)
  | "--verbose" => .ofChange (setVerbose o)
  | "--help" => .stop (.ok (.inform helpText))
  | "--version" => .stop (.ok (.inform versionText))
  | name => .stop (.error (.unknown name))

def letterName? : Char → Option String
  | 'v' => some "--verbose"
  | 'h' => some "--help"
  | 'V' => some "--version"
  | _ => none

/-- What letters after a single minus do: each is an option of its own. -/
def letters (o : Options) : List Char → Verdict
  | [] => .proceed o
  | c :: cs =>
    match letterName? c with
    | none => .stop (.error (.unknown (String.ofList ['-', c])))
    | some name =>
      match flag o name with
      | .proceed o => letters o cs
      | stopped => stopped

/-- What an option does that has its value in the same argument. -/
def valued (o : Options) (name value : String) : Verdict :=
  match valueOption? name with
  | some set => .ofChange (set o value)
  | none => .stop (.error (.unexpectedValue name))

/-- Splits an argument at its first equals sign, if it has one. -/
def splitValue (arg : String) : String × Option String :=
  match arg.toList.span (· ≠ '=') with
  | (name, _ :: value) => (String.ofList name, some (String.ofList value))
  | (_, []) => (arg, none)

/-- Whether an argument is taken for an option, or for `--`, rather than for a
key or value. -/
def looksLikeOption (arg : String) : Bool := arg.startsWith "-" && arg ≠ "-"

/-- Reads arguments in addition to the options read so far. -/
def readFrom (o : Options) : List String → Except Mistake Request
  | [] => .ok (.run o)
  | arg :: args =>
    if arg = "--" then .ok (.run (args.foldl addKeys o))
    else if !looksLikeOption arg then readFrom (addKeys o arg) args
    else
      match valueOption? arg, args with
      | some _, [] => .error (.missingValue arg)
      | some set, value :: args =>
        if looksLikeOption value then .error (.missingValue arg)
        else
          match set o value with
          | .ok o => readFrom o args
          | .error e => .error e
      | none, args =>
        let verdict :=
          if !arg.startsWith "--" then letters o (arg.toList.drop 1)
          else
            match splitValue arg with
            | (name, some value) => valued o name value
            | (name, none) => flag o name
        match verdict with
        | .proceed o => readFrom o args
        | .stop r => r

/-- What the arguments of the program ask for. -/
def read (args : List Argument) : Except Mistake Request :=
  match args.mapM Text.ofBytes? with
  | some texts => readFrom noOptions texts
  | none => .error .notText

end Keypad.Program.Arguments
