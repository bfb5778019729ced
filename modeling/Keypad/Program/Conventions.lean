/-
The conventions of the program.

What runs leave open is chosen here, for the program that is started with
`main` and for runs that are computed as instances. Results about runs hold
whatever the choice.
-/
import Keypad.CommandLine.Run
import Keypad.Program.Arguments
import Keypad.Program.LogFilter
import Keypad.Program.Toml.Settings

namespace Keypad.Program

/-- A text whose lines but the first stand further to the right. -/
def indented (text : String) : String :=
  String.ofList (text.toList.flatMap fun c => if c = '\n' then c :: "    ".toList else [c])

/-- A failure in words, the cause set off from what was being done. -/
def describe (context cause : String) : String :=
  s!"{context}\n\nCaused by:\n    {indented cause}"

def conventions : CommandLine.Conventions where
  arguments args := (Arguments.read args).mapError fun mistake => s!"error: {mistake.message}\n"
  format := Toml.format
  directives? := LogFilter.ofText?
  directives := LogFilter.ofParts
  describe := describe

end Keypad.Program
