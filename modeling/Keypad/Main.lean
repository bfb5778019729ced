/-
The program: it reads the arguments, the settings file and the standard
input, and prints what a run prints. Lines of the standard input are answered
as they come.
-/
import Keypad.Program.Conventions

namespace Keypad.Program

open CommandLine

/-- What an error of the operating system says about a file. Some calls give
error numbers with the opposite sign. -/
def readErrorOf : IO.Error → ReadError
  | .noFileOrDirectory .. => .missing
  | .inappropriateType _ code details =>
    if code = 20 ∨ code = 0 - 20 then .notFolder
    else if code = 21 ∨ code = 0 - 21 then .isFolder
    else .other details
  | .invalidArgument _ code details =>
    if code = 36 ∨ code = 0 - 36 then .nameTooLong else .other details
  | e => .other (toString e)

def readFile (path : Path) : IO (Except ReadError (List UInt8)) := do
  try
    return .ok (← IO.FS.readBinFile path.shown).toList
  catch e => return .error (readErrorOf e)

def emit (p : Printed) : IO Unit := do
  (← IO.getStderr).putStr p.err
  let out ← IO.getStdout
  out.putStr p.out
  out.flush

/-- Prints the ending of a run and gives its exit code. -/
def conclude (e : Ending) : IO UInt32 := do
  emit e.printed
  return e.code.toUInt32

/-- Reads bytes up to the next line feed or the end of the input, in addition
to those begun with, given in reverse. -/
partial def nextLine (input : IO.FS.Stream) (begun : List UInt8) : IO (List UInt8) := do
  match (← input.read 1).toList with
  | [] => return begun.reverse
  | b :: _ => if b = 10 then return (b :: begun).reverse else nextLine input (b :: begun)

/-- Answers the lines of the standard input, one after the other. -/
partial def converse (filter : Log.Filter) (c : Calculator) : IO UInt32 := do
  match Text.byteLines (← nextLine (← IO.getStdin) []) with
  | [] => return 0
  | line :: _ =>
    match feedLine filter c line with
    | .error f => conclude (.ofFailure conventions f)
    | .ok (c, reports) =>
      emit ⟨c.display ++ "\n", Text.unlines reports⟩
      converse filter c

def perform (o : Options) : IO UInt32 := do
  let content ← match o.config with
    | some path => readFile path
    | none => pure (.ok [])
  let logVariable ← IO.getEnv "RUST_LOG"
  if o.keys = [] then
    match resolveSettings conventions.format o fun _ => content with
    | .error e => conclude (.ofFailure conventions (.settings e))
    | .ok settings => converse (resolveFilter conventions o logVariable) (.new settings)
  else conclude (runOptions conventions ⟨fun _ => content, [], logVariable⟩ o)

def launch (args : List String) : IO UInt32 := do
  let args := args.map Argument.ofText
  match conventions.arguments args with
  | .ok (.run o) => perform o
  | _ => conclude (run conventions ⟨fun _ => .ok [], [], none⟩ args)

end Keypad.Program

def main (args : List String) : IO UInt32 := Keypad.Program.launch args
