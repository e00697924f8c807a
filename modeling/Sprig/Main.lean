import Sprig.CommandLine.Command

/-!
The command line program.
-/

namespace Sprig.CommandLine

/-- What is wrong with a path, by the error that its use gave. -/
def faultOf : IO.Error → PathFault
  | .noFileOrDirectory .. => .missing
  | .inappropriateType _ code _ => if code = 21 then .isDirectory else .notDirectory
  | _ => .nameTooLong

def readFrom (path : String) : IO (Except PathFault ByteArray) := do
  try
    return .ok (← IO.FS.readBinFile path)
  catch error => return .error (faultOf error)

def writeTo (path text : String) : IO (Except PathFault Unit) := do
  try
    IO.FS.writeFile path text
    return .ok ()
  catch error => return .error (faultOf error)

def PathFault.message : PathFault → String
  | missing => "no such file or directory"
  | notDirectory => "a part of the path is not a directory"
  | isDirectory => "it is a directory"
  | nameTooLong => "the path cannot be used"
  | nullCharacter => "the path holds a null character"

def Crash.message : Crash → String
  | tooDeep => "the program nests too deep to be shown"
  | programNotText => "the program is not valid UTF-8"
  | programUnreadable fault => s!"the program cannot be read: {fault.message}"
  | debugFileUnwritable fault => s!"the debug file cannot be written: {fault.message}"
  | debugFileUnnamed => "the debug file has no name"

/-- Writes the debug file, and says what kept it from being written. -/
def writeTrace (path : Option String) (trace : String) : IO (Option Crash) := do
  match path with
  | none => return some .debugFileUnnamed
  | some path =>
    match ← writeTo path trace with
    | .ok () => return none
    | .error fault => return some (.debugFileUnwritable fault)

/-- Feeds the shell from the standard input, line by line. -/
partial def converse (shell : Shell) : IO (Shell × Shell.Continuation) := do
  IO.print Shell.prompt
  (← IO.getStdout).flush
  let line ← (← IO.getStdin).getLine
  let command :=
    if line.isEmpty then .endInput
    else ShellCommand.ofLine (String.ofList (Shell.chomp line.toList))
  let reply := shell.obey depthLimit command
  IO.print reply.text
  match reply.continuation with
  | .proceed => converse reply.shell
  | continuation => return (reply.shell, continuation)

/-- Opens the shell on the terminal. -/
def interact (options : Options) (coloured : Bool) : IO UInt32 := do
  if options.verbosity > 0 then
    if let some crash ← writeTrace options.debugFile "" then
      IO.eprintln crash.message
      return 1
  IO.print Shell.greeting
  let (shell, continuation) ← converse (.start (.start options.verbosity) coloured)
  if options.verbosity > 0 then
    let _ ← writeTrace options.debugFile shell.session.trace
  if continuation = .tooDeep then
    IO.eprint tooDeepText
    return 1
  return 0

/-- Runs everything but the shell. The debug file is written first, and nothing is shown if that
fails. -/
def perform (arguments : List String) (program : Option String) (coloured : Bool)
    : IO UInt32 := do
  let content ← match program with
    | some path => readFrom (normalPath path)
    | none => pure (.error .missing)
  let effect := run depthLimit ⟨fun _ => content, fun _ => .ok (), "", coloured⟩ arguments
  if let some (path, trace) := effect.debugFile then
    if let some crash ← writeTrace (some path) trace then
      IO.eprintln crash.message
      return 1
  IO.print effect.output
  IO.eprint effect.errors
  match effect.exit with
  | .code value => return value.toUInt32
  | .crashed crash =>
    IO.eprintln crash.message
    return 1

end Sprig.CommandLine

open Sprig.CommandLine in
def main (arguments : List String) : IO UInt32 := do
  let coloured ← (← IO.getStdout).isTty
  match Options.ofArguments arguments with
  | .ok options =>
    match options.program with
    | none => interact options coloured
    | some program => perform arguments (some program) coloured
  | .error _ => perform arguments none coloured
