import Sprig.CommandLine.FileTree
import Sprig.CommandLine.Options
import Sprig.Shell
import Sprig.Tree.Bracketed

/-!
The command: runs a program file, shows it as a tree, or opens the shell.
-/

namespace Sprig.CommandLine

/-- What the command finds where it is started. -/
structure Surroundings where
  /-- The content of the file at a path. -/
  read : String → Except PathFault ByteArray
  /-- What stands in the way of writing a file at a path. -/
  write : String → Except PathFault Unit
  /-- The standard input. -/
  input : String
  /-- Whether labels are shown in colour. -/
  coloured : Bool

/-- The surroundings in a tree of files. -/
def FileTree.surroundings (tree : FileTree) (input : String) (coloured : Bool) : Surroundings where
  read := tree.read
  write path := (tree.target path).map fun _ => ()
  input := input
  coloured := coloured

/-- Failures that leave the command without an exit code of its own. -/
inductive Crash where
  | tooDeep
  | programNotText
  | programUnreadable (fault : PathFault)
  | debugFileUnwritable (fault : PathFault)
  | debugFileUnnamed
deriving DecidableEq, Repr

inductive Exit where
  | code (value : Nat)
  | crashed (crash : Crash)
deriving DecidableEq, Repr

/-- What the command leaves behind. -/
structure Effect where
  exit : Exit
  output : String := ""
  errors : String := ""
  /-- The path and the text of the debug file. -/
  debugFile : Option (String × String) := none
deriving DecidableEq, Repr

def usage : String :=
  "usage: sprig [-h] [-v] [--debug-file DEBUG_FILE] [--ast] [program]\n"

def helpText : String :=
  usage ++
  "\n" ++
  "Sprig language interpreter\n" ++
  "\n" ++
  "positional arguments:\n" ++
  "  program               Sprig program file (.sprig) to execute\n" ++
  "\n" ++
  "options:\n" ++
  "  -h, --help            show this help message and exit\n" ++
  "  -v                    increase debug verbosity (can be repeated)\n" ++
  "  --debug-file DEBUG_FILE\n" ++
  "                        file that receives debug output\n" ++
  "  --ast                 print the parsed program instead of running it\n"

def tooDeepText : String :=
  "Fatal error: maximum recursion depth exceeded\n"

/-- Every way to end a line becomes a line feed: a carriage return, alone or before a line
feed. -/
def unifyLineEnds (text : List Char) : List Char :=
  (text.zip (' ' :: text)).filterMap fun (c, before) =>
    if c = '\n' && before = '\r' then none else some (if c = '\r' then '\n' else c)

/-- The text of a program file. -/
def programText? (content : ByteArray) : Option String :=
  (String.fromUTF8? content).map fun text => String.ofList (unifyLineEnds text.toList)

namespace Options

/-- Runs a session, whose trace becomes the debug file if a trace was asked for. -/
def withSession (options : Options) (surroundings : Surroundings)
    (run : Session → Effect × Session) : Effect :=
  if options.verbosity = 0 then
    (run (.start 0)).1
  else
    match options.debugFile with
    | none => { exit := .crashed .debugFileUnnamed }
    | some path =>
      match surroundings.write path with
      | .error fault => { exit := .crashed (.debugFileUnwritable fault) }
      | .ok () =>
        let (effect, session) := run (.start options.verbosity)
        { effect with debugFile := some (path, session.trace) }

/-- Opens the shell on the standard input. -/
def openShell (options : Options) (surroundings : Surroundings) (limit : Nat) : Effect :=
  options.withSession surroundings fun session =>
    let reply := (Shell.start session surroundings.coloured).run limit surroundings.input
    let effect : Effect :=
      if reply.continuation = .tooDeep then
        { exit := .code 1, output := reply.text, errors := tooDeepText }
      else
        { exit := .code 0, output := reply.text }
    (effect, reply.shell.session)

/-- Runs the text of a program. -/
def runSource (options : Options) (surroundings : Surroundings) (limit : Nat) (source : String)
    : Effect :=
  options.withSession surroundings fun session =>
    let (outcome, session) := session.run limit source
    let effect : Effect :=
      if outcome.ending.isTooDeep then
        { exit := .code 1, output := outcome.printed, errors := tooDeepText }
      else
        { exit := .code (if outcome.ending.isCompleted then 0 else 1), output := outcome.printed,
          errors := unlines (outcome.lines surroundings.coloured) }
    (effect, session)

end Options

/-- Shows the statements of a program in bracketed form, a line each. -/
def showTree (limit : Nat) (source : String) : Effect :=
  let lexed := Lexed.ofSource source
  let warnings := unlines (lexed.diagnostics.map Diagnostic.text)
  match lexed.stream.program limit with
  | .error (.rejected error) =>
    { exit := .code 1, errors := warnings ++ s!"Syntax error: {error.message}\n" }
  | .error .tooDeep => { exit := .crashed .tooDeep, errors := warnings }
  | .ok program =>
    let shown := program.takeWhile (Stmt.fits limit)
    { exit := if shown.length = program.length then .code 0 else .crashed .tooDeep,
      output := unlines (shown.map Stmt.bracketed), errors := warnings }

/-- Does what the options ask for. -/
def Options.perform (options : Options) (surroundings : Surroundings) (limit : Nat) : Effect :=
  match options.program with
  | none => options.openShell surroundings limit
  | some path =>
    let path := normalPath path
    match surroundings.read path with
    | .error fault =>
      if fault.leadsNowhere then
        { exit := .code 1, errors := s!"Error: file {path} not found\n" }
      else
        { exit := .crashed (.programUnreadable fault) }
    | .ok content =>
      match programText? content with
      | none => { exit := .crashed .programNotText }
      | some source =>
        if options.tree then
          showTree limit source
        else
          options.runSource surroundings limit source

/-- Runs the command with its arguments. -/
def run (limit : Nat) (surroundings : Surroundings) (arguments : List String) : Effect :=
  match Options.ofArguments arguments with
  | .error .helpWanted => { exit := .code 0, output := helpText }
  | .error (.misuse error) =>
    { exit := .code 2, errors := usage ++ s!"sprig: error: {error.message}\n" }
  | .ok options => options.perform surroundings limit

end Sprig.CommandLine
