import Sprig.Report

/-!
The interactive shell: a session that is fed line by line.
-/

namespace Sprig

/-- What a line typed into the shell asks for. -/
inductive ShellCommand where
  | leave
  /-- The end of the input, or a line that stands for it. -/
  | endInput
  | help
  | run (source : String)
deriving DecidableEq, Repr

/-- Only a line that is a command word and nothing else is a command; an empty line leaves. -/
def ShellCommand.ofLine (line : String) : ShellCommand :=
  match String.ofList (Text.trimBlanks line.toList) with
  | "" | "exit" => leave
  | "EOF" => endInput
  | "help" => help
  | _ => run line

structure Shell where
  session : Session
  /-- The number of lines that were run as programs. -/
  lines : Nat
  coloured : Bool

namespace Shell

def greeting : String :=
  "Sprig interpreter\nEnter statements to run them; an empty line or 'exit' quits.\n"

def prompt : String := "> "

def helpText : String :=
  "Sprig is a small dynamically typed scripting language.\n\n" ++
  "Try 'var greeting = \"hi\";' and then 'print greeting;'.\n" ++
  "Functions are declared with 'fun name(a, b) \x7b ... \x7d' and\n" ++
  "called with 'name(1, 2);'.\n"

def start (session : Session) (coloured : Bool) : Shell :=
  ⟨session, 0, coloured⟩

/-- Whether the shell takes another line. -/
inductive Continuation where
  | proceed
  | stop
  /-- A program reached the nesting limit, which ends the shell too. -/
  | tooDeep
deriving DecidableEq, Repr

/-- What the shell does with a line. -/
structure Reply where
  shell : Shell
  text : String
  continuation : Continuation

/-- Runs a line as a program. -/
def runLine (shell : Shell) (limit : Nat) (source : String) : Reply :=
  let (outcome, session) := shell.session.run limit source
  let shell := { shell with session := session, lines := shell.lines + 1 }
  if outcome.ending.isTooDeep then
    ⟨shell, outcome.printed, .tooDeep⟩
  else
    ⟨shell, outcome.printed ++ unlines (outcome.lines shell.coloured), .proceed⟩

def obey (shell : Shell) (limit : Nat) : ShellCommand → Reply
  | .leave => ⟨shell, "", .stop⟩
  | .endInput => ⟨shell, "\n", .stop⟩
  | .help => ⟨shell, helpText, .proceed⟩
  | .run source => shell.runLine limit source

/-- Feeds lines until the shell stops; after the last one the input ends. Gives what the
shell shows after its greeting. -/
def feed (limit : Nat) : List String → Shell → Reply
  | [], shell =>
    let reply := shell.obey limit .endInput
    { reply with text := prompt ++ reply.text }
  | line :: rest, shell =>
    let reply := shell.obey limit (.ofLine line)
    let shown := prompt ++ reply.text
    match reply.continuation with
    | .proceed =>
      let later := feed limit rest reply.shell
      { later with text := shown ++ later.text }
    | _ => { reply with text := shown }

/-- A line without the carriage returns and line feeds at its end. -/
def chomp (line : List Char) : List Char :=
  (line.reverse.dropWhile fun c => c == '\r' || c == '\n').reverse

/-- Splits a text after every line feed, given the part of a line that was read before it
and the lines before that, both in reverse order. -/
def splitLinesOnto (line : List Char) : List Char → List (List Char) → List (List Char)
  | [], lines => (if line.isEmpty then lines else line.reverse :: lines).reverse
  | c :: rest, lines =>
    if c = '\n' then
      splitLinesOnto [] rest (line.reverse :: lines)
    else
      splitLinesOnto (c :: line) rest lines

/-- The lines of an input. -/
def inputLines (input : String) : List String :=
  (splitLinesOnto [] input.toList []).map fun line => String.ofList (chomp line)

/-- Runs the shell over a whole input. -/
def run (limit : Nat) (input : String) (shell : Shell) : Reply :=
  let reply := feed limit (inputLines input) shell
  { reply with text := greeting ++ reply.text }

end Shell

end Sprig
