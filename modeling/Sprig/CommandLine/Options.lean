import Sprig.Text.Numeral
import Sprig.Text.Quoted

/-!
Reading the arguments of the command.

Options may stand before or after the program and may be shortened as long as they stay
unambiguous; options of one letter may be written together, as in `-vv`. Two dashes end the
options, and never count as a value.
-/

namespace Sprig.CommandLine

inductive Flag where
  | help
  | verbose
  | debugFile
  | tree
deriving DecidableEq, Repr

namespace Flag

/-- All spellings, in the order in which they are listed. -/
def spellings : List (String × Flag) :=
  [("-h", help), ("--help", help), ("-v", verbose), ("--debug-file", debugFile), ("--ast", tree)]

def ofSpelling? (spelling : String) : Option Flag :=
  spellings.lookup spelling

/-- How messages name a flag. -/
def label (flag : Flag) : String :=
  "/".intercalate ((spellings.filter (·.2 == flag)).map Prod.fst)

def takesValue (flag : Flag) : Bool :=
  flag == debugFile

end Flag

/-- What is wrong with the arguments. -/
inductive UsageError where
  | ambiguous (argument : String) (candidates : List String)
  | missingValue (flag : Flag)
  | surplusValue (flag : Flag) (value : String)
  | unrecognized (arguments : List String)
  | treeWithoutProgram
deriving DecidableEq, Repr

def UsageError.message : UsageError → String
  | ambiguous argument candidates =>
    let options := ", ".intercalate candidates
    s!"ambiguous option: {argument} could match {options}"
  | missingValue flag => s!"argument {flag.label}: expected one argument"
  | surplusValue flag value =>
    let shown := String.ofList (Text.quoted value.toList)
    s!"argument {flag.label}: ignored explicit argument {shown}"
  | unrecognized arguments =>
    let shown := " ".intercalate arguments
    s!"unrecognized arguments: {shown}"
  | treeWithoutProgram => "--ast needs a program file"

/-- An argument by its form. -/
inductive Argument where
  | plain (text : String)
  /-- The two dashes that end the options. -/
  | separator
  /-- A flag, and the value written together with it. -/
  | option (flag : Flag) (attached : Option String)
  /-- A row of flags of one letter, in which `rest` follows the first one. -/
  | cluster (flag : Flag) (rest : List Char)
  | unknown (text : String)
deriving DecidableEq, Repr

namespace Argument

/-- Splits a text at its first equals sign. -/
def splitValue? (text : List Char) : Option (List Char × String) :=
  if text.contains '=' then
    some (text.takeWhile (· != '='), String.ofList ((text.dropWhile (· != '=')).drop 1))
  else
    none

/-- The flags of which a text with two dashes in front is the beginning. -/
def matching (start : List Char) : List (String × Flag) :=
  Flag.spellings.filter fun (spelling, _) => start.isPrefixOf spelling.toList

/-- Whether a text is a negative number, which is no option. -/
def isNegativeNumber (text : List Char) : Bool :=
  match text with
  | '-' :: rest =>
    let number := if rest.getLast? = some '\n' then rest.dropLast else rest
    let whole := number.takeWhile Text.isNumeral
    match number.drop whole.length with
    | [] => !whole.isEmpty
    | '.' :: places => !places.isEmpty && places.all Text.isNumeral
    | _ => false
  | _ => false

/-- An argument that starts with a dash and is no spelling of a flag. -/
def ofDashed (text : String) : Except UsageError Argument :=
  let chars := text.toList
  let fallback : Argument :=
    if isNegativeNumber chars || chars.contains ' ' then plain text else unknown text
  match chars with
  | '-' :: '-' :: _ =>
    let (start, value) := ((splitValue? chars).map fun (start, value) => (start, some value)).getD
      (chars, none)
    match matching start with
    | [] => .ok fallback
    | [(_, flag)] => .ok (option flag value)
    | several => .error (.ambiguous text (several.map Prod.fst))
  | '-' :: letter :: rest =>
    match Flag.ofSpelling? (String.ofList ['-', letter]) with
    | some flag => .ok (cluster flag rest)
    | none => .ok fallback
  | _ => .ok (plain text)

/-- Whether a spelling is a dash and one letter. -/
def isLetter (spelling : List Char) : Bool :=
  spelling.length == 2

/-- The form of an argument before the options end. Letters after an equals sign continue a row
of flags of one letter. -/
def ofText (text : String) : Except UsageError Argument :=
  if text == "--" then
    .ok separator
  else if text.toList.head? != some '-' then
    .ok (plain text)
  else
    match Flag.ofSpelling? text with
    | some flag => .ok (option flag none)
    | none =>
      match splitValue? text.toList with
      | some (start, value) =>
        match Flag.ofSpelling? (String.ofList start) with
        | some flag =>
          if isLetter start && !value.isEmpty then
            .ok (cluster flag value.toList)
          else
            .ok (option flag (some value))
        | none => ofDashed text
      | none => ofDashed text

/-- The forms of all arguments; after a separator every argument is plain. -/
def classify : List String → Except UsageError (List Argument)
  | [] => .ok []
  | text :: rest => do
    match ← ofText text with
    | separator => return separator :: rest.map plain
    | argument => return argument :: (← classify rest)

end Argument

/-- What the arguments ask for. -/
structure Options where
  verbosity : Nat := 0
  /-- The file that receives the trace. There is none if two dashes were given for it. -/
  debugFile : Option String := some "debug.txt"
  tree : Bool := false
  program : Option String := none
deriving DecidableEq, Repr

/-- What has been read of the arguments so far. -/
structure Progress where
  options : Options := {}
  /-- Whether the place of the program is taken. -/
  programSeen : Bool := false
  unrecognized : List String := []

/-- Why reading the arguments ended early. -/
inductive Interruption where
  | helpWanted
  | misuse (error : UsageError)
deriving DecidableEq, Repr

namespace Progress

/-- Sets a flag, with its value if it takes one. -/
def setFlag (progress : Progress) : Flag → String → Except Interruption Progress
  | .help, _ => .error .helpWanted
  | .verbose, _ =>
    .ok { progress with
      options := { progress.options with verbosity := progress.options.verbosity + 1 } }
  | .debugFile, value =>
    let file := if value == "--" then none else some value
    .ok { progress with options := { progress.options with debugFile := file } }
  | .tree, _ => .ok { progress with options := { progress.options with tree := true } }

/-- The flags of a row of letters. What follows a flag and starts with no flag is taken for a
value of that flag, which it has no use for. -/
def clusterFlags (flag : Flag) : List Char → Except UsageError (List Flag)
  | [] => .ok [flag]
  | letter :: rest =>
    match Flag.ofSpelling? (String.ofList ['-', letter]) with
    | some next => (clusterFlags next rest).map (flag :: ·)
    | none => .error (.surplusValue flag (String.ofList (letter :: rest)))

def reject (progress : Progress) (text : String) : Progress :=
  { progress with unrecognized := progress.unrecognized ++ [text] }

/-- Sets the flags of a row of letters, none of them if the row is faulty. -/
def setCluster (progress : Progress) (flag : Flag) (rest : List Char)
    : Except Interruption Progress :=
  match clusterFlags flag rest with
  | .error error => .error (.misuse error)
  | .ok flags => flags.foldlM (fun progress flag => progress.setFlag flag "") progress

def setProgram (progress : Progress) (program : Option String) : Progress :=
  { progress with options := { progress.options with program := program }, programSeen := true }

/-- Reads the arguments in order. The first argument that is no option names the program; a
separator next to it belongs to it. -/
def read : List Argument → Progress → Except Interruption Progress
  | [], progress => .ok progress
  | .unknown text :: rest, progress => read rest (progress.reject text)
  | .cluster flag letters :: rest, progress => do read rest (← progress.setCluster flag letters)
  | .option .debugFile none :: .plain value :: rest, progress => do
    read rest (← progress.setFlag .debugFile value)
  | .option flag none :: rest, progress =>
    if flag.takesValue then
      .error (.misuse (.missingValue flag))
    else do
      read rest (← progress.setFlag flag "")
  | .option flag (some value) :: rest, progress =>
    if flag.takesValue then do
      read rest (← progress.setFlag flag value)
    else
      .error (.misuse (.surplusValue flag value))
  | .separator :: .plain text :: rest, progress =>
    if progress.programSeen then
      read rest ((progress.reject "--").reject text)
    else
      read rest (progress.setProgram (some text))
  | .separator :: rest, progress =>
    read rest (if progress.programSeen then progress.reject "--" else progress.setProgram none)
  | .plain text :: .separator :: rest, progress =>
    if progress.programSeen then
      read rest ((progress.reject text).reject "--")
    else
      read rest (progress.setProgram (some text))
  | .plain text :: rest, progress =>
    read rest
      (if progress.programSeen then progress.reject text else progress.setProgram (some text))

end Progress

/-- Reads all arguments of the command. -/
def Options.ofArguments (arguments : List String) : Except Interruption Options :=
  match Argument.classify arguments with
  | .error error => .error (.misuse error)
  | .ok classified =>
    match Progress.read classified {} with
    | .error interruption => .error interruption
    | .ok progress =>
      if progress.unrecognized.isEmpty then
        if progress.options.tree && progress.options.program.isNone then
          .error (.misuse .treeWithoutProgram)
        else
          .ok progress.options
      else
        .error (.misuse (.unrecognized progress.unrecognized))

end Sprig.CommandLine
