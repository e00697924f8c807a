import Mathlib.Data.List.DropRight
import Sprig.Proofs.Machine.Verbosity
import Sprig.Shell

/-! The shell is a session over the lines of its input: up to the line that ends it, every line
other than a request for help is run, whatever became of the lines before it.
-/

namespace Sprig

/-- Texts in two parts are run one part after the other. -/
theorem Session.after_append (limit : Nat) (texts more : List String) (session : Session)
    : session.after limit (texts ++ more) = (session.after limit texts).after limit more :=
  List.foldl_append

/-- The steps of texts in two parts are those of the one and then those of the other, which starts
where the first ended. -/
theorem Session.steps_append (limit : Nat) (texts more : List String) (session : Session)
    : session.steps limit (texts ++ more)
      = session.steps limit texts ++ (session.after limit texts).steps limit more := by
  induction texts generalizing session with
  | nil => rfl
  | cons source rest ih =>
      rw [List.cons_append, steps, steps, ih, List.cons_append]
      rfl

-- Lines

namespace Text

/-- What stands between line feeds. There is no line after the last one if nothing follows it. -/
def lines (text : List Char) : List (List Char) :=
  if (text.splitOn '\n').getLast? = some [] then (text.splitOn '\n').dropLast
  else text.splitOn '\n'

/-- A text without line breaks is one piece. -/
theorem splitOn_of_notMem {text : List Char} (single : '\n' ∉ text)
    : text.splitOn '\n' = [text] := by
  have whole : (['\n'].intercalate [text]).splitOn '\n' = [text] :=
    List.splitOn_intercalate '\n' (by simpa using single) (by simp)
  simpa using whole

/-- A text without line breaks is one line, or none if it is empty. -/
theorem lines_of_notMem {text : List Char} (single : '\n' ∉ text)
    : lines text = if text = [] then [] else [text] := by
  rw [lines, splitOn_of_notMem single]
  simp

/-- A line and its break come before the lines of the rest. -/
theorem lines_append_newline {line : List Char} (single : '\n' ∉ line) (rest : List Char)
    : lines (line ++ '\n' :: rest) = line :: lines rest := by
  have pieces : (line ++ '\n' :: rest).splitOn '\n' = line :: rest.splitOn '\n' := by
    have apart : (line ++ '\n' :: rest).splitOn '\n' = line.splitOn '\n' ++ rest.splitOn '\n' :=
      List.splitOnP_append_cons line rest (beq_self_eq_true '\n')
    rw [apart, splitOn_of_notMem single, List.singleton_append]
  have some : rest.splitOn '\n' ≠ [] := List.splitOnP_ne_nil _ rest
  rw [lines, lines, pieces, List.getLast?_cons_of_ne_nil some, List.dropLast_cons_of_ne_nil some]
  split <;> rfl

end Text

namespace Shell

/-- The lines of an input, without carriage returns and line feeds at their ends. -/
def linesOf (input : String) : List String :=
  (Text.lines input.toList).map fun line =>
    String.ofList (line.rdropWhile fun c => c == '\r' || c == '\n')

/-- Splitting goes on from what was found and from the line that was begun, by induction on the
text. -/
theorem splitLinesOnto_eq {line : List Char} (single : '\n' ∉ line) (text : List Char)
    (found : List (List Char))
    : splitLinesOnto line text found = found.reverse ++ Text.lines (line.reverse ++ text) := by
  induction text generalizing line found with
  | nil =>
      rw [splitLinesOnto, List.append_nil, Text.lines_of_notMem (by simpa using single)]
      cases line with
      | nil => simp
      | cons c others => simp
  | cons c rest ih =>
      rw [splitLinesOnto]
      split
      · next isFeed =>
          rw [isFeed, Text.lines_append_newline (by simpa using single), ih (by simp)]
          simp
      · next other =>
          rw [ih (by simpa [Ne.symm other] using single)]
          simp

/-- The shell splits its input into its lines. -/
theorem inputLines_eq (input : String) : inputLines input = linesOf input := by
  rw [inputLines, splitLinesOnto_eq (by simp)]
  rfl

-- What a line asks for

/-- The line without the blanks at its ends. -/
def word (line : String) : String :=
  String.ofList (Text.trimBlanks line.toList)

/-- Whether the shell stops at a line. -/
def endsInput (line : String) : Bool :=
  word line ∈ ["", "exit", "EOF"]

/-- Whether a line that does not end the input is run. -/
def isProgram (line : String) : Bool :=
  word line ≠ "help"

/-- The lines before the first one that ends the input. -/
def taken (lines : List String) : List String :=
  lines.takeWhile fun line => !endsInput line

/-- The lines that are run. -/
def executed (lines : List String) : List String :=
  (taken lines).filter isProgram

end Shell

-- What is to be shown

/-- A text in bold and in a colour, between the signs that terminals know for this, or plain. -/
def Text.inBold (coloured : Bool) (colour text : String) : String :=
  if coloured then "\x1b[1m\x1b[" ++ colour ++ "m" ++ text ++ "\x1b[0m" else text

/-- The line of a warning. Its label may be magenta. -/
def Diagnostic.warningLine (coloured : Bool) (diagnostic : Diagnostic) : String :=
  Text.inBold coloured "35" "warning: "
    ++ ("[line " ++ toString diagnostic.line ++ "] Error: " ++ diagnostic.message) ++ "\n"

/-- The line about a text that did not run to completion: it has a syntax error if it is no
program. The label may be red. -/
def Ending.errorLine (coloured : Bool) : Ending → String
  | completed => ""
  | rejected error => Text.inBold coloured "31" "syntax error: " ++ error.message ++ "\n"
  | halted halt => Text.inBold coloured "31" "error: " ++ (halted halt).message ++ "\n"

/-- What a text printed, a line for each warning, and a line for the error if there is one. -/
def Outcome.shown (coloured : Bool) (outcome : Outcome) : String :=
  outcome.printed ++ String.join (outcome.diagnostics.map (Diagnostic.warningLine coloured))
    ++ outcome.ending.errorLine coloured

/-- Labels are shown as they should be, plain and coloured, by evaluation. -/
theorem Label.shown_eq (coloured : Bool)
    : Label.warning.shown coloured = Text.inBold coloured "35" "warning: "
      ∧ Label.syntaxError.shown coloured = Text.inBold coloured "31" "syntax error: "
      ∧ Label.error.shown coloured = Text.inBold coloured "31" "error: " := by
  cases coloured <;> decide +kernel

/-- A warning of the shell is shown as its line. -/
theorem Diagnostic.warning_append_newline (coloured : Bool) (diagnostic : Diagnostic)
    : diagnostic.warning coloured ++ "\n" = diagnostic.warningLine coloured := by
  rw [warning, warningLine, (Label.shown_eq coloured).1]
  rfl

/-- What the shell shows of an ending is its line of error, if it has one, by cases on the ending.
-/
theorem Ending.join_line? (coloured : Bool) (ending : Ending)
    : String.join ((ending.line? coloured).toList.map (· ++ "\n")) = ending.errorLine coloured := by
  obtain ⟨_, syntaxError, error⟩ := Label.shown_eq coloured
  cases ending with
  | completed => rfl
  | rejected _ => simp [line?, errorLine, syntaxError]
  | halted _ => simp [line?, errorLine, error]

/-- The lines that follow what a text printed are worded and labelled as they should be. -/
theorem Outcome.printed_append_unlines (coloured : Bool) (outcome : Outcome)
    : outcome.printed ++ unlines (outcome.lines coloured) = outcome.shown coloured := by
  have warnings : (· ++ "\n") ∘ Diagnostic.warning coloured = Diagnostic.warningLine coloured :=
    funext (Diagnostic.warning_append_newline coloured)
  rw [unlines, lines, shown, List.map_append, String.join_append, List.map_map, warnings,
    Ending.join_line?, String.append_assoc]

namespace Shell

/-- The lines that help consists of. -/
def helpLines : List String :=
  ["Sprig is a small dynamically typed scripting language.",
    "",
    "Try 'var greeting = \"hi\";' and then 'print greeting;'.",
    "Functions are declared with 'fun name(a, b) \x7b ... \x7d' and",
    "called with 'name(1, 2);'."]

/-- The help of the shell is its lines, by computing both. -/
theorem helpText_eq : helpText = String.join (helpLines.map (· ++ "\n")) := by
  decide +kernel

/-- What the shell says to a line that does not end the input. -/
def answer (limit : Nat) (coloured : Bool) (session : Session) (line : String) : String :=
  if isProgram line then (session.run limit line).1.shown coloured
  else String.join (helpLines.map (· ++ "\n"))

/-- What the shell says when it stops. -/
def closing (lines : List String) : String :=
  if (lines.find? endsInput).all (word · == "EOF") then "\n" else ""

/-- What the shell shows for lines: the prompt before each of those it takes and before the end,
and the answer to each in the session that the lines before it have led to.
-/
def transcript (limit : Nat) (coloured : Bool) (session : Session) (lines : List String) : String :=
  String.join ((taken lines).mapIdx fun index line =>
    "> " ++ answer limit coloured (session.after limit (executed (lines.take index))) line)
    ++ "> " ++ closing lines

-- One line at a time

section Lines

variable {line : String} (rest : List String)

/-- Nothing is taken from a line on that ends the input. -/
theorem taken_of_ends (ends : endsInput line = true) : taken (line :: rest) = [] := by
  simp [taken, ends]

/-- Every other line is taken. -/
theorem taken_of_goesOn (goesOn : endsInput line = false)
    : taken (line :: rest) = line :: taken rest := by
  simp [taken, goesOn]

/-- A line that does not end the input is dealt with before the rest. -/
theorem executed_of_goesOn (goesOn : endsInput line = false)
    : executed (line :: rest) = executed [line] ++ executed rest := by
  simp only [executed, taken_of_goesOn _ goesOn, ← List.filter_append]
  rfl

/-- Such a line is run if it is a program. -/
theorem executed_singleton (goesOn : endsInput line = false)
    : executed [line] = if isProgram line then [line] else [] := by
  rw [executed, taken_of_goesOn _ goesOn]
  exact List.filter_cons

/-- How the input closes depends on the lines after it. -/
theorem closing_of_goesOn (goesOn : endsInput line = false)
    : closing (line :: rest) = closing rest := by
  simp [closing, goesOn]

variable (limit : Nat) (coloured : Bool) (session : Session)

/-- At the end of the input the shell shows a last prompt and ends its line. -/
theorem transcript_nil : transcript limit coloured session [] = "> " ++ "\n" := by
  simp [transcript, taken, closing]

/-- A line that ends the input is shown no answer, except that the word for the end of input ends
the line of the prompt. -/
theorem transcript_of_ends (ends : endsInput line = true)
    : transcript limit coloured session (line :: rest)
      = "> " ++ if word line = "EOF" then "\n" else "" := by
  have closes : closing (line :: rest) = if word line = "EOF" then "\n" else "" := by
    simp [closing, ends]
  rw [transcript, taken_of_ends rest ends, closes]
  rfl

/-- The rest of a transcript is that of the session that the first line leads to. -/
theorem transcript_of_goesOn (goesOn : endsInput line = false)
    : transcript limit coloured session (line :: rest)
      = "> " ++ answer limit coloured session line
        ++ transcript limit coloured (session.after limit (executed [line])) rest := by
  have later (index : Nat)
      : session.after limit (executed ((line :: rest).take (index + 1)))
        = (session.after limit (executed [line])).after limit (executed (rest.take index)) := by
    rw [List.take_succ_cons, executed_of_goesOn _ goesOn, Session.after_append]
  have first : session.after limit (executed ((line :: rest).take 0)) = session := rfl
  rw [transcript, transcript, taken_of_goesOn rest goesOn, List.mapIdx_cons, String.join_cons,
    closing_of_goesOn rest goesOn, first]
  simp only [later, String.append_assoc]

end Lines

/-- The command of a line is told by its word. -/
theorem ofLine_eq (line : String)
    : ShellCommand.ofLine line
      = if endsInput line then if word line = "EOF" then .endInput else .leave
        else if isProgram line then .run line else .help := by
  unfold ShellCommand.ofLine
  split <;> simp_all [endsInput, isProgram, word]

/-- The shell stops at a line that ends the input and leaves its session as it is. -/
theorem obey_of_ends (limit : Nat) {line : String} (ends : endsInput line = true) (shell : Shell)
    : shell.obey limit (.ofLine line)
      = ⟨shell, if word line = "EOF" then "\n" else "", .stop⟩ := by
  rw [ofLine_eq, ends]
  cases decEq (word line) "EOF" with
  | isTrue isEnd => simp [isEnd, obey]
  | isFalse other => simp [other, obey]

/-- The shell after a line that does not end the input. -/
def past (limit : Nat) (line : String) (shell : Shell) : Shell :=
  ⟨shell.session.after limit (executed [line]), shell.lines + (executed [line]).length,
    shell.coloured⟩

section Past

variable (limit : Nat) (line : String) (shell : Shell)

/-- Past a line the session has run it if it is a program. -/
theorem session_past
    : (shell.past limit line).session = shell.session.after limit (executed [line]) := by
  rw [past]

/-- Past a line the shell has counted it if it is a program. -/
theorem lines_past : (shell.past limit line).lines = shell.lines + (executed [line]).length := by
  rw [past]

/-- Past a line the shell shows colours as before. -/
theorem coloured_past : (shell.past limit line).coloured = shell.coloured := by
  rw [past]

end Past

/-- One line, up to the nesting limit. A failure leaves the shell as ready for the next line as
success does.
-/
theorem obey_of_goesOn {limit : Nat} {line : String} (goesOn : endsInput line = false)
    {shell : Shell}
    (shallow : ∀ step ∈ shell.session.steps limit (executed [line]),
      step.1.ending.isTooDeep = false)
    : shell.obey limit (.ofLine line)
      = ⟨shell.past limit line, answer limit shell.coloured shell.session line, .proceed⟩ := by
  rw [ofLine_eq, goesOn, answer, past]
  rw [executed_singleton goesOn] at shallow ⊢
  cases program : isProgram line with
  | false =>
      simp only [Bool.false_eq_true, if_false, obey, helpText_eq]
      rfl
  | true =>
      rw [program] at shallow
      have settles : (shell.session.run limit line).1.ending.isTooDeep = false :=
        shallow _ List.mem_cons_self
      simp only [Bool.false_eq_true, if_false, if_true, obey, runLine, settles,
        Outcome.printed_append_unlines]
      rfl

/-- A line that does not end the input is answered and the rest fed to the shell past it, unless
its run was too deep. -/
theorem feed_of_goesOn {limit : Nat} {line : String} (goesOn : endsInput line = false)
    (rest : List String) {shell : Shell}
    (shallow : ∀ step ∈ shell.session.steps limit (executed [line]),
      step.1.ending.isTooDeep = false)
    : feed limit (line :: rest) shell
      = { feed limit rest (shell.past limit line) with
          text := "> " ++ answer limit shell.coloured shell.session line
            ++ (feed limit rest (shell.past limit line)).text } := by
  rw [feed, obey_of_goesOn goesOn shallow, prompt]

/-- The shell stopped, after a session over the lines that are run. -/
structure Follows (limit : Nat) (lines : List String) (shell : Shell) (reply : Reply) : Prop where
  stops : reply.continuation = .stop
  count : reply.shell.lines = shell.lines + (executed lines).length
  session : reply.shell.session = shell.session.after limit (executed lines)
  text : reply.text = transcript limit shell.coloured shell.session lines

/-- Where a line ends the input, the shell has followed all lines before the end. -/
theorem follows_of_ends (limit : Nat) {line : String} (ends : endsInput line = true)
    (rest : List String) (shell : Shell)
    : Follows limit (line :: rest) shell (feed limit (line :: rest) shell) := by
  have nothing : executed (line :: rest) = [] := by
    rw [executed, taken_of_ends rest ends, List.filter_nil]
  rw [feed, obey_of_ends limit ends]
  refine ⟨rfl, ?_, ?_, ?_⟩
  · rw [nothing, List.length_nil, Nat.add_zero]
  · rw [nothing, Session.after, List.foldl_nil]
  · rw [transcript_of_ends rest _ _ _ ends, prompt]

/-- A shell follows its lines, by induction on them: one that ends the input stops it, and any
other is answered before the rest. -/
theorem follows_feed {limit : Nat} {lines : List String} {shell : Shell}
    (shallow : ∀ step ∈ shell.session.steps limit (executed lines),
      step.1.ending.isTooDeep = false)
    : Follows limit lines shell (feed limit lines shell) := by
  induction lines generalizing shell with
  | nil => exact ⟨rfl, rfl, rfl, (transcript_nil limit shell.coloured shell.session).symm⟩
  | cons line rest ih =>
      cases goesOn : endsInput line with
      | true => exact follows_of_ends limit goesOn rest shell
      | false =>
          have parts := executed_of_goesOn rest goesOn
          rw [parts, Session.steps_append, List.forall_mem_append] at shallow
          obtain ⟨first, later⟩ := shallow
          rw [← session_past] at later
          obtain ⟨stops, count, session, text⟩ := ih later
          rw [feed_of_goesOn goesOn rest first]
          refine ⟨stops, ?_, ?_, ?_⟩
          · rw [count, lines_past, parts, List.length_append, Nat.add_assoc]
          · rw [session, session_past, parts, Session.after_append]
          · rw [text, session_past, coloured_past, transcript_of_goesOn rest _ _ _ goesOn]

/-- The shell is a session over the lines of its input. It runs each line up to the first that ends
the input, requests for help apart, and shows what each of them led to.
-/
theorem run_is_session (limit : Nat) (input : String) (session : Session) (coloured : Bool)
    (shallow : ∀ step ∈ session.steps limit (executed (linesOf input)),
      step.1.ending.isTooDeep = false)
    : (run limit input (.start session coloured)).continuation = .stop
      ∧ (run limit input (.start session coloured)).shell.lines
        = (executed (linesOf input)).length
      ∧ (run limit input (.start session coloured)).shell.session
        = session.after limit (executed (linesOf input))
      ∧ (run limit input (.start session coloured)).text
        = "Sprig interpreter\nEnter statements to run them; an empty line or 'exit' quits.\n"
          ++ transcript limit coloured session (linesOf input) := by
  have follows : Follows limit (linesOf input) (.start session coloured) _ := follows_feed shallow
  rw [run, inputLines_eq]
  exact ⟨follows.stops, follows.count.trans (Nat.zero_add _), follows.session,
    congrArg (greeting ++ ·) follows.text⟩

/-- A request for help, a line that fails halfway and one that is no program, before a line that
ends the input. The text is what a person sees, the prompt at the beginning of each line but the
first two included.
-/
theorem run_is_session_failures
    : ∃ input, input = "var x = 1;\r\n help\nx = 2; y;\nvar = 3;\nprint x; #\n EOF \nx = 4;\n"
      ∧ taken (linesOf input) = ["var x = 1;", " help", "x = 2; y;", "var = 3;", "print x; #"]
      ∧ ((Session.start 0).steps 20 (executed (linesOf input))).map (·.1.ending.isCompleted)
        = [true, false, false, true]
      ∧ (run 20 input (.start (.start 0) false)).continuation = .stop
      ∧ (run 20 input (.start (.start 0) false)).shell.lines = 4
      ∧ (run 20 input (.start (.start 0) false)).shell.session
        = (Session.start 0).after 20 ["var x = 1;", "x = 2; y;", "var = 3;", "print x; #"]
      ∧ (run 20 input (.start (.start 0) false)).text
        = String.join
            ["Sprig interpreter\nEnter statements to run them; an empty line or 'exit' quits.\n",
              "> ",
              "> Sprig is a small dynamically typed scripting language.\n\n",
              "Try 'var greeting = \"hi\";' and then 'print greeting;'.\n",
              "Functions are declared with 'fun name(a, b) \x7b ... \x7d' and\n",
              "called with 'name(1, 2);'.\n",
              "> error: [line 1] Undefined variable 'y'.\n",
              "> syntax error: [line 1] Error at '=': Expect variable name.\n",
              "> 2\nwarning: [line 1] Error: Unexpected character '#'.\n",
              "> \n"] := by
  obtain ⟨input, isInput⟩ : ∃ input, input
      = "var x = 1;\r\n help\nx = 2; y;\nvar = 3;\nprint x; #\n EOF \nx = 4;\n" := ⟨_, rfl⟩
  have takes : taken (linesOf input)
      = ["var x = 1;", " help", "x = 2; y;", "var = 3;", "print x; #"] := by
    rw [isInput]
    decide +kernel
  have runs : executed (linesOf input) = ["var x = 1;", "x = 2; y;", "var = 3;", "print x; #"] := by
    rw [executed, takes]
    decide
  have shallow : ∀ step ∈ (Session.start 0).steps 20 (executed (linesOf input)),
      step.1.ending.isTooDeep = false := by
    rw [runs]
    decide +kernel
  obtain ⟨stops, count, session, text⟩ := run_is_session 20 input (.start 0) false shallow
  refine ⟨input, isInput, takes, ?_, stops, ?_, ?_, ?_⟩
  · rw [runs]
    decide +kernel
  · rw [count, runs]
    rfl
  · rw [session, runs]
  · rw [text, isInput]
    decide +kernel

end Shell

end Sprig
