import Sprig.Proofs.Lexing.Division

/-! Two texts with a line break between them have the tokens of the one and then those of the other,
further down. Only a text in quotes that the first one leaves open would reach over the line break.
-/

namespace Sprig

-- Further down

/-- The same place in a later line. -/
def Position.below (lines : Nat) (position : Position) : Position :=
  ⟨position.line + lines, position.column⟩

def Token.below (lines : Nat) (token : Token) : Token :=
  token.movedTo (token.position.below lines)

def Diagnostic.below (lines : Nat) (diagnostic : Diagnostic) : Diagnostic :=
  { diagnostic with line := diagnostic.line + lines }

namespace Position

/-- Stepping over a character does so further down as well: a new line counts from the line it
starts on. -/
theorem next_below (lines : Nat) (position : Position) (c : Char)
    : (position.below lines).next c = (position.next c).below lines := by
  unfold next
  split
  · simp only [below, Nat.add_right_comm]
  · rfl

/-- Going through a text does so further down as well, by induction on the text. -/
theorem advance_below (lines : Nat) (position : Position) (text : List Char)
    : (position.below lines).advance text = (position.advance text).below lines := by
  induction text generalizing position with
  | nil => rfl
  | cons c rest ih =>
      have stepped := ih (position.next c)
      rw [← next_below] at stepped
      exact stepped

/-- A text goes down as many lines as it has line breaks. -/
theorem line_advance (position : Position) (text : List Char)
    : (position.advance text).line = position.line + text.count '\n' := by
  induction text generalizing position with
  | nil => rfl
  | cons c rest ih =>
      have stepped : (position.advance (c :: rest)).line
          = (position.next c).line + rest.count '\n' := ih (position.next c)
      rw [stepped, List.count_cons]
      unfold next
      split
      · next isBreak =>
        simp only [isBreak, beq_self_eq_true, if_true]
        omega
      · next isOther => simp [isOther]

end Position

namespace Segment

def below (lines : Nat) (segment : Segment) : Segment :=
  { segment with start := segment.start.below lines }

/-- The token of a segment further down is its token, further down. -/
theorem token?_below (lines : Nat) (segment : Segment)
    : (segment.below lines).token? = segment.token?.map (Token.below lines) := by
  obtain ⟨kind, text, start⟩ := segment
  cases kind <;> rfl

/-- What is reported of a segment further down is what is reported of it, further down. -/
theorem diagnostic?_below (lines : Nat) (segment : Segment)
    : (segment.below lines).diagnostic? = segment.diagnostic?.map (Diagnostic.below lines) := by
  obtain ⟨kind, text, start⟩ := segment
  cases kind with
  | unexpected => cases text <;> rfl
  | token | blank | comment | unterminated => rfl

/-- The tokens of segments further down are their tokens, further down. -/
theorem tokens_below (lines : Nat) (segments : List Segment)
    : (segments.map (below lines)).filterMap token?
      = (segments.filterMap token?).map (Token.below lines) := by
  rw [List.filterMap_map, List.map_filterMap]
  exact congrArg (List.filterMap · segments) (funext (token?_below lines))

/-- The reports of segments further down are their reports, further down. -/
theorem diagnostics_below (lines : Nat) (segments : List Segment)
    : (segments.map (below lines)).filterMap diagnostic?
      = (segments.filterMap diagnostic?).map (Diagnostic.below lines) := by
  rw [List.filterMap_map, List.map_filterMap]
  exact congrArg (List.filterMap · segments) (funext (diagnostic?_below lines))

/-- A text is cut in the same way wherever it starts. -/
theorem divided_below {position : Position} {text : List Char} {segments : List Segment}
    (divided : Divided position text segments) (lines : Nat)
    : Divided (position.below lines) text (segments.map (Segment.below lines)) := by
  induction divided with
  | nil position => exact .nil _
  | cons reaches others ih =>
      rw [← Position.advance_below] at ih
      exact .cons reaches ih

-- Line breaks

section LineBreaks

variable (rest more : List Char)

/-- A run of characters other than line breaks ends before a line break. -/
theorem run_append_newline {p : Char → Bool} (ends : p '\n' = false)
    : run p (rest ++ '\n' :: more) = run p rest := by
  simp only [run, List.takeWhile_append]
  split
  · next all => simp [ends, all]
  · rfl

/-- A run that ends inside a text ends there, whatever comes after the text. -/
theorem run_append_of_lt {p : Char → Bool} (inside : run p rest < rest.length)
    : run p (rest ++ more) = run p rest := by
  have ends : (rest.takeWhile p).length ≠ rest.length := Nat.ne_of_lt inside
  simp [run, List.takeWhile_append, ends]

/-- A line break added at the end is seen as no other character. -/
theorem head?_append_newline {c : Char} (isOther : c ≠ '\n')
    : (rest ++ '\n' :: more).head? = some c ↔ rest.head? = some c := by
  cases rest with
  | nil => simpa using isOther.symm
  | cons d rest => rfl

/-- A number does not go on over a line break, neither in its digits nor in its fraction. -/
theorem numberTail_append_newline : numberTail (rest ++ '\n' :: more) = numberTail rest := by
  have digits (text : List Char)
      : run Char.isDigit (text ++ '\n' :: more) = run Char.isDigit text :=
    run_append_newline text more rfl
  simp only [numberTail, digits, List.drop_append_of_le_length (run_le_length rest)]
  cases rest.drop (run Char.isDigit rest) with
  | nil => rfl
  | cons d fraction =>
      by_cases isPoint : d = '.'
      · subst isPoint
        simp [digits]
      · simp [isPoint]

/-- A string that is closed ends where it did, whatever is added to the text. -/
theorem extent_quote_append (closed : (extent '"' rest).1 ≠ .unterminated)
    : extent '"' (rest ++ more) = extent '"' rest := by
  have inside : run (· != '"') rest < rest.length := by
    by_cases inside : run (· != '"') rest < rest.length
    · exact inside
    · simp [extent_quote, inside] at closed
  have longer : run (· != '"') rest < (rest ++ more).length := by
    rw [List.length_append]
    omega
  rw [extent_quote, extent_quote, run_append_of_lt rest more inside, if_pos inside, if_pos longer]

/-- A segment that is closed does not reach over a line break. -/
theorem extent_append_newline {c : Char} (closed : (extent c rest).1 ≠ .unterminated)
    : extent c (rest ++ '\n' :: more) = extent c rest := by
  by_cases isQuote : c = '"'
  · subst isQuote
    exact extent_quote_append rest _ closed
  cases sign : TokenKind.ofSign? c with
  | some kind => rw [extent_of_sign sign, extent_of_sign sign]
  | none =>
      cases extensible : TokenKind.ofExtensibleSign? c with
      | some kinds =>
          rw [extent_of_extensible extensible, extent_of_extensible extensible]
          simp only [head?_append_newline rest more (by decide : '=' ≠ '\n')]
      | none =>
          have slash := head?_append_newline rest more (by decide : '/' ≠ '\n')
          have comment := run_append_newline rest more (p := (· != '\n')) rfl
          have word := run_append_newline rest more (p := isWordPart) rfl
          simp only [extent, sign, extensible, isQuote, if_false, slash, comment,
            numberTail_append_newline, word, List.take_append_of_le_length (run_le_length rest)]

end LineBreaks

/-- A divided text goes on after a line break, if no segment of it is left open. -/
theorem Divided.append_newline {position : Position} {text : List Char} {segments : List Segment}
    (divided : Divided position text segments)
    (closed : ∀ segment ∈ segments, segment.kind ≠ .unterminated) {more : List Char}
    {later : List Segment} (others : Divided (position.advance text) ('\n' :: more) later)
    : Divided position (text ++ '\n' :: more) (segments ++ later) := by
  induction divided with
  | nil position => exact others
  | @cons position c tail rest kind segments reaches _ ih =>
      obtain ⟨first, further⟩ := List.forall_mem_cons.mp closed
      have stays : extent c (tail ++ (rest ++ '\n' :: more)) = (kind, tail.length) := by
        rw [← List.append_assoc, extent_append_newline _ more (by simpa [reaches] using first)]
        exact reaches
      have advanced : position.advance (c :: tail ++ rest)
          = (position.advance (c :: tail)).advance rest := List.foldl_append
      rw [List.append_assoc]
      exact .cons stays (ih further (advanced ▸ others))

/-- A line break is a segment that starts a new line. -/
theorem divided_newline {position : Position} {more : List Char} {later : List Segment}
    (others : Divided ⟨position.line + 1, 1⟩ more later)
    : Divided position ('\n' :: more) (⟨.blank, ['\n'], position⟩ :: later) :=
  @Divided.cons position '\n' [] more _ later rfl others

end Segment

namespace Lexed

/-- No text in quotes is left open. -/
def IsClosed (lexed : Lexed) : Prop :=
  ∀ diagnostic ∈ lexed.diagnostics, diagnostic.fault ≠ .unterminatedString

/-- A text in which no string is reported as open has no open string. -/
theorem ne_unterminated {text : List Char} (closed : (ofChars text).IsClosed)
    : ∀ segment ∈ Segment.ofText text, segment.kind ≠ .unterminated := by
  intro segment member isOpen
  have reported : segment.diagnostic? = some ⟨segment.start.line, .unterminatedString⟩ := by
    simp [Segment.diagnostic?, isOpen]
  exact closed _ (List.mem_filterMap.mpr ⟨segment, member, reported⟩) rfl

/-- Two texts with a line break between them. -/
theorem ofSource_joined {first : String} (closed : (ofSource first).IsClosed) (second : String)
    : (ofSource (first ++ "\n" ++ second)).stream.body
        = (ofSource first).stream.body
          ++ (ofSource second).stream.body.map (Token.below (1 + first.toList.count '\n'))
      ∧ (ofSource (first ++ "\n" ++ second)).diagnostics
        = (ofSource first).diagnostics
          ++ (ofSource second).diagnostics.map
            (Diagnostic.below (1 + first.toList.count '\n')) := by
  have joined : (first ++ "\n" ++ second).toList = first.toList ++ '\n' :: second.toList := by
    simp
  have lines : Position.start.below (1 + first.toList.count '\n')
      = ⟨(Position.start.advance first.toList).line + 1, 1⟩ := by
    simp [Position.below, Position.line_advance, Position.start]
    omega
  have divided := (Segment.divided_cut .start first.toList).append_newline (ne_unterminated closed)
    (Segment.divided_newline (lines ▸ Segment.divided_below
      (Segment.divided_cut .start second.toList) (1 + first.toList.count '\n')))
  rw [← joined] at divided
  have cut : Segment.ofText (first ++ "\n" ++ second).toList = _ := divided.eq_cut
  simp only [ofSource, ofChars, cut, List.filterMap_append, List.filterMap_cons,
    Segment.tokens_below, Segment.diagnostics_below]
  exact ⟨rfl, rfl⟩

end Lexed

end Sprig
