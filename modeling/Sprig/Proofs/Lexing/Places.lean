import Mathlib.Data.List.DropRight
import Sprig.Proofs.Lexing.Joined
import Sprig.Proofs.Lexing.Tiling

/-! Where the parts of a text stand. The place that a token or a report carries is the one that its
offset leads to, whatever comes before it in the text.
-/

namespace Sprig

namespace Position

/-- The place after so many characters of a text: a line for each line break among them, and a
column for each character after the last line break. -/
def ofOffset (text : List Char) (offset : Nat) : Position :=
  ⟨1 + (text.take offset).count '\n', 1 + ((text.take offset).rtakeWhile (· != '\n')).length⟩

/-- The column after a text counts the characters after its last line break, by induction from its
end. -/
theorem column_advance_start (text : List Char)
    : (start.advance text).column = 1 + (text.rtakeWhile (· != '\n')).length := by
  induction text using List.reverseRecOn with
  | nil => rfl
  | append_singleton front c ih =>
      have stepped : start.advance (front ++ [c]) = (start.advance front).next c := by
        simp [advance]
      rw [stepped, List.rtakeWhile_concat]
      unfold next
      split
      · next isBreak => simp [isBreak]
      · next isOther => simp [isOther, ih, Nat.add_assoc]

/-- Going through the characters of a text leads to the place after them. -/
theorem advance_take_eq_ofOffset (text : List Char) (offset : Nat)
    : start.advance (text.take offset) = ofOffset text offset := by
  have line := line_advance start (text.take offset)
  have column := column_advance_start (text.take offset)
  exact congr (congrArg Position.mk line) column

end Position

namespace Segment

/-- What follows some segments is divided into those that are left. -/
theorem Divided.suffix {position : Position} {text : List Char} {front later : List Segment}
    (divided : Divided position text (front ++ later))
    : Divided (position.advance (front.flatMap Segment.text)) (later.flatMap Segment.text)
        later := by
  induction front generalizing position text with
  | nil =>
      have whole := flatMap_text_cut position 0 text
      rw [divided.eq_cut] at whole
      have same : later.flatMap Segment.text = text := whole
      exact same ▸ divided
  | cons segment front ih =>
      cases divided with
      | cons reaches others =>
          have later := ih others
          simpa [Position.advance] using later

/-- The segment of a text starts after so many of its characters. -/
def StartsAt (text : List Char) (offset : Nat) (segment : Segment) : Prop :=
  ∃ front back, ofText text = front ++ segment :: back
    ∧ (front.flatMap Segment.text).length = offset

/-- A segment stands in the text where it starts, reaches as far as it can, and carries the place
that it starts at. -/
theorem StartsAt.spec {text : List Char} {offset : Nat} {segment : Segment}
    (starts : segment.StartsAt text offset)
    : ∃ c tail rest, segment.text = c :: tail ∧ text.drop offset = c :: tail ++ rest
      ∧ extent c (tail ++ rest) = (segment.kind, tail.length)
      ∧ segment.start = .ofOffset text offset := by
  obtain ⟨front, back, divides, rfl⟩ := starts
  have whole : front.flatMap Segment.text ++ (segment :: back).flatMap Segment.text = text := by
    rw [← List.flatMap_append, ← divides, flatMap_text_ofText]
  have divided : Divided .start text (front ++ segment :: back) := divides ▸ divided_cut .start text
  have later := divided.suffix
  have before : text.take (front.flatMap Segment.text).length = front.flatMap Segment.text := by
    rw [← whole, List.take_left]
  have after : text.drop (front.flatMap Segment.text).length
      = (segment :: back).flatMap Segment.text := by
    rw [← whole, List.drop_left]
  rw [← Position.advance_take_eq_ofOffset, before, after]
  generalize (segment :: back).flatMap Segment.text = following at later
  cases later with
  | cons reaches others => exact ⟨_, _, _, rfl, rfl, reaches, rfl⟩

/-- A token has the text and the place of its segment. -/
theorem lexeme_of_token? {segment : Segment} {token : Token} (isToken : segment.token? = some token)
    : token.lexeme.toList = segment.text ∧ token.position = segment.start := by
  unfold token? at isToken
  split at isToken
  · obtain rfl := Option.some.inj isToken
    exact ⟨String.toList_ofList, rfl⟩
  · simp at isToken

/-- A report stands on the line of its segment and names its first character or says that a string
is open. -/
theorem diagnostic?_cases {segment : Segment} {diagnostic : Diagnostic}
    (reports : segment.diagnostic? = some diagnostic)
    : diagnostic.line = segment.start.line
      ∧ ((∃ c rest, segment.text = c :: rest ∧ diagnostic.fault = .unexpectedCharacter c)
        ∨ (segment.kind = .unterminated ∧ diagnostic.fault = .unterminatedString)) := by
  unfold diagnostic? at reports
  split at reports
  · next c rest _ text =>
    obtain rfl := Option.some.inj reports
    exact ⟨rfl, .inl ⟨c, rest, text, rfl⟩⟩
  · next isOpen =>
    obtain rfl := Option.some.inj reports
    exact ⟨rfl, .inr ⟨isOpen, rfl⟩⟩
  · simp at reports

end Segment

namespace Lexed

/-- The token stands in the text after so many characters. -/
inductive StandsAt (text : List Char) : Nat → Token → Prop where
  | inside {offset : Nat} {segment : Segment} {token : Token} : segment.StartsAt text offset →
      segment.token? = some token → StandsAt text offset token
  | stop : StandsAt text text.length (endToken text)

/-- The report is about the part of the text that starts after so many characters. -/
def ReportsAt (text : List Char) (offset : Nat) (diagnostic : Diagnostic) : Prop :=
  ∃ segment : Segment, segment.StartsAt text offset ∧ segment.diagnostic? = some diagnostic

/-- Every segment of a text starts at an offset: the length of what comes before it. -/
theorem exists_startsAt {text : List Char} {segment : Segment}
    (member : segment ∈ Segment.ofText text)
    : ∃ offset, segment.StartsAt text offset := by
  obtain ⟨front, back, divides⟩ := List.append_of_mem member
  exact ⟨_, front, back, divides, rfl⟩

/-- Every token of a text stands somewhere in it. -/
theorem exists_standsAt {text : List Char} {token : Token} (member : token ∈ (ofChars text).tokens)
    : ∃ offset, StandsAt text offset token := by
  rcases List.mem_append.mp member with inside | isEnd
  · obtain ⟨segment, isSegment, isToken⟩ := List.mem_filterMap.mp inside
    obtain ⟨offset, starts⟩ := exists_startsAt isSegment
    exact ⟨offset, .inside starts isToken⟩
  · obtain rfl := List.mem_singleton.mp isEnd
    exact ⟨text.length, .stop⟩

/-- Every report is about an offset, that of its segment. -/
theorem exists_reportsAt {text : List Char} {diagnostic : Diagnostic}
    (member : diagnostic ∈ (ofChars text).diagnostics)
    : ∃ offset, ReportsAt text offset diagnostic := by
  obtain ⟨segment, isSegment, reports⟩ := List.mem_filterMap.mp member
  obtain ⟨offset, starts⟩ := exists_startsAt isSegment
  exact ⟨offset, segment, starts, reports⟩

section Offsets

variable {text : List Char} {offset : Nat}

/-- The place of a token is that of its offset, also for the end of the text. -/
theorem StandsAt.position_eq {token : Token} (stands : StandsAt text offset token)
    : token.position = .ofOffset text offset := by
  cases stands with
  | inside starts isToken =>
      obtain ⟨_, _, _, _, _, _, place⟩ := starts.spec
      rw [(Segment.lexeme_of_token? isToken).2, place]
  | stop =>
      rw [← Position.advance_take_eq_ofOffset, List.take_length]
      rfl

/-- The lexeme of a token is what the text holds from its offset on. -/
theorem StandsAt.lexeme_prefix {token : Token} (stands : StandsAt text offset token)
    : token.lexeme.toList <+: text.drop offset := by
  cases stands with
  | inside starts isToken =>
      obtain ⟨c, tail, rest, spelled, follows, _, _⟩ := starts.spec
      rw [(Segment.lexeme_of_token? isToken).1, spelled, follows]
      exact List.prefix_append _ _
  | stop => exact List.nil_prefix

/-- Only the end of a text stands after all its characters. -/
theorem StandsAt.isEnd_iff {token : Token} (stands : StandsAt text offset token)
    : token.kind = .endOfText ↔ offset = text.length := by
  cases stands with
  | inside starts isToken =>
      obtain ⟨c, tail, rest, _, follows, _, _⟩ := starts.spec
      obtain ⟨front, back, divides, _⟩ := starts
      have member : token ∈ (ofChars text).stream.body :=
        List.mem_filterMap.mpr ⟨_, by simp [divides], isToken⟩
      have notEnd := (isGenuine member).isLexeme.ne_endOfText
      refine iff_of_false notEnd fun isLength => ?_
      simp [isLength] at follows
  | stop => exact iff_of_true rfl rfl

/-- A report is about a character that starts nothing, or about a quote after which there is no
other one. -/
theorem ReportsAt.spec {diagnostic : Diagnostic} (reports : ReportsAt text offset diagnostic)
    : diagnostic.line = (Position.ofOffset text offset).line
      ∧ ((∃ c, diagnostic.fault = .unexpectedCharacter c ∧ text[offset]? = some c)
        ∨ (diagnostic.fault = .unterminatedString ∧ text[offset]? = some '"'
          ∧ '"' ∉ text.drop (offset + 1))) := by
  obtain ⟨segment, starts, isReport⟩ := reports
  obtain ⟨c, tail, rest, spelled, follows, reaches, place⟩ := starts.spec
  have first : text[offset]? = some c := by
    rw [← List.head?_drop, follows]
    rfl
  have after : text.drop (offset + 1) = tail ++ rest := by
    rw [← List.tail_drop, follows]
    rfl
  obtain ⟨line, ⟨d, others, text, fault⟩ | ⟨isOpen, fault⟩⟩ := Segment.diagnostic?_cases isReport
  · obtain ⟨rfl, _⟩ := List.cons.inj (spelled.symm.trans text)
    exact ⟨line.trans (congrArg Position.line place), .inl ⟨c, fault, first⟩⟩
  · rw [isOpen] at reaches
    obtain ⟨rfl, rfl, noQuote⟩ := Segment.extent_eq_unterminated_iff.mp reaches
    refine ⟨line.trans (congrArg Position.line place), .inr ⟨fault, first, fun member => ?_⟩⟩
    rw [after, List.append_nil] at member
    exact noQuote _ member rfl

end Offsets

/-- The place that a token carries is the one where it stands: its line is counted by the line
breaks before it, and its column by the characters after the last of these. The end of a text stands
after all its characters. A report carries the line of the character that starts nothing, or of the
quote that is not closed.
-/
theorem places_exact (source : String)
    : (∀ token ∈ (ofSource source).tokens, ∃ offset, StandsAt source.toList offset token)
      ∧ (∀ offset token, StandsAt source.toList offset token →
          token.lexeme.toList <+: source.toList.drop offset
          ∧ token.position = .ofOffset source.toList offset
          ∧ (token.kind = .endOfText ↔ offset = source.toList.length))
      ∧ (∀ diagnostic ∈ (ofSource source).diagnostics,
          ∃ offset, ReportsAt source.toList offset diagnostic)
      ∧ ∀ offset diagnostic, ReportsAt source.toList offset diagnostic →
          diagnostic.line = (Position.ofOffset source.toList offset).line
          ∧ ((∃ c, diagnostic.fault = .unexpectedCharacter c
              ∧ source.toList[offset]? = some c)
            ∨ (diagnostic.fault = .unterminatedString ∧ source.toList[offset]? = some '"'
              ∧ '"' ∉ source.toList.drop (offset + 1))) := by
  refine ⟨fun _ => exists_standsAt, fun offset token stands => ?_, fun _ => exists_reportsAt,
    fun _ _ reports => reports.spec⟩
  exact ⟨stands.lexeme_prefix, stands.position_eq, stands.isEnd_iff⟩

/-- A quoted text over two lines, then a character that starts nothing, and a quote that is not
closed in the line after. -/
theorem places_exact_lines
    : StandsAt "a\n \"b\nc\" #\n\"d".toList 3 ⟨.string, "\"b\nc\"", some (.text "b\nc"), ⟨2, 2⟩⟩
      ∧ Position.ofOffset "a\n \"b\nc\" #\n\"d".toList 3 = ⟨2, 2⟩
      ∧ ReportsAt "a\n \"b\nc\" #\n\"d".toList 11 ⟨4, .unterminatedString⟩
      ∧ (Position.ofOffset "a\n \"b\nc\" #\n\"d".toList 11).line = 4 := by
  obtain ⟨_, places, _, lines⟩ := places_exact "a\n \"b\nc\" #\n\"d"
  have stands : StandsAt "a\n \"b\nc\" #\n\"d".toList 3
      ⟨.string, "\"b\nc\"", some (.text "b\nc"), ⟨2, 2⟩⟩ := by
    have starts : (⟨.token .string, "\"b\nc\"".toList, ⟨2, 2⟩⟩ : Segment).StartsAt
        "a\n \"b\nc\" #\n\"d".toList 3 :=
      ⟨_, _, (List.take_append_drop 3 _).symm, by decide⟩
    exact .inside starts rfl
  have reports : ReportsAt "a\n \"b\nc\" #\n\"d".toList 11 ⟨4, .unterminatedString⟩ :=
    ⟨⟨.unterminated, ['"', 'd'], ⟨4, 1⟩⟩,
      ⟨_, _, (List.take_append_drop 7 _).symm, by decide⟩, rfl⟩
  exact ⟨stands, (places 3 _ stands).2.1.symm, reports, (lines 11 _ reports).1.symm⟩

end Lexed

end Sprig
