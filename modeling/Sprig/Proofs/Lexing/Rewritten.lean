import Mathlib.Data.List.Forall2
import Sprig.Proofs.Lexing.Places

/-! Texts that are rewritten and keep their tokens. A character that is reported can be replaced by
a space, and tokens can be written out again with any blank characters between them.
-/

namespace Sprig

namespace Segment

open List (Forall₂)

-- Spaces in the place of characters that start nothing

/-- The second character is the first one, or a space in the place of a character that starts
nothing.
-/
inductive Blurs : Char → Char → Prop where
  | same (c : Char) : Blurs c c
  | stray {c : Char} : startsToken c = false → Text.isBlank c = false → Blurs c ' '

/-- Blurring a character neither makes nor removes one that starts a token or ends a line: a stray
character and the space are neither. -/
theorem Blurs.eq_iff {c d other : Char} (blurs : Blurs c d)
    (known : startsToken other = true ∨ other = '\n')
    : d = other ↔ c = other := by
  cases blurs with
  | same => exact Iff.rfl
  | stray starts blank =>
      refine iff_of_false ?_ ?_
      · rintro rfl
        exact absurd known (by decide)
      · rintro rfl
        rcases known with known | rfl
        · simp [known] at starts
        · exact absurd blank (by decide)

/-- Blurring keeps what words are made of, since no stray character is a part of one. -/
theorem Blurs.isWordPart_eq {c d : Char} (blurs : Blurs c d) : isWordPart d = isWordPart c := by
  cases blurs with
  | same => rfl
  | stray starts =>
      simp only [startsToken, Bool.or_eq_false_iff] at starts
      exact starts.2.symm

/-- Blurring keeps digits, since no stray character is one. -/
theorem Blurs.isDigit_eq {c d : Char} (blurs : Blurs c d) : d.isDigit = c.isDigit := by
  cases blurs with
  | same => rfl
  | stray starts =>
      simp only [startsToken, isWordPart, Bool.or_eq_false_iff] at starts
      exact starts.2.2.symm

section Blurred

variable {rest rest' : List Char} (blurred : Forall₂ Blurs rest rest')

include blurred

/-- A blurred text starts with a known character just when the text does. -/
theorem head?_blurred {c : Char} (known : startsToken c = true ∨ c = '\n')
    : rest'.head? = some c ↔ rest.head? = some c := by
  cases blurred with
  | nil => exact Iff.rfl
  | cons blurs _ => simpa using blurs.eq_iff known

/-- A run goes as far as before if spaces are no more part of it than what they replace. -/
theorem run_blurred {p : Char → Bool} (same : ∀ c d, Blurs c d → p d = p c)
    : run p rest' = run p rest := by
  induction blurred with
  | nil => rfl
  | @cons c d rest rest' blurs _ ih =>
      cases holds : p c with
      | false => simp [run, holds, same c d blurs]
      | true => simpa [run, holds, same c d blurs] using ih

/-- A number reaches as far in a blurred text: its digits are kept, and so is the point before its
fraction. -/
theorem numberTail_blurred : numberTail rest' = numberTail rest := by
  have digits {text text' : List Char} (blurred : Forall₂ Blurs text text')
      : run Char.isDigit text' = run Char.isDigit text :=
    run_blurred blurred fun _ _ blurs => blurs.isDigit_eq
  have after := List.forall₂_drop (run Char.isDigit rest) blurred
  simp only [numberTail, digits blurred]
  generalize rest.drop (run Char.isDigit rest) = later, rest'.drop (run Char.isDigit rest) = later'
    at after
  cases after with
  | nil => rfl
  | @cons c d fraction fraction' blurs others =>
      by_cases isPoint : c = '.'
      · obtain rfl := (blurs.eq_iff (.inl rfl)).mpr isPoint
        simp [isPoint, digits others]
      · have isOther : d ≠ '.' := fun same => isPoint ((blurs.eq_iff (.inl rfl)).mp same)
        simp [isPoint, isOther]

/-- A segment that is not reported as starting nothing reaches as far as before. -/
theorem extent_blurred {c : Char} {tail : List Char} {kind : SegmentKind}
    (reaches : extent c (tail ++ rest) = (kind, tail.length)) (kept : kind ≠ .unexpected)
    : extent c (tail ++ rest') = (kind, tail.length) := by
  have longer : Forall₂ Blurs (tail ++ rest) (tail ++ rest') :=
    List.rel_append (List.forall₂_same.mpr fun c _ => .same c) blurred
  cases kind with
  | token kind =>
      have isLexeme := isLexeme_of_extent reaches
      rw [List.take_left] at isLexeme
      cases isLexeme with
      | sign isSign => exact extent_of_sign isSign _
      | alone extensible | extended extensible =>
          rw [extent_of_extensible extensible] at reaches ⊢
          simpa only [head?_blurred longer (show startsToken '=' = true ∨ _ from .inl rfl)]
            using reaches
      | slash =>
          rw [extent_slash] at reaches ⊢
          split at reaches
          · exact absurd (Prod.mk.inj reaches).1 (by simp)
          · next noComment =>
            rw [if_neg (mt (head?_blurred longer (.inl rfl)).mp noComment)]
            rfl
      | string noQuote => exact extent_string noQuote rest'
      | number isDigit =>
          rw [extent_of_isDigit isDigit] at reaches ⊢
          rw [numberTail_blurred longer]
          exact reaches
      | word starts =>
          rw [extent_of_isWordStart starts] at reaches ⊢
          have ends : run isWordPart (tail ++ rest') = tail.length :=
            (run_blurred longer fun _ _ blurs => blurs.isWordPart_eq).trans (Prod.mk.inj reaches).2
          rw [ends, List.take_left]
  | blank => exact extent_eq_blank_iff.mpr (extent_eq_blank_iff.mp reaches)
  -- a comment ends at a line break or with the text, and blurring keeps both
  | comment =>
      obtain ⟨body, spelled, noBreak, stops⟩ := extent_eq_comment_iff.mp reaches
      refine extent_eq_comment_iff.mpr ⟨body, spelled, noBreak, ?_⟩
      cases blurred with
      | nil => exact stops
      | @cons c d _ _ blurs _ =>
          have isBreak : c = '\n' := stops c rfl
          simpa using (blurs.eq_iff (.inr rfl)).mpr isBreak
  | unexpected => exact absurd rfl kept
  | unterminated =>
      obtain ⟨isQuote, rfl, noQuote⟩ := extent_eq_unterminated_iff.mp reaches
      cases blurred
      exact extent_eq_unterminated_iff.mpr ⟨isQuote, rfl, noQuote⟩

end Blurred

/-- The segment with a space in the place of a character that starts nothing. -/
def blanked (segment : Segment) : Segment :=
  match segment.kind with
  | .unexpected => ⟨.blank, [' '], segment.start⟩
  | _ => segment

/-- Only stray segments are blanked. -/
theorem blanked_of_ne {segment : Segment} (kept : segment.kind ≠ .unexpected)
    : segment.blanked = segment := by
  unfold blanked
  split
  · next stray => exact absurd stray kept
  · rfl

/-- Only what starts nothing is written in another way. -/
theorem Divided.blurred {position : Position} {text : List Char} {segments : List Segment}
    (divided : Divided position text segments)
    : Forall₂ Blurs text (segments.flatMap (·.blanked.text)) := by
  induction divided with
  | nil => exact .nil
  | @cons position c tail rest kind segments reaches _ ih =>
      rw [List.flatMap_cons]
      refine List.rel_append ?_ ih
      by_cases stray : kind = .unexpected
      · subst stray
        obtain ⟨rfl, blank, _⟩ := extent_eq_unexpected_iff.mp reaches
        exact .cons (.stray (isFirst_of_extent reaches) blank) .nil
      · rw [blanked_of_ne stray]
        exact List.forall₂_same.mpr fun c _ => .same c

/-- The places after a text do not depend on what its characters are, apart from line breaks. -/
theorem advance_blurred {text text' : List Char} (blurred : Forall₂ Blurs text text')
    (position : Position)
    : position.advance text' = position.advance text := by
  induction blurred generalizing position with
  | nil => rfl
  | @cons c d text text' blurs _ ih =>
      have next : position.next d = position.next c := by
        simp only [Position.next, blurs.eq_iff (.inr rfl)]
      exact (ih (position.next d)).trans (congrArg (Position.advance · text) next)

/-- The rewritten text is cut in the same places. -/
theorem Divided.blanked {position : Position} {text : List Char} {segments : List Segment}
    (divided : Divided position text segments)
    : Divided position (segments.flatMap (·.blanked.text)) (segments.map Segment.blanked) := by
  induction divided with
  | nil position => exact .nil position
  | @cons position c tail rest kind segments reaches others ih =>
      by_cases stray : kind = .unexpected
      · subst stray
        obtain ⟨rfl, blank, _⟩ := extent_eq_unexpected_iff.mp reaches
        have blurs : Blurs c ' ' := .stray (isFirst_of_extent reaches) blank
        rw [← advance_blurred (.cons blurs .nil)] at ih
        exact @Divided.cons position ' ' [] _ .blank _ rfl ih
      · have kept : (⟨kind, c :: tail, position⟩ : Segment).blanked = ⟨kind, c :: tail, position⟩ :=
          blanked_of_ne stray
        rw [List.flatMap_cons, List.map_cons, kept]
        exact .cons (extent_blurred others.blurred reaches stray) ih

/-- Blanking a segment keeps its token, by cases on its kind. -/
theorem token?_blanked (segment : Segment) : segment.blanked.token? = segment.token? := by
  obtain ⟨kind, text, start⟩ := segment
  cases kind <;> rfl

/-- After so many characters there is a segment of one that starts nothing. -/
def StrayAt (segments : List Segment) (offset : Nat) : Prop :=
  ∃ front segment back, segments = front ++ segment :: back
    ∧ (front.flatMap Segment.text).length = offset ∧ segment.kind = .unexpected

/-- No offset of an empty text is stray. -/
theorem not_strayAt_nil (offset : Nat) : ¬ StrayAt [] offset := by
  rintro ⟨front, segment, back, divides, _⟩
  simp at divides

/-- A stray character is the first segment or comes after it. -/
theorem strayAt_cons_iff (segment : Segment) (segments : List Segment) (offset : Nat)
    : StrayAt (segment :: segments) offset
      ↔ (offset = 0 ∧ segment.kind = .unexpected)
        ∨ ∃ later, offset = segment.text.length + later ∧ StrayAt segments later := by
  constructor
  · rintro ⟨front, found, back, divides, rfl, stray⟩
    cases front with
    | nil =>
        obtain ⟨rfl, _⟩ := List.cons.inj divides
        exact .inl ⟨rfl, stray⟩
    | cons first front =>
        obtain ⟨rfl, others⟩ := List.cons.inj divides
        exact .inr ⟨_, by simp, front, found, back, others, rfl, stray⟩
  · rintro (⟨rfl, stray⟩ | ⟨_, rfl, front, found, back, rfl, rfl, stray⟩)
    · exact ⟨[], segment, segments, rfl, rfl, stray⟩
    · exact ⟨segment :: front, found, back, rfl, by simp, stray⟩

/-- The blanked text has a space at each stray offset and the same character everywhere else, by
induction on the division: an offset lies in the first segment or in those after it. -/
theorem Divided.getElem?_blanked {position : Position} {text : List Char} {segments : List Segment}
    (divided : Divided position text segments) (offset : Nat)
    : (StrayAt segments offset → (segments.flatMap (·.blanked.text))[offset]? = some ' ')
      ∧ (¬ StrayAt segments offset →
          (segments.flatMap (·.blanked.text))[offset]? = text[offset]?) := by
  induction divided generalizing offset with
  | nil => exact ⟨fun stray => absurd stray (not_strayAt_nil offset), fun _ => rfl⟩
  | @cons position c tail rest kind segments reaches others ih =>
      rw [strayAt_cons_iff, List.flatMap_cons]
      by_cases isStray : kind = .unexpected
      · subst isStray
        obtain ⟨rfl, _, _⟩ := extent_eq_unexpected_iff.mp reaches
        cases offset with
        | zero => exact ⟨fun _ => rfl, fun kept => absurd (.inl ⟨rfl, rfl⟩) kept⟩
        | succ offset =>
            have later : (∃ later, offset + 1 = [c].length + later ∧ StrayAt segments later)
                ↔ StrayAt segments offset := by
              simp [Nat.add_comm 1]
            simp only [Nat.add_one_ne_zero, false_and, false_or, later]
            exact ih offset
      · rw [blanked_of_ne isStray]
        rcases Nat.lt_or_ge offset (c :: tail).length with inside | outside
        · refine ⟨?_, fun _ => ?_⟩
          · rintro (⟨_, stray⟩ | ⟨later, rfl, _⟩)
            · exact absurd stray isStray
            · exact absurd inside (Nat.not_lt.mpr (Nat.le_add_right _ _))
          · rw [List.getElem?_append_left inside, List.getElem?_append_left inside]
        · obtain ⟨later, rfl⟩ := Nat.exists_eq_add_of_le outside
          rw [List.getElem?_append_right outside, List.getElem?_append_right outside,
            Nat.add_sub_cancel_left]
          simp only [isStray, and_false, false_or, Nat.add_left_cancel_iff, exists_eq_left']
          exact ih later

end Segment

/-- Whether the report is about a character that starts nothing. -/
def Diagnostic.isUnexpected (diagnostic : Diagnostic) : Bool :=
  match diagnostic.fault with
  | .unexpectedCharacter _ => true
  | .unterminatedString => false

/-- Blanking a segment drops its report just if it was about an unexpected character. -/
theorem Segment.diagnostic?_blanked (segment : Segment)
    : segment.blanked.diagnostic? = segment.diagnostic?.filter (!·.isUnexpected) := by
  obtain ⟨kind, text, start⟩ := segment
  cases kind with
  | unexpected => cases text <;> rfl
  | token | blank | comment | unterminated => rfl

namespace Lexed

/-- The text with a space in the place of each character that is reported as starting nothing. -/
def blanked (source : String) : String :=
  String.ofList ((Segment.ofText source.toList).flatMap (·.blanked.text))

/-- Characters that start nothing are what is reported as unexpected. -/
theorem strayAt_iff (text : List Char) (offset : Nat)
    : Segment.StrayAt (Segment.ofText text) offset
      ↔ ∃ diagnostic, ReportsAt text offset diagnostic ∧ diagnostic.isUnexpected = true := by
  constructor
  · rintro ⟨front, segment, back, divides, length, stray⟩
    have starts : segment.StartsAt text offset := ⟨front, back, divides, length⟩
    obtain ⟨c, tail, _, spelled, _⟩ := starts.spec
    have reports : segment.diagnostic? = some ⟨segment.start.line, .unexpectedCharacter c⟩ := by
      simp [Segment.diagnostic?, stray, spelled]
    exact ⟨_, ⟨segment, starts, reports⟩, rfl⟩
  · rintro ⟨diagnostic, ⟨segment, ⟨front, back, divides, length⟩, reports⟩, unexpected⟩
    refine ⟨front, segment, back, divides, length, ?_⟩
    unfold Segment.diagnostic? at reports
    split at reports
    · assumption
    · obtain rfl := Option.some.inj reports
      exact absurd unexpected Bool.false_ne_true
    · simp at reports

/-- One character that starts nothing does not spoil the rest. With a space in the place of each
such character, a text has the same tokens in the same places, and only the reports on these
characters are gone.
-/
theorem ofSource_blanked (source : String)
    : (∀ offset, (∃ diagnostic, ReportsAt source.toList offset diagnostic
            ∧ diagnostic.isUnexpected = true) →
          (blanked source).toList[offset]? = some ' ')
      ∧ (∀ offset, (¬ ∃ diagnostic, ReportsAt source.toList offset diagnostic
            ∧ diagnostic.isUnexpected = true) →
          (blanked source).toList[offset]? = source.toList[offset]?)
      ∧ (ofSource (blanked source)).tokens = (ofSource source).tokens
      ∧ (ofSource (blanked source)).diagnostics
        = (ofSource source).diagnostics.filter (!·.isUnexpected) := by
  have divided := Segment.divided_cut .start source.toList
  have text : (blanked source).toList
      = (Segment.ofText source.toList).flatMap (·.blanked.text) := String.toList_ofList
  have cut : Segment.ofText (blanked source).toList
      = (Segment.ofText source.toList).map Segment.blanked := by
    rw [text]
    exact divided.blanked.eq_cut
  have stop : endToken (blanked source).toList = endToken source.toList := by
    rw [text, endToken, endToken]
    exact congrArg _ (Segment.advance_blurred divided.blurred .start)
  refine ⟨fun offset => ?_, fun offset => ?_, ?_, ?_⟩
  · rw [← strayAt_iff, text]
    exact (divided.getElem?_blanked offset).1
  · rw [← strayAt_iff, text]
    exact (divided.getElem?_blanked offset).2
  · simp only [tokens, ofSource, ofChars, TokenStream.toList, cut, stop, List.filterMap_map,
      Function.comp_def, Segment.token?_blanked]
  · simp only [ofSource, ofChars, cut, List.filterMap_map, Function.comp_def,
      Segment.diagnostic?_blanked, List.filter_filterMap]

/-- Between these characters signs and numbers would grow together, and in the comment and in the
quotes the same character is no fault.
-/
theorem ofSource_blanked_apart
    : blanked "!#=1#2.#3/#/ //#\n\"#\"#\"" = "! =1 2. 3/ / //#\n\"#\" \""
      ∧ (ofSource "! =1 2. 3/ / //#\n\"#\" \"").tokens
        = (ofSource "!#=1#2.#3/#/ //#\n\"#\"#\"").tokens
      ∧ (ofSource "! =1 2. 3/ / //#\n\"#\" \"").diagnostics = [⟨2, .unterminatedString⟩] := by
  have rewritten : blanked "!#=1#2.#3/#/ //#\n\"#\"#\"" = "! =1 2. 3/ / //#\n\"#\" \"" := by
    decide +kernel
  obtain ⟨_, _, tokens, diagnostics⟩ := ofSource_blanked "!#=1#2.#3/#/ //#\n\"#\"#\""
  rw [rewritten] at tokens diagnostics
  exact ⟨rewritten, tokens, diagnostics.trans (by decide +kernel)⟩

end Lexed

-- Tokens with blank characters between them

namespace Segment

/-- Blank characters end every token. -/
theorem Separates.blank {c : Char} (blank : Text.isBlank c = true) (rest : List Char)
    : Separates (c :: rest) := by
  have starts := startsToken_of_isBlank blank
  have differs {other : Char} (known : startsToken other = true) : c ≠ other := by
    rintro rfl
    simp [known] at starts
  simp only [startsToken, Bool.or_eq_false_iff] at starts
  exact .cons ⟨starts.2, differs rfl, differs rfl, differs rfl⟩ rest

/-- Blank characters lex as no tokens, by induction on them. -/
theorem LexesAs.blanks {position : Position} {gap : List Char}
    (blank : ∀ c ∈ gap, Text.isBlank c = true) (after : List Char)
    : LexesAs position gap after [] := by
  induction gap generalizing position with
  | nil => exact .nil after
  | cons c gap ih =>
      obtain ⟨first, others⟩ := List.forall_mem_cons.mp blank
      have reaches : extent c ([] ++ (gap ++ after)) = (.blank, 0) :=
        extent_eq_blank_iff.mpr ⟨rfl, first⟩
      have single : LexesAs position [c] (gap ++ after) [] :=
        ⟨[⟨.blank, [c], position⟩], fun _ later => .cons reaches later, rfl, rfl⟩
      exact single.append (ih others)

end Segment

namespace Lexed

open Segment

/-- The lexemes of tokens one after the other, with a gap after each. -/
def writtenOut : List Token → List String → String
  | token :: tokens, gap :: gaps => token.lexeme ++ gap ++ writtenOut tokens gaps
  | _, _ => ""

/-- Only blank characters, and at least one. -/
def IsGap (gap : String) : Prop :=
  gap ≠ "" ∧ ∀ c ∈ gap.toList, Text.isBlank c = true

instance (gap : String) : Decidable (IsGap gap) :=
  decidable_of_iff (gap ≠ "" ∧ gap.toList.all Text.isBlank = true) (by rw [IsGap, List.all_eq_true])

/-- A gap separates, since it starts with a blank character. -/
theorem IsGap.separates {gap : String} (isGap : IsGap gap) (rest : List Char)
    : Separates (gap.toList ++ rest) := by
  obtain ⟨c, tail, text⟩ := List.exists_cons_of_ne_nil (mt String.toList_eq_nil_iff.mp isGap.1)
  rw [text, List.cons_append]
  exact .blank (isGap.2 c (by simp [text])) _

/-- Tokens written out with gaps lex as themselves up to their places, by induction on the tokens:
each is genuine and a gap after it separates. -/
theorem lexesAs_writtenOut {tokens : List Token} (genuine : ∀ token ∈ tokens, token.IsGenuine)
    {gaps : List String} (areGaps : ∀ gap ∈ gaps, IsGap gap) (enough : gaps.length = tokens.length)
    (position : Position)
    : ∃ written, LexesAs position (writtenOut tokens gaps).toList [] written
      ∧ written.map Token.unplaced = tokens.map Token.unplaced := by
  induction tokens generalizing gaps position with
  | nil =>
      obtain rfl := List.length_eq_zero_iff.mp enough
      exact ⟨[], .nil [], rfl⟩
  | cons token tokens ih =>
      obtain ⟨gap, gaps, rfl⟩ := List.exists_cons_of_length_eq_add_one enough
      obtain ⟨isGenuine, others⟩ := List.forall_mem_cons.mp genuine
      obtain ⟨isGap, further⟩ := List.forall_mem_cons.mp areGaps
      have first : LexesAs position token.lexeme.toList
          (gap.toList ++ (writtenOut tokens gaps).toList) [token.movedTo position] :=
        .genuine isGenuine (isGap.separates _)
      have between : LexesAs (position.advance token.lexeme.toList) gap.toList
          ((writtenOut tokens gaps).toList ++ []) [] :=
        .blanks isGap.2 _
      obtain ⟨written, lexes, same⟩ := ih others further (Nat.succ.inj enough)
        ((position.advance token.lexeme.toList).advance gap.toList)
      have text : (writtenOut (token :: tokens) (gap :: gaps)).toList
          = token.lexeme.toList ++ (gap.toList ++ (writtenOut tokens gaps).toList) := by
        simp [writtenOut]
      refine ⟨token.movedTo position :: written, ?_, List.cons_eq_cons.mpr ⟨rfl, same⟩⟩
      rw [text]
      exact LexesAs.append (by rwa [List.append_nil]) (between.append lexes)

/-- The tokens of a text can be written out again: with any blank characters after each of them, the
lexemes have the same tokens, up to their places, and nothing is reported.
-/
theorem ofSource_writtenOut (source : String) (gaps : List String)
    (areGaps : ∀ gap ∈ gaps, IsGap gap)
    (enough : gaps.length = (ofSource source).stream.body.length)
    : (ofSource (writtenOut (ofSource source).stream.body gaps)).diagnostics = []
      ∧ (ofSource (writtenOut (ofSource source).stream.body gaps)).tokens.map Token.unplaced
        = (ofSource source).tokens.map Token.unplaced := by
  obtain ⟨written, lexes, same⟩ := lexesAs_writtenOut (fun _ => isGenuine) areGaps enough .start
  obtain ⟨body, silent⟩ := lexes.ofChars
  refine ⟨silent, ?_⟩
  have written : (ofSource (writtenOut (ofSource source).stream.body gaps)).stream.body = written :=
    body
  simp only [tokens, TokenStream.toList, List.map_append, written, same]
  rfl

/-- Signs that would grow, a point after a number, two slashes and a text in quotes with a comment
sign and a line break in it.
-/
theorem ofSource_writtenOut_signs
    : (writtenOut (ofSource "a=!=1.5./ /\"//\nb\"").stream.body
          ["\t", "\n", " ", "\r\n", "  ", "\n", "\x0b", " "]
        = "a\t=\n!= 1.5\r\n.  /\n/\x0b\"//\nb\" ")
      ∧ (ofSource "a\t=\n!= 1.5\r\n.  /\n/\x0b\"//\nb\" ").diagnostics = []
      ∧ (ofSource "a\t=\n!= 1.5\r\n.  /\n/\x0b\"//\nb\" ").tokens.map Token.unplaced
        = (ofSource "a=!=1.5./ /\"//\nb\"").tokens.map Token.unplaced := by
  have rewritten : writtenOut (ofSource "a=!=1.5./ /\"//\nb\"").stream.body
      ["\t", "\n", " ", "\r\n", "  ", "\n", "\x0b", " "]
        = "a\t=\n!= 1.5\r\n.  /\n/\x0b\"//\nb\" " := by
    decide +kernel
  have again := ofSource_writtenOut "a=!=1.5./ /\"//\nb\""
    ["\t", "\n", " ", "\r\n", "  ", "\n", "\x0b", " "] (by decide +kernel) (by decide +kernel)
  rw [rewritten] at again
  exact ⟨rewritten, again⟩

end Lexed

end Sprig
