import Sprig.Proofs.Lexing.Division
import Sprig.Proofs.Tree.Stripped

/-! What a text consists of: tokens, each the longest at its place, and what is left out between
them. Cutting a text finds these parts, and a text has no other parts to find.
-/

namespace Sprig

namespace Segment

open TokenKind

-- First characters

/-- Whether there are tokens that start with the character. -/
def startsToken (c : Char) : Bool :=
  (ofSign? c).isSome || (ofExtensibleSign? c).isSome || c == '/' || c == '"' || isWordPart c

/-- The characters that start a token are the first ones of lexemes, by the forms of a lexeme one
way and by the classes of characters the other. -/
theorem startsToken_iff (c : Char)
    : startsToken c = true ↔ ∃ kind tail, IsLexeme kind (c :: tail) := by
  simp only [startsToken, isWordPart, Bool.or_eq_true, beq_iff_eq, Option.isSome_iff_exists]
  constructor
  · rintro ((((⟨kind, isSign⟩ | ⟨⟨alone, extended⟩, extensible⟩) | rfl) | rfl) | starts | isDigit)
    · exact ⟨kind, [], .sign isSign⟩
    · exact ⟨alone, [], .alone extensible⟩
    · exact ⟨.slash, [], .slash⟩
    · exact ⟨.string, ['"'], @IsLexeme.string [] (by simp)⟩
    · exact ⟨_, [], .word starts (by simp)⟩
    · exact ⟨.number, [], .number isDigit (.whole (by simp))⟩
  · rintro ⟨kind, tail, isLexeme⟩
    cases isLexeme with
    | sign isSign => simp [isSign]
    | alone extensible | extended extensible => simp [extensible]
    | slash | string => simp
    | number isDigit => simp [isDigit]
    | word starts => simp [starts]

/-- Blank characters start nothing. -/
theorem startsToken_of_isBlank {c : Char} (blank : Text.isBlank c = true)
    : startsToken c = false := by
  rw [Bool.eq_false_iff]
  intro starts
  simp only [startsToken, Bool.or_eq_true, beq_iff_eq] at starts
  rcases starts with (((isSign | extensible) | rfl) | rfl) | isPart
  · unfold ofSign? at isSign
    split at isSign <;> first | exact absurd blank (by decide) | simp at isSign
  · unfold ofExtensibleSign? at extensible
    split at extensible <;> first | exact absurd blank (by decide) | simp at extensible
  · exact absurd blank (by decide)
  · exact absurd blank (by decide)
  · simp [(classes_of_isWordPart isPart).2.2.2.1] at blank

/-- A character that starts no token is a segment by itself, blank or unexpected. -/
theorem extent_of_not_startsToken {c : Char} (starts : startsToken c = false) (rest : List Char)
    : extent c rest = (if Text.isBlank c then .blank else .unexpected, 0) := by
  simp only [startsToken, isWordPart, Bool.or_eq_false_iff, beq_eq_false_iff_ne,
    Option.isSome_eq_false_iff, Option.isNone_iff_eq_none] at starts
  obtain ⟨⟨⟨⟨sign, extensible⟩, slash⟩, quote⟩, word, digit⟩ := starts
  simp only [extent, sign, extensible, slash, quote, word, digit, if_false, Bool.false_eq_true]
  split <;> rfl

-- Longest tokens

/-- No token that starts where the text does is longer than the text, and no comment starts
there. -/
structure IsLongest (text rest : List Char) : Prop where
  longest : ∀ kind other, IsLexeme kind other → other <+: text ++ rest →
    other.length ≤ text.length
  noComment : ¬ ['/', '/'] <+: text ++ rest

/-- A number goes as far as any number that starts in the same place. -/
theorem length_le_numberTail {tail : List Char} (isTail : IsNumberTail tail) (after : List Char)
    : tail.length ≤ numberTail (tail ++ after) := by
  cases isTail with
  | whole all =>
      have digits := run_append all after
      simp only [numberTail]
      split
      · split <;> omega
      · omega
  | @pointed digits places all some allPlaces =>
      have point : ∀ c ∈ ('.' :: (places ++ after)).head?, c.isDigit = false := by simp
      have digits := run_append_of_head all point
      have fraction := run_append allPlaces after
      have notEmpty : places.length ≠ 0 := by simpa using some
      simp only [numberTail, List.append_assoc, List.cons_append, digits, List.drop_left,
        List.length_append, List.length_cons]
      rw [if_neg (by omega)]
      omega

/-- Where some token starts, a token is found that is no shorter. -/
theorem exists_extent_of_isLexeme {c : Char} {tail after : List Char} {kind : TokenKind}
    (isLexeme : IsLexeme kind (c :: tail)) (noComment : ¬ ['/', '/'] <+: c :: tail ++ after)
    : ∃ found length, extent c (tail ++ after) = (.token found, length)
      ∧ tail.length ≤ length := by
  cases isLexeme with
  | sign isSign => exact ⟨_, _, extent_of_sign isSign _, Nat.le_refl 0⟩
  | alone extensible =>
      rw [extent_of_extensible extensible]
      split
      · exact ⟨_, _, rfl, Nat.zero_le 1⟩
      · exact ⟨_, _, rfl, Nat.le_refl 0⟩
  | extended extensible =>
      exact ⟨_, _, extent_of_extensible extensible _, Nat.le_refl 1⟩
  | slash =>
      have next : after.head? ≠ some '/' := by
        intro next
        obtain ⟨more, rfl⟩ := List.head?_eq_some_iff.mp next
        exact noComment ⟨more, rfl⟩
      exact ⟨_, _, (extent_slash after).trans (if_neg next), Nat.le_refl 0⟩
  | string noQuote => exact ⟨_, _, extent_string noQuote after, Nat.le_refl _⟩
  | number isDigit isTail =>
      exact ⟨_, _, extent_of_isDigit isDigit _, length_le_numberTail isTail after⟩
  | word starts parts =>
      refine ⟨_, _, extent_of_isWordStart starts _, ?_⟩
      rw [run_append parts]
      exact Nat.le_add_right _ _

/-- A text is of one kind. -/
theorem IsLexeme.kind_unique {kind other : TokenKind} {text : List Char}
    (isLexeme : IsLexeme kind text) (isOther : IsLexeme other text)
    : kind = other := by
  obtain ⟨c, tail, rfl⟩ := isLexeme.exists_cons
  have found := extent_of_isLexeme isLexeme Separates.nil
  rw [extent_of_isLexeme isOther Separates.nil] at found
  simpa using found.symm

-- What is found

section Found

variable {c : Char} {tail rest : List Char}

/-- A token is found exactly where it is the longest. -/
theorem extent_eq_token_iff {kind : TokenKind}
    : extent c (tail ++ rest) = (.token kind, tail.length)
      ↔ IsLexeme kind (c :: tail) ∧ IsLongest (c :: tail) rest := by
  constructor
  · intro found
    have isLexeme := isLexeme_of_extent found
    rw [List.take_left] at isLexeme
    have noComment : ¬ ['/', '/'] <+: c :: tail ++ rest := by
      rintro ⟨more, starts⟩
      obtain ⟨rfl, next⟩ : '/' = c ∧ '/' :: more = tail ++ rest := by simpa using starts
      simp [← next, extent_slash] at found
    refine ⟨isLexeme, fun other text isOther starts => ?_, noComment⟩
    obtain ⟨d, tail', rfl⟩ := isOther.exists_cons
    obtain ⟨more, starts⟩ := starts
    obtain ⟨rfl, spelled⟩ : d = c ∧ tail' ++ more = tail ++ rest := by simpa using starts
    rw [← starts] at noComment
    obtain ⟨_, length, foundOther, reaches⟩ := exists_extent_of_isLexeme isOther noComment
    rw [spelled, found] at foundOther
    obtain ⟨_, rfl⟩ := Prod.mk.inj foundOther
    simpa using reaches
  · rintro ⟨isLexeme, longest, noComment⟩
    obtain ⟨found, length, reaches, longer⟩ := exists_extent_of_isLexeme isLexeme noComment
    have isFound := isLexeme_of_extent reaches
    have inside : length ≤ (tail ++ rest).length := by
      have inside := length_extent_le c (tail ++ rest)
      rwa [reaches] at inside
    have shorter := longest found _ isFound (List.cons_prefix_cons.mpr ⟨rfl, List.take_prefix _ _⟩)
    simp only [List.length_cons, List.length_take, Nat.min_eq_left inside] at shorter
    obtain rfl : tail.length = length := by omega
    rw [List.take_left] at isFound
    rw [reaches, isFound.kind_unique isLexeme]

/-- What is known of the first character of anything but a token. -/
def IsFirst (c : Char) : SegmentKind → Prop
  | .token _ => True
  | .comment => c = '/'
  | .unterminated => c = '"'
  | .blank | .unexpected => startsToken c = false

/-- The first character of a segment is one that starts its kind, by the forms of a lexeme that
the character may start. -/
theorem isFirst_extent (c : Char) (rest : List Char) : IsFirst c (extent c rest).1 := by
  cases starts : startsToken c with
  | false =>
      rw [extent_of_not_startsToken starts]
      dsimp only
      split <;> exact starts
  | true =>
      obtain ⟨kind, tail, isLexeme⟩ := (startsToken_iff c).mp starts
      cases isLexeme with
      | sign isSign =>
          rw [extent_of_sign isSign]
          trivial
      | alone extensible | extended extensible =>
          rw [extent_of_extensible extensible]
          split <;> trivial
      | slash =>
          rw [extent_slash]
          split
          · exact rfl
          · trivial
      | string =>
          rw [extent_quote]
          split
          · trivial
          · exact rfl
      | number isDigit =>
          rw [extent_of_isDigit isDigit]
          trivial
      | word starts =>
          rw [extent_of_isWordStart starts]
          trivial

/-- The same of a segment that was found. -/
theorem isFirst_of_extent {kind : SegmentKind} {length : Nat}
    (found : extent c rest = (kind, length))
    : IsFirst c kind := by
  have isFirst := isFirst_extent c rest
  rwa [found] at isFirst

/-- A blank segment is one blank character. -/
theorem extent_eq_blank_iff
    : extent c (tail ++ rest) = (.blank, tail.length) ↔ tail = [] ∧ Text.isBlank c = true := by
  constructor
  · intro found
    rw [extent_of_not_startsToken (isFirst_of_extent found)] at found
    obtain ⟨kind, length⟩ := Prod.mk.inj found
    split at kind
    · next blank => exact ⟨List.length_eq_zero_iff.mp length.symm, blank⟩
    · exact SegmentKind.noConfusion kind
  · rintro ⟨rfl, blank⟩
    rw [extent_of_not_startsToken (startsToken_of_isBlank blank), if_pos blank]
    rfl

/-- An unexpected segment is one character that is not blank and starts no lexeme. -/
theorem extent_eq_unexpected_iff
    : extent c (tail ++ rest) = (.unexpected, tail.length)
      ↔ tail = [] ∧ Text.isBlank c = false ∧ ∀ kind tail, ¬ IsLexeme kind (c :: tail) := by
  have none_iff : startsToken c = false ↔ ∀ kind tail, ¬ IsLexeme kind (c :: tail) := by
    rw [Bool.eq_false_iff, ne_eq, startsToken_iff]
    simp only [not_exists]
  rw [← none_iff]
  constructor
  · intro found
    have starts : startsToken c = false := isFirst_of_extent found
    rw [extent_of_not_startsToken starts] at found
    obtain ⟨kind, length⟩ := Prod.mk.inj found
    split at kind
    · exact SegmentKind.noConfusion kind
    · next blank => exact ⟨List.length_eq_zero_iff.mp length.symm, by simpa using blank, starts⟩
  · rintro ⟨rfl, blank, starts⟩
    rw [extent_of_not_startsToken starts, blank]
    rfl

/-- A comment ends before a line break or with the text. -/
theorem extent_eq_comment_iff
    : extent c (tail ++ rest) = (.comment, tail.length)
      ↔ ∃ body, c :: tail = '/' :: '/' :: body ∧ (∀ d ∈ body, d ≠ '\n')
        ∧ ∀ d ∈ rest.head?, d = '\n' := by
  constructor
  · intro found
    obtain rfl : c = '/' := isFirst_of_extent found
    rw [extent_slash] at found
    split at found
    · next next =>
      obtain ⟨all, stops⟩ := run_append_eq_iff.mp (Prod.mk.inj found).2
      cases tail with
      | nil => simpa using stops '/' next
      | cons d body =>
          obtain rfl : d = '/' := by simpa using next
          exact ⟨body, rfl, by simpa using all, by simpa using stops⟩
    · exact absurd (Prod.mk.inj found).1 (by simp)
  · rintro ⟨body, spelled, noBreak, stops⟩
    obtain ⟨rfl, rfl⟩ := List.cons.inj spelled
    have ends : run (· != '\n') ('/' :: body ++ rest) = ('/' :: body).length :=
      run_append_eq_iff.mpr ⟨by simpa using noBreak, by simpa using stops⟩
    have next : ('/' :: body ++ rest).head? = some '/' := rfl
    rw [extent_slash, if_pos next, ends]

/-- A quote is left open if there is no other one after it. -/
theorem extent_eq_unterminated_iff
    : extent c (tail ++ rest) = (.unterminated, tail.length)
      ↔ c = '"' ∧ rest = [] ∧ ∀ d ∈ tail, d ≠ '"' := by
  have isOpen_iff (text : List Char)
      : ¬ run (· != '"') text < text.length ↔ ∀ d ∈ text, d ≠ '"' := by
    have ends : run (· != '"') text = text.length ↔ ∀ d ∈ text, d ≠ '"' := by
      simpa using @run_append_eq_iff (· != '"') text []
    rw [← ends]
    have le := run_le_length (p := (· != '"')) text
    omega
  constructor
  · intro found
    obtain rfl : c = '"' := isFirst_of_extent found
    rw [extent_quote] at found
    split at found
    · exact absurd (Prod.mk.inj found).1 (by simp)
    · next isOpen =>
      obtain rfl : rest = [] := by simpa using (Prod.mk.inj found).2
      rw [List.append_nil] at isOpen
      exact ⟨rfl, rfl, (isOpen_iff tail).mp isOpen⟩
  · rintro ⟨rfl, rfl, noQuote⟩
    rw [extent_quote, List.append_nil, if_neg ((isOpen_iff tail).mpr noQuote)]

end Found

end Segment

namespace Lexed

open Segment

/-- What a report is about, and how it is worded. -/
abbrev Report := LexicalFault × String

/-- What a text consists of, from left to right: its tokens, and the reports on what is left out
between them. -/
inductive Consists : List Char → List Token → List Report → Prop where
  | nil : Consists [] [] []
  | token {token : Token} {rest : List Char} {tokens : List Token} {reports : List Report} :
      token.IsGenuine → IsLongest token.lexeme.toList rest → Consists rest tokens reports →
      Consists (token.lexeme.toList ++ rest) (token :: tokens) reports
  | blank {c : Char} {rest : List Char} {tokens : List Token} {reports : List Report} :
      Text.isBlank c = true → Consists rest tokens reports → Consists (c :: rest) tokens reports
  /-- A comment ends before a line break or with the text. -/
  | comment {body rest : List Char} {tokens : List Token} {reports : List Report} :
      (∀ c ∈ body, c ≠ '\n') → (∀ c ∈ rest.head?, c = '\n') → Consists rest tokens reports →
      Consists ('/' :: '/' :: body ++ rest) tokens reports
  | unexpected {c : Char} {rest : List Char} {tokens : List Token} {reports : List Report} :
      Text.isBlank c = false → (∀ kind tail, ¬ IsLexeme kind (c :: tail)) →
      Consists rest tokens reports →
      Consists (c :: rest) tokens ((.unexpectedCharacter c,
        "Unexpected character " ++ String.ofList (Text.quoted [c]) ++ ".") :: reports)
  | unterminated {inner : List Char} : (∀ c ∈ inner, c ≠ '"') →
      Consists ('"' :: inner) [] [(.unterminatedString, "Unterminated string.")]

/-- A text consists of a longest lexeme as its token and of what the rest consists of. -/
theorem Consists.ofLexeme {kind : TokenKind} {text rest : List Char} {tokens : List Token}
    {reports : List Report} (isLexeme : IsLexeme kind text) (longest : IsLongest text rest)
    (others : Consists rest tokens reports) (position : Position)
    : Consists (text ++ rest) (⟨kind, String.ofList text, literal kind text, position⟩ :: tokens)
        reports := by
  have isGenuine := Token.isGenuine_ofLexeme isLexeme position
  simpa using Consists.token isGenuine (by simpa using longest) others

end Lexed

/-- The report that a diagnostic makes. -/
def Diagnostic.report (diagnostic : Diagnostic) : Lexed.Report :=
  (diagnostic.fault, diagnostic.message)

/-- A text that is cut into segments consists of what these stand for. -/
theorem Segment.Divided.consists {position : Position} {text : List Char} {segments : List Segment}
    (divided : Divided position text segments)
    : Lexed.Consists text (segments.filterMap token?)
        ((segments.filterMap diagnostic?).map Diagnostic.report) := by
  induction divided with
  | nil position => exact .nil
  | @cons position c tail rest kind segments reaches others ih =>
      cases kind with
      | token kind =>
          obtain ⟨isLexeme, longest⟩ := extent_eq_token_iff.mp reaches
          exact .ofLexeme isLexeme longest ih position
      | blank =>
          obtain ⟨rfl, blank⟩ := extent_eq_blank_iff.mp reaches
          exact .blank blank ih
      | comment =>
          obtain ⟨body, spelled, noBreak, stops⟩ := extent_eq_comment_iff.mp reaches
          rw [spelled]
          exact .comment noBreak stops ih
      | unexpected =>
          obtain ⟨rfl, blank, none⟩ := extent_eq_unexpected_iff.mp reaches
          exact .unexpected blank none ih
      | unterminated =>
          obtain ⟨rfl, rfl, noQuote⟩ := extent_eq_unterminated_iff.mp reaches
          cases others
          rw [List.append_nil]
          exact .unterminated noQuote

/-- What a text consists of is what it is cut into. -/
theorem Lexed.Consists.divided {text : List Char} {tokens : List Token}
    {reports : List Report} (consists : Consists text tokens reports) (position : Position)
    : ∃ segments, Segment.Divided position text segments
      ∧ (segments.filterMap Segment.token?).map Token.unplaced = tokens.map Token.unplaced
      ∧ (segments.filterMap Segment.diagnostic?).map Diagnostic.report = reports := by
  induction consists generalizing position with
  | nil => exact ⟨[], .nil position, rfl, rfl⟩
  | @token token rest tokens reports isGenuine longest _ ih =>
      obtain ⟨c, tail, text⟩ := isGenuine.isLexeme.exists_cons
      obtain ⟨segments, others, sameTokens, sameReports⟩ := ih (position.advance (c :: tail))
      have isLexeme := isGenuine.isLexeme
      rw [text] at longest isLexeme ⊢
      have reaches := Segment.extent_eq_token_iff.mpr ⟨isLexeme, longest⟩
      -- the place is the only thing about the token that the text does not tell
      have same : Token.unplaced ⟨token.kind, String.ofList (c :: tail),
          Segment.literal token.kind (c :: tail), position⟩ = token.unplaced := by
        rw [← text, ← isGenuine.literal, String.ofList_toList]
        rfl
      refine ⟨_, .cons reaches others, ?_, sameReports⟩
      exact List.cons_eq_cons.mpr ⟨same, sameTokens⟩
  | @blank c rest tokens reports blank _ ih =>
      obtain ⟨segments, others, sameTokens, sameReports⟩ := ih (position.advance [c])
      have reaches : Segment.extent c ([] ++ rest) = (.blank, 0) :=
        Segment.extent_eq_blank_iff.mpr ⟨rfl, blank⟩
      exact ⟨_, .cons reaches others, sameTokens, sameReports⟩
  | @comment body rest tokens reports noBreak stops _ ih =>
      obtain ⟨segments, others, sameTokens, sameReports⟩ :=
        ih (position.advance ('/' :: '/' :: body))
      have reaches := Segment.extent_eq_comment_iff.mpr ⟨body, rfl, noBreak, stops⟩
      exact ⟨_, .cons reaches others, sameTokens, sameReports⟩
  | @unexpected c rest tokens reports blank none _ ih =>
      obtain ⟨segments, others, sameTokens, sameReports⟩ := ih (position.advance [c])
      have reaches : Segment.extent c ([] ++ rest) = (.unexpected, 0) :=
        Segment.extent_eq_unexpected_iff.mpr ⟨rfl, blank, none⟩
      refine ⟨_, .cons reaches others, sameTokens, ?_⟩
      exact congrArg (List.cons _) sameReports
  | @unterminated inner noQuote =>
      have reaches := Segment.extent_eq_unterminated_iff.mpr ⟨rfl, rfl, noQuote⟩
      have divided := Segment.Divided.cons reaches (.nil (position.advance ('"' :: inner)))
      rw [List.append_nil] at divided
      exact ⟨_, divided, rfl, rfl⟩

namespace Lexed

/-- A quoted text stands for what is between its quotes. -/
theorem exists_quoted {source : String} {token : Token}
    (member : token ∈ (ofSource source).stream.body) (isString : token.kind = .string)
    : ∃ inner, '"' ∉ inner ∧ token.lexeme.toList = '"' :: (inner ++ ['"'])
      ∧ token.literal = some (.text (String.ofList inner)) := by
  obtain ⟨isLexeme, literal⟩ := isGenuine member
  rw [isString] at isLexeme literal
  obtain ⟨inner, text, noQuote⟩ := isLexeme.exists_inner
  refine ⟨inner, fun member => noQuote _ member rfl, text, ?_⟩
  rw [literal, text]
  simp [Segment.literal]

/-- A text is made up, without gaps, of its tokens, blank characters, comments and what is reported:
characters that start nothing, one by one, and a text in quotes that is not closed, each with the
message that is meant for it. Each token is the longest at its place, the end of the text is the
last one and the only end, and no other tokens and reports would make up the text. Both directions
go through the segments that the text is cut into.
-/
theorem ofSource_consists (source : String)
    : Consists source.toList (ofSource source).stream.body
        ((ofSource source).diagnostics.map Diagnostic.report)
      ∧ (∃ stop, (ofSource source).tokens = (ofSource source).stream.body ++ [stop]
          ∧ stop.kind = .endOfText ∧ stop.lexeme = "" ∧ stop.literal = none
          ∧ ∀ token ∈ (ofSource source).stream.body, token.kind ≠ .endOfText)
      ∧ (∀ token ∈ (ofSource source).stream.body, token.kind = .string →
          ∃ inner, '"' ∉ inner ∧ token.lexeme.toList = '"' :: (inner ++ ['"'])
            ∧ token.literal = some (.text (String.ofList inner)))
      ∧ ∀ tokens reports, Consists source.toList tokens reports →
          tokens.map Token.unplaced = (ofSource source).stream.body.map Token.unplaced
          ∧ reports = (ofSource source).diagnostics.map Diagnostic.report := by
  have divided := Segment.divided_cut .start source.toList
  refine ⟨divided.consists, ⟨_, rfl, rfl, rfl, rfl, ?_⟩, fun _ => exists_quoted, ?_⟩
  · intro token member
    exact (isGenuine member).isLexeme.ne_endOfText
  · intro tokens reports consists
    obtain ⟨segments, divided, sameTokens, sameReports⟩ := consists.divided .start
    have cut : Segment.ofText source.toList = segments := divided.eq_cut
    subst cut
    exact ⟨sameTokens.symm, sameReports.symm⟩

/-- Signs that grow, a point after a number, a comment, a character that starts nothing and a quote
that is not closed. -/
theorem ofSource_consists_mixed
    : ∃ tokens reports, Consists "a<==1.5.//b\n#\"c".toList tokens reports
      ∧ (tokens.map fun token => (token.kind, token.lexeme))
        = [(.identifier, "a"), (.lessEqual, "<="), (.equal, "="), (.number, "1.5"), (.dot, ".")]
      ∧ reports = [(.unexpectedCharacter '#', "Unexpected character '#'."),
          (.unterminatedString, "Unterminated string.")]
      ∧ (ofSource "a<==1.5.//b\n#\"c").diagnostics.map Diagnostic.message
        = ["Unexpected character '#'.", "Unterminated string."]
      ∧ ∀ tokens' reports', Consists "a<==1.5.//b\n#\"c".toList tokens' reports' →
          tokens'.map Token.unplaced = tokens.map Token.unplaced := by
  obtain ⟨consists, _, _, unique⟩ := ofSource_consists "a<==1.5.//b\n#\"c"
  refine ⟨_, _, consists, by decide +kernel, by decide +kernel, by decide +kernel, ?_⟩
  intro tokens' reports' consists'
  exact (unique tokens' reports' consists').1

end Lexed

end Sprig
