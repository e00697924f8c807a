import Sprig.Proofs.Lexing.Extent
import Sprig.Token.Lexed

/-! Cutting a text into segments, as a relation between a text and its segments. Each segment
starts where the one before it ended, so stretches of text that keep their extents can be put
together, and the tokens of the whole are those of the parts.
-/

namespace Sprig

namespace Segment

/-- A text that starts at a position is divided into segments that reach as far as they can. -/
inductive Divided : Position → List Char → List Segment → Prop where
  | nil (position : Position) : Divided position [] []
  | cons {position : Position} {c : Char} {tail rest : List Char} {kind : SegmentKind}
      {segments : List Segment} (reaches : extent c (tail ++ rest) = (kind, tail.length))
      (others : Divided (position.advance (c :: tail)) rest segments)
    : Divided position (c :: tail ++ rest) (⟨kind, c :: tail, position⟩ :: segments)

/-- Leaving out characters is cutting from a later place. -/
theorem cut_skip (position : Position) (skip : Nat) (text : List Char)
    : cut position skip text []
      = cut (position.advance (text.take skip)) 0 (text.drop skip) [] := by
  induction text generalizing position skip with
  | nil => simp [cut]
  | cons c rest ih =>
      cases skip with
      | zero => rfl
      | succ skip => exact ih (position.next c) skip

/-- Cutting a text makes one segment of its extent and cuts the rest from the place after it. -/
theorem cut_cons (position : Position) (c : Char) (rest : List Char)
    : cut position 0 (c :: rest) []
      = ⟨(extent c rest).1, c :: rest.take (extent c rest).2, position⟩
        :: cut (position.advance (c :: rest.take (extent c rest).2)) 0
            (rest.drop (extent c rest).2) [] := by
  simp only [cut]
  rw [cut_eq_append, cut_skip]
  rfl

/-- Cutting a text divides it, by recursion on what is left after the first segment. -/
theorem divided_cut (position : Position) (text : List Char)
    : Divided position text (cut position 0 text []) := by
  cases text with
  | nil => exact .nil position
  | cons c rest =>
      have le := length_extent_le c rest
      have others := divided_cut (position.advance (c :: rest.take (extent c rest).2))
        (rest.drop (extent c rest).2)
      have reaches : extent c (rest.take (extent c rest).2 ++ rest.drop (extent c rest).2)
          = ((extent c rest).1, (rest.take (extent c rest).2).length) := by
        rw [List.take_append_drop, List.length_take_of_le le]
      have divided := Divided.cons reaches others
      rw [List.cons_append, List.take_append_drop] at divided
      rw [cut_cons]
      exact divided
termination_by text.length
decreasing_by
  simp only [List.length_drop, List.length_cons]
  omega

/-- There is one division only. -/
theorem Divided.eq_cut {position : Position} {text : List Char} {segments : List Segment}
    (divided : Divided position text segments)
    : cut position 0 text [] = segments := by
  induction divided with
  | nil position => rfl
  | cons reaches others ih => simp [cut_cons, reaches, ih]

end Segment

-- The tokens of a text

/-- The token has a text of its kind and the value that the text stands for. -/
structure Token.IsGenuine (token : Token) : Prop where
  isLexeme : Segment.IsLexeme token.kind token.lexeme.toList
  literal : token.literal = Segment.literal token.kind token.lexeme.toList

/-- A lexeme with its literal makes a genuine token at any place. -/
theorem Token.isGenuine_ofLexeme {kind : TokenKind} {text : List Char}
    (isLexeme : Segment.IsLexeme kind text) (position : Position)
    : Token.IsGenuine ⟨kind, String.ofList text, Segment.literal kind text, position⟩ :=
  ⟨by simpa using isLexeme, by simp⟩

/-- Every token of a divided text is genuine, by induction on the division: the extent of a token
spells a lexeme of its kind. -/
theorem Segment.Divided.isGenuine {position : Position} {text : List Char}
    {segments : List Segment} (divided : Divided position text segments) {token : Token}
    (mem : token ∈ segments.filterMap token?)
    : token.IsGenuine := by
  induction divided with
  | nil position => simp at mem
  | @cons position c tail rest kind segments reaches others ih =>
      simp only [List.mem_filterMap, List.mem_cons, exists_eq_or_imp] at mem
      rcases mem with first | ⟨segment, mem, isToken⟩
      · cases kind with
        | token kind =>
            obtain rfl := Option.some.inj first
            have isLexeme := isLexeme_of_extent reaches
            rw [List.take_left] at isLexeme
            exact Token.isGenuine_ofLexeme isLexeme position
        | blank | comment | unexpected | unterminated => simp [token?] at first
      · exact ih (List.mem_filterMap.mpr ⟨segment, mem, isToken⟩)

/-- Every token of a lexed text is genuine, since lexing divides it. -/
theorem Lexed.isGenuine {text : List Char} {token : Token}
    (mem : token ∈ (Lexed.ofChars text).stream.body)
    : token.IsGenuine :=
  (Segment.divided_cut .start text).isGenuine mem

/-- The token at another place. -/
def Token.movedTo (token : Token) (position : Position) : Token :=
  { token with position }

/-- Moving a token keeps its kind. -/
@[simp] theorem Token.movedTo_kind (token : Token) (position : Position)
    : (token.movedTo position).kind = token.kind :=
  rfl

/-- Moving a token keeps its lexeme. -/
@[simp] theorem Token.movedTo_lexeme (token : Token) (position : Position)
    : (token.movedTo position).lexeme = token.lexeme :=
  rfl

namespace Segment

/-- Between a place and the text `after` it, a text consists of the given tokens, and nothing
of it is reported.
-/
def LexesAs (position : Position) (text after : List Char) (tokens : List Token) : Prop :=
  ∃ segments : List Segment,
    (∀ later, Divided (position.advance text) after later →
      Divided position (text ++ after) (segments ++ later))
    ∧ segments.filterMap token? = tokens ∧ segments.filterMap diagnostic? = []

namespace LexesAs

variable {position : Position}

/-- Nothing lexes as no tokens. -/
theorem nil (after : List Char) : LexesAs position [] after [] :=
  ⟨[], fun _ divided => divided, rfl, rfl⟩

/-- Two texts in turn lex as their tokens in turn, where the first was lexed before the second. -/
theorem append {front back after : List Char} {first second : List Token}
    (lexesFront : LexesAs position front (back ++ after) first)
    (lexesBack : LexesAs (position.advance front) back after second)
    : LexesAs position (front ++ back) after (first ++ second) := by
  obtain ⟨segments, divides, tokens, silent⟩ := lexesFront
  obtain ⟨segments', divides', tokens', silent'⟩ := lexesBack
  refine ⟨segments ++ segments', ?_, by simp [tokens, tokens'], by simp [silent, silent']⟩
  intro later divided
  have back := divides' later (by simpa [Position.advance] using divided)
  simpa [Position.advance] using divides _ back

/-- A token that reaches as far as its text. -/
theorem token {c : Char} {tail after : List Char} {kind : TokenKind}
    (reaches : extent c (tail ++ after) = (.token kind, tail.length))
    : LexesAs position (c :: tail) after
        [⟨kind, String.ofList (c :: tail), literal kind (c :: tail), position⟩] :=
  ⟨[⟨.token kind, c :: tail, position⟩], fun _ later => .cons reaches later, rfl, rfl⟩

/-- A space lexes as no tokens, whatever comes after it. -/
theorem space (after : List Char) : LexesAs position [' '] after [] :=
  ⟨[⟨.blank, [' '], position⟩], fun _ later => .cons rfl later, rfl, rfl⟩

/-- Two texts with a space between them lex as their tokens in turn. -/
theorem spaced {front back after : List Char} {first second : List Token}
    (lexesFront : LexesAs position front (' ' :: (back ++ after)) first)
    (lexesBack : LexesAs ((position.advance front).next ' ') back after second)
    : LexesAs position (front ++ ' ' :: back) after (first ++ second) := by
  have gap : LexesAs (position.advance front) (' ' :: back) after second :=
    (space (back ++ after)).append lexesBack
  exact lexesFront.append gap

/-- A text of a token, before anything that it cannot take in. -/
theorem lexeme {kind : TokenKind} {text after : List Char} (isLexeme : IsLexeme kind text)
    (separates : Separates after)
    : LexesAs position text after [⟨kind, String.ofList text, literal kind text, position⟩] := by
  obtain ⟨c, tail, rfl⟩ := isLexeme.exists_cons
  exact .token (extent_of_isLexeme isLexeme separates)

/-- Writing a genuine token again gives the token at its new place. -/
theorem moved {token : Token} (isGenuine : token.IsGenuine) {c : Char} {tail after : List Char}
    (text : token.lexeme.toList = c :: tail)
    (reaches : extent c (tail ++ after) = (.token token.kind, tail.length))
    : LexesAs position token.lexeme.toList after [token.movedTo position] := by
  have moved : token.movedTo position = ⟨token.kind, String.ofList token.lexeme.toList,
      Segment.literal token.kind token.lexeme.toList, position⟩ := by
    rw [String.ofList_toList, ← isGenuine.literal]
    rfl
  rw [moved, text]
  exact .token reaches

/-- The lexeme of a genuine token lexes as that token, moved to where it stands, before anything
that separates. -/
theorem genuine {token : Token} (isGenuine : token.IsGenuine) {after : List Char}
    (separates : Separates after)
    : LexesAs position token.lexeme.toList after [token.movedTo position] := by
  obtain ⟨c, tail, text⟩ := isGenuine.isLexeme.exists_cons
  exact moved isGenuine text (extent_of_isLexeme (text ▸ isGenuine.isLexeme) separates)

/-- A text that lexes as some tokens on its own has these tokens and no diagnostics: the division
that lexing makes is the only one. -/
theorem ofChars {text : List Char} {tokens : List Token}
    (lexes : LexesAs .start text [] tokens)
    : (Lexed.ofChars text).stream.body = tokens ∧ (Lexed.ofChars text).diagnostics = [] := by
  obtain ⟨segments, divides, rfl, silent⟩ := lexes
  have divided := divides [] (.nil _)
  rw [List.append_nil, List.append_nil] at divided
  have cut : ofText text = segments := divided.eq_cut
  exact ⟨by simp [Lexed.ofChars, cut], by simpa [Lexed.ofChars, cut] using silent⟩

end LexesAs

end Segment

end Sprig
