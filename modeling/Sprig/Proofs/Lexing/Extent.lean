import Sprig.Token.Segment

/-! How far a segment reaches depends on its own characters and on the first character after
it. A token keeps its extent when the text after it is cut off, and when it is replaced by
anything that no token can take in.
-/

namespace Sprig.Segment

open TokenKind

-- Runs of characters

section Runs

variable {p : Char → Bool}

/-- A run is no longer than the text. -/
theorem run_le_length (text : List Char) : run p text ≤ text.length :=
  (List.takeWhile_prefix p).length_le

/-- The characters of a run are those that `takeWhile` takes. -/
theorem take_run (text : List Char) : text.take (run p text) = text.takeWhile p :=
  (List.prefix_iff_eq_take.mp (List.takeWhile_prefix p)).symm

/-- Every character of a run passes its test. -/
theorem all_take_run {text : List Char} {c : Char} (mem : c ∈ text.take (run p text))
    : p c = true := by
  rw [take_run] at mem
  exact List.all_eq_true.mp List.all_takeWhile c mem

/-- The character that ends a run is none of its characters. -/
theorem getElem_run {text : List Char} (inside : run p text < text.length)
    : p text[run p text] = false := by
  induction text with
  | nil => simp at inside
  | cons c rest ih =>
      cases holds : p c with
      | false => simp [run, holds]
      | true =>
          simp only [run, List.takeWhile_cons_of_pos holds, List.length_cons,
            Nat.add_lt_add_iff_right] at inside
          simpa [run, holds] using ih inside

/-- A run goes over a stretch of its characters. -/
theorem run_append {front : List Char} (all : ∀ c ∈ front, p c = true) (back : List Char)
    : run p (front ++ back) = front.length + run p back := by
  simp [run, List.takeWhile_append_of_pos all]

/-- A run ends before a text that starts with none of its characters. -/
theorem run_of_head {text : List Char} (ends : ∀ c ∈ text.head?, p c = false)
    : run p text = 0 := by
  cases text with
  | nil => rfl
  | cons c rest => simp [run, ends c rfl]

/-- A run ends where the next character fails the test. -/
theorem run_append_of_head {front : List Char} (all : ∀ c ∈ front, p c = true)
    {back : List Char} (ends : ∀ c ∈ back.head?, p c = false)
    : run p (front ++ back) = front.length := by
  rw [run_append all, run_of_head ends, Nat.add_zero]

/-- A run ends at a place exactly if it gets there and cannot go on. -/
theorem run_append_eq_iff {front back : List Char}
    : run p (front ++ back) = front.length
      ↔ (∀ c ∈ front, p c = true) ∧ ∀ c ∈ back.head?, p c = false := by
  constructor
  · intro ends
    have all : ∀ c ∈ front, p c = true := by
      intro c member
      have taken : (front ++ back).take (run p (front ++ back)) = front := by
        rw [ends, List.take_left]
      exact all_take_run (taken.symm ▸ member)
    refine ⟨all, fun c isNext => ?_⟩
    rw [run_append all] at ends
    obtain ⟨more, rfl⟩ := List.head?_eq_some_iff.mp isNext
    cases holds : p c with
    | false => rfl
    | true => simp [run, holds] at ends
  · rintro ⟨all, stops⟩
    exact run_append_of_head all stops

end Runs

-- Numbers

/-- What can follow the first digit of a number: digits, and a point between digits. -/
inductive IsNumberTail : List Char → Prop where
  | whole {digits : List Char} (all : ∀ c ∈ digits, c.isDigit = true) : IsNumberTail digits
  | pointed {digits places : List Char} (all : ∀ c ∈ digits, c.isDigit = true)
      (some : places ≠ []) (allPlaces : ∀ c ∈ places, c.isDigit = true)
    : IsNumberTail (digits ++ '.' :: places)

/-- The tail of a number that was found is one. -/
theorem isNumberTail_take (rest : List Char)
    : (rest.take (numberTail rest)).length = numberTail rest
      ∧ IsNumberTail (rest.take (numberTail rest)) := by
  have long : run Char.isDigit rest ≤ rest.length := run_le_length rest
  have digits : ∀ c ∈ rest.take (run Char.isDigit rest), c.isDigit = true :=
    fun c mem => all_take_run mem
  have whole : (rest.take (run Char.isDigit rest)).length = run Char.isDigit rest
      ∧ IsNumberTail (rest.take (run Char.isDigit rest)) :=
    ⟨List.length_take_of_le long, .whole digits⟩
  simp only [numberTail]
  split
  · next fraction found =>
      split
      · exact whole
      · next places =>
          have enough : run Char.isDigit fraction ≤ fraction.length := run_le_length fraction
          have taken : rest.take (run Char.isDigit rest + 1 + run Char.isDigit fraction)
              = rest.take (run Char.isDigit rest)
                ++ '.' :: fraction.take (run Char.isDigit fraction) := by
            rw [Nat.add_assoc, Nat.add_comm 1, List.take_add, found, List.take_succ_cons]
          rw [taken]
          refine ⟨?_, .pointed digits ?_ (fun c mem => all_take_run mem)⟩
          · rw [List.length_append, whole.1, List.length_cons, List.length_take_of_le enough]
            omega
          · rw [ne_eq, ← List.length_eq_zero_iff, List.length_take_of_le enough]
            exact places
  · exact whole

/-- A number goes no further than a text that starts with neither a digit nor a point. -/
theorem numberTail_append {tail : List Char} (isTail : IsNumberTail tail) {after : List Char}
    (ends : ∀ c ∈ after.head?, c.isDigit = false ∧ c ≠ '.')
    : numberTail (tail ++ after) = tail.length := by
  have noDigit : ∀ c ∈ after.head?, c.isDigit = false := fun c mem => (ends c mem).1
  cases isTail with
  | whole all =>
      have digits := run_append_of_head all noDigit
      simp only [numberTail, digits, List.drop_left]
      split
      · next fraction => exact absurd rfl (ends '.' rfl).2
      · rfl
  | @pointed digits places all some allPlaces =>
      have point : ∀ c ∈ ('.' :: (places ++ after)).head?, c.isDigit = false := by simp
      have digits := run_append_of_head all point
      have places := run_append_of_head allPlaces noDigit
      simp only [numberTail, List.append_assoc, List.cons_append, digits, List.drop_left, places]
      simp [some]
      omega

-- The texts of tokens

/-- The texts that a token of each kind can have. -/
inductive IsLexeme : TokenKind → List Char → Prop where
  | sign {c : Char} {kind : TokenKind} (isSign : ofSign? c = some kind) : IsLexeme kind [c]
  | alone {c : Char} {kind extended : TokenKind}
      (extensible : ofExtensibleSign? c = some (kind, extended))
    : IsLexeme kind [c]
  | extended {c : Char} {alone kind : TokenKind}
      (extensible : ofExtensibleSign? c = some (alone, kind))
    : IsLexeme kind [c, '=']
  | slash : IsLexeme .slash ['/']
  | string {inner : List Char} (noQuote : ∀ c ∈ inner, c ≠ '"')
    : IsLexeme .string ('"' :: (inner ++ ['"']))
  | number {c : Char} {tail : List Char} (isDigit : c.isDigit = true) (isTail : IsNumberTail tail)
    : IsLexeme .number (c :: tail)
  | word {c : Char} {tail : List Char} (starts : isWordStart c = true)
      (parts : ∀ d ∈ tail, isWordPart d = true)
    : IsLexeme (ofWord (String.ofList (c :: tail))) (c :: tail)

/-- No lexeme is empty, by cases on its form. -/
theorem IsLexeme.exists_cons {kind : TokenKind} {text : List Char} (isLexeme : IsLexeme kind text)
    : ∃ c tail, text = c :: tail := by
  cases isLexeme <;> exact ⟨_, _, rfl⟩

/-- The only text of a sign. -/
def signText? : TokenKind → Option (List Char)
  | .leftParen => some ['(']
  | .rightParen => some [')']
  | .leftBrace => some ['\x7b']
  | .rightBrace => some ['\x7d']
  | .comma => some [',']
  | .dot => some ['.']
  | .minus => some ['-']
  | .plus => some ['+']
  | .semicolon => some [';']
  | .slash => some ['/']
  | .star => some ['*']
  | .bang => some ['!']
  | .bangEqual => some ['!', '=']
  | .equal => some ['=']
  | .equalEqual => some ['=', '=']
  | .greater => some ['>']
  | .greaterEqual => some ['>', '=']
  | .less => some ['<']
  | .lessEqual => some ['<', '=']
  | _ => none

/-- The kind of a word is that of a name or of a reserved word. -/
theorem ofWord_mem (word : String) : ofWord word ∈ .identifier :: reservedWords.map Prod.snd := by
  unfold ofWord
  cases found : reservedWords.lookup word with
  | none => exact List.mem_cons_self
  | some kind =>
      obtain ⟨front, back, split, _⟩ := List.lookup_eq_some_iff.mp found
      exact List.mem_cons_of_mem _ (List.mem_map.mpr ⟨(word, kind), by simp [split], rfl⟩)

/-- No word is written like a sign, by looking through the reserved words. -/
theorem signText?_ofWord (word : String) : signText? (ofWord word) = none := by
  have words : ∀ kind ∈ TokenKind.identifier :: reservedWords.map Prod.snd,
      signText? kind = none := by decide
  exact words _ (ofWord_mem word)

/-- A sign is written in one way. -/
theorem IsLexeme.eq_signText {kind : TokenKind} {text expected : List Char}
    (isLexeme : IsLexeme kind text) (isSign : signText? kind = some expected)
    : text = expected := by
  cases isLexeme with
  | sign found =>
      unfold ofSign? at found
      split at found <;> cases found <;> cases isSign <;> rfl
  | alone extensible | extended extensible =>
      unfold ofExtensibleSign? at extensible
      split at extensible <;> cases extensible <;> cases isSign <;> rfl
  | slash => cases isSign; rfl
  | string => cases isSign
  | number => cases isSign
  | word => simp [signText?_ofWord] at isSign

/-- A token that is no sign is a quoted text, a number or a word. -/
theorem IsLexeme.of_noSign {kind : TokenKind} {text : List Char} (isLexeme : IsLexeme kind text)
    (noSign : signText? kind = none)
    : (kind = .string ∧ ∃ inner, text = '"' :: (inner ++ ['"']) ∧ ∀ c ∈ inner, c ≠ '"')
      ∨ (kind = .number ∧ ∃ c tail, text = c :: tail ∧ c.isDigit = true ∧ IsNumberTail tail)
      ∨ kind ∈ .identifier :: reservedWords.map Prod.snd := by
  cases isLexeme with
  | @string inner noQuote => exact .inl ⟨rfl, inner, rfl, noQuote⟩
  | @number c tail isDigit isTail => exact .inr (.inl ⟨rfl, c, tail, rfl, isDigit, isTail⟩)
  | word => exact .inr (.inr (ofWord_mem _))
  | slash => cases noSign
  | sign found =>
      unfold ofSign? at found
      split at found <;> cases found <;> cases noSign
  | alone extensible | extended extensible =>
      unfold ofExtensibleSign? at extensible
      split at extensible <;> cases extensible <;> cases noSign

/-- A quoted text has quotes at its ends only. -/
theorem IsLexeme.exists_inner {text : List Char} (isLexeme : IsLexeme .string text)
    : ∃ inner, text = '"' :: (inner ++ ['"']) ∧ ∀ c ∈ inner, c ≠ '"' := by
  rcases isLexeme.of_noSign rfl with ⟨_, quoted⟩ | ⟨isNumber, _⟩ | isWord
  · exact quoted
  · cases isNumber
  · exact absurd isWord (by decide)

/-- No text is an end of text. -/
theorem IsLexeme.ne_endOfText {kind : TokenKind} {text : List Char} (isLexeme : IsLexeme kind text)
    : kind ≠ .endOfText := by
  rintro rfl
  rcases isLexeme.of_noSign rfl with ⟨isString, _⟩ | ⟨isNumber, _⟩ | isWord
  · cases isString
  · cases isNumber
  · exact absurd isWord (by decide)

/-- Only two signs start with an equals sign. -/
theorem IsLexeme.kind_of_equal {kind : TokenKind} {tail : List Char}
    (isLexeme : IsLexeme kind ('=' :: tail))
    : kind = .equal ∨ kind = .equalEqual := by
  cases isLexeme with
  | sign found => cases found
  | alone extensible => cases extensible; exact Or.inl rfl
  | extended extensible => cases extensible; exact Or.inr rfl
  | number isDigit => exact absurd isDigit (by decide)
  | word starts => exact absurd starts (by decide)

/-- The codes of the decimal digits. -/
theorem toNat_bounds_of_isDigit {c : Char} (isDigit : c.isDigit = true)
    : 48 ≤ c.toNat ∧ c.toNat ≤ 57 := by
  simp only [Char.isDigit, Bool.and_eq_true, decide_eq_true_eq, ge_iff_le,
    UInt32.le_iff_toNat_le] at isDigit
  exact isDigit

/-- The codes of letters and the underscore lie between those of `A` and `z`. -/
theorem toNat_bounds_of_isWordStart {c : Char} (starts : isWordStart c = true)
    : 65 ≤ c.toNat ∧ c.toNat ≤ 122 := by
  rcases Bool.or_eq_true_iff.mp starts with alpha | underscore
  · rcases Bool.or_eq_true_iff.mp alpha with upper | lower
    · have inside : 65 ≤ c.val ∧ c.val ≤ 90 := of_decide_eq_true upper
      rw [UInt32.le_iff_toNat_le, UInt32.le_iff_toNat_le] at inside
      exact ⟨inside.1, Nat.le_trans inside.2 (by decide)⟩
    · obtain ⟨low, high⟩ := Bool.and_eq_true_iff.mp lower
      have inside : 97 ≤ c.val ∧ c.val ≤ 122 := ⟨of_decide_eq_true low, of_decide_eq_true high⟩
      rw [UInt32.le_iff_toNat_le, UInt32.le_iff_toNat_le] at inside
      exact ⟨Nat.le_trans (by decide) inside.1, inside.2⟩
  · obtain rfl := eq_of_beq underscore
    decide

/-- The codes of what words are made of lie between those of `0` and `z`. -/
theorem toNat_bounds_of_isWordPart {c : Char} (isPart : isWordPart c = true)
    : 48 ≤ c.toNat ∧ c.toNat ≤ 122 := by
  rcases Bool.or_eq_true _ _ ▸ isPart with starts | isDigit
  · have bounds := toNat_bounds_of_isWordStart starts
    omega
  · have bounds := toNat_bounds_of_isDigit isDigit
    omega

/-- No word starts with a digit, since their codes lie apart. -/
theorem isDigit_of_isWordStart {c : Char} (starts : isWordStart c = true)
    : c.isDigit = false := by
  rw [Bool.eq_false_iff]
  intro isDigit
  have low := toNat_bounds_of_isDigit isDigit
  have high := toNat_bounds_of_isWordStart starts
  omega

/-- A character of words and numbers starts nothing else. -/
theorem classes_of_isWordPart {c : Char} (isPart : isWordPart c = true)
    : ofSign? c = none ∧ ofExtensibleSign? c = none ∧ c ≠ '/' ∧ Text.isBlank c = false
      ∧ c ≠ '"' := by
  have bounds := toNat_bounds_of_isWordPart isPart
  refine ⟨?_, ?_, ?_, ?_, ?_⟩
  · unfold ofSign?
    split <;> first | rfl | exact absurd isPart (by decide)
  · unfold ofExtensibleSign?
    split <;> first | rfl | exact absurd isPart (by decide)
  · rintro rfl
    exact absurd isPart (by decide)
  · simp only [Text.isBlank, Text.blankRanges, List.any_cons, List.any_nil, Bool.or_false,
      Bool.or_eq_false_iff, Bool.and_eq_false_iff, decide_eq_false_iff_not]
    omega
  · rintro rfl
    exact absurd isPart (by decide)

/-- A sign is a segment by itself. -/
theorem extent_of_sign {c : Char} {kind : TokenKind} (isSign : ofSign? c = some kind)
    (rest : List Char)
    : extent c rest = (.token kind, 0) := by
  simp [extent, isSign]

/-- A sign that an equals sign can extend is none of the signs that stand by themselves. -/
theorem ofSign?_of_extensible {c : Char} {kinds : TokenKind × TokenKind}
    (extensible : ofExtensibleSign? c = some kinds)
    : ofSign? c = none := by
  unfold ofExtensibleSign? at extensible
  split at extensible <;> first | rfl | simp at extensible

/-- An extensible sign takes an equals sign that follows it. -/
theorem extent_of_extensible {c : Char} {alone extended : TokenKind}
    (extensible : ofExtensibleSign? c = some (alone, extended)) (rest : List Char)
    : extent c rest
      = if rest.head? = some '=' then (.token extended, 1) else (.token alone, 0) := by
  simp [extent, extensible, ofSign?_of_extensible extensible]

/-- A digit starts a number, since it is of no other class. -/
theorem extent_of_isDigit {c : Char} (isDigit : c.isDigit = true) (rest : List Char)
    : extent c rest = (.token .number, numberTail rest) := by
  obtain ⟨sign, extensible, slash, blank, quote⟩ :=
    classes_of_isWordPart (c := c) (by simp [isWordPart, isDigit])
  simp [extent, sign, extensible, slash, blank, quote, isDigit]

/-- A letter or an underscore starts a word that goes on as far as it can, since it is of no other
class. -/
theorem extent_of_isWordStart {c : Char} (starts : isWordStart c = true) (rest : List Char)
    : extent c rest
      = (.token (ofWord (String.ofList (c :: rest.take (run isWordPart rest)))),
          run isWordPart rest) := by
  obtain ⟨sign, extensible, slash, blank, quote⟩ :=
    classes_of_isWordPart (c := c) (by simp [isWordPart, starts])
  simp [extent, sign, extensible, slash, blank, quote, isDigit_of_isWordStart starts, starts]

/-- A quote starts a string up to the next quote, or to the end of the text if there is none. -/
theorem extent_quote (rest : List Char)
    : extent '"' rest
      = if run (· != '"') rest < rest.length then (.token .string, run (· != '"') rest + 1)
        else (.unterminated, rest.length) := by
  have blank : Text.isBlank '"' = false := by decide
  simp [extent, ofSign?, ofExtensibleSign?, blank]

/-- A slash starts a comment if another one follows, and is a sign otherwise. -/
theorem extent_slash (rest : List Char)
    : extent '/' rest
      = if rest.head? = some '/' then (.comment, run (· != '\n') rest)
        else (.token .slash, 0) := by
  simp [extent, ofSign?, ofExtensibleSign?]

/-- No segment reaches beyond the text, by the classes of its first character. -/
theorem length_extent_le (c : Char) (rest : List Char) : (extent c rest).2 ≤ rest.length := by
  unfold extent
  split
  · exact Nat.zero_le _
  · split
    · next extends_ =>
        obtain ⟨tail, rfl⟩ := List.head?_eq_some_iff.mp extends_
        simp
    · exact Nat.zero_le _
  · split
    · split
      · exact run_le_length rest
      · exact Nat.zero_le _
    split
    · exact Nat.zero_le _
    split
    · dsimp only
      split
      · next closed => exact closed
      · exact Nat.le_refl _
    split
    · rw [← (isNumberTail_take rest).1]
      exact List.length_take_le' _ _
    split
    · exact run_le_length rest
    · exact Nat.zero_le _

/-- A quoted text ends with the first quote that follows. -/
theorem isLexeme_string {rest : List Char} (closed : run (· != '"') rest < rest.length)
    : IsLexeme .string ('"' :: rest.take (run (· != '"') rest + 1)) := by
  have inner : ∀ c ∈ rest.take (run (· != '"') rest), c ≠ '"' :=
    fun c mem => by simpa using all_take_run mem
  have closing : rest[run (· != '"') rest] = '"' := by simpa using getElem_run closed
  rw [List.take_succ_eq_append_getElem closed, closing]
  exact .string inner

/-- The text of a token that was found is a text of its kind. -/
theorem isLexeme_of_extent {c : Char} {rest : List Char} {kind : TokenKind} {length : Nat}
    (found : extent c rest = (.token kind, length))
    : IsLexeme kind (c :: rest.take length) := by
  cases sign : ofSign? c with
  | some signKind =>
      rw [extent_of_sign sign] at found
      obtain ⟨rfl, rfl⟩ : signKind = kind ∧ 0 = length := by simpa using found
      exact .sign sign
  | none =>
      cases extensible : ofExtensibleSign? c with
      | some kinds =>
          rw [extent_of_extensible extensible] at found
          split at found
          · next extends_ =>
              obtain ⟨tail, rfl⟩ := List.head?_eq_some_iff.mp extends_
              obtain ⟨rfl, rfl⟩ : kinds.2 = kind ∧ 1 = length := by simpa using found
              exact .extended extensible
          · obtain ⟨rfl, rfl⟩ : kinds.1 = kind ∧ 0 = length := by simpa using found
            exact .alone extensible
      | none =>
          simp only [extent, sign, extensible] at found
          split at found
          · next isSlash =>
              subst isSlash
              split at found
              · simp at found
              · obtain ⟨rfl, rfl⟩ : .slash = kind ∧ 0 = length := by simpa using found
                exact .slash
          split at found
          · simp at found
          split at found
          · next isQuote =>
              subst isQuote
              split at found
              · next closed =>
                  obtain ⟨rfl, rfl⟩ : .string = kind ∧ run (· != '"') rest + 1 = length := by
                    simpa using found
                  exact isLexeme_string closed
              · simp at found
          split at found
          · next isDigit =>
              obtain ⟨rfl, rfl⟩ : .number = kind ∧ numberTail rest = length := by
                simpa using found
              exact .number isDigit (isNumberTail_take rest).2
          split at found
          · next starts =>
              simp only [Prod.mk.injEq, SegmentKind.token.injEq] at found
              obtain ⟨rfl, rfl⟩ := found
              exact .word starts fun d mem => all_take_run mem
          · simp at found

/-- A text that no token can take in: it is empty or starts with a character that continues
neither a word, a number nor a sign.
-/
def Separates (after : List Char) : Prop :=
  ∀ c ∈ after.head?, isWordPart c = false ∧ c ≠ '.' ∧ c ≠ '=' ∧ c ≠ '/'

/-- The end of the text separates. -/
theorem Separates.nil : Separates [] :=
  fun _ mem => nomatch mem

/-- A character that continues neither a word, a number, a sign nor a comment separates. -/
theorem Separates.cons {c : Char}
    (separate : isWordPart c = false ∧ c ≠ '.' ∧ c ≠ '=' ∧ c ≠ '/') (rest : List Char)
    : Separates (c :: rest) := by
  intro d mem
  obtain rfl : c = d := by simpa using mem
  exact separate

/-- A space separates. -/
theorem Separates.space (rest : List Char) : Separates (' ' :: rest) :=
  .cons (by decide) rest

/-- A comma separates. -/
theorem Separates.comma (rest : List Char) : Separates (',' :: rest) :=
  .cons (by decide) rest

/-- An opening sign separates. -/
theorem Separates.opening (rest : List Char) : Separates ('(' :: rest) :=
  .cons (by decide) rest

/-- A closing sign separates. -/
theorem Separates.closing (rest : List Char) : Separates (')' :: rest) :=
  .cons (by decide) rest

/-- What separates starts with neither an equals sign nor a slash, which are the two that extend a
sign. -/
theorem Separates.head_ne {after : List Char} (separates : Separates after)
    : after.head? ≠ some '=' ∧ after.head? ≠ some '/' :=
  ⟨fun head => (separates _ head).2.2.1 rfl, fun head => (separates _ head).2.2.2 rfl⟩

/-- A text in quotes is found whatever follows it. -/
theorem extent_string {inner : List Char} (noQuote : ∀ c ∈ inner, c ≠ '"') (after : List Char)
    : extent '"' (inner ++ ['"'] ++ after) = (.token .string, (inner ++ ['"']).length) := by
  have closed : run (· != '"') (inner ++ '"' :: after) = inner.length :=
    run_append_of_head (by simpa using noQuote) (by simp)
  simp only [extent_quote, List.append_assoc, List.cons_append, List.nil_append, closed]
  simp

/-- A text of a token is found as that token, up to what follows it. -/
theorem extent_of_isLexeme {c : Char} {tail : List Char} {kind : TokenKind}
    (isLexeme : IsLexeme kind (c :: tail)) {after : List Char} (separates : Separates after)
    : extent c (tail ++ after) = (.token kind, tail.length) := by
  cases isLexeme with
  | sign isSign => exact extent_of_sign isSign after
  | alone extensible => simp [extent_of_extensible extensible, separates.head_ne.1]
  | extended extensible => simp [extent_of_extensible extensible]
  | slash => simp [extent_slash, separates.head_ne.2]
  | string noQuote => exact extent_string noQuote after
  | number isDigit isTail =>
      have ends : ∀ d ∈ after.head?, d.isDigit = false ∧ d ≠ '.' := fun d mem => by
        have separate := separates d mem
        simp only [isWordPart, Bool.or_eq_false_iff] at separate
        exact ⟨separate.1.2, separate.2.1⟩
      rw [extent_of_isDigit isDigit, numberTail_append isTail ends]
  | word starts parts =>
      have ends : run isWordPart (tail ++ after) = tail.length :=
        run_append_of_head parts fun d mem => (separates d mem).1
      rw [extent_of_isWordStart starts, ends, List.take_left]

end Sprig.Segment
