import Sprig.Number.Shortest
import Sprig.Proofs.Lexing.Division

/-! The positional text of a decimal number is a numeral of the language, and stands for the
number it was made from.
-/

namespace Sprig.Decimal

open Segment

/-- Digits with a point before the fraction, if there is one. -/
def numeral (whole fraction : List Char) : List Char :=
  if fraction = [] then whole else whole ++ '.' :: fraction

section Numeral

variable {whole fraction : List Char}

/-- A numeral is the text of a number token. -/
theorem isLexeme_numeral (some : whole ≠ []) (digits : ∀ c ∈ whole ++ fraction, c.isDigit = true)
    : IsLexeme .number (numeral whole fraction) := by
  obtain ⟨first, others, rfl⟩ := List.exists_cons_of_ne_nil some
  have isDigit : first.isDigit = true := digits first (by simp)
  have all : ∀ c ∈ others, c.isDigit = true := fun c mem => digits c (by simp [mem])
  unfold numeral
  split
  · exact .number isDigit (.whole all)
  · next places => exact .number isDigit (.pointed all places fun c mem => digits c (by simp [mem]))

/-- The text of a number token is a numeral. -/
theorem exists_numeral {text : List Char} (isLexeme : IsLexeme .number text)
    : ∃ whole fraction, text = numeral whole fraction ∧ whole ≠ []
      ∧ ∀ c ∈ whole ++ fraction, c.isDigit = true := by
  rcases isLexeme.of_noSign rfl with ⟨isString, _⟩ | ⟨_, c, tail, rfl, isDigit, isTail⟩ | isWord
  · cases isString
  · cases isTail with
    | whole all =>
        exact ⟨c :: tail, [], rfl, by simp, by simpa using ⟨isDigit, all⟩⟩
    | @pointed digits places all some allPlaces =>
        refine ⟨c :: digits, places, by simp [numeral, some], by simp, ?_⟩
        exact List.forall_mem_append.mpr ⟨List.forall_mem_cons.mpr ⟨isDigit, all⟩, allPlaces⟩
  · exact absurd isWord (by decide)

/-- No digit is the point. -/
theorem ne_point_of_isDigit {c : Char} (isDigit : c.isDigit = true) : (c != '.') = true := by
  rw [bne_iff_ne]
  rintro rfl
  exact absurd isDigit (by decide)

/-- Reading a numeral gives back its digits. -/
theorem ofText_numeral (digits : ∀ c ∈ whole ++ fraction, c.isDigit = true)
    : ofText (numeral whole fraction) = ofDigits whole fraction := by
  have all : ∀ c ∈ whole, (c != '.') = true :=
    fun c mem => ne_point_of_isDigit (digits c (by simp [mem]))
  unfold numeral ofText
  split
  · next empty =>
      have taken : (whole ++ []).takeWhile (· != '.') = whole ++ [] :=
        List.takeWhile_append_of_pos all
      have dropped : (whole ++ []).dropWhile (· != '.') = [] :=
        List.dropWhile_append_of_pos all
      rw [List.append_nil] at taken dropped
      simp [taken, dropped, empty]
  · simp [List.takeWhile_append_of_pos all, List.dropWhile_append_of_pos all]

end Numeral

/-- The value of digits is the one that the library gives to them. -/
theorem digitsValue_eq (digits : List Char) : digitsValue digits = Nat.ofDigitChars 10 digits 0 :=
  Nat.ofDigitChars_eq_foldl.symm

/-- The digits of a number are decimal digits. -/
theorem isDigit_of_mem_toDigits {number : Nat} {c : Char} (mem : c ∈ Nat.toDigits 10 number)
    : c.isDigit = true :=
  Nat.isDigit_of_mem_toDigits (by decide) (by decide) mem

/-- Zeros are decimal digits. -/
theorem isDigit_of_mem_replicate {count : Nat} {c : Char} (mem : c ∈ List.replicate count '0')
    : c.isDigit = true := by
  rw [List.eq_of_mem_replicate mem]
  decide

/-- The digits of a number with zeros on either side. -/
def padded (before number after : Nat) : List Char :=
  List.replicate before '0' ++ Nat.toDigits 10 number ++ List.replicate after '0'

/-- A number padded with zeros consists of decimal digits. -/
theorem isDigit_of_mem_padded {before number after : Nat} {c : Char}
    (mem : c ∈ padded before number after)
    : c.isDigit = true := by
  rw [padded, List.mem_append, List.mem_append] at mem
  rcases mem with (zero | digit) | zero
  · exact isDigit_of_mem_replicate zero
  · exact isDigit_of_mem_toDigits digit
  · exact isDigit_of_mem_replicate zero

/-- Zeros before a number keep its value and each zero after it multiplies it by ten. -/
theorem digitsValue_padded (before number after : Nat)
    : digitsValue (padded before number after) = number * Nat.pow 10 after := by
  simp [padded, digitsValue_eq, Nat.ofDigitChars_append, Nat.mul_comm]

/-- The positional text is the digits with zeros on either side, and a point among them if there
are places after it.
-/
theorem positional_eq_padded (decimal : Decimal)
    : ∃ whole fraction before, decimal.positional = numeral whole fraction
      ∧ whole ≠ [] ∧ fraction.length = (-decimal.exponent).toNat
      ∧ whole ++ fraction = padded before decimal.digits decimal.exponent.toNat := by
  unfold positional
  dsimp only
  split
  · next none =>
      refine ⟨Nat.toDigits 10 decimal.digits ++ List.replicate decimal.exponent.toNat '0', [], 0,
        rfl, ?_, none.symm, by simp [padded]⟩
      simp [Nat.toDigits_ne_nil]
  · next some =>
      have noExponent : decimal.exponent.toNat = 0 := by omega
      generalize places_eq : (-decimal.exponent).toNat = places at some
      generalize row_eq : List.replicate (places + 1 - (Nat.toDigits 10 decimal.digits).length)
        '0' ++ Nat.toDigits 10 decimal.digits = row
      have long : places < row.length := by
        rw [← row_eq, List.length_append, List.length_replicate]
        omega
      have fraction : (row.drop (row.length - places)).length = places := by
        rw [List.length_drop]
        omega
      refine ⟨row.take (row.length - places), row.drop (row.length - places),
        places + 1 - (Nat.toDigits 10 decimal.digits).length, ?_, ?_, fraction, ?_⟩
      · rw [numeral, if_neg]
        rintro empty
        rw [empty] at fraction
        exact some fraction.symm
      · rw [ne_eq, List.take_eq_nil_iff]
        rintro (none | none)
        · omega
        · simp [none] at long
      · rw [List.take_append_drop, noExponent, ← row_eq]
        simp [padded]

/-- The positional text is a numeral with as many places as the exponent asks for. -/
theorem positional_eq_numeral (decimal : Decimal)
    : ∃ whole fraction, decimal.positional = numeral whole fraction
      ∧ whole ≠ [] ∧ (∀ c ∈ whole ++ fraction, c.isDigit = true)
      ∧ fraction.length = (-decimal.exponent).toNat
      ∧ digitsValue (whole ++ fraction) = decimal.digits * Nat.pow 10 decimal.exponent.toNat := by
  obtain ⟨whole, fraction, before, text, some, places, digits⟩ := decimal.positional_eq_padded
  refine ⟨whole, fraction, text, some, ?_, places, ?_⟩
  · exact fun c mem => isDigit_of_mem_padded (digits ▸ mem)
  · exact digits ▸ digitsValue_padded before decimal.digits decimal.exponent.toNat

/-- The positional text of a decimal is a number lexeme, being digits with a point. -/
theorem isLexeme_positional (decimal : Decimal) : IsLexeme .number decimal.positional := by
  obtain ⟨whole, fraction, text, some, digits, _⟩ := decimal.positional_eq_numeral
  rw [text]
  exact isLexeme_numeral some digits

/-- Reading the positional text gives a decimal of the same numerator and denominator. -/
theorem ofText_positional (decimal : Decimal)
    : (ofText decimal.positional).numerator = decimal.numerator
      ∧ (ofText decimal.positional).denominator = decimal.denominator := by
  obtain ⟨whole, fraction, text, _, digits, places, value⟩ := decimal.positional_eq_numeral
  rw [text, ofText_numeral digits]
  constructor
  · have none : (-(fraction.length : Int)).toNat = 0 := by omega
    simp [numerator, ofDigits, value, none]
  · have same : (- -(fraction.length : Int)).toNat = (-decimal.exponent).toNat := by omega
    simp only [denominator, ofDigits, same]

end Sprig.Decimal

namespace Sprig

/-- Reading the positional text of a decimal gives the number of the decimal. -/
theorem Number.ofDecimal_ofText_positional (decimal : Decimal)
    : ofDecimal (.ofText decimal.positional) = ofDecimal decimal := by
  obtain ⟨numerators, denominators⟩ := decimal.ofText_positional
  simp only [ofDecimal, numerators, denominators]

/-- A magnitude that is neither zero nor infinite is written as its shortest decimal. -/
theorem Magnitude.toList_text {magnitude : Magnitude} (finite : magnitude.isInfinite = false)
    (nonzero : magnitude.isZero = false)
    : magnitude.text.toList = magnitude.shortest.positional := by
  simp [text, finite, nonzero]

/-- The text of a finite magnitude is a number lexeme: a single zero, or a positional text. -/
theorem Magnitude.isLexeme_text {magnitude : Magnitude} (finite : magnitude.isInfinite = false)
    : Segment.IsLexeme .number magnitude.text.toList := by
  simp only [text, finite, Bool.false_eq_true, if_false]
  split
  · exact .number (by decide) (.whole (by simp))
  · simpa using Decimal.isLexeme_positional magnitude.shortest

/-- The value of a number is that of the digits it is written with. -/
theorem Lexed.exists_digits {source : String} {token : Token}
    (member : token ∈ (ofSource source).tokens) (isNumber : token.kind = .number)
    : ∃ whole fraction, whole ≠ [] ∧ (∀ c ∈ whole ++ fraction, c.isDigit = true)
      ∧ token.lexeme.toList = Decimal.numeral whole fraction
      ∧ token.literal = some (.number (.ofDecimal (.ofDigits whole fraction))) := by
  rcases List.mem_append.mp member with inside | isEnd
  · obtain ⟨isLexeme, literal⟩ := Lexed.isGenuine inside
    rw [isNumber] at isLexeme literal
    obtain ⟨whole, fraction, text, some, digits⟩ := Decimal.exists_numeral isLexeme
    refine ⟨whole, fraction, some, digits, text, ?_⟩
    rw [literal, text, Segment.literal, Decimal.ofText_numeral digits]
  · obtain rfl := List.mem_singleton.mp isEnd
    cases isNumber

end Sprig
