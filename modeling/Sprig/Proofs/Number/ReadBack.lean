import Sprig.Proofs.Lexing.Division
import Sprig.Proofs.Number.NearMidpoints
import Sprig.Proofs.Number.Numeral

/-! Numbers that are written out and read again. Reading rounds twice, so it could miss the
number that the text was made for; it does so for a single number.
-/

namespace Sprig

open Format

/-- The number that a decimal is read as, in terms of the two roundings. -/
theorem Number.ofDecimal_eq (decimal : Decimal) {extra : Nat}
    (finer : double.unitExponent = single.unitExponent + (extra + 29))
    : ∃ magnitude : Magnitude, ofDecimal decimal = signed false magnitude
      ∧ magnitude.rank = single.rankOfUnits
          (double.units (wideRank (decimal.numerator * single.unitsPerOne) decimal.denominator extra))
          (2 ^ (extra + 29)) := by
  have units : decimal.numerator * double.unitsPerOne
      = decimal.numerator * single.unitsPerOne * 2 ^ (extra + 29) := by
    rw [unitsPerOne, unitsPerOne, Nat.pow_eq, Nat.pow_eq, finer, pow_add, mul_assoc]
  have surplus : double.unitExponent - single.unitExponent = extra + 29 := by omega
  refine ⟨_, rfl, ?_⟩
  simp only [Magnitude.ofUnits, rankOfQuotient, wideRank, units, surplus, Nat.pow_eq]

/-- The units of double precision are `2 ^ 925` times finer. -/
theorem doubleUnits : double.unitExponent = single.unitExponent + (896 + 29) :=
  rfl

namespace Magnitude

/-- The rank of the one number that is not read back. -/
def misreadRank : Nat := 0x15AE43FD

/-- The exceptional decimal is written for one magnitude only. -/
theorem rank_ofDecimal_exceptional {decimal : Decimal}
    (exceptional : decimal.value
      = Midpoints.exceptionalDigits * 10 ^ Midpoints.gridExponent Midpoints.exceptionalShift)
    : (ofDecimal decimal).rank = misreadRank := by
  have same : ofDecimal decimal = ofDecimal
      ⟨Midpoints.exceptionalDigits, Midpoints.gridExponent Midpoints.exceptionalShift⟩ :=
    ofDecimal_congr exceptional
  rw [same]
  decide +kernel

/-- The shortest decimal of a magnitude is read as the magnitude, with one exception. If two
roundings missed it, the decimal would lie close to a midpoint without being one, and only the
exceptional decimal does. -/
theorem shortest_reads_back {magnitude : Magnitude} (ordinary : magnitude.rank ≠ misreadRank)
    : Number.ofDecimal magnitude.shortest = .signed false magnitude := by
  obtain ⟨rounds, tight⟩ := magnitude.shortest_spec
  obtain ⟨found, reads, twice⟩ := Number.ofDecimal_eq magnitude.shortest doubleUnits
  rw [reads]
  by_contra differs
  have once : single.rankOfUnits (magnitude.shortest.numerator * single.unitsPerOne)
      magnitude.shortest.denominator = magnitude.rank := congrArg rank rounds
  have ne : found.rank ≠ magnitude.rank :=
    fun same => differs (congrArg (Number.signed false) (ext_rank same))
  rw [twice, ← once] at ne
  obtain ⟨odd, rank, bounded, neighbour, apart, near⟩ :=
    near_midpoint_of_ne magnitude.shortest.denominator_pos (by decide) ne
  rw [once] at odd neighbour
  rw [Decimal.scaled_div_denominator] at apart near
  have coarse : single.gap rank * (1 - 1 / 2 ^ 29) ≤ gridStep magnitude.shortest.exponent := by
    rcases neighbour with below | rfl
    · exact tight.coarse_below below odd near
    · exact tight.coarse_above odd bounded near
  rcases Midpoints.eq_midpoint_or_exceptional bounded coarse near with same | exceptional
  · exact apart same
  · exact ordinary (once ▸ rank_ofDecimal_exceptional exceptional)

/-- The text of a magnitude stands for it, with one exception. -/
theorem text_stands {magnitude : Magnitude} (finite : magnitude.isInfinite = false)
    : Number.ofDecimal (.ofText magnitude.text.toList) = .signed false magnitude
      ↔ magnitude.rank ≠ misreadRank := by
  cases zero : magnitude.isZero with
  | true =>
      obtain rfl : magnitude = .zero := ext_rank (beq_iff_eq.mp zero)
      decide +kernel
  | false =>
      rw [toList_text finite zero, Number.ofDecimal_ofText_positional]
      constructor
      · rintro reads misread
        obtain rfl : magnitude = ⟨misreadRank, by decide⟩ := ext_rank misread
        exact absurd reads (by decide +kernel)
      · exact shortest_reads_back

end Magnitude

/-- The text of a finite number that is not negative is a single number token and nothing
else. The token stands for the number unless it is the one that is misread.
-/
theorem text_token_literal (magnitude : Magnitude) (finite : magnitude.isInfinite = false)
    : ∃ literal : Number,
        (Lexed.ofSource (Number.signed false magnitude).text).diagnostics = []
        ∧ (Lexed.ofSource (Number.signed false magnitude).text).tokens
          = [⟨.number, (Number.signed false magnitude).text, some (.number literal), .start⟩,
              Lexed.endToken (Number.signed false magnitude).text.toList]
        ∧ (literal = .signed false magnitude ↔ magnitude.rank ≠ 0x15AE43FD) := by
  have text : (Number.signed false magnitude).text = magnitude.text := by simp [Number.text]
  have lexes : Segment.LexesAs .start magnitude.text.toList [] _ :=
    .lexeme (Magnitude.isLexeme_text finite) .nil
  obtain ⟨body, silent⟩ := lexes.ofChars
  rw [text]
  refine ⟨_, silent, ?_, Magnitude.text_stands finite⟩
  rw [Lexed.tokens, TokenStream.toList, Lexed.ofSource, body, String.ofList_toList]
  rfl

/-- The text of a tenth is read as a tenth. -/
theorem text_token_literal_tenth
    : Magnitude.isInfinite ⟨0x3DCCCCCD, by decide⟩ = false
      ∧ (Number.signed false ⟨0x3DCCCCCD, by decide⟩).text = "0.1"
      ∧ ∃ literal : Number, (Lexed.ofSource "0.1").diagnostics = []
        ∧ (Lexed.ofSource "0.1").tokens
          = [⟨.number, "0.1", some (.number literal), ⟨1, 1⟩⟩, ⟨.endOfText, "", none, ⟨1, 4⟩⟩]
        ∧ literal = .signed false ⟨0x3DCCCCCD, by decide⟩ := by
  have text : (Number.signed false ⟨0x3DCCCCCD, by decide⟩).text = "0.1" := by decide +kernel
  obtain ⟨literal, silent, tokens, reads⟩ :=
    text_token_literal ⟨0x3DCCCCCD, by decide⟩ (by decide +kernel)
  rw [text] at silent tokens
  exact ⟨by decide +kernel, text, literal, silent, tokens, reads.mpr (by decide)⟩

/-- One number is written as a text that stands for the next greater one. -/
theorem text_misread
    : (Number.ofBits 0x15AE43FD).text = "0.00000000000000000000000007038531"
      ∧ (Lexed.ofSource "0.00000000000000000000000007038531").tokens
        = [⟨.number, "0.00000000000000000000000007038531", some (.number (.ofBits 0x15AE43FE)),
              ⟨1, 1⟩⟩,
            ⟨.endOfText, "", none, ⟨1, 35⟩⟩]
      ∧ Number.ofBits 0x15AE43FE ≠ Number.ofBits 0x15AE43FD := by
  decide +kernel

end Sprig
