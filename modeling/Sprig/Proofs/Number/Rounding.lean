import Mathlib.Algebra.Order.Field.Basic
import Mathlib.Data.Rat.Cast.Order
import Mathlib.Tactic.FieldSimp
import Mathlib.Tactic.Linarith
import Mathlib.Tactic.Positivity
import Mathlib.Tactic.Ring
import Sprig.Number.Basic

/-! Rounding to nearest, in terms of midpoints. A rank is reached from the midpoint below it
on, and on the midpoint itself if the rank is even. All that rounding does follows from this.
-/

namespace Sprig

/-- A quotient is rounded up to a number if it is above the half before it, or on the half
before an even number.
-/
theorem le_roundedQuotient_iff {num den target : Nat} (positive : 0 < den)
    : target ≤ roundedQuotient num den
      ↔ 2 * target * den < 2 * num + den
        ∨ 2 * target * den = 2 * num + den ∧ target % 2 = 0 := by
  have divided : den * (num / den) + num % den = num := Nat.div_add_mod num den
  have small : num % den < den := Nat.mod_lt num positive
  simp only [roundedQuotient]
  generalize num / den = floor at divided
  generalize num % den = rest at divided small
  rcases lt_trichotomy target (floor + 1) with below | rfl | above
  · have product : target * den ≤ floor * den := Nat.mul_le_mul_right den (by omega)
    have reached : 2 * target * den < 2 * num + den := by nlinarith
    simp only [reached, true_or, iff_true]
    split <;> omega
  · have product : 2 * (floor + 1) * den = 2 * (den * floor) + 2 * den := by ring
    rw [product]
    split <;> omega
  · have product : (floor + 2) * den ≤ target * den := Nat.mul_le_mul_right den above
    have missed : 2 * num + den < 2 * target * den := by nlinarith
    split <;> omega

/-- A rounded quotient reaches every whole number that the quotient reaches. -/
theorem le_roundedQuotient {num den target : Nat} (positive : 0 < den)
    (le : target * den ≤ num)
    : target ≤ roundedQuotient num den := by
  rw [le_roundedQuotient_iff positive]
  left
  nlinarith

/-- A rounded quotient stays up to every whole number that the quotient stays below. -/
theorem roundedQuotient_le {num den target : Nat} (positive : 0 < den)
    (lt : num < target * den)
    : roundedQuotient num den ≤ target := by
  by_contra! above
  rw [← Nat.succ_le_iff, le_roundedQuotient_iff positive, Nat.succ_eq_add_one] at above
  have half : 2 * (target + 1) * den = 2 * (target * den) + 2 * den := by ring
  omega

/-- A rounded quotient is off by at most a half. -/
theorem roundedQuotient_near (num : Nat) {den : Nat} (positive : 0 < den)
    : |(roundedQuotient num den : ℚ) - num / den| ≤ 1 / 2 := by
  have positive' : (0 : ℚ) < den := by exact_mod_cast positive
  have below : 2 * roundedQuotient num den * den ≤ 2 * num + den := by
    rcases (le_roundedQuotient_iff positive).mp (le_refl (roundedQuotient num den)) with lt | eq
    · exact lt.le
    · exact eq.1.le
  have above : 2 * num + den ≤ 2 * (roundedQuotient num den + 1) * den := by
    by_contra! lt
    have le := (le_roundedQuotient_iff positive).mpr (Or.inl lt)
    omega
  have below : 2 * (roundedQuotient num den : ℚ) * den ≤ 2 * num + den := by exact_mod_cast below
  have above : (2 * num + den : ℚ) ≤ 2 * (roundedQuotient num den + 1) * den := by
    exact_mod_cast above
  have quotient : (num : ℚ) = num / den * den := (div_mul_cancel₀ _ positive'.ne').symm
  generalize (num / den : ℚ) = exact at quotient
  rw [quotient] at below above
  rw [abs_le]
  constructor
  · refine le_of_mul_le_mul_right ?_ positive'
    linarith
  · refine le_of_mul_le_mul_right ?_ positive'
    linarith

/-- A rounded quotient is one of the two numbers around the quotient. -/
theorem roundedQuotient_cases (num den : Nat)
    : roundedQuotient num den = num / den ∨ roundedQuotient num den = num / den + 1 := by
  simp only [roundedQuotient]
  split
  · exact Or.inl rfl
  · exact Or.inr rfl

namespace Format

variable (format : Format)

/-- A block holds at least one rank. -/
theorem block_pos : 0 < format.block :=
  Nat.pow_pos (by decide)

-- The magnitudes of a format

/-- The distance from a magnitude to the next one, in units. -/
def gap (rank : Nat) : Nat :=
  2 ^ (rank / format.block - 1)

/-- Ranks lie apart. -/
theorem gap_pos (rank : Nat) : 0 < format.gap rank :=
  Nat.pow_pos (by decide)

/-- Below the first block the units are the rank itself. -/
theorem units_of_lt {rank : Nat} (small : rank < format.block) : format.units rank = rank := by
  simp [units, small]

/-- The block of a rank, written as shift and offset, is its shift. -/
theorem div_block (shift offset : Nat) (inside : offset < format.block)
    : (shift * format.block + offset) / format.block = shift := by
  rw [Nat.mul_comm, Nat.mul_add_div format.block_pos, Nat.div_eq_of_lt inside, Nat.add_zero]

/-- The place of a rank in its block is its offset. -/
theorem mod_block (shift offset : Nat) (inside : offset < format.block)
    : (shift * format.block + offset) % format.block = offset := by
  rw [Nat.mul_comm, Nat.mul_add_mod, Nat.mod_eq_of_lt inside]

/-- The magnitudes of a block from its first to the first of the next block. -/
theorem units_block (shift offset : Nat) (inside : offset ≤ format.block)
    : format.units ((shift + 1) * format.block + offset)
      = (format.block + offset) * 2 ^ shift := by
  have positive := format.block_pos
  have large : ¬ (shift + 1) * format.block + offset < format.block := by
    rw [Nat.succ_mul]
    omega
  simp only [units, large, if_false, Nat.pow_eq]
  rcases Nat.lt_or_eq_of_le inside with inside | rfl
  · rw [format.div_block _ _ inside, format.mod_block _ _ inside, Nat.add_sub_cancel]
  · rw [← Nat.succ_mul, Nat.mul_mod_left, Nat.mul_div_cancel _ positive]
    simp only [Nat.add_zero, Nat.succ_eq_add_one, Nat.add_sub_cancel]
    rw [Nat.pow_succ]
    ring

/-- A rank is below the first block or stands at an offset in a later one. -/
theorem rank_cases (rank : Nat)
    : rank < format.block
      ∨ ∃ shift offset, offset < format.block ∧ rank = (shift + 1) * format.block + offset := by
  by_cases small : rank < format.block
  · exact Or.inl small
  · refine Or.inr ⟨rank / format.block - 1, rank % format.block,
      Nat.mod_lt _ format.block_pos, ?_⟩
    have positive : 0 < rank / format.block :=
      Nat.div_pos (Nat.le_of_not_lt small) format.block_pos
    rw [Nat.sub_add_cancel positive, Nat.mul_comm, Nat.div_add_mod]

/-- The gap doubles from block to block. -/
theorem gap_block (shift offset : Nat) (inside : offset < format.block)
    : format.gap ((shift + 1) * format.block + offset) = 2 ^ shift := by
  rw [gap, format.div_block _ _ inside, Nat.add_sub_cancel]

/-- The units of the next rank are one gap more, also where a block ends and the next begins. -/
theorem units_succ (rank : Nat)
    : format.units (rank + 1) = format.units rank + format.gap rank := by
  rcases format.rank_cases rank with small | ⟨shift, offset, inside, rfl⟩
  · rw [format.units_of_lt small, gap, Nat.div_eq_of_lt small]
    rcases Nat.lt_or_eq_of_le (show rank + 1 ≤ format.block from small) with next | next
    · exact format.units_of_lt next
    · have first := format.units_block 0 0 (Nat.zero_le _)
      simp only [Nat.zero_add, Nat.one_mul, Nat.add_zero, Nat.pow_zero, Nat.mul_one] at first
      rw [next, first, ← next]
      rfl
  · rw [Nat.add_assoc, format.units_block shift (offset + 1) inside,
      format.units_block shift offset (Nat.le_of_lt inside), format.gap_block shift offset inside]
    ring

/-- Units increase with the rank, by one gap at each step. -/
theorem units_strictMono : StrictMono format.units :=
  strictMono_nat_of_lt_succ fun rank => by
    rw [format.units_succ]
    exact Nat.lt_add_of_pos_right (format.gap_pos rank)

/-- The units of the first rank of a block. -/
theorem units_zero_offset (shift : Nat)
    : format.units ((shift + 1) * format.block) = format.block * 2 ^ shift := by
  have first := format.units_block shift 0 (Nat.zero_le _)
  simpa using first

/-- The units of the first rank of the block after the next. -/
theorem units_two_blocks (shift : Nat)
    : format.units ((shift + 2) * format.block) = 2 * format.block * 2 ^ shift := by
  rw [format.units_zero_offset (shift + 1), Nat.pow_succ]
  ring

/-- Twice the midpoint of two neighbours that are `2 ^ shift` apart. -/
theorem units_add_units_succ {shift rank : Nat}
    (start : shift = 0 ∨ (shift + 1) * format.block ≤ rank)
    (stop : rank < (shift + 2) * format.block)
    : format.units rank + format.units (rank + 1)
      = (2 * (rank - shift * format.block) + 1) * 2 ^ shift := by
  rw [format.units_succ]
  by_cases small : rank < format.block
  · obtain rfl : shift = 0 := by
      refine start.resolve_right fun le => ?_
      have product : format.block ≤ (shift + 1) * format.block :=
        Nat.le_mul_of_pos_left _ (Nat.succ_pos shift)
      omega
    rw [format.units_of_lt small, gap, Nat.div_eq_of_lt small]
    omega
  · have large : (shift + 1) * format.block ≤ rank := by
      rcases start with rfl | le
      · omega
      · exact le
    obtain ⟨offset, rfl⟩ := Nat.exists_eq_add_of_le large
    have inside : offset < format.block := by
      have stop : (shift + 1) * format.block + offset
          < (shift + 1) * format.block + format.block := by
        rw [← Nat.succ_mul]
        exact stop
      omega
    have reduced : (shift + 1) * format.block + offset - shift * format.block
        = format.block + offset := by
      rw [Nat.succ_mul]
      omega
    rw [format.units_block shift offset (Nat.le_of_lt inside),
      format.gap_block shift offset inside, reduced]
    ring

-- Rounding

/-- The shift brings a quotient to the numbers below two blocks, and not below the first block
if anything was shifted out.
-/
theorem shift_bounds (num : Nat) {den : Nat} (positive : 0 < den)
    : let shift := (num / den).log2 - format.fractionBits
      num < 2 * format.block * (den * 2 ^ shift)
      ∧ (shift = 0 ∨ format.block * (den * 2 ^ shift) ≤ num) := by
  intro shift
  have divided : den * (num / den) + num % den = num := Nat.div_add_mod num den
  have small : num % den < den := Nat.mod_lt num positive
  constructor
  · have above : num / den < 2 * format.block * 2 ^ shift := by
      calc num / den < 2 ^ ((num / den).log2 + 1) := Nat.lt_log2_self
        _ ≤ 2 ^ (format.fractionBits + 1 + shift) := Nat.pow_le_pow_right (by decide) (by omega)
        _ = 2 * format.block * 2 ^ shift := by
          rw [Nat.pow_add, Nat.pow_succ, block, Nat.pow_eq]
          ring
    calc num < den * (num / den + 1) := by rw [Nat.mul_succ]; omega
      _ ≤ den * (2 * format.block * 2 ^ shift) := Nat.mul_le_mul_left den above
      _ = 2 * format.block * (den * 2 ^ shift) := by ring
  · by_cases none : shift = 0
    · exact Or.inl none
    · right
      have nonzero : num / den ≠ 0 := by
        intro zero
        simp [shift, zero] at none
      have below : format.block * 2 ^ shift ≤ num / den := by
        calc format.block * 2 ^ shift = 2 ^ (format.fractionBits + shift) := by
              rw [Nat.pow_add, block, Nat.pow_eq]
          _ ≤ 2 ^ (num / den).log2 := Nat.pow_le_pow_right (by decide) (by omega)
          _ ≤ num / den := Nat.log2_self_le nonzero
      calc format.block * (den * 2 ^ shift) = den * (format.block * 2 ^ shift) := by ring
        _ ≤ den * (num / den) := Nat.mul_le_mul_left den below
        _ ≤ num := Nat.mul_div_le num den

/-- A block holds an even number of ranks, being a power of two. -/
theorem block_even (fine : 0 < format.fractionBits) : format.block % 2 = 0 := by
  obtain ⟨bits, same⟩ := Nat.exists_eq_succ_of_ne_zero (Nat.ne_of_gt fine)
  rw [block, Nat.pow_eq, same, Nat.pow_succ, Nat.mul_mod_left]

/-- A magnitude of odd rank has its neighbours at the same distance on both sides. -/
theorem gap_succ_of_even (fine : 0 < format.fractionBits) {rank : Nat} (even : rank % 2 = 0)
    : format.gap (rank + 1) = format.gap rank := by
  have inside : ¬ format.block ∣ rank + 1 := by
    intro divides
    have two : 2 ∣ format.block := Nat.dvd_of_mod_eq_zero (format.block_even fine)
    have := two.trans divides
    omega
  rw [gap, gap, Nat.succ_div_of_not_dvd inside]

/-- A quotient before the end of a block is below the midpoints after it. -/
theorem double_lt_of_block_le {num den shift rank : Nat}
    (above : num < 2 * format.block * (den * 2 ^ shift)) (stop : (shift + 2) * format.block ≤ rank)
    : 2 * num < (format.units rank + format.units (rank + 1)) * den := by
  have large : 2 * format.block * 2 ^ shift ≤ format.units rank := by
    rw [← format.units_two_blocks]
    exact format.units_strictMono.monotone stop
  have larger : format.units rank < format.units (rank + 1) :=
    format.units_strictMono (Nat.lt_succ_self rank)
  calc 2 * num < 2 * (2 * format.block * (den * 2 ^ shift)) := by omega
    _ = (2 * format.block * 2 ^ shift + 2 * format.block * 2 ^ shift) * den := by ring
    _ ≤ _ := Nat.mul_le_mul_right den (by omega)

/-- A quotient after the start of a block is above the midpoints before it. -/
theorem lt_double_of_lt_block {num den shift rank : Nat} (positive : 0 < den)
    (below : format.block * (den * 2 ^ shift) ≤ num) (stop : rank < (shift + 1) * format.block)
    : (format.units rank + format.units (rank + 1)) * den < 2 * num := by
  have small : format.units (rank + 1) ≤ format.block * 2 ^ shift := by
    rw [← format.units_zero_offset shift]
    exact format.units_strictMono.monotone stop
  have smaller : format.units rank < format.units (rank + 1) :=
    format.units_strictMono (Nat.lt_succ_self rank)
  calc (format.units rank + format.units (rank + 1)) * den
      < (2 * (format.block * 2 ^ shift)) * den := Nat.mul_lt_mul_of_pos_right (by omega) positive
    _ = 2 * (format.block * (den * 2 ^ shift)) := by ring
    _ ≤ 2 * num := by omega

/-- Rounding goes above a rank exactly if the quotient is above the midpoint of the rank and
the next one, or on the midpoint and the next rank is even.
-/
theorem lt_rankOfUnits_iff (fine : 0 < format.fractionBits) {num den rank : Nat}
    (positive : 0 < den) (bounded : rank < format.infinityRank)
    : rank < format.rankOfUnits num den
      ↔ (format.units rank + format.units (rank + 1)) * den < 2 * num
        ∨ (format.units rank + format.units (rank + 1)) * den = 2 * num ∧ rank % 2 = 1 := by
  obtain ⟨above, below⟩ := format.shift_bounds num positive
  simp only [rankOfUnits, Nat.lt_min, bounded, and_true, Nat.pow_eq]
  generalize (num / den).log2 - format.fractionBits = shift at above below
  have scaled : 0 < den * 2 ^ shift := Nat.mul_pos positive (Nat.pow_pos (by decide))
  -- the quotient is rounded at the gap of one block, and ranks of other blocks are out of reach:
  -- those above cannot be exceeded, those below are
  by_cases start : shift = 0 ∨ (shift + 1) * format.block ≤ rank
  · have shifted : shift * format.block ≤ rank := by
      rcases start with rfl | le
      · simp
      · exact Nat.le_trans (Nat.mul_le_mul_right _ (Nat.le_succ shift)) le
    obtain ⟨offset, rfl⟩ := Nat.exists_eq_add_of_le shifted
    by_cases stop : shift * format.block + offset < (shift + 2) * format.block
    · have parity : (shift * format.block + offset) % 2 = offset % 2 := by
        rw [Nat.add_mod, Nat.mul_mod, format.block_even fine]
        simp
      have sum : (format.units (shift * format.block + offset)
            + format.units (shift * format.block + offset + 1)) * den
          = (2 * offset + 1) * (den * 2 ^ shift) := by
        rw [format.units_add_units_succ start stop, Nat.add_sub_cancel_left]
        ring
      rw [Nat.add_lt_add_iff_left, ← Nat.succ_le_iff, le_roundedQuotient_iff scaled, sum, parity]
      have half : 2 * (offset + 1) * (den * 2 ^ shift)
          = (2 * offset + 1) * (den * 2 ^ shift) + den * 2 ^ shift := by ring
      rw [Nat.succ_eq_add_one, half]
      omega
    · have capped : roundedQuotient num (den * 2 ^ shift) ≤ 2 * format.block :=
        roundedQuotient_le scaled above
      have size : (shift + 2) * format.block = shift * format.block + 2 * format.block := by ring
      have missed := format.double_lt_of_block_le above (Nat.le_of_not_lt stop)
      omega
  · rw [not_or, Nat.not_le] at start
    obtain ⟨nonzero, stop⟩ := start
    have enough := below.resolve_left nonzero
    have reached : format.block ≤ roundedQuotient num (den * 2 ^ shift) :=
      le_roundedQuotient scaled enough
    have size : (shift + 1) * format.block = shift * format.block + format.block := by ring
    have passed := format.lt_double_of_lt_block positive enough stop
    omega

-- Rounding as a function of the rational number

/-- The number half way between a magnitude and the next one, in units. -/
def midpoint (rank : Nat) : ℚ :=
  (format.units rank + format.units (rank + 1)) / 2

/-- A midpoint lies half a gap above its rank. -/
theorem midpoint_eq (rank : Nat)
    : format.midpoint rank = format.units rank + format.gap rank / 2 := by
  rw [Format.midpoint, format.units_succ]
  push_cast
  ring

/-- A midpoint lies half a gap below the next rank. -/
theorem midpoint_eq_sub (rank : Nat)
    : format.midpoint rank = format.units (rank + 1) - format.gap rank / 2 := by
  rw [Format.midpoint, format.units_succ]
  push_cast
  ring

/-- A rank lies below its midpoint. -/
theorem units_lt_midpoint (rank : Nat) : (format.units rank : ℚ) < format.midpoint rank := by
  have positive : (0 : ℚ) < format.gap rank := by exact_mod_cast format.gap_pos rank
  rw [midpoint_eq]
  linarith

/-- A midpoint lies below all higher ranks. -/
theorem midpoint_lt_units {rank above : Nat} (lt : rank < above)
    : format.midpoint rank < format.units above := by
  have smaller : (format.units rank : ℚ) < format.units (rank + 1) := by
    exact_mod_cast format.units_strictMono (Nat.lt_succ_self rank)
  have larger : (format.units (rank + 1) : ℚ) ≤ format.units above := by
    exact_mod_cast format.units_strictMono.monotone lt
  rw [Format.midpoint]
  linarith

/-- A number rounds to more than the given rank. -/
def Exceeds (rank : Nat) (x : ℚ) : Prop :=
  format.midpoint rank < x ∨ format.midpoint rank = x ∧ rank % 2 = 1

variable {format}

/-- What lies higher exceeds at least as many ranks. -/
theorem Exceeds.mono {rank : Nat} {x y : ℚ} (exceeds : format.Exceeds rank x) (le : x ≤ y)
    : format.Exceeds rank y := by
  rcases exceeds with above | ⟨rfl, odd⟩
  · exact Or.inl (above.trans_le le)
  · rcases le.lt_or_eq with above | same
    · exact Or.inl above
    · exact Or.inr ⟨same, odd⟩

/-- What exceeds a rank lies at its midpoint or above. -/
theorem Exceeds.midpoint_le {rank : Nat} {x : ℚ} (exceeds : format.Exceeds rank x)
    : format.midpoint rank ≤ x :=
  exceeds.elim le_of_lt fun same => same.1.le

/-- What does not exceed a rank lies at its midpoint or below. -/
theorem le_midpoint_of_not_exceeds {rank : Nat} {x : ℚ} (stays : ¬ format.Exceeds rank x)
    : x ≤ format.midpoint rank :=
  not_lt.mp fun above => stays (Or.inl above)

/-- A quotient rounds above a rank just when it exceeds it: the comparison of whole numbers in
`lt_rankOfUnits_iff` is that of fractions, cleared of denominators. -/
theorem lt_rankOfUnits_iff_exceeds (fine : 0 < format.fractionBits) {num den rank : Nat}
    (positive : 0 < den) (bounded : rank < format.infinityRank)
    : rank < format.rankOfUnits num den ↔ format.Exceeds rank (num / den) := by
  have positive' : (0 : ℚ) < den := by exact_mod_cast positive
  rw [format.lt_rankOfUnits_iff fine positive bounded, Exceeds, Format.midpoint,
    div_lt_div_iff₀ two_pos positive', div_eq_div_iff two_ne_zero positive'.ne']
  norm_cast
  rw [Nat.mul_comm num 2]

/-- Rounding is monotone, since exceeding a rank is. -/
theorem rankOfUnits_mono (fine : 0 < format.fractionBits) {num den num' den' : Nat}
    (positive : 0 < den) (positive' : 0 < den') (le : (num / den : ℚ) ≤ num' / den')
    : format.rankOfUnits num den ≤ format.rankOfUnits num' den' := by
  refine le_of_forall_lt fun rank lt => ?_
  have bounded : rank < format.infinityRank := lt.trans_le (format.rankOfUnits_le num den)
  rw [lt_rankOfUnits_iff_exceeds fine positive bounded] at lt
  rw [lt_rankOfUnits_iff_exceeds fine positive' bounded]
  exact lt.mono le

/-- Rounding depends on the value of the quotient only. -/
theorem rankOfUnits_congr (fine : 0 < format.fractionBits) {num den num' den' : Nat}
    (positive : 0 < den) (positive' : 0 < den') (same : (num / den : ℚ) = num' / den')
    : format.rankOfUnits num den = format.rankOfUnits num' den' :=
  le_antisymm (rankOfUnits_mono fine positive positive' same.le)
    (rankOfUnits_mono fine positive' positive same.ge)

/-- A quotient is at most half the distance of neighbours away from what it is rounded to. -/
theorem rankOfUnits_near (fine : 0 < format.fractionBits) {num den rank : Nat}
    (positive : 0 < den) (rounds : format.rankOfUnits num den = rank + 1)
    (finite : rank + 1 < format.infinityRank) {distance : ℚ}
    (before : format.gap rank ≤ distance) (after : format.gap (rank + 1) ≤ distance)
    : |(num / den : ℚ) - format.units (rank + 1)| ≤ distance / 2 := by
  have passes : format.Exceeds rank (num / den) := by
    rw [← lt_rankOfUnits_iff_exceeds fine positive (Nat.lt_of_succ_lt finite)]
    omega
  have stays : ¬ format.Exceeds (rank + 1) (num / den) := by
    rw [← lt_rankOfUnits_iff_exceeds fine positive finite]
    omega
  have low := passes.midpoint_le
  have high := le_midpoint_of_not_exceeds stays
  rw [midpoint_eq_sub] at low
  rw [midpoint_eq] at high
  rw [abs_le]
  constructor <;> linarith

/-- A magnitude rounds to itself. -/
theorem rankOfUnits_units (fine : 0 < format.fractionBits) {rank : Nat}
    (bounded : rank ≤ format.infinityRank)
    : format.rankOfUnits (format.units rank) 1 = rank := by
  apply le_antisymm
  · by_contra! above
    have below : rank < format.infinityRank := above.trans_le (format.rankOfUnits_le _ _)
    rw [lt_rankOfUnits_iff_exceeds fine one_pos below, Nat.cast_one, div_one] at above
    have less := format.units_lt_midpoint rank
    rcases above with above | ⟨same, _⟩
    · exact lt_asymm above less
    · exact less.ne' same
  · refine le_of_forall_lt fun lower lt => ?_
    rw [lt_rankOfUnits_iff_exceeds fine one_pos (lt.trans_le bounded), Nat.cast_one, div_one]
    exact Or.inl (format.midpoint_lt_units lt)

end Format

end Sprig
