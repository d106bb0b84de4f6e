import ByteMachine.Number.Shortest
import Mathlib.Algebra.Order.Field.Basic
import Mathlib.Data.Rat.Cast.Order
import Mathlib.Order.Monotone.Basic
import Mathlib.Tactic.Linarith
import Mathlib.Tactic.LinearCombination
import Mathlib.Tactic.NormNum
import Mathlib.Tactic.Ring

/-! The sizes of doubles as exact numbers, in their order. Without its sign the word of a double is
a place in the row of all sizes: the next word holds the next larger size, and the rounding
intervals of neighbours share their ends. The place behind the largest finite size is that of the
infinities, where the row goes on as if the exponent had no bound. -/

namespace ByteMachine.Number

namespace Dyadic

/-- The number itself. -/
def value (x : Dyadic) : ℚ := x.significand * 2 ^ x.exponent

/-- How far away the next larger size is. -/
def gap (x : Dyadic) : ℚ := 2 ^ x.exponent

/-- Halfway to the next smaller size. -/
def lower (x : Dyadic) : ℚ := x.value - x.lowerGap / 4 * x.gap

/-- Halfway to the next larger size. -/
def upper (x : Dyadic) : ℚ := x.value + x.gap / 2

/-- The rounding interval of a size. Its ends belong to it when the significand is even. -/
def Covers (x : Dyadic) (r : ℚ) : Prop :=
  x.lower ≤ r ∧ r ≤ x.upper ∧ (x.significand % 2 = 1 → x.lower ≠ r ∧ r ≠ x.upper)

theorem gap_pos (x : Dyadic) : 0 < x.gap := zpow_pos (by norm_num) _

theorem value_eq (x : Dyadic) : x.value = x.significand * x.gap := rfl

theorem lower_lt_value (x : Dyadic) : x.lower < x.value := by
  have hgap := x.gap_pos
  unfold lower lowerGap
  split <;> norm_num <;> linarith

theorem value_lt_upper (x : Dyadic) : x.value < x.upper := by
  have hgap := x.gap_pos
  unfold upper
  linarith

theorem covers_iff_of_even {x : Dyadic} (h : x.significand % 2 = 0) {r : ℚ} :
    x.Covers r ↔ x.lower ≤ r ∧ r ≤ x.upper := by
  simp [Covers, h]

theorem covers_iff_of_odd {x : Dyadic} (h : x.significand % 2 = 1) {r : ℚ} :
    x.Covers r ↔ x.lower < r ∧ r < x.upper := by
  constructor
  · intro hr
    exact ⟨lt_of_le_of_ne hr.1 (hr.2.2 h).1, lt_of_le_of_ne hr.2.1 (hr.2.2 h).2⟩
  · intro hr
    exact ⟨hr.1.le, hr.2.le, fun _ => ⟨hr.1.ne, hr.2.ne⟩⟩

/-- A size rounds to itself. -/
theorem covers_value (x : Dyadic) : x.Covers x.value :=
  ⟨x.lower_lt_value.le, x.value_lt_upper.le,
    fun _ => ⟨x.lower_lt_value.ne, x.value_lt_upper.ne⟩⟩

/-- What lies between two numbers that round to a size rounds to it as well. -/
theorem Covers.between {x : Dyadic} {r s t : ℚ} (hr : x.Covers r) (ht : x.Covers t)
    (hrs : r ≤ s) (hst : s ≤ t) : x.Covers s := by
  refine ⟨hr.1.trans hrs, hst.trans ht.2.1, fun hodd => ⟨?_, ?_⟩⟩
  · have hlow := lt_of_le_of_ne hr.1 (hr.2.2 hodd).1
    exact (hlow.trans_le hrs).ne
  · have hup := lt_of_le_of_ne ht.2.1 (ht.2.2 hodd).2
    exact (hst.trans_lt hup).ne

end Dyadic

/-! ## The row of sizes -/

/-- The size at a place: sixty-three bits, read as exponent field and fraction. -/
def sizeAt (place : ℕ) : Dyadic :=
  let field := place / Reading.fractionSize
  let fraction := place % Reading.fractionSize
  if field = 0 then ⟨fraction, -1074, false⟩
  else ⟨Reading.fractionSize + fraction, (field : Int) - 1075, fraction = 0 && 1 < field⟩

/-- The place behind the largest finite size. -/
def infinitePlace : ℕ := 0x7FF0000000000000

theorem sizeAt_eq (field : ℕ) {fraction : ℕ} (h : fraction < Reading.fractionSize) :
    sizeAt (Reading.fractionSize * field + fraction) =
      if field = 0 then ⟨fraction, -1074, false⟩
      else ⟨Reading.fractionSize + fraction, (field : Int) - 1075, fraction = 0 && 1 < field⟩ := by
  have hpos : 0 < Reading.fractionSize := by decide
  rw [sizeAt, Nat.mul_add_div hpos, Nat.div_eq_of_lt h, Nat.mul_add_mod, Nat.mod_eq_of_lt h,
    Nat.add_zero]

/-- Each place has an exponent field and a fraction. -/
theorem exists_place_eq (place : ℕ) :
    ∃ field fraction, fraction < Reading.fractionSize ∧
      place = Reading.fractionSize * field + fraction :=
  ⟨place / Reading.fractionSize, place % Reading.fractionSize, Nat.mod_lt _ (by decide),
    (Nat.div_add_mod _ _).symm⟩

/-- The place after the last fraction of an exponent field is the first one of the next field. -/
theorem place_carry (field : ℕ) {fraction : ℕ} (h : fraction + 1 = Reading.fractionSize) :
    Reading.fractionSize * field + fraction + 1 = Reading.fractionSize * (field + 1) + 0 := by
  rw [Nat.add_assoc, h]
  ring

theorem value_sizeAt_zero : (sizeAt 0).value = 0 := by
  simp [sizeAt, Dyadic.value]

theorem significand_sizeAt (place : ℕ) : (sizeAt place).significand % 2 = place % 2 := by
  have heven : Reading.fractionSize % 2 = 0 := by decide
  obtain ⟨field, fraction, hlt, rfl⟩ := exists_place_eq place
  rw [sizeAt_eq field hlt, Nat.add_mod _ fraction, Nat.mul_mod, heven]
  split
  · simp
  · simp [Nat.add_mod, heven]

/-- The next place counts the significand up, or begins anew with the next exponent. -/
theorem sizeAt_succ (place : ℕ) :
    sizeAt (place + 1) = ⟨(sizeAt place).significand + 1, (sizeAt place).exponent, false⟩ ∨
    ((sizeAt place).significand + 1 = 2 * Reading.fractionSize ∧
      sizeAt (place + 1) = ⟨Reading.fractionSize, (sizeAt place).exponent + 1, true⟩) := by
  obtain ⟨field, fraction, hlt, rfl⟩ := exists_place_eq place
  by_cases hcarry : fraction + 1 < Reading.fractionSize
  · left
    rw [Nat.add_assoc, sizeAt_eq field hlt, sizeAt_eq field hcarry]
    by_cases hfield : field = 0
    · simp [hfield]
    · simp [hfield, Nat.add_assoc]
  · have hlast : fraction + 1 = Reading.fractionSize := by omega
    have hnext : ((field + 1 : ℕ) : ℤ) - 1075 = (field : ℤ) - 1075 + 1 := by omega
    rw [place_carry field hlast, sizeAt_eq field hlt, sizeAt_eq (field + 1) (by decide)]
    by_cases hfield : field = 0
    · left
      simp [hfield, hlast]
    · right
      have hbefore : 1 < field + 1 := by omega
      simp only [hfield, if_false, Nat.succ_ne_zero, hnext]
      refine ⟨by omega, ?_⟩
      simp [hbefore]

/-- From a place to the next there is the gap above its size. -/
theorem value_sizeAt_succ (place : ℕ) :
    (sizeAt (place + 1)).value = (sizeAt place).value + (sizeAt place).gap := by
  rcases sizeAt_succ place with hnext | ⟨hlast, hnext⟩
  · rw [hnext]
    simp only [Dyadic.value, Dyadic.gap]
    push_cast
    ring
  · have hcast : ((sizeAt place).significand : ℚ) + 1 = 2 * Reading.fractionSize := by
      exact_mod_cast hlast
    rw [hnext]
    simp only [Dyadic.value, Dyadic.gap, zpow_add_one₀ (two_ne_zero' ℚ)]
    linear_combination -2 ^ (sizeAt place).exponent * hcast

/-- The gap below a size is half as wide as the gap above it where the next smaller size has the
next smaller exponent. -/
theorem gap_sizeAt (place : ℕ) :
    (sizeAt place).gap = (sizeAt (place + 1)).lowerGap / 2 * (sizeAt (place + 1)).gap := by
  rcases sizeAt_succ place with hnext | ⟨_, hnext⟩
  · simp [hnext, Dyadic.lowerGap, Dyadic.gap]
  · rw [hnext]
    simp only [Dyadic.lowerGap, Dyadic.gap, if_true, zpow_add_one₀ (two_ne_zero' ℚ)]
    push_cast
    ring

/-- The rounding interval of a size begins where the one of the size before it ends. -/
theorem lower_sizeAt_succ (place : ℕ) : (sizeAt (place + 1)).lower = (sizeAt place).upper := by
  have hvalue := value_sizeAt_succ place
  have hgap := gap_sizeAt place
  unfold Dyadic.lower Dyadic.upper
  linear_combination hvalue + (1 / 2) * hgap

theorem value_sizeAt_strictMono : StrictMono fun place => (sizeAt place).value := by
  refine strictMono_nat_of_lt_succ fun place => ?_
  rw [value_sizeAt_succ]
  linarith [(sizeAt place).gap_pos]

theorem value_sizeAt_lt {place other : ℕ} (h : place < other) :
    (sizeAt place).value < (sizeAt other).value :=
  value_sizeAt_strictMono h

theorem value_sizeAt_le {place other : ℕ} (h : place ≤ other) :
    (sizeAt place).value ≤ (sizeAt other).value :=
  value_sizeAt_strictMono.monotone h

theorem value_sizeAt_nonneg (place : ℕ) : 0 ≤ (sizeAt place).value := by
  rw [← value_sizeAt_zero]
  exact value_sizeAt_le (Nat.zero_le place)

/-- A rounding interval ends in the middle between neighbours. -/
theorem upper_sizeAt (place : ℕ) :
    2 * (sizeAt place).upper = (sizeAt place).value + (sizeAt (place + 1)).value := by
  rw [value_sizeAt_succ, Dyadic.upper]
  ring

theorem upper_sizeAt_strictMono : StrictMono fun place => (sizeAt place).upper := by
  refine strictMono_nat_of_lt_succ fun place => ?_
  rw [← lower_sizeAt_succ]
  exact (Dyadic.lower_lt_value _).trans (Dyadic.value_lt_upper _)

/-! ## Rounding intervals in the row -/

section

variable {place other : ℕ} {r s : ℚ}

theorem two_mul_upper_le (h : place < other) :
    2 * (sizeAt place).upper ≤ (sizeAt place).value + (sizeAt other).value := by
  have hle := value_sizeAt_le (Nat.succ_le_of_lt h)
  have hmid := upper_sizeAt place
  linarith

theorem le_two_mul_lower (h : other < place) :
    (sizeAt place).value + (sizeAt other).value ≤ 2 * (sizeAt place).lower := by
  obtain ⟨before, rfl⟩ := Nat.exists_eq_add_of_lt h
  have hle := value_sizeAt_le (Nat.le_add_right other before)
  have hmid := upper_sizeAt (other + before)
  rw [lower_sizeAt_succ]
  linarith

/-- Where neighbouring intervals meet, the even one of them has the common end. -/
theorem Dyadic.Covers.even_of_eq_upper (h : (sizeAt place).Covers r)
    (hr : r = (sizeAt place).upper) : place % 2 = 0 := by
  by_contra hodd
  exact (h.2.2 (by rw [significand_sizeAt]; omega)).2 hr

theorem Dyadic.Covers.even_of_eq_lower (h : (sizeAt place).Covers r)
    (hr : r = (sizeAt place).lower) : place % 2 = 0 := by
  by_contra hodd
  exact (h.2.2 (by rw [significand_sizeAt]; omega)).1 hr.symm

/-- Larger sizes have rounding intervals further up, without a common point: only neighbours could
meet, and of two neighbours one has an odd significand. -/
theorem Dyadic.Covers.lt (h : (sizeAt place).Covers r) (h' : (sizeAt other).Covers s)
    (hlt : place < other) : r < s := by
  obtain ⟨between, rfl⟩ := Nat.exists_eq_add_of_lt hlt
  have hlow := h'.1
  rw [lower_sizeAt_succ] at hlow
  refine lt_of_le_of_ne (h.2.1.trans (le_trans ?_ hlow)) ?_
  · exact upper_sizeAt_strictMono.monotone (Nat.le_add_right _ _)
  · rintro rfl
    have hends : (sizeAt (place + between)).upper ≤ (sizeAt place).upper := hlow.trans h.2.1
    have hnone : place + between ≤ place := upper_sizeAt_strictMono.le_iff_le.mp hends
    obtain rfl : between = 0 := by omega
    have hr : r = (sizeAt place).upper := le_antisymm h.2.1 hlow
    have heven := h.even_of_eq_upper hr
    have heven' := h'.even_of_eq_lower (by rw [lower_sizeAt_succ]; exact hr)
    omega

/-- Rounding is monotone. -/
theorem Dyadic.Covers.le (h : (sizeAt place).Covers r) (h' : (sizeAt other).Covers s)
    (hrs : r ≤ s) : place ≤ other := by
  by_contra hlt
  exact absurd hrs (not_le.mpr (h'.lt h (by omega)))

theorem Dyadic.Covers.unique (h : (sizeAt place).Covers r) (h' : (sizeAt other).Covers r) :
    place = other :=
  le_antisymm (h.le h' le_rfl) (h'.le h le_rfl)

/-- No size is nearer than the one whose interval holds a number. -/
theorem Dyadic.Covers.nearest (h : (sizeAt place).Covers r) (other : ℕ) :
    |r - (sizeAt place).value| ≤ |r - (sizeAt other).value| := by
  rcases lt_trichotomy place other with hlt | rfl | hgt
  · have hmid := two_mul_upper_le hlt
    have hvalue := value_sizeAt_lt hlt
    have hr := h.2.1
    rw [abs_of_nonpos (show r - (sizeAt other).value ≤ 0 by linarith), abs_le]
    constructor <;> linarith
  · rfl
  · have hmid := le_two_mul_lower hgt
    have hvalue := value_sizeAt_lt hgt
    have hr := h.1
    rw [abs_of_nonneg (show 0 ≤ r - (sizeAt other).value by linarith), abs_le]
    constructor <;> linarith

/-- Where another size is as near, the even one has the number in its interval. -/
theorem Dyadic.Covers.even (h : (sizeAt place).Covers r) (hne : other ≠ place)
    (htie : |r - (sizeAt other).value| = |r - (sizeAt place).value|) : place % 2 = 0 := by
  rcases lt_or_gt_of_ne hne with hlt | hgt
  · have hmid := le_two_mul_lower hlt
    have hvalue := value_sizeAt_lt hlt
    have hr := h.1
    refine h.even_of_eq_lower ?_
    rw [abs_of_nonneg (show 0 ≤ r - (sizeAt other).value by linarith)] at htie
    rcases abs_choice (r - (sizeAt place).value) with habs | habs <;> linarith
  · have hmid := two_mul_upper_le hgt
    have hvalue := value_sizeAt_lt hgt
    have hr := h.2.1
    refine h.even_of_eq_upper ?_
    rw [abs_of_nonpos (show r - (sizeAt other).value ≤ 0 by linarith)] at htie
    rcases abs_choice (r - (sizeAt place).value) with habs | habs <;> linarith

end

end ByteMachine.Number
