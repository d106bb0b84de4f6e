import ByteMachine.Proofs.Number.Grid
import Mathlib.Tactic.FieldSimp

/-! What the search for the shortest decimal finds. It goes from coarse grids to fine ones and takes
the first that holds a point which rounds to the size; a decimal with as many digits or fewer can
always be moved towards the size onto one of the grids that were tried, so none is shorter, and of
those with as many digits none is nearer. -/

namespace ByteMachine.Number

/-- The number that a decimal stands for. -/
def Decimal.value (d : Decimal) : ℚ := d.coefficient * 10 ^ d.exponent

namespace Dyadic

/-! ## Trailing zeros -/

theorem value_stripZeros (coefficient : ℕ) (exponent : ℤ) :
    (stripZeros coefficient exponent).value = coefficient * 10 ^ exponent := by
  fun_induction stripZeros coefficient exponent with
  | case1 coefficient exponent h ih =>
    have hten : (coefficient : ℚ) = (coefficient / 10 : ℕ) * 10 := by
      exact_mod_cast (Nat.div_mul_cancel (Nat.dvd_of_mod_eq_zero h.2)).symm
    rw [ih, zpow_add_one₀ (by norm_num), hten]
    ring
  | case2 coefficient exponent h => rfl

theorem stripZeros_mod_ten {coefficient : ℕ} (hc : coefficient ≠ 0) (exponent : ℤ) :
    (stripZeros coefficient exponent).coefficient % 10 ≠ 0 := by
  fun_induction stripZeros coefficient exponent with
  | case1 coefficient exponent h ih => exact ih (by omega)
  | case2 coefficient exponent h => exact fun hmod => h ⟨hc, hmod⟩

end Dyadic

theorem digitCount_le_of_le {a b : ℕ} (h : a ≤ b) : digitCount a ≤ digitCount b :=
  (digitCount_le_iff a _).mpr (h.trans_lt ((digitCount_le_iff b _).mp le_rfl))

theorem digitCount_pos {n : ℕ} (h : 0 < n) : 0 < digitCount n := by
  by_contra hnone
  have := (digitCount_le_iff n 0).mp (Nat.le_of_not_lt hnone)
  simp only [Nat.pow_eq, pow_zero] at this
  omega

/-- Equal numbers with different exponents differ in trailing zeros. -/
theorem eq_mul_pow_of_value_eq {d other : Decimal} (h : d.value = other.value)
    (hle : other.exponent ≤ d.exponent) : ∃ k : ℕ, d.exponent = other.exponent + k ∧
      other.coefficient = d.coefficient * 10 ^ k := by
  obtain ⟨k, hk⟩ := Int.le.dest hle
  refine ⟨k, hk.symm, ?_⟩
  rw [Decimal.value, Decimal.value, ← hk, zpow_add₀ (by norm_num), zpow_natCast, mul_comm (10 ^ _),
    ← mul_assoc] at h
  exact_mod_cast (mul_right_cancel₀ (ten_zpow_pos _).ne' h).symm

/-- Of the decimals of one value the one without trailing zeros has the largest exponent. -/
theorem exponent_le_of_value_eq {d other : Decimal} (hd : d.coefficient % 10 ≠ 0)
    (h : d.value = other.value) : other.exponent ≤ d.exponent := by
  by_contra hlt
  obtain ⟨k, hk, hc⟩ := eq_mul_pow_of_value_eq h.symm (not_le.mp hlt).le
  obtain ⟨j, rfl⟩ := Nat.exists_eq_succ_of_ne_zero (show k ≠ 0 by omega)
  rw [pow_succ, ← mul_assoc] at hc
  exact absurd (hc ▸ Nat.mul_mod_left _ 10) hd

/-- It has no more digits than the others. -/
theorem digitCount_le_of_value_eq {d other : Decimal} (hd : d.coefficient % 10 ≠ 0)
    (h : d.value = other.value) : digitCount d.coefficient ≤ digitCount other.coefficient := by
  obtain ⟨k, -, hc⟩ := eq_mul_pow_of_value_eq h (exponent_le_of_value_eq hd h)
  refine digitCount_le_of_le ?_
  rw [hc]
  exact Nat.le_mul_of_pos_right _ (by positivity)

theorem eq_of_value_eq {d other : Decimal} (hd : d.coefficient % 10 ≠ 0)
    (ho : other.coefficient % 10 ≠ 0) (h : d.value = other.value) : d = other := by
  have hle := exponent_le_of_value_eq hd h
  have hge := exponent_le_of_value_eq ho h.symm
  obtain ⟨k, hk, hc⟩ := eq_mul_pow_of_value_eq h hle
  obtain rfl : k = 0 := by omega
  cases d
  cases other
  simp_all

namespace Dyadic

variable {x : Dyadic} {e : ℤ}

/-! ## The scale -/

theorem value_mul_below (x : Dyadic) : x.value * x.below = x.significand * x.above := by
  have h := pow_toNat_eq two_ne_zero x.exponent
  unfold value above below
  push_cast at h ⊢
  rw [h]
  ring

/-- A size below 1 is a fraction with its significand above the line. -/
theorem above_eq_one (hx : 0 < x.significand) (h : x.significand * x.above < x.below) :
    x.above = 1 := by
  by_cases hexp : 0 ≤ x.exponent
  · have hbelow : x.below = 1 := by
      unfold below
      rw [Int.toNat_of_nonpos (by omega)]
    have habove : 0 < x.above := Nat.pow_pos two_pos
    have := Nat.mul_pos hx habove
    omega
  · unfold above
    rw [Int.toNat_of_nonpos (by omega)]

/-- Below 1 the scale counts the zeros after the point. -/
theorem scale_spec_of_fraction (hx : 0 < x.significand)
    (hfraction : x.significand * x.above < x.below) :
    let places := digitCount ((x.below - 1) / x.significand)
    (10 : ℚ) ^ (1 - (places : ℤ) - 1) ≤ x.value ∧ x.value < 10 ^ (1 - (places : ℤ)) := by
  have hbelow : 0 < x.below := Nat.pow_pos two_pos
  have hbelow' : (0 : ℚ) < x.below := by exact_mod_cast hbelow
  have hvalue := x.value_mul_below
  rw [above_eq_one hx hfraction, Nat.cast_one, mul_one] at hvalue
  have hplaces (k : ℕ) : digitCount ((x.below - 1) / x.significand) ≤ k ↔
      (10 : ℚ) ^ (-(k : ℤ)) ≤ x.value := by
    have hpow : (10 : ℚ) ^ (-(k : ℤ)) * 10 ^ k = 1 := by
      rw [← zpow_natCast, ← zpow_add₀ (by norm_num), neg_add_cancel, zpow_zero]
    calc digitCount ((x.below - 1) / x.significand) ≤ k
        ↔ x.below ≤ 10 ^ k * x.significand := by
          rw [digitCount_le_iff, Nat.div_lt_iff_lt_mul hx, Nat.pow_eq]
          omega
      _ ↔ (x.below : ℚ) ≤ 10 ^ k * (x.value * x.below) := by
          rw [hvalue]
          exact_mod_cast Iff.rfl
      _ ↔ (10 : ℚ) ^ (-(k : ℤ)) ≤ x.value := by
          rw [← mul_assoc, le_mul_iff_one_le_left hbelow', ← hpow,
            mul_comm (10 ^ k), mul_le_mul_iff_of_pos_right (by positivity)]
  dsimp only
  generalize digitCount ((x.below - 1) / x.significand) = places at hplaces
  constructor
  · have h := (hplaces places).mp le_rfl
    rwa [show (1 - (places : ℤ) - 1) = -(places : ℤ) by ring]
  · cases places with
    | zero =>
      have hlt : (x.significand : ℚ) < x.below := by
        have hone := above_eq_one hx hfraction
        rw [hone, mul_one] at hfraction
        exact_mod_cast hfraction
      have hone : x.value * x.below < 1 * x.below := by rwa [hvalue, one_mul]
      have hsmall := lt_of_mul_lt_mul_right hone hbelow'.le
      norm_num
      linarith
    | succ before =>
      have h := (hplaces before).not.mp (by omega)
      rw [show (1 - ((before + 1 : ℕ) : ℤ)) = -(before : ℤ) by push_cast; ring]
      exact not_le.mp h

/-- From 1 on it counts the digits before the point. -/
theorem scale_spec_of_whole (hwhole : x.floorOn 0 ≠ 0) :
    let digits := digitCount (x.floorOn 0)
    (10 : ℚ) ^ ((digits : ℤ) - 1) ≤ x.value ∧ x.value < 10 ^ (digits : ℤ) := by
  have hle := x.floorOn_le 0
  have hlt := x.lt_floorOn_add_one 0
  have hdigits (k : ℕ) := digitCount_le_iff (x.floorOn 0) k
  simp only [zpow_zero, mul_one] at hle hlt
  simp only [Nat.pow_eq] at hdigits
  dsimp only
  generalize digitCount (x.floorOn 0) = digits at hdigits
  constructor
  · cases digits with
    | zero =>
      have := (hdigits 0).mp le_rfl
      omega
    | succ before =>
      have h := (hdigits before).not.mp (by omega)
      have hcast : (10 : ℚ) ^ before ≤ x.floorOn 0 := by exact_mod_cast not_lt.mp h
      rw [show (((before + 1 : ℕ) : ℤ) - 1) = before by push_cast; ring, zpow_natCast]
      exact hcast.trans hle
  · have h : ((x.floorOn 0 + 1 : ℕ) : ℚ) ≤ 10 ^ digits := by
      exact_mod_cast (hdigits digits).mp le_rfl
    rw [zpow_natCast]
    exact hlt.trans_le h

/-- The scale of a size is where its decimal point stands. -/
theorem scale_spec (hx : 0 < x.significand) :
    (10 : ℚ) ^ (x.scale - 1) ≤ x.value ∧ x.value < 10 ^ x.scale := by
  have hwhole : x.significand * x.above / x.below = x.floorOn 0 := by
    simp [floorOn, up, down]
  unfold scale
  dsimp only
  split
  next hzero =>
    exact scale_spec_of_fraction hx ((Nat.div_eq_zero_iff_lt (Nat.pow_pos two_pos)).mp hzero)
  next hzero =>
    rw [hwhole] at hzero ⊢
    exact scale_spec_of_whole hzero

/-! ## The search -/

/-- On a grid that holds the size itself the search ends with it. -/
theorem nearestOn_floorOn {c : ℕ} (h : x.value = c * 10 ^ e) : x.NearestOn e (x.floorOn e) := by
  have hle := x.floorOn_le e
  have hlt := x.lt_floorOn_add_one e
  rw [h, mul_le_mul_iff_of_pos_right (ten_zpow_pos e)] at hle
  rw [h, mul_lt_mul_iff_of_pos_right (ten_zpow_pos e)] at hlt
  have hc : x.floorOn e = c := by
    have hle' : x.floorOn e ≤ c := by exact_mod_cast hle
    have hlt' : c < x.floorOn e + 1 := by exact_mod_cast hlt
    omega
  rw [hc]
  refine ⟨h ▸ x.covers_value, fun other _ => ?_, fun other _ htie => ?_⟩
  · rw [h, sub_self, abs_zero]
    exact abs_nonneg _
  · rw [h, sub_self, abs_zero, abs_eq_zero, sub_eq_zero] at htie
    have := mul_right_cancel₀ (ten_zpow_pos e).ne' htie
    exact (by exact_mod_cast this.symm : other = c).le

theorem search_spec (hx : 0 < x.significand) {steps : ℕ} {c : ℕ}
    (h : x.value = c * 10 ^ (e - steps)) :
    (x.search steps e).exponent ≤ e ∧
    x.NearestOn (x.search steps e).exponent (x.search steps e).coefficient ∧
    ∀ coarser, (x.search steps e).exponent < coarser → coarser ≤ e →
      ∀ other : ℕ, ¬ x.Covers (other * 10 ^ coarser) := by
  induction steps generalizing e with
  | zero =>
    have hvalue : x.value = c * 10 ^ e := by simpa using h
    refine ⟨le_rfl, nearestOn_floorOn hvalue, fun coarser hlt hle => ?_⟩
    exact absurd hle (not_le.mpr hlt)
  | succ steps ih =>
    unfold search
    cases hpick : x.pick e with
    | some d =>
      refine ⟨le_rfl, nearestOn_of_pick hx hpick, fun coarser hlt hle => ?_⟩
      exact absurd hle (not_le.mpr hlt)
    | none =>
      obtain ⟨hexp, hnearest, hcoarser⟩ := ih (e := e - 1) (by rw [h]; congr 2; push_cast; ring)
      refine ⟨hexp.trans (by omega), hnearest, fun coarser hlt hle => ?_⟩
      rcases hle.lt_or_eq with hlt' | rfl
      · exact hcoarser coarser hlt (by omega)
      · exact not_covers_of_pick hx hpick

/-- Every size lies on the grid where each of its bits has a place of its own. -/
theorem exists_value_eq (x : Dyadic) : ∃ c : ℕ, x.value = c * 10 ^ min x.exponent 0 := by
  rcases le_total 0 x.exponent with h | h
  · obtain ⟨k, hk⟩ := Int.eq_ofNat_of_zero_le h
    refine ⟨x.significand * 2 ^ k, ?_⟩
    rw [min_eq_right h, value, hk]
    simp
  · obtain ⟨k, hk⟩ := Int.eq_ofNat_of_zero_le (neg_nonneg.mpr h)
    refine ⟨x.significand * 5 ^ k, ?_⟩
    have hten : (10 : ℚ) ^ k = 2 ^ k * 5 ^ k := by rw [← mul_pow]; norm_num
    rw [min_eq_left h, value, show x.exponent = -(k : ℤ) by omega, zpow_neg, zpow_neg, zpow_natCast,
      zpow_natCast, hten]
    push_cast
    field_simp

/-- The search begins on a grid that is at least as coarse as that one. -/
theorem min_le_scale (hx : 0 < x.significand) : min x.exponent 0 ≤ x.scale - 1 := by
  have hone : (1 : ℚ) ≤ x.significand := by exact_mod_cast hx
  have hlow : (10 : ℚ) ^ min x.exponent 0 ≤ x.value := by
    rcases le_total 0 x.exponent with h | h
    · rw [min_eq_right h, zpow_zero]
      exact one_le_mul_of_one_le_of_one_le hone (one_le_zpow₀ (by norm_num) h)
    · have hpow : (10 : ℚ) ^ x.exponent ≤ 2 ^ x.exponent := by
        obtain ⟨k, hk⟩ := Int.eq_ofNat_of_zero_le (neg_nonneg.mpr h)
        rw [show x.exponent = -(k : ℤ) by omega, zpow_neg, zpow_neg, zpow_natCast, zpow_natCast]
        gcongr
        norm_num
      rw [min_eq_left h]
      calc (10 : ℚ) ^ x.exponent ≤ x.gap := hpow
        _ ≤ x.significand * x.gap := le_mul_of_one_le_left x.gap_pos.le hone
  have hlt := hlow.trans_lt (scale_spec hx).2
  have := (zpow_lt_zpow_iff_right₀ (by norm_num)).mp hlt
  omega

/-- What the search finds. -/
theorem found_spec (hx : 0 < x.significand) :
    let found := x.search (x.scale - 1 - min x.exponent 0).toNat (x.scale - 1)
    found.exponent ≤ x.scale - 1 ∧ x.NearestOn found.exponent found.coefficient ∧
    ∀ coarser, found.exponent < coarser → coarser ≤ x.scale - 1 →
      ∀ other : ℕ, ¬ x.Covers (other * 10 ^ coarser) := by
  obtain ⟨c, hc⟩ := x.exists_value_eq
  have hle := min_le_scale hx
  refine search_spec hx (c := c) ?_
  rw [hc]
  congr 2
  omega

/-! ## Shortest decimals -/

/-- The decimal without trailing zeros that a size is written with: no decimal that rounds to the
size has fewer digits, of those with as many digits none is nearer, and of two that are as near it
is the larger one. -/
structure ShortestDecimal (x : Dyadic) (d : Decimal) : Prop where
  covers : x.Covers d.value
  reduced : d.coefficient % 10 ≠ 0
  shortest : ∀ other : Decimal, x.Covers other.value →
    digitCount d.coefficient ≤ digitCount other.coefficient
  nearest : ∀ other : Decimal, x.Covers other.value →
    digitCount other.coefficient = digitCount d.coefficient →
      |x.value - d.value| ≤ |x.value - other.value|
  larger : ∀ other : Decimal, x.Covers other.value →
    digitCount other.coefficient = digitCount d.coefficient →
      |x.value - other.value| = |x.value - d.value| → other.value ≤ d.value

theorem lower_pos (hx : 0 < x.significand) : 0 < x.lower := by
  have hone : (1 : ℚ) ≤ x.significand := by exact_mod_cast hx
  have hgap := x.gap_pos
  have hle : x.gap ≤ x.value := le_mul_of_one_le_left hgap.le hone
  unfold lower lowerGap
  split <;> norm_num <;> linarith

theorem coefficient_pos (hx : 0 < x.significand) {c : ℕ} (h : x.Covers (c * 10 ^ e)) : 0 < c := by
  by_contra hnone
  have hlow := (lower_pos hx).trans_le h.1
  simp [Nat.eq_zero_of_not_pos hnone] at hlow

/-- What lies between a size and a number that rounds to it rounds to it and is nearer. -/
theorem Covers.towards {r point : ℚ} (h : x.Covers r)
    (hbetween : (x.value ≤ point ∧ point ≤ r) ∨ (r ≤ point ∧ point ≤ x.value)) :
    x.Covers point ∧ |x.value - point| ≤ |x.value - r| ∧
      (|x.value - point| = |x.value - r| → r = point) := by
  rcases hbetween with ⟨hv, hr⟩ | ⟨hr, hv⟩
  · rw [abs_of_nonpos (by linarith), abs_of_nonpos (by linarith)]
    exact ⟨x.covers_value.between h hv hr, by linarith, fun htie => by linarith⟩
  · rw [abs_of_nonneg (by linarith), abs_of_nonneg (by linarith)]
    exact ⟨h.between x.covers_value hr hv, by linarith, fun htie => by linarith⟩

/-- A decimal that rounds to a size can be moved towards it onto the grid on which as many digits
reach up to the scale. One that is too large passes the power of ten at the scale on the way, one
that is too small the next smaller power, and any other lies on the grid itself. -/
theorem exists_on_grid (hx : 0 < x.significand) {other : Decimal} (h : x.Covers other.value) :
    ∃ c : ℕ, let point := (c : ℚ) * 10 ^ (x.scale - digitCount other.coefficient)
      x.Covers point ∧ |x.value - point| ≤ |x.value - other.value| ∧
        (|x.value - point| = |x.value - other.value| → other.value = point) := by
  obtain ⟨hlow, hhigh⟩ := scale_spec hx
  obtain ⟨before, hdigits⟩ :=
    Nat.exists_eq_succ_of_ne_zero (digitCount_pos (coefficient_pos hx h)).ne'
  rw [hdigits]
  have hten : (10 : ℚ) ≠ 0 := by norm_num
  rcases le_or_gt ((10 : ℚ) ^ x.scale) other.value with habove | hbelow
  · refine ⟨10 ^ (before + 1), h.towards (.inl ?_)⟩
    have hpoint : ((10 ^ (before + 1) : ℕ) : ℚ) * 10 ^ (x.scale - (before + 1 : ℕ)) =
        10 ^ x.scale := by
      rw [Nat.cast_pow, Nat.cast_ofNat, ← zpow_natCast, ← zpow_add₀ hten]
      congr 1
      ring
    rw [Nat.succ_eq_add_one, hpoint]
    exact ⟨hhigh.le, habove⟩
  · rcases lt_or_ge other.value ((10 : ℚ) ^ (x.scale - 1)) with hsmall | hlarge
    · refine ⟨10 ^ before, h.towards (.inr ?_)⟩
      have hpoint : ((10 ^ before : ℕ) : ℚ) * 10 ^ (x.scale - (before + 1 : ℕ)) =
          10 ^ (x.scale - 1) := by
        rw [Nat.cast_pow, Nat.cast_ofNat, ← zpow_natCast, ← zpow_add₀ hten]
        congr 1
        push_cast
        ring
      rw [Nat.succ_eq_add_one, hpoint]
      exact ⟨hsmall.le, hlow⟩
    · have hcoefficient : (other.coefficient : ℚ) < 10 ^ (before + 1) := by
        exact_mod_cast (digitCount_le_iff other.coefficient (before + 1)).mp hdigits.le
      have hreach : (10 : ℚ) ^ (x.scale - 1) < 10 ^ ((before + 1 : ℕ) + other.exponent) := by
        refine hlarge.trans_lt ?_
        rw [zpow_add₀ hten, zpow_natCast]
        exact mul_lt_mul_of_pos_right hcoefficient (ten_zpow_pos _)
      have hexp := (zpow_lt_zpow_iff_right₀ (by norm_num)).mp hreach
      obtain ⟨k, hk⟩ := Int.eq_ofNat_of_zero_le
        (show 0 ≤ other.exponent - (x.scale - (before + 1 : ℕ)) by omega)
      refine ⟨other.coefficient * 10 ^ k, ?_⟩
      have hpoint : ((other.coefficient * 10 ^ k : ℕ) : ℚ) * 10 ^ (x.scale - (before + 1 : ℕ)) =
          other.value := by
        rw [Nat.cast_mul, Nat.cast_pow, Nat.cast_ofNat, mul_assoc, ← zpow_natCast,
          ← zpow_add₀ hten, Decimal.value]
        congr 2
        omega
      dsimp only
      rw [Nat.succ_eq_add_one, hpoint]
      exact ⟨h, le_rfl, fun _ => rfl⟩

/-- The point that a grid offers has at most as many digits as reach up to the scale. -/
theorem digitCount_stripZeros_le (hx : 0 < x.significand) {c : ℕ} (hc : x.NearestOn e c)
    (he : e ≤ x.scale - 1) : (digitCount (stripZeros c e).coefficient : ℤ) ≤ x.scale - e := by
  have hreduced := stripZeros_mod_ten (coefficient_pos hx hc.covers).ne' e
  obtain ⟨k, hk⟩ := Int.eq_ofNat_of_zero_le (show 0 ≤ x.scale - e by omega)
  have hscale : ((10 ^ k : ℕ) : ℚ) * 10 ^ e = 10 ^ x.scale := by
    rw [Nat.cast_pow, Nat.cast_ofNat, ← zpow_natCast, ← zpow_add₀ (by norm_num)]
    congr 1
    omega
  have hle : c ≤ 10 ^ k := hc.le_of_value_le (by rw [hscale]; exact (scale_spec hx).2.le)
  rw [hk]
  rcases hle.lt_or_eq with hlt | rfl
  · have hvalue : (stripZeros c e).value = Decimal.value ⟨c, e⟩ := value_stripZeros c e
    have h := digitCount_le_of_value_eq hreduced hvalue
    have hcount := (digitCount_le_iff c k).mpr hlt
    dsimp only at h
    omega
  · have hvalue : (stripZeros (10 ^ k) e).value = Decimal.value ⟨1, x.scale⟩ := by
      rw [value_stripZeros, hscale, Decimal.value, Nat.cast_one, one_mul]
    have h := digitCount_le_of_value_eq hreduced hvalue
    have hone : digitCount 1 = 1 := by decide +kernel
    dsimp only at h
    omega

/-- The nearest point of the coarsest grid with a point that rounds to the size is the shortest
decimal, once it has lost its trailing zeros. A decimal with fewer digits would have moved onto a
coarser grid, and one with as many is no nearer than some point of this grid. -/
theorem shortest_of_nearestOn (hx : 0 < x.significand) {c : ℕ} (hc : x.NearestOn e c)
    (he : e ≤ x.scale - 1) (hcoarser : ∀ coarser, e < coarser → coarser ≤ x.scale - 1 →
      ∀ other : ℕ, ¬ x.Covers (other * 10 ^ coarser)) : x.ShortestDecimal (stripZeros c e) := by
  have hdigits := digitCount_stripZeros_le hx hc he
  have hvalue := value_stripZeros c e
  have hfewest {other : Decimal} (h : x.Covers other.value) :
      x.scale - e ≤ digitCount other.coefficient := by
    obtain ⟨point, hpoint, -⟩ := exists_on_grid hx h
    have hpos := digitCount_pos (coefficient_pos hx h)
    by_contra hlt
    exact hcoarser _ (by omega) (by omega) point hpoint
  have hgrid {other : Decimal} (h : x.Covers other.value)
      (hcount : digitCount other.coefficient = digitCount (stripZeros c e).coefficient) :
      ∃ point : ℕ, x.Covers (point * 10 ^ e) ∧
        |x.value - point * 10 ^ e| ≤ |x.value - other.value| ∧
        (|x.value - point * 10 ^ e| = |x.value - other.value| → other.value = point * 10 ^ e) := by
    have hexp : x.scale - digitCount other.coefficient = e := by
      have := hfewest h
      omega
    have hpoint := exists_on_grid hx h
    rwa [hexp] at hpoint
  constructor
  · rw [hvalue]
    exact hc.covers
  · exact stripZeros_mod_ten (coefficient_pos hx hc.covers).ne' e
  · intro other h
    have := hfewest h
    omega
  · intro other h hcount
    obtain ⟨point, hpoint, hle, -⟩ := hgrid h hcount
    rw [hvalue]
    exact (hc.nearest point hpoint).trans hle
  · intro other h hcount htie
    obtain ⟨point, hpoint, hle, heq⟩ := hgrid h hcount
    rw [hvalue] at htie ⊢
    have hsame : |x.value - point * 10 ^ e| = |x.value - other.value| :=
      le_antisymm hle (htie ▸ hc.nearest point hpoint)
    rw [heq hsame]
    exact grid_le (hc.larger point hpoint (hsame.trans htie))

theorem shortest_spec (hx : 0 < x.significand) : x.ShortestDecimal x.shortest := by
  obtain ⟨he, hc, hcoarser⟩ := found_spec hx
  exact shortest_of_nearestOn hx hc he hcoarser

/-- A size is written with one decimal alone. -/
theorem ShortestDecimal.unique {d other : Decimal} (h : x.ShortestDecimal d)
    (h' : x.ShortestDecimal other) : d = other := by
  have hcount : digitCount other.coefficient = digitCount d.coefficient :=
    le_antisymm (h'.shortest d h.covers) (h.shortest other h'.covers)
  have hdist : |x.value - other.value| = |x.value - d.value| :=
    le_antisymm (h'.nearest d h.covers hcount.symm) (h.nearest other h'.covers hcount)
  have hvalue : d.value = other.value :=
    le_antisymm (h'.larger d h.covers hcount.symm hdist.symm)
      (h.larger other h'.covers hcount hdist)
  exact eq_of_value_eq h.reduced h'.reduced hvalue

end Dyadic

end ByteMachine.Number
