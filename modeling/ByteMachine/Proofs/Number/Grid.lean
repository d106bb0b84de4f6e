import ByteMachine.Proofs.Number.Magnitude

/-! Decimal grids. On the grid of a power of ten, whose points are its multiples, the two
neighbours of a size decide everything: if any point rounds to the size then one of them does, and
the nearest such point is one of them. -/

namespace ByteMachine.Number

theorem ten_zpow_pos (e : ℤ) : (0 : ℚ) < 10 ^ e := zpow_pos (by norm_num) e

/-- A power with an integer exponent as a fraction of natural numbers. -/
theorem pow_toNat_eq {base : ℕ} (hbase : base ≠ 0) (e : ℤ) :
    ((Nat.pow base e.toNat : ℕ) : ℚ) = (base : ℚ) ^ e * (Nat.pow base (-e).toNat : ℕ) := by
  have hne : (base : ℚ) ≠ 0 := by exact_mod_cast hbase
  simp only [Nat.pow_eq, Nat.cast_pow, ← zpow_natCast]
  rw [← zpow_add₀ hne]
  congr 1
  omega

namespace Dyadic

variable (x : Dyadic) (e : ℤ)

theorem down_pos : 0 < x.down e := Nat.mul_pos (Nat.pow_pos (by decide)) (Nat.pow_pos (by decide))

/-- The gap above a size, measured on a grid. -/
theorem up_eq : (x.up e : ℚ) * 10 ^ e = x.gap * x.down e := by
  have htwo := pow_toNat_eq two_ne_zero x.exponent
  have hten := pow_toNat_eq (show 10 ≠ 0 by decide) e
  unfold up down above below gap
  push_cast at htwo hten ⊢
  rw [htwo, hten]
  ring

/-! ## Comparisons in natural numbers -/

/-- In this unit the multiples of `down` are the grid points and those of `up` the gaps. -/
theorem mul_unit (a : ℕ) :
    ((a * x.down e : ℕ) : ℚ) * (10 ^ e / x.down e) = a * 10 ^ e ∧
      ((a * x.up e : ℕ) : ℚ) * (10 ^ e / x.down e) = a * x.gap := by
  have hdown : (x.down e : ℚ) ≠ 0 := by exact_mod_cast (x.down_pos e).ne'
  push_cast
  constructor
  · rw [mul_assoc, mul_div_cancel₀ _ hdown]
  · rw [mul_assoc, ← mul_div_assoc, up_eq, mul_div_cancel_right₀ _ hdown]

theorem unit_pos : (0 : ℚ) < 10 ^ e / x.down e :=
  div_pos (ten_zpow_pos e) (by exact_mod_cast x.down_pos e)

theorem down_le_up_iff (a b : ℕ) :
    a * x.down e ≤ b * x.up e ↔ (a : ℚ) * 10 ^ e ≤ b * x.gap := by
  rw [← (x.mul_unit e a).1, ← (x.mul_unit e b).2, mul_le_mul_iff_of_pos_right (x.unit_pos e),
    Nat.cast_le]

theorem up_le_down_iff (a b : ℕ) :
    b * x.up e ≤ a * x.down e ↔ b * x.gap ≤ (a : ℚ) * 10 ^ e := by
  rw [← (x.mul_unit e a).1, ← (x.mul_unit e b).2, mul_le_mul_iff_of_pos_right (x.unit_pos e),
    Nat.cast_le]

/-- The grid point below a size. -/
theorem floorOn_le : (x.floorOn e : ℚ) * 10 ^ e ≤ x.value :=
  (x.down_le_up_iff e _ _).mp (Nat.div_mul_le_self _ _)

/-- The grid point above a size. -/
theorem lt_floorOn_add_one : x.value < ((x.floorOn e + 1 : ℕ) : ℚ) * 10 ^ e := by
  have h : x.significand * x.up e < (x.floorOn e + 1) * x.down e := by
    rw [mul_comm (x.floorOn e + 1)]
    exact Nat.lt_mul_div_succ _ (x.down_pos e)
  exact lt_of_not_ge fun hle => h.not_ge ((x.down_le_up_iff e _ _).mpr hle)

variable {x} in
/-- The computed test is that for the rounding interval. -/
theorem readsBack_iff (hx : 0 < x.significand) (d : ℕ) :
    x.readsBack e d = true ↔ x.Covers (d * 10 ^ e) := by
  have hgap : x.lowerGap ≤ 4 * x.significand := by
    unfold lowerGap
    split <;> omega
  have hlower : x.lower ≤ d * 10 ^ e ↔
      (4 * x.significand - x.lowerGap) * x.up e ≤ 4 * d * x.down e := by
    rw [up_le_down_iff, lower, value_eq]
    push_cast [hgap]
    constructor <;> intro h <;> linarith
  have hlower' : d * 10 ^ e ≤ x.lower ↔
      4 * d * x.down e ≤ (4 * x.significand - x.lowerGap) * x.up e := by
    rw [down_le_up_iff, lower, value_eq]
    push_cast [hgap]
    constructor <;> intro h <;> linarith
  have hupper : d * 10 ^ e ≤ x.upper ↔ 4 * d * x.down e ≤ (4 * x.significand + 2) * x.up e := by
    rw [down_le_up_iff, upper, value_eq]
    push_cast
    constructor <;> intro h <;> linarith
  have hupper' : x.upper ≤ d * 10 ^ e ↔ (4 * x.significand + 2) * x.up e ≤ 4 * d * x.down e := by
    rw [up_le_down_iff, upper, value_eq]
    push_cast
    constructor <;> intro h <;> linarith
  unfold readsBack
  rcases Nat.mod_two_eq_zero_or_one x.significand with heven | hodd
  · rw [covers_iff_of_even heven, hlower, hupper, if_pos heven]
    simp
  · rw [covers_iff_of_odd hodd, ← not_le, ← not_le, hlower', hupper', if_neg (by omega)]
    simp

/-- The computed test for the nearer neighbour. -/
theorem nearerBelow_iff (d : ℕ) :
    x.nearerBelow e d = true ↔ x.value - d * 10 ^ e < (d + 1 : ℕ) * 10 ^ e - x.value := by
  have h := (x.down_le_up_iff e (2 * d + 1) (2 * x.significand)).not
  rw [not_le, not_le] at h
  rw [nearerBelow, decide_eq_true_iff, h, value_eq]
  push_cast
  constructor <;> intro h <;> linarith

/-! ## The nearest point of a grid -/

/-- Of the points of a grid that round to a size, this one is nearest to it, and the larger one if
two are. -/
structure NearestOn (c : ℕ) : Prop where
  covers : x.Covers (c * 10 ^ e)
  nearest : ∀ other : ℕ, x.Covers (other * 10 ^ e) →
    |x.value - c * 10 ^ e| ≤ |x.value - other * 10 ^ e|
  larger : ∀ other : ℕ, x.Covers (other * 10 ^ e) →
    |x.value - other * 10 ^ e| = |x.value - c * 10 ^ e| → other ≤ c

variable {x} {e}

theorem grid_le {a b : ℕ} (h : a ≤ b) : (a : ℚ) * 10 ^ e ≤ b * 10 ^ e :=
  mul_le_mul_of_nonneg_right (by exact_mod_cast h) (ten_zpow_pos e).le

/-- The two neighbours of a size are at least as near as any other point on their side. -/
theorem neighbour_of_covers {other : ℕ} (h : x.Covers (other * 10 ^ e)) :
    (other ≤ x.floorOn e ∧ x.Covers (x.floorOn e * 10 ^ e)) ∨
    (x.floorOn e + 1 ≤ other ∧ x.Covers ((x.floorOn e + 1 : ℕ) * 10 ^ e)) := by
  by_cases hle : other ≤ x.floorOn e
  · exact .inl ⟨hle, h.between x.covers_value (grid_le hle) (x.floorOn_le e)⟩
  · have hgt : x.floorOn e + 1 ≤ other := by omega
    exact .inr ⟨hgt, x.covers_value.between h (x.lt_floorOn_add_one e).le (grid_le hgt)⟩

theorem abs_sub_below {other : ℕ} (h : other ≤ x.floorOn e) :
    |x.value - other * 10 ^ e| = x.value - other * 10 ^ e :=
  abs_of_nonneg (sub_nonneg.mpr ((grid_le h).trans (x.floorOn_le e)))

theorem abs_sub_above {other : ℕ} (h : x.floorOn e + 1 ≤ other) :
    |x.value - other * 10 ^ e| = other * 10 ^ e - x.value := by
  rw [abs_sub_comm]
  exact abs_of_nonneg (sub_nonneg.mpr ((x.lt_floorOn_add_one e).le.trans (grid_le h)))

/-- The nearest point is not beyond any other one above the size. -/
theorem NearestOn.le_of_value_le {c bound : ℕ} (h : x.NearestOn e c)
    (hbound : x.value ≤ bound * 10 ^ e) : c ≤ bound := by
  by_contra hlt
  have hpoint : (bound : ℚ) * 10 ^ e < c * 10 ^ e :=
    mul_lt_mul_of_pos_right (by exact_mod_cast not_le.mp hlt) (ten_zpow_pos e)
  have hnear := h.nearest bound (x.covers_value.between h.covers hbound hpoint.le)
  rw [abs_of_nonpos (by linarith), abs_of_nonpos (by linarith)] at hnear
  linarith

/-- The point below a size is the nearest one if it rounds to the size and the point above does
not, or is further away. -/
theorem nearestOn_below (hbelow : x.Covers (x.floorOn e * 10 ^ e))
    (habove : x.Covers ((x.floorOn e + 1 : ℕ) * 10 ^ e) →
      x.value - x.floorOn e * 10 ^ e < (x.floorOn e + 1 : ℕ) * 10 ^ e - x.value) :
    x.NearestOn e (x.floorOn e) := by
  have hother {other : ℕ} (h : x.Covers (other * 10 ^ e)) : other ≤ x.floorOn e ∨
      |x.value - x.floorOn e * 10 ^ e| < |x.value - other * 10 ^ e| := by
    rcases neighbour_of_covers h with ⟨hle, -⟩ | ⟨hgt, hcovers⟩
    · exact .inl hle
    · right
      have hpoint := grid_le (e := e) hgt
      have hnear := habove hcovers
      rw [abs_sub_below le_rfl, abs_sub_above hgt]
      linarith
  refine ⟨hbelow, fun other h => ?_, fun other h htie => ?_⟩
  · rcases hother h with hle | hlt
    · have hpoint := grid_le (e := e) hle
      rw [abs_sub_below le_rfl, abs_sub_below hle]
      linarith
    · exact hlt.le
  · rcases hother h with hle | hlt
    · exact hle
    · exact absurd htie hlt.ne'

/-- The point above a size is the nearest one if it rounds to the size and the point below does
not, or is no nearer. -/
theorem nearestOn_above (habove : x.Covers ((x.floorOn e + 1 : ℕ) * 10 ^ e))
    (hbelow : x.Covers (x.floorOn e * 10 ^ e) →
      (x.floorOn e + 1 : ℕ) * 10 ^ e - x.value ≤ x.value - x.floorOn e * 10 ^ e) :
    x.NearestOn e (x.floorOn e + 1) := by
  refine ⟨habove, fun other h => ?_, fun other h htie => ?_⟩
  · rw [abs_sub_above le_rfl]
    rcases neighbour_of_covers h with ⟨hle, hcovers⟩ | ⟨hgt, -⟩
    · have hpoint := grid_le (e := e) hle
      have hnear := hbelow hcovers
      rw [abs_sub_below hle]
      linarith
    · have hpoint := grid_le (e := e) hgt
      rw [abs_sub_above hgt]
      linarith
  · by_contra hgt
    have hlt : x.floorOn e + 1 < other := by omega
    rw [abs_sub_above le_rfl, abs_sub_above hlt.le] at htie
    have hpoint : ((x.floorOn e + 1 : ℕ) : ℚ) * 10 ^ e < other * 10 ^ e :=
      mul_lt_mul_of_pos_right (by exact_mod_cast hlt) (ten_zpow_pos e)
    linarith

/-- What is picked on a grid is the nearest point that rounds to the size. -/
theorem nearestOn_of_pick (hx : 0 < x.significand) {c : ℕ} (h : x.pick e = some c) :
    x.NearestOn e c := by
  have hbelow := readsBack_iff e hx (x.floorOn e)
  have habove := readsBack_iff e hx (x.floorOn e + 1)
  have hnearer := x.nearerBelow_iff e (x.floorOn e)
  unfold pick at h
  dsimp only at h
  split at h
  next hb ha =>
    split at h
    next hn =>
      cases h
      exact nearestOn_below (hbelow.mp hb) fun _ => hnearer.mp hn
    next hn =>
      cases h
      exact nearestOn_above (habove.mp ha) fun _ => not_lt.mp (hnearer.not.mp hn)
  next hb ha =>
    cases h
    exact nearestOn_below (hbelow.mp hb) fun hc => absurd (habove.mpr hc) (by simp [ha])
  next hb ha =>
    cases h
    exact nearestOn_above (habove.mp ha) fun hc => absurd (hbelow.mpr hc) (by simp [hb])
  next => cases h

/-- Where nothing is picked, neither neighbour rounds to the size. -/
theorem readsBack_of_pick (h : x.pick e = none) :
    x.readsBack e (x.floorOn e) = false ∧ x.readsBack e (x.floorOn e + 1) = false := by
  unfold pick at h
  dsimp only at h
  split at h
  next => split at h <;> cases h
  next => cases h
  next => cases h
  next hb ha => exact ⟨hb, ha⟩

/-- Then no point of the grid does. -/
theorem not_covers_of_pick (hx : 0 < x.significand) (h : x.pick e = none) (other : ℕ) :
    ¬ x.Covers (other * 10 ^ e) := by
  intro hcovers
  obtain ⟨hb, ha⟩ := readsBack_of_pick h
  rcases neighbour_of_covers hcovers with ⟨-, hbelow⟩ | ⟨-, habove⟩
  · rw [(readsBack_iff e hx _).mpr hbelow] at hb
    cases hb
  · rw [(readsBack_iff e hx _).mpr habove] at ha
    cases ha

end Dyadic

end ByteMachine.Number
