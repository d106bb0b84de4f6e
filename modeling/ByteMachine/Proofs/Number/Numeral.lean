import ByteMachine.Number.Format
import ByteMachine.Proofs.Number.Rounding
import ByteMachine.Proofs.Number.Shortest

/-! Numerals, which are decimals with a sign, and the one that a double is written with: the
shortest that rounds to it. -/

namespace ByteMachine.Number

theorem length_digits {d : Decimal} (h : 0 < d.coefficient) :
    d.digits.length = digitCount d.coefficient := by
  have hiff {k : ℕ} (hk : 0 < k) : d.digits.length ≤ k ↔ digitCount d.coefficient ≤ k := by
    rw [Decimal.digits, Nat.length_toDigits_le_iff (by decide) hk, digitCount_le_iff, Nat.pow_eq]
  apply le_antisymm
  · exact (hiff (digitCount_pos h)).mpr le_rfl
  · exact (hiff Nat.length_toDigits_pos).mp le_rfl

theorem Decimal.value_nonneg (d : Decimal) : 0 ≤ d.value :=
  mul_nonneg (Nat.cast_nonneg _) (ten_zpow_pos _).le

/-! ## Numerals -/

/-- A decimal with a sign. -/
structure Numeral where
  negative : Bool
  size : Decimal
  deriving DecidableEq, Repr

def Numeral.value (n : Numeral) : ℚ := signed n.negative n.size.value

section

variable {v : Float} {negative : Bool} {size : Dyadic}

/-- A numeral rounds to a finite double other than zero when the signs agree and the decimal lies
in the rounding interval of the size. -/
theorem roundsTo_value_iff (h : Reading.ofFloat v = .finite negative size) (n : Numeral) :
    RoundsTo n.value v ↔ n.negative = negative ∧ size.Covers n.size.value := by
  obtain ⟨hpos, hfinite, rfl, rfl⟩ := ofFloat_finite_iff.mp h
  rw [roundsTo_iff_covers hfinite, Numeral.value, abs_signed, abs_of_nonneg n.size.value_nonneg]
  refine and_congr_left fun hcovers => ?_
  have hsize : 0 < n.size.value :=
    (Dyadic.lower_pos (Reading.significand_pos h)).trans_le hcovers.1
  have hsign : decide (signed n.negative n.size.value < 0) = n.negative := by
    cases n.negative
    · simpa [signed] using hsize.le
    · simpa [signed] using hsize
  rw [hsign]
  exact eq_comm

/-- The numeral that a double is written with. It rounds to the double, its digits do not end with
a zero, no numeral that rounds to the double has fewer digits, of those with as many digits none is
closer to the double, and of two that are as close it is the larger one in size. -/
structure Numeral.Shortest (v : Float) (exact : ℚ) (n : Numeral) : Prop where
  value : value? v = some exact
  rounds : RoundsTo n.value v
  reduced : n.size.coefficient % 10 ≠ 0
  shortest : ∀ other : Numeral, RoundsTo other.value v →
    n.size.digits.length ≤ other.size.digits.length
  closest : ∀ other : Numeral, RoundsTo other.value v →
    other.size.digits.length = n.size.digits.length → |exact - n.value| ≤ |exact - other.value|
  larger : ∀ other : Numeral, RoundsTo other.value v →
    other.size.digits.length = n.size.digits.length →
      |exact - other.value| = |exact - n.value| → other.size.value ≤ n.size.value

/-- For a finite double other than zero this is a property of the size alone. -/
theorem Numeral.shortest_iff (h : Reading.ofFloat v = .finite negative size) (exact : ℚ)
    (n : Numeral) :
    n.Shortest v exact ↔
      exact = signed negative size.value ∧ n.negative = negative ∧ size.ShortestDecimal n.size := by
  have hpos := Reading.significand_pos h
  have hrounds := roundsTo_value_iff h
  have hvalue : value? v = some (signed negative size.value) := by
    rw [value?, h]
    rfl
  have hlength {d : Decimal} (hd : size.Covers d.value) :
      d.digits.length = digitCount d.coefficient :=
    length_digits (Dyadic.coefficient_pos hpos hd)
  have hdist (d : Decimal) : |signed negative size.value - Numeral.value ⟨negative, d⟩| =
      |size.value - d.value| := abs_signed_sub _ _ _
  constructor
  · intro hn
    obtain rfl := Option.some.inj (hvalue.symm.trans hn.value)
    obtain ⟨rfl, hcovers⟩ := (hrounds n).mp hn.rounds
    have hother {d : Decimal} (hd : size.Covers d.value) :
        RoundsTo (Numeral.value ⟨n.negative, d⟩) v := (hrounds _).mpr ⟨rfl, hd⟩
    refine ⟨rfl, rfl, hcovers, hn.reduced, fun d hd => ?_, fun d hd hcount => ?_,
      fun d hd hcount htie => ?_⟩
    · rw [← hlength hcovers, ← hlength hd]
      exact hn.shortest _ (hother hd)
    · rw [← hlength hcovers, ← hlength hd] at hcount
      have hle := hn.closest _ (hother hd) hcount
      rwa [hdist n.size, hdist d] at hle
    · rw [← hlength hcovers, ← hlength hd] at hcount
      refine hn.larger _ (hother hd) hcount ?_
      rw [hdist n.size, hdist d]
      exact htie
  · rintro ⟨rfl, rfl, hn⟩
    refine ⟨hvalue, (hrounds n).mpr ⟨rfl, hn.covers⟩, hn.reduced, ?_, ?_, ?_⟩
    · rintro ⟨sign, d⟩ hd
      obtain ⟨rfl, hd⟩ := (hrounds _).mp hd
      rw [hlength hn.covers, hlength hd]
      exact hn.shortest d hd
    · rintro ⟨sign, d⟩ hd hcount
      obtain ⟨rfl, hd⟩ := (hrounds _).mp hd
      rw [hlength hn.covers, hlength hd] at hcount
      rw [hdist n.size, hdist d]
      exact hn.nearest d hd hcount
    · rintro ⟨sign, d⟩ hd hcount htie
      obtain ⟨rfl, hd⟩ := (hrounds _).mp hd
      rw [hlength hn.covers, hlength hd] at hcount
      rw [hdist n.size, hdist d] at htie
      exact hn.larger d hd hcount htie

/-- Every finite double other than zero has such a numeral, and no other one. -/
theorem Numeral.shortest_iff_eq (h : Reading.ofFloat v = .finite negative size) (n : Numeral) :
    n.Shortest v (signed negative size.value) ↔ n = ⟨negative, size.shortest⟩ := by
  have hspec := Dyadic.shortest_spec (Reading.significand_pos h)
  rw [Numeral.shortest_iff h]
  constructor
  · rintro ⟨-, rfl, hn⟩
    rw [← hn.unique hspec]
  · rintro rfl
    exact ⟨rfl, rfl, hspec⟩

end

end ByteMachine.Number
