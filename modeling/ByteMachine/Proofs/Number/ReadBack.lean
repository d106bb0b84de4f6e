import ByteMachine.Proofs.Number.Reader
import Mathlib

/-! Reading printed values back.

* `ofText?_text`: the text of a finite double is read as the value of its shortest numeral;
* `roundsTo_of_closer`: a numeral that is closer than one that rounds to a double rounds to it as
  well, unless the double is a power of two;
* `exists_numeral`: what is read rounds to the double again, but for the sign of zero;
* `text_eq_iff`: so two doubles have one text just when they compare equal. -/

namespace ByteMachine.Number

open Text (natural? natural?_toDigits)

/-! ## Equal doubles -/

/-- Only one double stands for no number. -/
theorem ofFloat_notANumber_iff (x : Float) :
    Reading.ofFloat x = .notANumber ↔ x = Float.nan := by
  constructor
  · intro h
    have hplace : infinitePlace < place x.toBits := by
      rw [ofFloat_eq] at h
      by_contra hle
      rw [if_neg hle] at h
      split at h
      · cases h
      · split at h <;> cases h
    unfold place infinitePlace at hplace
    have hlt := x.toBits.toNat_lt
    have hexponent :
        @Float.Model.UnpackedFloat.unpackExponent Float.Model.Format.binary64 x.toBits.toBitVec =
          -1#11 := by
      have hones : (-1#11).toNat = 2047 := by decide
      apply BitVec.eq_of_toNat_eq
      rw [unpackExponent_toNat, UInt64.toNat_toBitVec, hones]
      omega
    have hmantissa :
        @Float.Model.UnpackedFloat.unpackMantissa Float.Model.Format.binary64 x.toBits.toBitVec ≠
          0#52 := by
      intro hzero
      have hfield := congrArg BitVec.toNat hzero
      rw [unpackMantissa_toNat, UInt64.toNat_toBitVec, BitVec.toNat_zero] at hfield
      omega
    apply Float.toBits_inj.mp
    apply UInt64.toBitVec_inj.mp
    exact x.toModel.valid.eq_packedNaN hexponent hmantissa
  · rintro rfl
    decide

theorem ofFloat_eq_zero_iff (x : Float) :
    (∃ negative, Reading.ofFloat x = .zero negative) ↔ x = 0 ∨ x = -0 := by
  have hpositive : Reading.ofFloat 0 = .zero false := by decide
  have hnegative : Reading.ofFloat (-0) = .zero true := by decide
  constructor
  · rintro ⟨negative, h⟩
    obtain ⟨hplace, hsign⟩ := ofFloat_zero_iff.mp h
    cases negative
    · obtain ⟨hplace', hsign'⟩ := ofFloat_zero_iff.mp hpositive
      exact .inl (eq_of_place_eq (hsign.trans hsign'.symm) (hplace.trans hplace'.symm))
    · obtain ⟨hplace', hsign'⟩ := ofFloat_zero_iff.mp hnegative
      exact .inr (eq_of_place_eq (hsign.trans hsign'.symm) (hplace.trans hplace'.symm))
  · rintro (rfl | rfl)
    · exact ⟨_, hpositive⟩
    · exact ⟨_, hnegative⟩

/-- Doubles compare equal when they are the same number, zeros of either sign being one number. -/
theorem beq_iff {x y : Float} : (x == y) = true ↔ Reading.ofFloat x ≠ .notANumber ∧
    (x = y ∨ (∃ s, Reading.ofFloat x = .zero s) ∧ ∃ s, Reading.ofFloat y = .zero s) := by
  have hnumber (z : Float) : Reading.ofFloat z ≠ .notANumber ↔ z ≠ Float.nan :=
    (ofFloat_notANumber_iff z).not
  have hpositive : (0 : Float) ≠ Float.nan := (hnumber 0).mp (by decide)
  have hnegative : (-0 : Float) ≠ Float.nan := (hnumber (-0)).mp (by decide)
  rw [Float.beq_iff_ne_nan_and_eq, hnumber, ofFloat_eq_zero_iff, ofFloat_eq_zero_iff]
  constructor
  · rintro ⟨hx, -, rfl | ⟨rfl, rfl⟩ | ⟨rfl, rfl⟩⟩
    · exact ⟨hx, .inl rfl⟩
    · exact ⟨hx, .inr ⟨.inl rfl, .inr rfl⟩⟩
    · exact ⟨hx, .inr ⟨.inr rfl, .inl rfl⟩⟩
  · rintro ⟨hx, rfl | ⟨rfl | rfl, rfl | rfl⟩⟩
    · exact ⟨hx, hx, .inl rfl⟩
    · exact ⟨hx, hx, .inl rfl⟩
    · exact ⟨hx, hnegative, .inr (.inl ⟨rfl, rfl⟩)⟩
    · exact ⟨hx, hpositive, .inr (.inr ⟨rfl, rfl⟩)⟩
    · exact ⟨hx, hx, .inl rfl⟩

/-! ## The text of a double -/

section

variable {v : Float} {negative : Bool} {size : Dyadic}

/-- The text of a finite double other than zero is read as the value of its shortest decimal. -/
theorem ofText?_text (h : Reading.ofFloat v = .finite negative size) :
    ∃ d : Decimal, Numeral.ofText? (text v).toList = some ⟨negative, d⟩ ∧
      d.value = size.shortest.value := by
  have hdigits : natural? size.shortest.digits = some size.shortest.coefficient :=
    natural?_toDigits _
  obtain ⟨d, hread, hvalue⟩ := ofText?_layout hdigits size.shortest.point
  refine ⟨d, ?_, ?_⟩
  · rw [text_of_finite h, String.toList_ofList]
    exact ofText?_sign negative hread
  · rw [hvalue, Decimal.value, Decimal.point]
    congr 2
    omega

/-- No infinity is written as a numeral. -/
theorem ofText?_text_infinite (h : Reading.ofFloat v = .infinite negative) :
    Numeral.ofText? (text v).toList = none := by
  rw [text, h]
  cases negative <;> decide +kernel

theorem text_zero (h : Reading.ofFloat v = .zero negative) : text v = "0" := by
  rw [text, h]

/-! ## Significant digits -/

/-- A numeral without the zeros at the end of its digits. -/
def Numeral.strip (n : Numeral) : Numeral :=
  ⟨n.negative, Dyadic.stripZeros n.size.coefficient n.size.exponent⟩

/-- How many digits a numeral has before the zeros at the end. -/
def Numeral.significant (n : Numeral) : ℕ := n.strip.size.digits.length

theorem Numeral.value_strip (n : Numeral) : n.strip.value = n.value :=
  congrArg (signed n.negative) (Dyadic.value_stripZeros _ _)

/-- Numerals of one value differ in such zeros alone. -/
theorem strip_eq {n : Numeral} {d : Decimal} (hd : d.coefficient % 10 ≠ 0)
    (h : n.size.value = d.value) : n.strip = ⟨n.negative, d⟩ := by
  have hne : n.size.coefficient ≠ 0 := by
    intro hzero
    rw [Decimal.value, Decimal.value, hzero, Nat.cast_zero, zero_mul, eq_comm, mul_eq_zero,
      Nat.cast_eq_zero] at h
    rcases h with h | h
    · simp [h] at hd
    · exact (ten_zpow_pos _).ne' h
  have hvalue : (Dyadic.stripZeros n.size.coefficient n.size.exponent).value = d.value :=
    (Dyadic.value_stripZeros _ _).trans h
  rw [Numeral.strip, eq_of_value_eq (Dyadic.stripZeros_mod_ten hne _) hd hvalue]

/-! ## Closer numerals -/

/-- A size whose gaps on both sides are the same has all numbers in its rounding interval that are
closer than one that lies there. -/
theorem Dyadic.Covers.of_closer {x : Dyadic} {r s : ℚ} (h : x.Covers r) (hwide : x.narrow = false)
    (hcloser : |x.value - s| < |x.value - r|) : x.Covers s := by
  have hlower : x.lower = x.value - x.gap / 2 := by
    simp only [Dyadic.lower, Dyadic.lowerGap, hwide]
    norm_num
    ring
  have hr : |x.value - r| ≤ x.gap / 2 := by
    have hlow := h.1
    have hup := h.2.1
    rw [hlower] at hlow
    rw [Dyadic.upper] at hup
    rw [abs_le]
    constructor <;> linarith
  obtain ⟨hlow, hup⟩ := abs_lt.mp (hcloser.trans_le hr)
  have hlt : x.lower < s := by linarith
  have hgt : s < x.upper := by
    rw [Dyadic.upper]
    linarith
  exact ⟨hlt.le, hgt.le, fun _ => ⟨hlt.ne, hgt.ne⟩⟩

theorem roundsTo_of_closer (h : Reading.ofFloat v = .finite negative size)
    (hwide : size.narrow = false) {n other : Numeral} (hn : RoundsTo n.value v)
    (hcloser : |signed negative size.value - other.value| <
      |signed negative size.value - n.value|) :
    RoundsTo other.value v := by
  obtain ⟨rfl, hcovers⟩ := (roundsTo_value_iff h n).mp hn
  have hdist (q : ℚ) : |signed n.negative size.value - q| = |size.value - signed n.negative q| := by
    rw [← abs_signed_sub n.negative, signed_signed]
  have hown : signed n.negative n.value = n.size.value := signed_signed _ _
  rw [hdist, hdist, hown] at hcloser
  have hother := hcovers.of_closer hwide hcloser
  have hpos := (Dyadic.lower_pos (Reading.significand_pos h)).trans_le hother.1
  have hnonneg := other.size.value_nonneg
  have hsame : other.negative = n.negative := by
    rw [Numeral.value] at hpos
    cases hs : other.negative <;> cases hs' : n.negative <;> simp_all [signed] <;> linarith
  rw [Numeral.value, hsame, signed_signed] at hother
  exact (roundsTo_value_iff h other).mpr ⟨hsame, hother⟩

/-- Only powers of two have gaps that differ. -/
theorem exists_value_eq_of_narrow {place : ℕ} (h : (sizeAt place).narrow = true) :
    ∃ k : ℤ, (sizeAt place).value = 2 ^ k := by
  have hsignificand : (sizeAt place).significand = 2 ^ 52 := by
    unfold sizeAt at h ⊢
    dsimp only at h ⊢
    split
    next hfield => simp [hfield] at h
    next hfield =>
      have hfraction : place % Reading.fractionSize = 0 := by
        rw [if_neg hfield] at h
        simp_all
      show Reading.fractionSize + place % Reading.fractionSize = 2 ^ 52
      rw [hfraction]
      rfl
  refine ⟨52 + (sizeAt place).exponent, ?_⟩
  rw [Dyadic.value, hsignificand, zpow_add₀ (by norm_num)]
  norm_num

end

/-! ## Reading back -/

section

variable {v : Float} {negative : Bool} {size : Dyadic}

/-- What the text of a finite double other than zero is read as rounds to the double alone. -/
theorem exists_numeral_of_finite (h : Reading.ofFloat v = .finite negative size) :
    ∃ n : Numeral, Numeral.ofText? (text v).toList = some n ∧ (∀ y, RoundsTo n.value y ↔ y = v) ∧
      n.strip.Shortest v (signed negative size.value) := by
  have hspec := Dyadic.shortest_spec (Reading.significand_pos h)
  obtain ⟨d, hread, hvalue⟩ := ofText?_text h
  have hstrip : Numeral.strip ⟨negative, d⟩ = ⟨negative, size.shortest⟩ :=
    strip_eq hspec.reduced hvalue
  have hshortest := (Numeral.shortest_iff_eq h _).mpr hstrip
  have hrounds := hshortest.rounds
  rw [Numeral.value_strip] at hrounds
  refine ⟨_, hread, fun y => ⟨fun hy => hy.unique hrounds, ?_⟩, hshortest⟩
  rintro rfl
  exact hrounds

/-- A zero is read as the number that rounds to the zero without sign. -/
theorem exists_numeral_of_zero (h : Reading.ofFloat v = .zero negative) :
    ∃ n : Numeral, Numeral.ofText? (text v).toList = some n ∧
      ∀ y, RoundsTo n.value y ↔ y = 0 := by
  have hread : Numeral.ofText? "0".toList = some ⟨false, 0, 0⟩ := by decide
  have hvalue : Numeral.value ⟨false, 0, 0⟩ = 0 := by simp [Numeral.value, signed, Decimal.value]
  have hplace : place (0 : Float).toBits = 0 := by decide
  have hrounds : RoundsTo 0 (0 : Float) := by
    rw [roundsTo_iff_covers (by rw [hplace]; decide), hplace]
    refine ⟨by decide, ?_⟩
    have hcovers := (sizeAt 0).covers_value
    rwa [value_sizeAt_zero, ← abs_zero] at hcovers
  rw [text_zero h]
  refine ⟨_, hread, fun y => ?_⟩
  rw [hvalue]
  exact ⟨fun hy => hy.unique hrounds, fun hy => hy ▸ hrounds⟩

/-- Every double that is a number and not infinite is read back as itself, but for the sign of
zero. -/
theorem exists_numeral {exact : ℚ} (h : value? v = some exact) :
    ∃ (n : Numeral) (x : Float), Numeral.ofText? (text v).toList = some n ∧
      (∀ y, RoundsTo n.value y ↔ y = x) ∧ (x == v) = true ∧
      (Reading.ofFloat v ≠ .zero true → x = v) := by
  cases hr : Reading.ofFloat v with
  | notANumber | infinite _ =>
    rw [value?, hr] at h
    cases h
  | zero negative =>
    obtain ⟨n, hread, hrounds⟩ := exists_numeral_of_zero hr
    have hzero : Reading.ofFloat 0 = .zero false := by decide
    refine ⟨n, 0, hread, hrounds, beq_iff.mpr ⟨by simp [hzero], .inr ⟨⟨_, hzero⟩, _, hr⟩⟩,
      fun hpositive => ?_⟩
    obtain rfl : negative = false := by
      cases negative
      · rfl
      · exact absurd rfl hpositive
    obtain ⟨hplace, hsign⟩ := ofFloat_zero_iff.mp hr
    exact eq_of_place_eq ((by decide : isNegative 0 = false).trans hsign.symm)
      ((by decide : place (0 : Float).toBits = 0).trans hplace.symm)
  | finite negative size =>
    obtain ⟨n, hread, hrounds, -⟩ := exists_numeral_of_finite hr
    exact ⟨n, v, hread, hrounds, beq_iff.mpr ⟨by simp [hr], .inl rfl⟩, fun _ => rfl⟩

/-- Doubles that are equal to one double are equal. -/
theorem beq_of_beq {x y z : Float} (hy : (x == y) = true) (hz : (x == z) = true) :
    (y == z) = true := by
  rw [beq_iff] at hy hz ⊢
  obtain ⟨hx, rfl | ⟨hzero, s, hs⟩⟩ := hy
  · exact hz
  · refine ⟨by simp [hs], .inr ⟨⟨s, hs⟩, ?_⟩⟩
    obtain ⟨-, rfl | ⟨-, h⟩⟩ := hz
    · exact hzero
    · exact h

/-- Numbers have one text just when they are equal, as a text is read as one numeral, and that
rounds to one double. -/
theorem text_eq_iff {w : Float} (hv : Reading.ofFloat v ≠ .notANumber)
    (hw : Reading.ofFloat w ≠ .notANumber) : text v = text w ↔ (v == w) = true := by
  have hvalue (x : Float) (hx : Reading.ofFloat x ≠ .notANumber) :
      (∃ negative, Reading.ofFloat x = .infinite negative) ∨ ∃ exact, value? x = some exact := by
    rw [value?]
    cases hr : Reading.ofFloat x with
    | notANumber => exact absurd hr hx
    | infinite negative => exact .inl ⟨_, rfl⟩
    | zero _ => exact .inr ⟨_, rfl⟩
    | finite _ _ => exact .inr ⟨_, rfl⟩
  constructor
  · intro htext
    rcases hvalue v hv with ⟨negative, hvr⟩ | ⟨_, hve⟩
    · rcases hvalue w hw with ⟨negative', hwr⟩ | ⟨_, hwe⟩
      · have hsign : negative = negative' := by
          rw [text, text, hvr, hwr] at htext
          cases negative <;> cases negative' <;> revert htext <;> decide
        obtain ⟨hpv, hsv⟩ := ofFloat_infinite_iff.mp hvr
        obtain ⟨hpw, hsw⟩ := ofFloat_infinite_iff.mp hwr
        have heq : v = w :=
          eq_of_place_eq ((hsv.trans hsign).trans hsw.symm) (hpv.trans hpw.symm)
        exact beq_iff.mpr ⟨hv, .inl heq⟩
      · obtain ⟨n, -, hread, -⟩ := exists_numeral hwe
        rw [← htext, ofText?_text_infinite hvr] at hread
        cases hread
    · obtain ⟨n, x, hread, hrounds, hbeq, -⟩ := exists_numeral hve
      rcases hvalue w hw with ⟨negative', hwr⟩ | ⟨_, hwe⟩
      · rw [htext, ofText?_text_infinite hwr] at hread
        cases hread
      · obtain ⟨n', x', hread', hrounds', hbeq', -⟩ := exists_numeral hwe
        rw [htext, hread'] at hread
        cases hread
        obtain rfl : x = x' := (hrounds' x).mp ((hrounds x).mpr rfl)
        exact beq_of_beq hbeq hbeq'
  · intro hbeq
    obtain ⟨-, rfl | ⟨⟨s, hs⟩, s', hs'⟩⟩ := beq_iff.mp hbeq
    · rfl
    · rw [text_zero hs, text_zero hs']

end

/-- The text of every finite double is read as a number that rounds to the double, but for the sign
of zero. For a double other than zero no numeral that rounds to it has fewer significant digits,
and of those with as many none is closer. A numeral with as many digits can be closer only beside a
power of two, below which the doubles lie more densely, and then it rounds to another double. So the
texts of two doubles that are numbers are the same just when the doubles are equal. -/
theorem text_reads_back (v : Float) :
    (∀ exact, value? v = some exact → ∃ (n : Numeral) (x : Float),
      Numeral.ofText? (text v).toList = some n ∧ (∀ y, RoundsTo n.value y ↔ y = x) ∧
      (x == v) = true ∧ (Reading.ofFloat v ≠ .zero true → x.toBits = v.toBits) ∧
      (exact ≠ 0 →
        (∀ other : Numeral, RoundsTo other.value v → n.significant ≤ other.significant) ∧
        ∀ other : Numeral, other.significant = n.significant →
          |exact - other.value| < |exact - n.value| →
            ¬ RoundsTo other.value v ∧ ∃ k : ℤ, |exact| = 2 ^ k)) ∧
    ∀ w : Float, v.isNaN = false → w.isNaN = false → (text v = text w ↔ (v == w) = true) := by
  constructor
  · intro exact hexact
    obtain ⟨n, x, hread, hrounds, hbeq, hsame⟩ := exists_numeral hexact
    refine ⟨n, x, hread, hrounds, hbeq, fun hne => by rw [hsame hne], fun hne => ?_⟩
    cases hr : Reading.ofFloat v with
    | notANumber | infinite _ | zero _ =>
      rw [value?, hr, Reading.value?] at hexact
      simp_all
    | finite negative size =>
      obtain ⟨n', hread', -, hn⟩ := exists_numeral_of_finite hr
      obtain rfl := Option.some.inj (hread'.symm.trans hread)
      obtain rfl := Option.some.inj (hn.value.symm.trans hexact)
      have hclosest {other : Numeral} (hcount : other.significant = n'.significant)
          (hcloser : |signed negative size.value - other.value| <
            |signed negative size.value - n'.value|) : ¬ RoundsTo other.value v := by
        intro hother
        rw [← other.value_strip] at hother hcloser
        rw [← n'.value_strip] at hcloser
        exact absurd (hn.closest _ hother hcount) (not_le.mpr hcloser)
      refine ⟨fun other hother => ?_, fun other hcount hcloser => ⟨hclosest hcount hcloser, ?_⟩⟩
      · rw [← other.value_strip] at hother
        exact hn.shortest _ hother
      · have hround := hn.rounds
        rw [Numeral.value_strip] at hround
        cases hnarrow : size.narrow with
        | false =>
          exact absurd (roundsTo_of_closer hr hnarrow hround hcloser) (hclosest hcount hcloser)
        | true =>
          obtain ⟨-, -, -, rfl⟩ := ofFloat_finite_iff.mp hr
          rw [abs_signed, abs_of_nonneg (value_sizeAt_nonneg _)]
          exact exists_value_eq_of_narrow hnarrow
  · intro w hv hw
    have hnumber {x : Float} (hx : x.isNaN = false) : Reading.ofFloat x ≠ .notANumber := by
      rwa [ne_eq, ofFloat_notANumber_iff, ← decide_eq_false_iff_not,
        ← Float.isNaN_eq_decide_eq_nan]
    exact text_eq_iff (hnumber hv) (hnumber hw)

/-- The power of two `2 ^ -44` is written `5.684341886080802e-14`. The numeral that ends with 1 is
closer to it, but rounds to a smaller double. -/
theorem closer_beside_power_of_two :
    ∃ (exact : ℚ) (n other : Numeral),
      value? (Float.ofBits 0x3d30000000000000) = some exact ∧ exact = 2 ^ (-44 : ℤ) ∧
      Numeral.ofText? (text (Float.ofBits 0x3d30000000000000)).toList = some n ∧
      Numeral.ofText? "5.684341886080801e-14".toList = some other ∧
      other.significant = n.significant ∧ |exact - other.value| < |exact - n.value| := by
  have hreading : Reading.ofFloat (Float.ofBits 0x3d30000000000000) =
      .finite false ⟨0x10000000000000, -96, true⟩ := by decide
  have htext : text (Float.ofBits 0x3d30000000000000) = "5.684341886080802e-14" := by
    decide +kernel
  refine ⟨_, ⟨false, 5684341886080802, -29⟩, ⟨false, 5684341886080801, -29⟩,
    by rw [value?, hreading]; rfl, ?_, by rw [htext]; decide +kernel, by decide +kernel,
    by decide +kernel, ?_⟩
  · norm_num [signed, Dyadic.value]
  · norm_num [signed, Dyadic.value, Numeral.value, Decimal.value, abs_lt]

end ByteMachine.Number
