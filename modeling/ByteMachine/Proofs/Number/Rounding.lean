import ByteMachine.Proofs.Number.Comparison
import ByteMachine.Proofs.Number.Magnitude

/-! Rounding exact numbers to doubles. -/

namespace ByteMachine.Number

/-! ## Doubles as sign and place -/

/-- The place of a word in the row of sizes: the word without its sign. -/
def place (bits : UInt64) : ℕ := bits.toNat % 0x8000000000000000

/-- A word is read by its sign and its place alone. -/
theorem ofBits_eq (bits : UInt64) :
    Reading.ofBits bits =
      let negative := bits.toNat.testBit 63
      if infinitePlace < place bits then .notANumber
      else if place bits = infinitePlace then .infinite negative
      else if place bits = 0 then .zero negative
      else .finite negative (sizeAt (place bits)) := by
  have hlt := bits.toNat_lt
  have hfield : bits.toNat / Reading.fractionSize % 2048 = place bits / Reading.fractionSize := by
    unfold place Reading.fractionSize
    omega
  have hfraction : bits.toNat % Reading.fractionSize = place bits % Reading.fractionSize := by
    unfold place Reading.fractionSize
    omega
  have hplace : place bits < 0x8000000000000000 := Nat.mod_lt _ (by decide)
  simp only [Reading.ofBits, sizeAt, hfield, hfraction]
  generalize bits.toNat.testBit 63 = negative
  unfold infinitePlace Reading.fractionSize
  generalize place bits = place at hplace ⊢
  rcases lt_trichotomy place 0x7FF0000000000000 with hfinite | rfl | hnan
  · have hfield : place / 0x10000000000000 ≠ 2047 := by omega
    simp only [hfield, if_false, hfinite.not_gt, hfinite.ne]
    by_cases hzero : place = 0
    · simp [hzero]
    · by_cases hsub : place / 0x10000000000000 = 0
      · have hfraction : place % 0x10000000000000 ≠ 0 := by omega
        simp [hzero, hsub, hfraction]
      · simp [hzero, hsub]
  · simp
  · have hfield : place / 0x10000000000000 = 2047 := by omega
    have hfraction : place % 0x10000000000000 ≠ 0 := by omega
    simp [hfield, hfraction, hnan]

/-- The sign bit of a double. -/
def isNegative (x : Float) : Bool := x.toBits.toNat.testBit 63

/-- Doubles of the same sign and place are the same. -/
theorem eq_of_place_eq {x y : Float} (hsign : isNegative x = isNegative y)
    (hplace : place x.toBits = place y.toBits) : x = y := by
  have hbits : x.toBits = y.toBits := by
    have hx := x.toBits.toNat_lt
    have hy := y.toBits.toNat_lt
    simp only [isNegative, Nat.testBit_eq_decide_div_mod_eq, decide_eq_decide] at hsign
    unfold place at hplace
    apply UInt64.toNat_inj.mp
    omega
  obtain ⟨⟨_, _⟩⟩ := x
  obtain ⟨⟨_, _⟩⟩ := y
  cases hbits
  rfl

/-- Every place below that of the infinities has a double of either sign. -/
theorem exists_of_place (negative : Bool) {size : ℕ} (h : size < infinitePlace) :
    ∃ x : Float, isNegative x = negative ∧ place x.toBits = size := by
  unfold infinitePlace at h
  let word := size + if negative then 0x8000000000000000 else 0
  have hword : word < 2 ^ 64 := by
    dsimp only [word]
    split <;> omega
  have hnat : (UInt64.ofNat word).toNat = word := UInt64.toNat_ofNat_of_lt' hword
  have hexponent : word / 0x10000000000000 % 2048 < 2047 := by
    dsimp only [word]
    split <;> omega
  have hvalid : Float.Model.Format.binary64.Valid (UInt64.ofNat word).toBitVec := by
    refine ⟨fun hall => ?_⟩
    have hfield := unpackExponent_toNat (UInt64.ofNat word).toBitVec
    have hones : (-1#11).toNat = 2047 := by decide
    rw [hall, UInt64.toNat_toBitVec, hnat] at hfield
    exact absurd (hfield.symm.trans hones) hexponent.ne
  refine ⟨⟨⟨UInt64.ofNat word, hvalid⟩⟩, ?_, ?_⟩
  · change (UInt64.ofNat word).toNat.testBit 63 = negative
    rw [hnat, Nat.testBit_eq_decide_div_mod_eq]
    dsimp only [word]
    cases negative
    · simp
      omega
    · simp
      omega
  · change (UInt64.ofNat word).toNat % 0x8000000000000000 = size
    rw [hnat]
    dsimp only [word]
    split <;> omega

/-! ## Exact values -/

def signed (negative : Bool) (r : ℚ) : ℚ := if negative then -r else r

theorem abs_signed_sub (negative : Bool) (r s : ℚ) :
    |signed negative r - signed negative s| = |r - s| := by
  cases negative
  · rfl
  · simp only [signed, if_true]
    rw [← abs_neg]
    ring_nf

theorem abs_signed (negative : Bool) (r : ℚ) : |signed negative r| = |r| := by
  cases negative
  · rfl
  · exact abs_neg r

theorem signed_signed (negative : Bool) (r : ℚ) : signed negative (signed negative r) = r := by
  cases negative
  · rfl
  · exact neg_neg r

theorem signed_injective (negative : Bool) : Function.Injective (signed negative) :=
  Function.LeftInverse.injective (signed_signed negative)

theorem signed_abs (q : ℚ) : signed (decide (q < 0)) |q| = q := by
  by_cases h : q < 0
  · simp [signed, h, abs_of_neg h]
  · simp [signed, h, abs_of_nonneg (not_lt.mp h)]

/-- Between numbers of one sign distances are those between their sizes. -/
theorem abs_sub_signed (q r : ℚ) : |q - signed (decide (q < 0)) r| = |(|q|) - r| :=
  calc |q - signed (decide (q < 0)) r|
      = |signed (decide (q < 0)) |q| - signed (decide (q < 0)) r| := by rw [signed_abs]
    _ = |(|q|) - r| := abs_signed_sub _ _ _

/-- Between numbers of different signs distances are the sums of their sizes. -/
theorem abs_sub_signed_not (q : ℚ) {r : ℚ} (hr : 0 ≤ r) :
    |q - signed (!decide (q < 0)) r| = |q| + r := by
  by_cases h : q < 0
  · simp only [signed, h, decide_true, Bool.not_true, Bool.false_eq_true, if_false]
    rw [abs_of_neg h, abs_of_neg (by linarith)]
    ring
  · simp only [signed, h, decide_false, Bool.not_false, if_true, sub_neg_eq_add]
    rw [abs_of_nonneg (not_lt.mp h), abs_of_nonneg (by linarith)]

/-- What a double stands for, unless it is infinite or no number. -/
def Reading.value? : Reading → Option ℚ
  | .notANumber | .infinite _ => none
  | .zero _ => some 0
  | .finite negative size => some (signed negative size.value)

def value? (x : Float) : Option ℚ := (Reading.ofFloat x).value?

/-- A double is read by its sign bit and its place. -/
theorem ofFloat_eq (x : Float) :
    Reading.ofFloat x =
      if infinitePlace < place x.toBits then .notANumber
      else if place x.toBits = infinitePlace then .infinite (isNegative x)
      else if place x.toBits = 0 then .zero (isNegative x)
      else .finite (isNegative x) (sizeAt (place x.toBits)) :=
  ofBits_eq x.toBits

section

variable {x : Float} {negative : Bool}

theorem ofFloat_infinite_iff : Reading.ofFloat x = .infinite negative ↔
    place x.toBits = infinitePlace ∧ isNegative x = negative := by
  rw [ofFloat_eq]
  rcases lt_trichotomy (place x.toBits) infinitePlace with hlt | heq | hgt
  · rw [if_neg hlt.not_gt, if_neg hlt.ne]
    split <;> simp [hlt.ne]
  · simp [heq]
  · simp [hgt, hgt.ne']

theorem ofFloat_zero_iff : Reading.ofFloat x = .zero negative ↔
    place x.toBits = 0 ∧ isNegative x = negative := by
  have hpos : 0 < infinitePlace := by decide
  rw [ofFloat_eq]
  rcases lt_trichotomy (place x.toBits) infinitePlace with hlt | heq | hgt
  · rw [if_neg hlt.not_gt, if_neg hlt.ne]
    split
    next hzero => simp [hzero]
    next hzero => simp [hzero]
  · simp [heq, hpos.ne']
  · simp [hgt, (hpos.trans hgt).ne']

theorem ofFloat_finite_iff {size : Dyadic} : Reading.ofFloat x = .finite negative size ↔
    0 < place x.toBits ∧ place x.toBits < infinitePlace ∧
      isNegative x = negative ∧ sizeAt (place x.toBits) = size := by
  rw [ofFloat_eq]
  rcases lt_trichotomy (place x.toBits) infinitePlace with hlt | heq | hgt
  · rw [if_neg hlt.not_gt, if_neg hlt.ne]
    split
    next hzero => simp [hzero]
    next hzero => simp [hlt, Nat.pos_of_ne_zero hzero]
  · simp [heq]
  · simp [hgt, hgt.not_gt]

end

theorem value?_eq_some_iff {x : Float} {v : ℚ} :
    value? x = some v ↔
      place x.toBits < infinitePlace ∧
        signed (isNegative x) (sizeAt (place x.toBits)).value = v := by
  have hzero (negative : Bool) : signed negative 0 = 0 := by cases negative <;> simp [signed]
  rw [value?, ofFloat_eq]
  rcases lt_trichotomy (place x.toBits) infinitePlace with hlt | heq | hgt
  · rw [if_neg hlt.not_gt, if_neg hlt.ne]
    split
    next h => simp [h, Reading.value?, value_sizeAt_zero, hzero, infinitePlace]
    next => simp [hlt, Reading.value?]
  · simp [heq, Reading.value?]
  · simp [hgt, hgt.not_gt, Reading.value?]

/-- Numbers from here on round to an infinity: half a gap above the largest finite double. -/
def overflow : ℚ := 2 ^ 1024 - 2 ^ 970

theorem upper_sizeAt_last : (sizeAt (infinitePlace - 1)).upper = overflow := by
  have hlast : sizeAt (infinitePlace - 1) = ⟨2 ^ 53 - 1, (971 : ℕ), false⟩ := by decide
  have hwhole : (2 : ℚ) ^ 1024 = 2 ^ 54 * 2 ^ 970 := pow_add 2 54 970
  have hgap : (2 : ℚ) ^ 971 = 2 ^ 1 * 2 ^ 970 := pow_add 2 1 970
  rw [hlast]
  simp only [Dyadic.upper, Dyadic.value, Dyadic.gap, overflow, zpow_natCast, hwhole, hgap]
  generalize (2 : ℚ) ^ 970 = unit
  norm_num
  ring

/-! ## Rounding -/

/-- An exact number rounds to the nearest double, and halfway between two to the one with the even
significand, whose last bit is the last bit of the word. The sign is that of the number. -/
inductive RoundsTo (q : ℚ) (x : Float) : Prop where
  | finite {v : ℚ} (value : value? x = some v) (sign : isNegative x = decide (q < 0))
      (fits : |q| < overflow) (nearest : ∀ y w, value? y = some w → |q - v| ≤ |q - w|)
      (even : ∀ y w, value? y = some w → w ≠ v → |q - w| = |q - v| → x.toBits.toNat % 2 = 0)
  | infinite (reading : Reading.ofFloat x = .infinite (decide (q < 0))) (large : overflow ≤ |q|)

theorem place_mod_two (bits : UInt64) : place bits % 2 = bits.toNat % 2 := by
  unfold place
  omega

/-- Only numbers below the overflow lie in the rounding interval of a finite size. -/
theorem Dyadic.Covers.lt_overflow {size : ℕ} {r : ℚ} (hsize : size < infinitePlace)
    (h : (sizeAt size).Covers r) : r < overflow := by
  rw [← upper_sizeAt_last]
  by_cases hlast : size = infinitePlace - 1
  · have hodd : (sizeAt size).significand % 2 = 1 := by
      rw [significand_sizeAt, hlast]
      rfl
    rw [← hlast]
    exact lt_of_le_of_ne h.2.1 (h.2.2 hodd).2
  · have hlt : size < infinitePlace - 1 := by omega
    exact h.2.1.trans_lt (upper_sizeAt_strictMono hlt)

/-- A number below the overflow that is nowhere nearer to another size lies in the rounding
interval of the size. -/
theorem covers_of_nearest {size : ℕ} {r : ℚ} (hr : 0 ≤ r) (hfits : r < overflow)
    (hsize : size < infinitePlace)
    (hnearest : ∀ other < infinitePlace, |r - (sizeAt size).value| ≤ |r - (sizeAt other).value|)
    (heven : ∀ other < infinitePlace, other ≠ size →
      |r - (sizeAt other).value| = |r - (sizeAt size).value| → size % 2 = 0) :
    (sizeAt size).Covers r := by
  have hodd : (sizeAt size).significand % 2 = 1 → size % 2 ≠ 0 := by
    rw [significand_sizeAt]
    omega
  have hupper : r ≤ (sizeAt size).upper ∧ ((sizeAt size).significand % 2 = 1 →
      r ≠ (sizeAt size).upper) := by
    by_cases hlast : size = infinitePlace - 1
    · rw [hlast, upper_sizeAt_last]
      exact ⟨hfits.le, fun _ => hfits.ne⟩
    · have hnext : size + 1 < infinitePlace := by omega
      have hmid := upper_sizeAt size
      have hlt := value_sizeAt_lt size.lt_succ_self
      constructor
      · have h := hnearest _ hnext
        by_contra hgt
        rw [abs_of_nonneg (by linarith), le_abs] at h
        rcases h with h | h <;> linarith
      · intro hs hr
        refine hodd hs (heven _ hnext (by omega) ?_)
        rw [abs_of_nonpos (by linarith), abs_of_nonneg (by linarith)]
        linarith
  have hlower : (sizeAt size).lower ≤ r ∧ ((sizeAt size).significand % 2 = 1 →
      (sizeAt size).lower ≠ r) := by
    cases size with
    | zero =>
      have hlt := (sizeAt 0).lower_lt_value
      rw [value_sizeAt_zero] at hlt
      exact ⟨by linarith, fun _ => by linarith⟩
    | succ before =>
      have hbefore : before < infinitePlace := by omega
      have hmid := upper_sizeAt before
      have hlt := value_sizeAt_lt before.lt_succ_self
      rw [lower_sizeAt_succ]
      constructor
      · have h := hnearest _ hbefore
        by_contra hgt
        rw [abs_of_nonpos (by linarith), le_abs] at h
        rcases h with h | h <;> linarith
      · intro hs hr
        refine hodd hs (heven _ hbefore (by omega) ?_)
        rw [abs_of_nonneg (by linarith), abs_of_nonpos (by linarith)]
        linarith
  exact ⟨hlower.1, hupper.1, fun hs => ⟨hlower.2 hs, hupper.2 hs⟩⟩

section

variable {q : ℚ} {x : Float}

/-- What rounds to a finite double lies in the rounding interval of its size. -/
theorem RoundsTo.covers (hx : place x.toBits < infinitePlace) (h : RoundsTo q x) :
    isNegative x = decide (q < 0) ∧ (sizeAt (place x.toBits)).Covers |q| := by
  obtain ⟨hvalue, hsign, hfits, hnearest, heven⟩ | ⟨hreading, -⟩ := h
  · obtain ⟨-, rfl⟩ := value?_eq_some_iff.mp hvalue
    rw [hsign] at hnearest heven
    refine ⟨hsign, covers_of_nearest (abs_nonneg q) hfits hx (fun other hother => ?_)
      fun other hother hne htie => ?_⟩
    · obtain ⟨y, hy, rfl⟩ := exists_of_place (decide (q < 0)) hother
      have h := hnearest y _ (value?_eq_some_iff.mpr ⟨hother, rfl⟩)
      rwa [hy, abs_sub_signed, abs_sub_signed] at h
    · obtain ⟨y, hy, rfl⟩ := exists_of_place (decide (q < 0)) hother
      rw [place_mod_two]
      refine heven y _ (value?_eq_some_iff.mpr ⟨hother, rfl⟩) ?_ ?_
      · rw [hy]
        exact fun h => hne (value_sizeAt_strictMono.injective (signed_injective _ h))
      · rwa [hy, abs_sub_signed, abs_sub_signed]
  · exact absurd (ofFloat_infinite_iff.mp hreading).1 hx.ne

/-- Without the signs distances are no larger. -/
theorem abs_sub_size_le {y : Float} {w : ℚ} (hw : value? y = some w) :
    |(|q|) - (sizeAt (place y.toBits)).value| ≤ |q - w| := by
  obtain ⟨-, rfl⟩ := value?_eq_some_iff.mp hw
  have h := abs_abs_sub_abs_le q (signed (isNegative y) (sizeAt (place y.toBits)).value)
  rwa [abs_signed, abs_of_nonneg (value_sizeAt_nonneg _)] at h

/-- A double that is as near is of another size, unless both are zeros: the double of this size and
of the other sign lies beyond zero. -/
theorem Dyadic.Covers.place_ne {size : ℕ} (h : (sizeAt size).Covers |q|) (hsize : 0 < size)
    {y : Float} {w : ℚ} (hw : value? y = some w)
    (hne : w ≠ signed (decide (q < 0)) (sizeAt size).value)
    (htie : |q - w| = |(|q|) - (sizeAt size).value|) : place y.toBits ≠ size := by
  rintro rfl
  obtain ⟨-, rfl⟩ := value?_eq_some_iff.mp hw
  have hsign : isNegative y = !decide (q < 0) := by
    by_contra hsame
    rw [Bool.not_eq_not] at hsame
    exact hne (by rw [hsame])
  have hvalue := value_sizeAt_lt hsize
  have hq := (sizeAt 0).covers_value.lt h hsize
  rw [value_sizeAt_zero] at hvalue hq
  rw [hsign, abs_sub_signed_not q hvalue.le] at htie
  rcases abs_choice (|q| - (sizeAt (place y.toBits)).value) with h | h <;> linarith

/-- What lies in the rounding interval of the size of a double rounds to the double of its sign. -/
theorem roundsTo_of_covers (hx : place x.toBits < infinitePlace)
    (hsign : isNegative x = decide (q < 0)) (hcovers : (sizeAt (place x.toBits)).Covers |q|) :
    RoundsTo q x := by
  have hself : value? x = some (signed (decide (q < 0)) (sizeAt (place x.toBits)).value) :=
    value?_eq_some_iff.mpr ⟨hx, by rw [hsign]⟩
  refine .finite hself hsign (hcovers.lt_overflow hx) (fun y w hw => ?_)
    fun y w hw hne htie => ?_
  · rw [abs_sub_signed]
    exact (hcovers.nearest _).trans (abs_sub_size_le hw)
  · rw [abs_sub_signed] at htie
    rw [← place_mod_two]
    rcases (place x.toBits).eq_zero_or_pos with hzero | hpos
    · rw [hzero]
    · have hother := hcovers.place_ne hpos hw hne htie
      exact hcovers.even hother (le_antisymm (htie ▸ abs_sub_size_le hw) (hcovers.nearest _))

/-- Rounding to a finite double is lying in its rounding interval. -/
theorem roundsTo_iff_covers (hx : place x.toBits < infinitePlace) :
    RoundsTo q x ↔ isNegative x = decide (q < 0) ∧ (sizeAt (place x.toBits)).Covers |q| :=
  ⟨RoundsTo.covers hx, fun h => roundsTo_of_covers hx h.1 h.2⟩

end

/-- At most one double is the result of rounding. -/
theorem RoundsTo.unique {q : ℚ} {x y : Float} (hx : RoundsTo q x) (hy : RoundsTo q y) : x = y := by
  obtain ⟨hvx, -, hfx, -, -⟩ | ⟨hrx, hlx⟩ := id hx
  · obtain ⟨hvy, -, -, -, -⟩ | ⟨-, hly⟩ := id hy
    · obtain ⟨hsx, hcx⟩ := (roundsTo_iff_covers (value?_eq_some_iff.mp hvx).1).mp hx
      obtain ⟨hsy, hcy⟩ := (roundsTo_iff_covers (value?_eq_some_iff.mp hvy).1).mp hy
      exact eq_of_place_eq (hsx.trans hsy.symm) (hcx.unique hcy)
    · exact absurd hfx (not_lt.mpr hly)
  · obtain ⟨-, -, hfy, -, -⟩ | ⟨hry, -⟩ := hy
    · exact absurd hfy (not_lt.mpr hlx)
    · obtain ⟨hpx, hsx⟩ := ofFloat_infinite_iff.mp hrx
      obtain ⟨hpy, hsy⟩ := ofFloat_infinite_iff.mp hry
      exact eq_of_place_eq (hsx.trans hsy.symm) (hpx.trans hpy.symm)

end ByteMachine.Number
