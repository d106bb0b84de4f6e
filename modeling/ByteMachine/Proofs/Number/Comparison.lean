import ByteMachine.Number.Dyadic

/-! Doubles as they compare. The bits of a double are read as the arithmetic of doubles takes them
apart, so values that are no numbers, infinities and zeros are told from all others by the tests
that doubles have for them. -/

namespace ByteMachine.Number

open Float.Model

/-! ## The parts of a double -/

theorem unpackMantissa_toNat (b : BitVec 64) :
    (@UnpackedFloat.unpackMantissa Format.binary64 b).toNat =
      b.toNat % 0x10000000000000 := by
  simp [UnpackedFloat.unpackMantissa]

theorem unpackExponent_toNat (b : BitVec 64) :
    (@UnpackedFloat.unpackExponent Format.binary64 b).toNat =
      b.toNat / 0x10000000000000 % 2048 := by
  simp [UnpackedFloat.unpackExponent, Nat.shiftRight_eq_div_pow]

/-- The sign of which the sign bit is set or not. -/
def signOf (negative : Bool) : UnpackedFloat.Sign := if negative then .negative else .positive

theorem unpackSign_eq (b : BitVec 64) :
    UnpackedFloat.Sign.ofBitVec (@UnpackedFloat.unpackSign Format.binary64 b) =
      signOf (b.toNat.testBit 63) := by
  have hclear : @UnpackedFloat.unpackSign Format.binary64 b = 0#1 ↔
      b.toNat / 0x8000000000000000 % 2 = 0 := by
    have hbit : @UnpackedFloat.unpackSign Format.binary64 b = b.extractLsb' 63 1 := rfl
    rw [hbit, ← BitVec.toNat_inj]
    simp [Nat.shiftRight_eq_div_pow]
  have hset : b.toNat.testBit 63 = decide (b.toNat / 0x8000000000000000 % 2 = 1) :=
    Nat.testBit_eq_decide_div_mod_eq
  unfold UnpackedFloat.Sign.ofBitVec signOf
  rw [hset]
  rcases Nat.mod_two_eq_zero_or_one (b.toNat / 0x8000000000000000) with h | h
  · rw [if_pos (hclear.mpr h), h]
    rfl
  · rw [if_neg (mt hclear.mp (by rw [h]; exact Nat.one_ne_zero)), h]
    rfl

/-- What bits stand for, and what the arithmetic of doubles makes of them. -/
inductive Unpacks : Reading → UnpackedFloat → Prop where
  | notANumber : Unpacks .notANumber .notANumber
  | infinite (negative : Bool) : Unpacks (.infinite negative) (.infinity (signOf negative))
  | zero (negative : Bool) : Unpacks (.zero negative) (.zero (signOf negative))
  | finite (negative : Bool) (size : Dyadic) (sign : UnpackedFloat.Sign) (mantissa : Nat)
      (exponent : Int) (pos : 0 < mantissa) :
      Unpacks (.finite negative size) (.finite sign mantissa exponent pos)

theorem unpacks_ofBits (bits : UInt64) :
    Unpacks (Reading.ofBits bits) (UnpackedFloat.unpack Format.binary64 bits.toBitVec) := by
  have hexponent (e : BitVec 11) :
      @UnpackedFloat.unpackExponent Format.binary64 bits.toBitVec = e ↔
        bits.toNat / 0x10000000000000 % 2048 = e.toNat := by
    rw [← BitVec.toNat_inj, unpackExponent_toNat]
    rfl
  have hmantissa : @UnpackedFloat.unpackMantissa Format.binary64 bits.toBitVec = 0#52 ↔
      bits.toNat % 0x10000000000000 = 0 := by
    rw [← BitVec.toNat_inj, unpackMantissa_toNat]
    rfl
  have hsign := unpackSign_eq bits.toBitVec
  have hmax := hexponent (-1#11)
  have hzero := hexponent 0#11
  unfold Reading.ofBits Reading.fractionSize UnpackedFloat.unpack
  dsimp only
  rw [hsign]
  by_cases hm : bits.toNat / 0x10000000000000 % 2048 = 2047
  · rw [if_pos hm, if_pos (hmax.mpr hm)]
    by_cases hf : bits.toNat % 0x10000000000000 = 0
    · rw [if_pos hf, if_pos (hmantissa.mpr hf)]
      exact .infinite _
    · rw [if_neg hf, if_neg (mt hmantissa.mp hf)]
      exact .notANumber
  · rw [if_neg hm, if_neg (mt hmax.mp hm)]
    by_cases hz : bits.toNat / 0x10000000000000 % 2048 = 0
    · rw [if_pos hz, if_pos (hzero.mpr hz)]
      by_cases hf : bits.toNat % 0x10000000000000 = 0
      · rw [if_pos hf, dif_pos (hmantissa.mpr hf)]
        exact .zero _
      · rw [if_neg hf, dif_neg (mt hmantissa.mp hf)]
        exact .finite ..
    · rw [if_neg hz, if_neg (mt hzero.mp hz)]
      exact .finite ..

theorem unpacks (x : Float) : Unpacks (Reading.ofFloat x) x.toModel.unpack :=
  unpacks_ofBits x.toBits

/-! ## Tests -/

theorem isNaN_iff (x : Float) : x.isNaN = true ↔ Reading.ofFloat x = .notANumber := by
  have h := unpacks x
  change x.toModel.unpack.isNaN = true ↔ _
  generalize Reading.ofFloat x = reading, x.toModel.unpack = unpacked at h ⊢
  cases h with
  | notANumber => exact iff_of_true rfl rfl
  | infinite _ | zero _ | finite _ _ _ _ _ _ => exact iff_of_false Bool.false_ne_true nofun

theorem isInf_iff (x : Float) :
    x.isInf = true ↔ ∃ negative, Reading.ofFloat x = .infinite negative := by
  have h := unpacks x
  change x.toModel.unpack.isInf = true ↔ _
  generalize Reading.ofFloat x = reading, x.toModel.unpack = unpacked at h ⊢
  cases h with
  | infinite negative => exact iff_of_true rfl ⟨negative, rfl⟩
  | notANumber | zero _ | finite _ _ _ _ _ _ => exact iff_of_false Bool.false_ne_true nofun

/-- A double compares equal to zero exactly when it reads as a zero of either sign. -/
theorem beq_zero_iff (x : Float) :
    (x == 0) = true ↔ ∃ negative, Reading.ofFloat x = .zero negative := by
  have hz : (0 : Float).toModel.unpack = .zero .positive := rfl
  have h := unpacks x
  change UnpackedFloat.beq x.toModel.unpack (0 : Float).toModel.unpack = true ↔ _
  rw [hz]
  generalize Reading.ofFloat x = reading, x.toModel.unpack = unpacked at h ⊢
  cases h with
  | zero negative => exact iff_of_true (by cases negative <;> rfl) ⟨negative, rfl⟩
  | notANumber => exact iff_of_false (by decide) nofun
  | infinite negative => exact iff_of_false (by cases negative <;> decide) nofun
  | finite negative size sign mantissa exponent pos =>
    refine iff_of_false ?_ nofun
    cases sign <;> exact Bool.false_ne_true

/-- Of the infinities the one without a minus is above zero. -/
theorem pos_of_infinite {x : Float} {negative : Bool}
    (h : Reading.ofFloat x = .infinite negative) : 0 < x ↔ negative = false := by
  have hz : (0 : Float).toModel.unpack = .zero .positive := rfl
  have hx := unpacks x
  rw [h] at hx
  change decide (UnpackedFloat.lt (0 : Float).toModel.unpack x.toModel.unpack = true) = true ↔ _
  rw [hz]
  generalize x.toModel.unpack = unpacked at hx ⊢
  cases hx
  cases negative <;> decide

end ByteMachine.Number
