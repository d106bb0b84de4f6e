import ByteMachine.Json.Numeral
import Mathlib.Algebra.Ring.Nat

/-! Arithmetic of doubles that stays finite. Rounding moves an exponent up by no more than the size
of the significand, so a product of numbers of a few words has an exponent far below that of the
infinities. -/

namespace ByteMachine.Number

open Float.Model

/-- A zero, or a number with an exponent of at most `bound`. -/
def IsBounded (bound : Int) : UnpackedFloat → Prop
  | .zero _ => True
  | .finite _ _ exponent _ => exponent ≤ bound
  | _ => False

/-- The same, with a significand of less than `size` binary digits. -/
def IsSmall (bound : Int) (size : Nat) : UnpackedFloat → Prop
  | .zero _ => True
  | .finite _ significand exponent _ => exponent ≤ bound ∧ significand < Nat.pow 2 size
  | _ => False

theorem IsBounded.mono {b c : Int} {u : UnpackedFloat} (h : IsBounded b u) (hbc : b ≤ c) :
    IsBounded c u := by
  cases u with
  | infinity sign => exact h
  | notANumber => exact h
  | zero sign => trivial
  | finite sign m e hm => exact Int.le_trans h hbc

theorem IsSmall.not_isInf {b : Int} {size : Nat} {u : UnpackedFloat} (h : IsSmall b size u) :
    u.isInf = false := by
  cases u with
  | infinity sign => exact h.elim
  | notANumber => exact h.elim
  | zero sign => rfl
  | finite sign m e hm => rfl

/-! ## Rounding -/

theorem log2_lt_of_lt {m size : Nat} (hsize : 0 < size) (h : m < Nat.pow 2 size) :
    m.log2 < size := by
  by_cases hm : m = 0
  · subst hm
    exact hsize
  · exact (Nat.log2_lt hm).mpr h

theorem mantissa_shiftRight_le (em : UnpackedFloat.ExtendedMantissa) (n : Nat) :
    (em >>> n).mantissa ≤ em.mantissa := by
  change (n.repeat UnpackedFloat.ExtendedMantissa.shiftRightOne em).mantissa ≤ _
  induction n with
  | zero => exact Nat.le_refl _
  | succ n ih => exact Nat.le_trans (Nat.div_le_self _ _) ih

theorem mantissa_ofMantissaAndAccuracy (m : Nat) (accuracy : UnpackedFloat.Accuracy) :
    (UnpackedFloat.ExtendedMantissa.ofMantissaAndAccuracy m accuracy).mantissa = m := by
  cases accuracy with
  | exact => rfl
  | inexact side => cases side <;> rfl

theorem roundedMantissa_le (em : UnpackedFloat.ExtendedMantissa) :
    em.roundedMantissa ≤ em.mantissa + 1 := by
  obtain ⟨m, round, sticky⟩ := em
  cases round <;> cases sticky
  · exact Nat.le_succ m
  · exact Nat.le_succ m
  · change m + m % 2 ≤ m + 1
    omega
  · exact Nat.le_refl (m + 1)

theorem shiftToTargetExponent_mantissa_le (m : Nat) (e : Int)
    (accuracy : UnpackedFloat.Accuracy) :
    (UnpackedFloat.shiftToTargetExponent .binary64 m e accuracy).1.mantissa ≤ m := by
  have hshift := mantissa_shiftRight_le (.ofMantissaAndAccuracy m accuracy)
    ((Format.binary64.targetExponent (totalExponent m e) - e).toNat)
  rwa [mantissa_ofMantissaAndAccuracy] at hshift

theorem shiftToTargetExponent_exponent_le {m size : Nat} {e : Int}
    (accuracy : UnpackedFloat.Accuracy) (hsize : 0 < size) (hm : m < Nat.pow 2 size) :
    (UnpackedFloat.shiftToTargetExponent .binary64 m e accuracy).2 ≤ max (e + size) (-1074) := by
  have hlog := log2_lt_of_lt hsize hm
  change e + ((max ((m.log2 : Int) + 1 + e - 53) (-1074) - e).toNat : Int) ≤ _
  omega

/-- A significand that is nothing makes a zero. -/
theorem isBounded_of_exponent_le {bound e : Int} (sign : UnpackedFloat.Sign) {m : Nat}
    (he : e ≤ bound) :
    IsBounded bound
      (if h : m = 0 then .zero sign else .finite sign m e (Nat.pos_of_ne_zero h)) := by
  by_cases hm : m = 0
  · rw [dif_pos hm]
    trivial
  · rw [dif_neg hm]
    exact he

/-- Rounding moves the exponent up by the binary digits of the significand, twice at the most. -/
theorem roundWithAccuracy_isBounded (sign : UnpackedFloat.Sign) {m size : Nat} {e : Int}
    (accuracy : UnpackedFloat.Accuracy) (hsize : 0 < size) (hm : m < Nat.pow 2 size) :
    IsBounded (max (e + 2 * size + 1) (-1074 + size + 1))
      (UnpackedFloat.roundWithAccuracy .binary64 sign m e accuracy) := by
  let first := UnpackedFloat.shiftToTargetExponent .binary64 m e accuracy
  have hle : first.1.roundedMantissa ≤ m + 1 :=
    Nat.le_trans (roundedMantissa_le _)
      (Nat.succ_le_succ (shiftToTargetExponent_mantissa_le m e accuracy))
  have hrounded : first.1.roundedMantissa < Nat.pow 2 (size + 1) := by
    have hdouble : Nat.pow 2 (size + 1) = Nat.pow 2 size * 2 := rfl
    have hone : 1 ≤ Nat.pow 2 size := Nat.one_le_two_pow
    omega
  have hfirst : first.2 ≤ max (e + size) (-1074) :=
    shiftToTargetExponent_exponent_le accuracy hsize hm
  have hsecond := shiftToTargetExponent_exponent_le (e := first.2) .exact (Nat.succ_pos size)
    hrounded
  have hexponent : (UnpackedFloat.shiftToTargetExponent .binary64 first.1.roundedMantissa first.2
      .exact).2 ≤ max (e + 2 * size + 1) (-1074 + size + 1) := by
    omega
  exact isBounded_of_exponent_le sign hexponent

/-! ## Packing -/

theorem unpack_isSmall {b : BitVec 64} {bound : Nat} (hbound : 1 ≤ bound)
    (h : (@UnpackedFloat.unpackExponent .binary64 b).toNat ≤ bound)
    (hlt : bound < 2047) :
    IsSmall (bound - 1075) 53 (UnpackedFloat.unpack .binary64 b) := by
  have hfinite : @UnpackedFloat.unpackExponent .binary64 b ≠ -1#11 := by
    intro heq
    rw [heq] at h
    have hmax : (-1#11).toNat = 2047 := rfl
    omega
  unfold UnpackedFloat.unpack
  dsimp only
  rw [if_neg hfinite]
  by_cases hzero : @UnpackedFloat.unpackExponent .binary64 b = 0#11
  · rw [if_pos hzero]
    by_cases hmantissa : @UnpackedFloat.unpackMantissa .binary64 b = 0#52
    · rw [dif_pos hmantissa]
      trivial
    · rw [dif_neg hmantissa]
      refine ⟨?_, Nat.lt_trans (BitVec.isLt _) (by decide)⟩
      change ((@UnpackedFloat.unpackExponent .binary64 b).toNat : Int) - 1075 + 1 ≤ _
      rw [hzero]
      change (0 : Int) - 1075 + 1 ≤ _
      omega
  · rw [if_neg hzero]
    refine ⟨?_, BitVec.isLt _⟩
    change ((@UnpackedFloat.unpackExponent .binary64 b).toNat : Int) - 1075 ≤ _
    omega

/-- Packing keeps a number whose exponent is below that of the infinities. -/
theorem unpack_pack_isSmall {u : UnpackedFloat} {bound : Nat} (h : IsBounded bound u)
    (hlt : bound < 972) : IsSmall bound 53 (pack u).unpack := by
  change IsSmall bound 53 (UnpackedFloat.unpack .binary64 (UnpackedFloat.pack .binary64 u))
  have hsmall : (@UnpackedFloat.unpackExponent .binary64
      (UnpackedFloat.pack .binary64 u)).toNat ≤ bound + 1075 := by
    cases u with
    | infinity sign => exact h.elim
    | notANumber => exact h.elim
    | zero sign =>
      change (@UnpackedFloat.unpackExponent .binary64
        (UnpackedFloat.packComponents .binary64 sign 0 0)).toNat ≤ _
      rw [UnpackedFloat.unpackExponent_packComponents]
      exact Nat.zero_le _
    | finite sign m e hm =>
      have he : e ≤ bound := h
      unfold UnpackedFloat.pack
      dsimp only
      have hfield : (e + (Format.exponentBias .binary64 : Int) + (52 : Nat)).toNat =
          (e + 1075).toNat := by
        change (e + (1023 : Nat) + (52 : Nat)).toNat = _
        omega
      rw [hfield]
      split
      · rename_i hmax
        have hmax : 2048 ≤ (e + 1075).toNat + 1 := hmax
        omega
      · split
        · rw [UnpackedFloat.unpackExponent_packComponents, BitVec.toNat_ofNat]
          exact Nat.le_trans (Nat.mod_le _ _) (by omega)
        · rw [UnpackedFloat.unpackExponent_packComponents]
          exact Nat.zero_le _
  have := unpack_isSmall (by omega) hsmall (by omega)
  rwa [show ((bound + 1075 : Nat) : Int) - 1075 = bound by omega] at this

/-! ## Numbers of a machine word -/

theorem shiftLeft_lt {m shift size more : Nat} (hm : m < Nat.pow 2 size) (hshift : shift ≤ more) :
    m <<< shift < Nat.pow 2 (size + more) := by
  have hpow : Nat.pow 2 (size + more) = Nat.pow 2 size * Nat.pow 2 more := Nat.pow_add 2 size more
  rw [Nat.shiftLeft_eq, hpow]
  exact Nat.mul_lt_mul_of_lt_of_le hm (Nat.pow_le_pow_right (by decide) hshift)
    (Nat.two_pow_pos _)

theorem round_isBounded (sign : UnpackedFloat.Sign) {m : Nat} (hm : m < Nat.pow 2 64) :
    IsBounded 233 (UnpackedFloat.round .binary64 sign m 0) := by
  unfold UnpackedFloat.round UnpackedFloat.decreaseExponent
  dsimp only
  have hshift : ((0 : Int) - Format.targetExponent .binary64 (totalExponent m 0)).toNat ≤ 52 := by
    change ((0 : Int) - max ((m.log2 : Int) + 1 + 0 - 53) (-1074)).toNat ≤ 52
    omega
  have hround := roundWithAccuracy_isBounded sign .exact (by decide : 0 < 64 + 52)
    (e := 0 - (((0 : Int) - Format.targetExponent .binary64 (totalExponent m 0)).toNat : Int))
    (shiftLeft_lt hm hshift)
  exact hround.mono (by omega)

theorem ofUInt64_isBounded (n : UInt64) :
    IsBounded 233 (UnpackedFloat.ofUInt64 .binary64 n) := by
  unfold UnpackedFloat.ofUInt64 UnpackedFloat.ofNat UnpackedFloat.ofInt UnpackedFloat.normalize
  split
  · rename_i hlt
    have hneg := Int.compare_eq_lt.mp hlt
    omega
  · trivial
  · exact round_isBounded _ n.toNat_lt

theorem mul_isBounded {x y : UnpackedFloat} {b c : Nat} (hx : IsSmall b 53 x)
    (hy : IsSmall c 53 y) :
    IsBounded ((b : Int) + c + 213) (UnpackedFloat.mul .binary64 x y) := by
  cases x with
  | infinity sign => exact hx.elim
  | notANumber => exact hx.elim
  | zero sign =>
    cases y with
    | infinity sign => exact hy.elim
    | notANumber => exact hy.elim
    | zero sign => trivial
    | finite sign m e hm => trivial
  | finite sign m e hm =>
    cases y with
    | infinity sign => exact hy.elim
    | notANumber => exact hy.elim
    | zero sign => trivial
    | finite sign' m' e' hm' =>
      have hsize : m * m' < Nat.pow 2 53 * Nat.pow 2 53 := Nat.mul_lt_mul'' hx.2 hy.2
      have hround := roundWithAccuracy_isBounded (sign * sign') .exact
        (e := e + e') (by decide : 0 < 106) hsize
      have he := hx.1
      have he' := hy.1
      exact hround.mono (by omega)

/-- A number of a machine word times one is a double that is not infinite. -/
theorem isInf_toFloat_mul_one (n : UInt64) :
    (n.toFloat * Float.ofScientific 1 false 0).isInf = false := by
  have hword : IsSmall (233 : Nat) 53 (pack (UnpackedFloat.ofUInt64 .binary64 n)).unpack :=
    unpack_pack_isSmall (ofUInt64_isBounded n) (by decide)
  have hone : IsSmall (0 : Nat) 53 (Float.ofScientific 1 false 0).toModel.unpack := by
    have hexponent : (@UnpackedFloat.unpackExponent .binary64
        (Float.ofScientific 1 false 0).toModel.toBits.toBitVec).toNat ≤ 1075 := by decide +kernel
    exact unpack_isSmall (by decide) hexponent (by decide)
  have hproduct : IsBounded (446 : Nat) (UnpackedFloat.mul .binary64 _ _) :=
    mul_isBounded hword hone
  exact (unpack_pack_isSmall hproduct (by decide)).not_isInf

end ByteMachine.Number
