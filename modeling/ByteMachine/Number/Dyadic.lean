/-! Doubles read as exact numbers. A finite double other than zero is a significand times a power
of two; everything later is exact arithmetic on natural numbers. -/

namespace ByteMachine.Number

/-- The number `significand * 2 ^ exponent`. It is `narrow` when the next smaller double is only
half as far away as the next larger one, which happens at the powers of two. -/
structure Dyadic where
  significand : Nat
  exponent : Int
  narrow : Bool
  deriving DecidableEq, Repr

namespace Dyadic

/-- The power of two above the line when the number is written as a fraction of naturals. -/
def above (x : Dyadic) : Nat := Nat.pow 2 x.exponent.toNat

/-- The power of two below the line. -/
def below (x : Dyadic) : Nat := Nat.pow 2 (-x.exponent).toNat

/-- `x < y` as numbers, with both sides brought to a common denominator. -/
def lt (x y : Dyadic) : Bool :=
  x.significand * x.above * y.below < y.significand * y.above * x.below

end Dyadic

/-- What the bits of a double stand for. -/
inductive Reading where
  | notANumber
  | infinite (negative : Bool)
  | zero (negative : Bool)
  | finite (negative : Bool) (size : Dyadic)
  deriving DecidableEq, Repr

namespace Reading

/-- How many fractions there are, and the value of the hidden bit: the 52nd power of two. -/
def fractionSize : Nat := 0x10000000000000

/-- Reads sign, exponent field and fraction field. An exponent field of zero has no hidden bit,
one of 2047 holds the infinities and the values that are no numbers. -/
def ofBits (bits : UInt64) : Reading :=
  let word := bits.toNat
  let negative := word.testBit 63
  let field : Nat := word / fractionSize % 2048
  let fraction : Nat := word % fractionSize
  if field = 2047 then
    if fraction = 0 then .infinite negative else .notANumber
  else if field = 0 then
    if fraction = 0 then .zero negative else .finite negative ⟨fraction, -1074, false⟩
  else
    .finite negative ⟨fractionSize + fraction, (field : Int) - 1075, fraction = 0 && 1 < field⟩

def ofFloat (value : Float) : Reading := ofBits value.toBits

theorem significand_pos {bits : UInt64} {negative : Bool} {size : Dyadic}
    (h : ofBits bits = .finite negative size) : 0 < size.significand := by
  unfold ofBits fractionSize at h
  dsimp only at h
  repeat' split at h
  all_goals simp only [reduceCtorEq, finite.injEq] at h
  all_goals obtain ⟨_, rfl⟩ := h
  all_goals dsimp only
  all_goals omega

end Reading

end ByteMachine.Number
