import ByteMachine.Number.Dyadic

/-! The shortest decimal that reads back as a given double, and of several the closest one. The
reals that round to a double form an interval around it, whose ends belong to it when the
significand is even. Grids of powers of ten are tried from coarse to fine; on each only the two
neighbours of the number can be the closest points. -/

namespace ByteMachine.Number

/-- The number `coefficient * 10 ^ exponent`. -/
structure Decimal where
  coefficient : Nat
  exponent : Int
  deriving DecidableEq, Repr

/-- How many decimal digits a number has; zero has none. -/
def digitCount (n : Nat) : Nat :=
  if n = 0 then 0 else digitCount (n / 10) + 1

theorem digitCount_le_iff (n k : Nat) : digitCount n ≤ k ↔ n < Nat.pow 10 k := by
  induction k generalizing n with
  | zero =>
    unfold digitCount
    split <;> simp_all
  | succ k ih =>
    unfold digitCount
    split
    next h => exact ⟨fun _ => h ▸ Nat.pow_pos (by decide), fun _ => Nat.zero_le _⟩
    · rw [Nat.add_le_add_iff_right, ih]
      exact Nat.div_lt_iff_lt_mul (by decide)

namespace Dyadic

/-! ## Grids of powers of ten -/

/-- `x = significand * up / down` when measured in units of `10 ^ e`. -/
def up (x : Dyadic) (e : Int) : Nat := x.above * Nat.pow 10 (-e).toNat

def down (x : Dyadic) (e : Int) : Nat := x.below * Nat.pow 10 e.toNat

/-- The last point of the grid that is not above the number. -/
def floorOn (x : Dyadic) (e : Int) : Nat := x.significand * x.up e / x.down e

/-- Distance to the lower end of the rounding interval, in quarters of the gap above. -/
def lowerGap (x : Dyadic) : Nat := if x.narrow then 1 else 2

/-- Whether `d * 10 ^ e` rounds to the number. All terms are quarters of the gap above. -/
def readsBack (x : Dyadic) (e : Int) (d : Nat) : Bool :=
  let point := 4 * d * x.down e
  let lower := (4 * x.significand - x.lowerGap) * x.up e
  let upper := (4 * x.significand + 2) * x.up e
  if x.significand % 2 = 0 then lower ≤ point && point ≤ upper
  else lower < point && point < upper

/-- Whether the number is nearer to the grid point `d` than to the next one. Halfway it is not. -/
def nearerBelow (x : Dyadic) (e : Int) (d : Nat) : Bool :=
  2 * x.significand * x.up e < (2 * d + 1) * x.down e

/-- The closest grid point that reads back, if one does. -/
def pick (x : Dyadic) (e : Int) : Option Nat :=
  let d := x.floorOn e
  match x.readsBack e d, x.readsBack e (d + 1) with
  | true, true => if x.nearerBelow e d then some d else some (d + 1)
  | true, false => some d
  | false, true => some (d + 1)
  | false, false => none

/-! ## The search -/

/-- The least `k` with `x < 10 ^ k`. -/
def scale (x : Dyadic) : Int :=
  let whole := x.significand * x.above / x.below
  if whole = 0 then 1 - (digitCount ((x.below - 1) / x.significand) : Int)
  else digitCount whole

/-- Tries the grids `10 ^ e`, `10 ^ (e - 1)`, … and after `steps` of them takes the last one as it
is; the caller chooses it so fine that the number lies on it. -/
def search (x : Dyadic) : Nat → Int → Decimal
  | 0, e => ⟨x.floorOn e, e⟩
  | steps + 1, e =>
      match x.pick e with
      | some d => ⟨d, e⟩
      | none => search x steps (e - 1)

/-- Moves zeros at the end of the coefficient into the exponent. -/
def stripZeros (coefficient : Nat) (exponent : Int) : Decimal :=
  if coefficient ≠ 0 ∧ coefficient % 10 = 0 then stripZeros (coefficient / 10) (exponent + 1)
  else ⟨coefficient, exponent⟩
termination_by coefficient
decreasing_by omega

/-- The shortest decimal that rounds to the number, the closest one if several are that short. The
grids begin with one digit and end where every bit of the number has a place of its own. -/
def shortest (x : Dyadic) : Decimal :=
  let first := x.scale - 1
  let found := x.search (first - min x.exponent 0).toNat first
  stripZeros found.coefficient found.exponent

end Dyadic

end ByteMachine.Number
