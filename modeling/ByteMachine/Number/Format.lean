import ByteMachine.Number.Shortest

/-! The text of a register value: shortest digits, written positionally for middle sizes and with
an exponent for very large and very small ones. -/

namespace ByteMachine.Number

/-- The double nearest to `10 ^ -6`. Sizes below it are written with an exponent. -/
def exponentBelow : Dyadic := ⟨0x10C6F7A0B5ED8D, -72, false⟩

/-- The double `10 ^ 21`. Sizes from it on are written with an exponent. -/
def exponentFrom : Dyadic := ⟨0x1B1AE4D6E2EF50, 17, false⟩

example : Reading.ofFloat 1e-6 = .finite false exponentBelow := by decide

example : Reading.ofFloat 1e21 = .finite false exponentFrom := by decide

def Dyadic.usesExponent (x : Dyadic) : Bool := x.lt exponentBelow || !x.lt exponentFrom

namespace Decimal

def digits (x : Decimal) : List Char := Nat.toDigits 10 x.coefficient

/-- Where the decimal point stands, counted from the first digit. -/
def point (x : Decimal) : Int := x.digits.length + x.exponent

/-- Without exponent: zeros fill the places between the digits and the point. -/
def positional (x : Decimal) : List Char :=
  let n := x.point
  if n ≤ 0 then '0' :: '.' :: (List.replicate (-n).toNat '0' ++ x.digits)
  else if n < x.digits.length then x.digits.take n.toNat ++ '.' :: x.digits.drop n.toNat
  else x.digits ++ List.replicate x.exponent.toNat '0'

/-- The digits with the point behind the first one, if others follow it. -/
def mantissa (x : Decimal) : List Char :=
  match x.digits with
  | first :: second :: rest => first :: '.' :: second :: rest
  | short => short

/-- With exponent: what it has to be when the point stands behind the first digit. -/
def exponential (x : Decimal) : List Char :=
  let n := x.point - 1
  x.mantissa ++ 'e' :: ((if n < 0 then ['-'] else []) ++ Nat.toDigits 10 n.natAbs)

end Decimal

/-- The text of a number behind its sign, which is written only if it is a minus. -/
def withSign (negative : Bool) (text : List Char) : List Char :=
  if negative then '-' :: text else text

/-- What stands before the first `e` of a text and what stands behind it. -/
def splitExponent? (text : List Char) : Option (List Char × List Char) :=
  match text.dropWhile (· != 'e') with
  | [] => none
  | _ :: exponent => some (text.takeWhile (· != 'e'), exponent)

/-- Writes the sign of an exponent that has no minus. -/
def signExponent (text : List Char) : List Char :=
  match splitExponent? text with
  | some (mantissa, exponent) =>
      if exponent.head? = some '-' then text else mantissa ++ 'e' :: '+' :: exponent
  | none => text

def Dyadic.text (negative : Bool) (x : Dyadic) : List Char :=
  if x.usesExponent then signExponent (withSign negative x.shortest.exponential)
  else withSign negative x.shortest.positional

/-- The text of a value. Both zeros are written `0`. -/
def text (value : Float) : String :=
  match Reading.ofFloat value with
  | .notANumber => "NaN"
  | .infinite negative => if negative then "-Infinity" else "Infinity"
  | .zero _ => "0"
  | .finite negative size => String.ofList (size.text negative)

end ByteMachine.Number
