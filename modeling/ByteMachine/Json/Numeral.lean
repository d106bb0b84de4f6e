import ByteMachine.Json.Token

/-! JSON numbers. The digits are kept as they are written; whether a number is a natural number, and
whether it fits into a double at all, is asked of them afterwards. -/

namespace ByteMachine.Json

/-- The digits after `e`, with the sign of the exponent. -/
structure Exponent where
  negative : Bool
  digits : List Char

/-- A number as it is written. `fraction` is empty when there is no decimal point. -/
structure Numeral where
  negative : Bool
  whole : List Char
  fraction : List Char
  exponent : Option Exponent

def isDigit (c : Char) : Bool := '0' ≤ c && c ≤ '9'

namespace Numeral

/-- One or more digits. `atEnd` is the failure when the text ends before the first one. -/
def readDigits (atEnd : Failure) (text : List Char) :
    Except Failure (List Char × List Char) :=
  match text with
  | [] => .error atEnd
  | c :: _ =>
      if isDigit c then .ok (text.takeWhile isDigit, text.dropWhile isDigit)
      else .error .malformed

/-- The digits before the point: a zero stands alone. -/
def readWhole (atEnd : Failure) (text : List Char) : Except Failure (List Char × List Char) := do
  let (digits, rest) ← readDigits atEnd text
  match digits with
  | '0' :: _ :: _ => .error .malformed
  | digits => .ok (digits, rest)

def readFraction (atEnd : Failure) : List Char → Except Failure (List Char × List Char)
  | '.' :: rest => readDigits atEnd rest
  | text => .ok ([], text)

def readExponentDigits (atEnd : Failure) (negative : Bool) (text : List Char) :
    Except Failure (Option Exponent × List Char) := do
  let (digits, rest) ← readDigits atEnd text
  return (some ⟨negative, digits⟩, rest)

def readExponent (atEnd : Failure) : List Char → Except Failure (Option Exponent × List Char)
  | c :: rest =>
      if c = 'e' ∨ c = 'E' then
        match rest with
        | '+' :: rest => readExponentDigits atEnd false rest
        | '-' :: rest => readExponentDigits atEnd true rest
        | rest => readExponentDigits atEnd false rest
      else .ok (none, c :: rest)
  | [] => .ok (none, [])

/-- Splits a number from the text after it. -/
def read (atEnd : Failure) (text : List Char) : Except Failure (Numeral × List Char) := do
  let (negative, text) :=
    match text with
    | '-' :: rest => (true, rest)
    | text => (false, text)
  let (whole, text) ← readWhole atEnd text
  let (fraction, text) ← readFraction atEnd text
  let (exponent, text) ← readExponent atEnd text
  return (⟨negative, whole, fraction, exponent⟩, text)

/-! ## Size -/

/-- The largest significand that is kept exactly. -/
def significandLimit : Nat := 0xffffffffffffffff

def digitValue (c : Char) : Nat := c.toNat - '0'.toNat

def value (digits : List Char) : Nat :=
  digits.foldl (fun n c => n * 10 + digitValue c) 0

/-- Takes digits into a significand as long as it stays within the limit; answers how many are
left over. -/
def absorb (significand : Nat) : List Char → Nat × Nat
  | [] => (significand, 0)
  | c :: rest =>
      let next := significand * 10 + digitValue c
      if next ≤ significandLimit then absorb next rest else (significand, rest.length + 1)

/-- A power of ten that is a double, and a significand, both rounded before they are multiplied. -/
def overflows (significand exponent : Nat) : Bool :=
  if exponent ≤ 308 then
    (significand.toUInt64.toFloat * Float.ofScientific 1 false exponent).isInf
  else significand != 0

/-- The largest exponent that is read; with a larger one only zero is in range. -/
def exponentLimit : Nat := 0x7fffffff

/-- Whether the number has a place among the doubles. Small numbers always have one. -/
def inRange (n : Numeral) : Bool :=
  let (first, wholeLeft) := absorb 0 n.whole
  let (significand, fractionLeft) := absorb first n.fraction
  let scale : Int := wholeLeft - (n.fraction.length - fractionLeft : Nat)
  match n.exponent with
  | none => scale < 0 || !overflows significand scale.toNat
  | some exponent =>
      let size := value exponent.digits
      if exponentLimit < size then exponent.negative || significand == 0
      else
        let scale := if exponent.negative then scale - size else scale + size
        scale < 0 || !overflows significand scale.toNat

/-- The number as a natural number of 64 bits, if it is written as one. -/
def natural? (n : Numeral) : Option UInt64 :=
  if n.negative || !n.fraction.isEmpty || n.exponent.isSome then none
  else if value n.whole ≤ significandLimit then some (UInt64.ofNat (value n.whole))
  else none

end Numeral

/-- Reads a number that has to be in range. -/
def readNumeral (text : List Char) : Except Failure (Numeral × List Char) := do
  let (numeral, rest) ← Numeral.read .truncated text
  if numeral.inRange then .ok (numeral, rest) else .error .malformed

/-- Passes over a number of any size. A text that ends inside it is malformed. -/
def skipNumeral (text : List Char) : Except Failure (List Char) := do
  let (_, rest) ← Numeral.read .malformed text
  return rest

end ByteMachine.Json
