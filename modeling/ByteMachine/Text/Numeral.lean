/-! Numerals and columns for messages and reports. -/

namespace ByteMachine.Text

/-- A byte as eight binary digits, the highest first. -/
def binary (b : UInt8) : String :=
  String.ofList ((List.range 8).map fun i => if b.toNat.testBit (7 - i) then '1' else '0')

/-- A number in lower-case hexadecimal, with at least two digits. -/
def hexadecimal (n : Nat) : String :=
  let digits := Nat.toDigits 16 n
  String.ofList (List.replicate (2 - digits.length) '0' ++ digits)

/-- Text filled up with blanks on the right to at least `width` characters. -/
def column (width : Nat) (text : String) : String :=
  text ++ String.ofList (List.replicate (width - text.length) ' ')

end ByteMachine.Text
