import ByteMachine.Text.Combining
import ByteMachine.Text.Printable

/-! Text between double quotes. Quotes and backslashes get a backslash, the usual control characters
their letter, and every other character that would not be seen, or that would join the one before
it, its code point in hexadecimal. -/

namespace ByteMachine.Text

def escape (c : Char) : List Char :=
  match c with
  | '"' => ['\\', '"']
  | '\\' => ['\\', '\\']
  | '\n' => ['\\', 'n']
  | '\r' => ['\\', 'r']
  | '\t' => ['\\', 't']
  | '\x00' => ['\\', '0']
  | c =>
      if isPrintable c && !isCombining c then [c]
      else '\\' :: 'u' :: '\x7b' :: (Nat.toDigits 16 c.toNat ++ ['\x7d'])

def quoted (text : String) : String :=
  String.ofList ('"' :: (text.toList.flatMap escape ++ ['"']))

end ByteMachine.Text
