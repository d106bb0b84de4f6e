import ByteMachine.Files.Reader
import ByteMachine.Memory
import ByteMachine.Text.Blank
import ByteMachine.Text.Lines

/-! Program text. Each line holds at most one byte as a base-2 literal; `#` begins a comment. The
first line that holds anything else is reported, and only a text without such a line is measured
against the size of memory. -/

namespace ByteMachine

/-- Why a text or file is no program. -/
inductive LoadError where
  | unreadable (path reason : String)
  | invalidLiteral (line : Nat) (text : String)
  | tooLarge (length capacity : Nat)
  deriving DecidableEq, Repr

def LoadError.message : LoadError → String
  | .unreadable path reason => s!"could not read program '{path}': {reason}"
  | .invalidLiteral line text => s!"line {line}: '{text}' is not an 8-bit binary literal"
  | .tooLarge length capacity => s!"program is {length} bytes but memory holds {capacity}"

namespace Program

/-! ## Literals -/

/-- The value of a row of base-2 digits. -/
def binaryValue (digits : List Char) : Nat :=
  digits.foldl (fun value c => 2 * value + if c = '1' then 1 else 0) 0

def isBinaryDigit (c : Char) : Bool := c == '0' || c == '1'

/-- A literal may begin with one `+`, which has no meaning. -/
def unsigned : List Char → List Char
  | '+' :: rest => rest
  | text => text

/-- The byte that a literal stands for: one or more digits, of a value that fits. -/
def literal? (text : List Char) : Option UInt8 :=
  let digits := unsigned text
  if !digits.isEmpty && digits.all isBinaryDigit && binaryValue digits < 256 then
    some (UInt8.ofNat (binaryValue digits))
  else none

/-! ## Lines -/

/-- What a line holds once its comment and the white space around it are gone. -/
def content (line : List Char) : List Char := Text.trim (line.takeWhile (· != '#'))

/-- The bytes of the lines, the first of which has the given number. -/
def readLines (number : Nat) : List (List Char) → Except LoadError (List UInt8)
  | [] => .ok []
  | line :: rest =>
      let text := content line
      if text.isEmpty then readLines (number + 1) rest
      else
        match literal? text with
        | none => .error (.invalidLiteral number (String.ofList text))
        | some byte => (readLines (number + 1) rest).map (byte :: ·)

/-- The bytes of a program text, in order. -/
def parse (text : String) : Except LoadError (List UInt8) := do
  let bytes ← readLines 1 (Text.lines text.toList)
  if bytes.length ≤ memorySize then .ok bytes else .error (.tooLarge bytes.length memorySize)

/-- Reads and parses a program file. -/
def read (files : FileReader) (path : String) : Except LoadError (List UInt8) :=
  match files.text path with
  | .error reason => .error (.unreadable path reason.message)
  | .ok text => parse text

end Program

end ByteMachine
