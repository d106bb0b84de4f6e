/-! The smallest parts of a JSON text: blanks, keywords and strings. A reader takes the text from
where it stands and answers what follows the part it read, or the failure met first. -/

namespace ByteMachine.Json

/-- Why a text is not read: it ends too early, it is not JSON, or it is JSON of the wrong shape. -/
inductive Failure where
  | truncated
  | malformed
  | mismatch
  deriving DecidableEq, Repr

def isBlank (c : Char) : Bool := c == ' ' || c == '\t' || c == '\n' || c == '\r'

def skipBlanks (text : List Char) : List Char := text.dropWhile isBlank

/-- Reads the given characters. -/
def keyword : List Char → List Char → Except Failure (List Char)
  | [], text => .ok text
  | _ :: _, [] => .error .truncated
  | expected :: more, c :: rest => if c = expected then keyword more rest else .error .malformed

/-! ## Characters of strings -/

def hexDigit? (c : Char) : Option Nat :=
  if '0' ≤ c ∧ c ≤ '9' then some (c.toNat - '0'.toNat)
  else if 'a' ≤ c ∧ c ≤ 'f' then some (c.toNat - 'a'.toNat + 10)
  else if 'A' ≤ c ∧ c ≤ 'F' then some (c.toNat - 'A'.toNat + 10)
  else none

/-- The code unit that four hexadecimal digits stand for. -/
def codeUnit? (a b c d : Char) : Option Nat := do
  let a ← hexDigit? a
  let b ← hexDigit? b
  let c ← hexDigit? c
  let d ← hexDigit? d
  return ((a * 16 + b) * 16 + c) * 16 + d

/-- The failure of an escape that has fewer than four characters left. Its four digits are looked
for as bytes, so a wide character may fill the places that are missing. -/
def shortEscape (rest : List Char) : Failure :=
  if rest.foldl (fun size c => size + c.utf8Size) 0 < 4 then .truncated else .malformed

/-- The character that a letter after a backslash stands for. -/
def plainEscape? : Char → Option Char
  | '"' => some '"'
  | '\\' => some '\\'
  | '/' => some '/'
  | 'b' => some '\x08'
  | 'f' => some '\x0c'
  | 'n' => some '\n'
  | 'r' => some '\r'
  | 't' => some '\t'
  | _ => none

def isControl (c : Char) : Bool := c.toNat < 0x20

def isLeading (unit : Nat) : Bool := 0xd800 ≤ unit && unit ≤ 0xdbff

def isTrailing (unit : Nat) : Bool := 0xdc00 ≤ unit && unit ≤ 0xdfff

/-- The character of a pair of surrogates. -/
def pairChar (leading trailing : Nat) : Char :=
  Char.ofNat (0x10000 + (leading - 0xd800) * 0x400 + (trailing - 0xdc00))

/-- Reads a string after its opening quote. Surrogates have to come in pairs: while `leading` waits
for its partner nothing but an escape may follow. -/
def readString (leading : Option Nat) : List Char → Except Failure (List Char × List Char)
  | [] => .error .truncated
  | ['\\'] => .error .truncated
  | '\\' :: 'u' :: rest =>
      match rest with
      | a :: b :: c :: d :: rest =>
          match codeUnit? a b c d, leading with
          | none, _ => .error .malformed
          | some unit, some high =>
              if isTrailing unit then
                (readString none rest).map fun (text, rest) => (pairChar high unit :: text, rest)
              else .error .malformed
          | some unit, none =>
              if isTrailing unit then .error .malformed
              else if isLeading unit then readString (some unit) rest
              else (readString none rest).map fun (text, rest) => (Char.ofNat unit :: text, rest)
      | short => .error (shortEscape short)
  | '\\' :: letter :: rest =>
      match plainEscape? letter, leading with
      | some c, none => (readString none rest).map fun (text, rest) => (c :: text, rest)
      | _, _ => .error .malformed
  | c :: rest =>
      if leading.isSome then .error .malformed
      else if c = '"' then .ok ([], rest)
      else if isControl c then .error .malformed
      else (readString none rest).map fun (text, rest) => (c :: text, rest)

/-- Passes over a string after its opening quote. Its escapes have to be well formed, but
surrogates may stand alone. -/
def skipString : List Char → Except Failure (List Char)
  | [] => .error .truncated
  | ['\\'] => .error .truncated
  | '\\' :: 'u' :: rest =>
      match rest with
      | a :: b :: c :: d :: rest =>
          if (codeUnit? a b c d).isSome then skipString rest else .error .malformed
      | short => .error (shortEscape short)
  | '\\' :: letter :: rest =>
      if (plainEscape? letter).isSome then skipString rest else .error .malformed
  | c :: rest =>
      if c = '"' then .ok rest
      else if isControl c then .error .malformed
      else skipString rest

end ByteMachine.Json
