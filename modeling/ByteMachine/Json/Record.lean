import ByteMachine.Json.Skip

/-! Records with named fields. A record is written as an object, whose members come in any order
and may have unknown names, or as an array of its first fields in their order. Fields that are not
written keep their values. -/

namespace ByteMachine.Json

/-- Reads a value from where the text stands and answers what follows it. -/
abbrev Reader (α : Type) := List Char → Except Failure (α × List Char)

/-! ## Single values -/

/-- The failure of a value that is read to its end and then is of the wrong kind. -/
def misplaced {α : Type} : Except Failure α → Failure
  | .error failure => failure
  | .ok _ => .mismatch

/-- The failure of finding another kind of value. An array or object is not looked into. -/
def wrongKind : List Char → Failure
  | [] => .truncated
  | 'n' :: rest => misplaced (keyword ['u', 'l', 'l'] rest)
  | 't' :: rest => misplaced (keyword ['r', 'u', 'e'] rest)
  | 'f' :: rest => misplaced (keyword ['a', 'l', 's', 'e'] rest)
  | '"' :: rest => misplaced (readString none rest)
  | '[' :: _ => .mismatch
  | '{' :: _ => .mismatch
  | c :: rest => if c = '-' || isDigit c then misplaced (readNumeral (c :: rest)) else .malformed

def readBool : Reader Bool := fun text =>
  match skipBlanks text with
  | 't' :: rest => (keyword ['r', 'u', 'e'] rest).map fun rest => (true, rest)
  | 'f' :: rest => (keyword ['a', 'l', 's', 'e'] rest).map fun rest => (false, rest)
  | other => .error (wrongKind other)

/-- Reads a natural number of 64 bits. -/
def readNatural : Reader UInt64 := fun text =>
  match skipBlanks text with
  | c :: rest =>
      if c = '-' || isDigit c then do
        let (numeral, rest) ← readNumeral (c :: rest)
        match numeral.natural? with
        | some n => .ok (n, rest)
        | none => .error .mismatch
      else .error (wrongKind (c :: rest))
  | [] => .error .truncated

/-- Reads `null` or a value. -/
def readOptional {α : Type} (read : Reader α) : Reader (Option α) := fun text =>
  match skipBlanks text with
  | 'n' :: rest => (keyword ['u', 'l', 'l'] rest).map fun rest => (none, rest)
  | other => (read other).map fun (value, rest) => (some value, rest)

/-! ## Fields -/

/-- A named part of a record, read into it. -/
structure RecordField (ρ : Type) where
  name : String
  read : ρ → Reader ρ

/-- A field from a reader of its value. -/
def RecordField.of {ρ α : Type} (name : String) (read : Reader α) (put : ρ → α → ρ) :
    RecordField ρ where
  name := name
  read := fun record text => (read text).map fun (value, rest) => (put record value, rest)

/-- Reads elements into the fields in order. After the last field only the bracket may follow. -/
def readElements {ρ : Type} (first : Bool) (record : ρ) : List (RecordField ρ) → Reader ρ
  | [], text =>
      match skipBlanks text with
      | [] => .error .truncated
      | ']' :: rest => .ok (record, rest)
      | _ => .error .malformed
  | field :: fields, text =>
      match skipBlanks text with
      | [] => .error .truncated
      | ']' :: rest => .ok (record, rest)
      | c :: rest =>
          if first then do
            let (record, rest) ← field.read record (c :: rest)
            readElements false record fields rest
          else if c = ',' then
            match skipBlanks rest with
            | [] => .error .truncated
            | ']' :: _ => .error .malformed
            | rest => do
                let (record, rest) ← field.read record rest
                readElements false record fields rest
          else .error .malformed

/-- The text of the next member after the comma that separates it, or the end of the object. -/
def nextMember (first : Bool) (text : List Char) :
    Except Failure (List Char ⊕ List Char) :=
  match skipBlanks text with
  | [] => .error .truncated
  | '}' :: rest => .ok (.inr rest)
  | c :: rest =>
      if first then .ok (.inl (c :: rest))
      else if c = ',' then
        match skipBlanks rest with
        | [] => .error .truncated
        | rest => .ok (.inl rest)
      else .error .malformed

/-- Reads the name of a member. -/
def readName : Reader (List Char)
  | '"' :: rest => readString none rest
  | _ => .error .malformed

/-- Reads members into their fields. A field that comes twice is refused as soon as its name is
read; a member without a field is passed over. Every member takes a character, so the length of the
text is fuel enough. -/
def readMembers {ρ : Type} (fields : List (RecordField ρ)) :
    Nat → Bool → List String → ρ → Reader ρ
  | 0, _, _, _, _ => .error .truncated
  | fuel + 1, first, seen, record, text => do
      match ← nextMember first text with
      | .inr rest => .ok (record, rest)
      | .inl text =>
          let (name, rest) ← readName text
          let name := String.ofList name
          match fields.find? (·.name == name) with
          | none =>
              let rest ← readColon rest
              let rest ← skip rest
              readMembers fields fuel false seen record rest
          | some field =>
              if seen.contains name then .error .mismatch
              else
                let rest ← readColon rest
                let (record, rest) ← field.read record rest
                readMembers fields fuel false (name :: seen) record rest

/-- Reads a record, starting from the values it has when nothing is written. -/
def readRecord {ρ : Type} (fields : List (RecordField ρ)) (initial : ρ) : Reader ρ := fun text =>
  match skipBlanks text with
  | [] => .error .truncated
  | '[' :: rest => readElements true initial fields rest
  | '{' :: rest => readMembers fields (rest.length + 1) true [] initial rest
  | other => .error (wrongKind other)

/-- Reads a text that holds one value and nothing after it. -/
def readDocument {α : Type} (read : Reader α) (text : String) : Except Failure α := do
  let (value, rest) ← read text.toList
  if (skipBlanks rest).isEmpty then .ok value else .error .malformed

end ByteMachine.Json
