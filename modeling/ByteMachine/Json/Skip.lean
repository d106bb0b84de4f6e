import ByteMachine.Json.Numeral

/-! Passing over a JSON value whose content does not matter. It has to be well formed; its depth,
the size of its numbers and the surrogates in its strings are not looked at. -/

namespace ByteMachine.Json

def readColon (text : List Char) : Except Failure (List Char) :=
  match skipBlanks text with
  | [] => .error .truncated
  | ':' :: rest => .ok rest
  | _ => .error .malformed

mutual

/-- Passes over one value. An opening bracket takes two steps, one for itself and one for what it
opens, so twice the length of the text is fuel enough. -/
def skipValue : Nat → List Char → Except Failure (List Char)
  | 0, _ => .error .truncated
  | fuel + 1, text =>
      match skipBlanks text with
      | [] => .error .truncated
      | 'n' :: rest => keyword ['u', 'l', 'l'] rest
      | 't' :: rest => keyword ['r', 'u', 'e'] rest
      | 'f' :: rest => keyword ['a', 'l', 's', 'e'] rest
      | '"' :: rest => skipString rest
      | '[' :: rest =>
          match skipBlanks rest with
          | ']' :: rest => .ok rest
          | rest => skipElements fuel rest
      | '{' :: rest =>
          match skipBlanks rest with
          | '}' :: rest => .ok rest
          | rest => skipMembers fuel rest
      | c :: rest =>
          if c = '-' || isDigit c then skipNumeral (c :: rest) else .error .malformed

/-- Passes over one or more elements and the closing bracket. -/
def skipElements : Nat → List Char → Except Failure (List Char)
  | 0, _ => .error .truncated
  | fuel + 1, text => do
      let rest ← skipValue fuel text
      match skipBlanks rest with
      | [] => .error .truncated
      | ',' :: rest => skipElements fuel rest
      | ']' :: rest => .ok rest
      | _ => .error .malformed

/-- Passes over one or more members and the closing brace. -/
def skipMembers : Nat → List Char → Except Failure (List Char)
  | 0, _ => .error .truncated
  | fuel + 1, text =>
      match skipBlanks text with
      | [] => .error .truncated
      | '"' :: rest => do
          let rest ← skipString rest
          let rest ← readColon rest
          let rest ← skipValue fuel rest
          match skipBlanks rest with
          | [] => .error .truncated
          | ',' :: rest => skipMembers fuel rest
          | '}' :: rest => .ok rest
          | _ => .error .malformed
      | _ => .error .malformed

end

/-- Passes over the value at the head of a text. -/
def skip (text : List Char) : Except Failure (List Char) := skipValue (2 * text.length + 1) text

end ByteMachine.Json
