import ByteMachine.Number.Format

/-! Where printed values go. A console takes one value at a time and may refuse it with a reason;
it may change even when it refuses, as a text that was cut short shows. -/

namespace ByteMachine

class Console (κ : Type) where
  emit : κ → Float → Except String Unit × κ

/-! ## A list of values -/

/-- Refuses every value after the first `after` ones. -/
structure Refusal where
  after : Nat
  reason : String
  deriving DecidableEq, Repr

/-- Keeps what it was given, oldest first. -/
structure Recorder where
  values : List Float := []
  refusal : Option Refusal := none
  deriving DecidableEq

namespace Recorder

def emit (recorder : Recorder) (value : Float) : Except String Unit × Recorder :=
  let kept := { recorder with values := recorder.values ++ [value] }
  match recorder.refusal with
  | none => (.ok (), kept)
  | some refusal =>
      if recorder.values.length < refusal.after then (.ok (), kept)
      else (.error refusal.reason, recorder)

instance : Console Recorder := ⟨emit⟩

end Recorder

/-! ## A text of lines -/

/-- The text written so far. With `room` it never grows beyond that many characters, and with
`flushError` every flush fails. -/
structure Paper where
  text : List Char := []
  room : Option Nat := none
  flushError : Option String := none
  deriving DecidableEq

namespace Paper

/-- How many of `length` further characters fit. -/
def fitting (paper : Paper) (length : Nat) : Nat :=
  match paper.room with
  | none => length
  | some room => min length (room - paper.text.length)

/-- Writes as much as fits. -/
def write (paper : Paper) (piece : List Char) : Except String Unit × Paper :=
  let count := paper.fitting piece.length
  let paper := { paper with text := paper.text ++ piece.take count }
  if count < piece.length then (.error "failed to write whole buffer", paper) else (.ok (), paper)

def flush (paper : Paper) : Except String Unit :=
  match paper.flushError with
  | none => .ok ()
  | some reason => .error reason

/-- Writes a value on a line of its own and flushes. -/
def emit (paper : Paper) (value : Float) : Except String Unit × Paper :=
  match paper.write ((Number.text value).toList ++ ['\n']) with
  | (.error reason, paper) => (.error reason, paper)
  | (.ok (), paper) => (paper.flush, paper)

instance : Console Paper := ⟨emit⟩

end Paper

end ByteMachine
