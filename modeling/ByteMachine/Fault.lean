import ByteMachine.Text.Numeral

/-! The faults that end a run, as causes. The wording is kept in one function, so everything else
may compare faults without looking at text. A panic is no fault: it breaks off what is being done,
and nobody answers. -/

namespace ByteMachine

/-- Why a machine stopped for good. Addresses and indices are the rejected ones. -/
inductive Fault where
  | invalidInstruction (opcode : UInt8) (pc : Nat)
  | outOfBounds (address : Nat)
  | registerOutOfBounds (index : Nat)
  | divideByZero (pc : Nat)
  | output (pc : Nat) (reason : String)
  deriving DecidableEq, Repr

namespace Fault

def message : Fault → String
  | .invalidInstruction opcode pc =>
      s!"invalid instruction 0b{Text.binary opcode} at pc {pc}"
  | .outOfBounds address => s!"memory address {address} out of bounds"
  | .registerOutOfBounds index => s!"register index {index} out of bounds"
  | .divideByZero pc => s!"divide by zero at pc {pc}"
  | .output pc reason => s!"output failed at pc {pc}: {reason}"

end Fault

/-- Why a computation is broken off without an answer: the sum of two words is no word. -/
inductive Panic where
  | overflow
  deriving DecidableEq, Repr

namespace Panic

/-- The answer of a computation that is not broken off. -/
def excluded {α : Type} : (answer : Except Panic α) → answer.isOk = true → α
  | .ok value, _ => value
  | .error _, h => nomatch h

theorem ok_excluded {α : Type} {answer : Except Panic α} (h : answer.isOk = true) :
    .ok (excluded answer h) = answer := by
  cases answer with
  | ok value => rfl
  | error panic => cases h

end Panic

end ByteMachine
