/-! The four stages in the life of a machine. -/

namespace ByteMachine

/-- A machine waits, then runs, and ends by executing `HALT` or by a fault. -/
inductive Lifecycle where
  | idle
  | running
  | halted
  | faulted
  deriving DecidableEq, Repr

namespace Lifecycle

/-- The last two stages accept no further ticks. -/
def isTerminal : Lifecycle → Bool
  | idle | running => false
  | halted | faulted => true

def name : Lifecycle → String
  | idle => "idle"
  | running => "running"
  | halted => "halted"
  | faulted => "faulted"

end Lifecycle

end ByteMachine
