import ByteMachine.Machine.Run

/-! Machines under the hands of a user: every operation as a command, and scripts of commands. What
a machine can come to be is what scripts make of a new one. -/

namespace ByteMachine

namespace Machine

inductive Command where
  | load (bytes : List UInt8)
  | poke (address : Nat) (value : UInt8)
  | peek (address : Nat)
  | register (index : Nat)
  | start
  | stop
  | tick
  | run
  | runUntil (ticks : Nat)
  | reset
  deriving DecidableEq, Repr

/-- What a command answers. -/
inductive Reply where
  | done
  | byte (value : UInt8)
  | number (value : Float)
  | state (state : Lifecycle)
  | fault (fault : Fault)
  deriving DecidableEq

namespace Reply

def ofUnit : Except Fault Unit → Reply
  | .ok () => done
  | .error f => fault f

def ofByte : Except Fault UInt8 → Reply
  | .ok b => byte b
  | .error f => fault f

def ofNumber : Except Fault Float → Reply
  | .ok x => number x
  | .error f => fault f

def ofState : Except Fault Lifecycle → Reply
  | .ok s => state s
  | .error f => fault f

end Reply

variable {κ : Type} [Console κ]

def perform (m : Machine κ) : Command → Outcome κ Reply
  | .load bytes => (m.load bytes).map Reply.ofUnit
  | .poke address value => (m.poke address value).map Reply.ofUnit
  | .peek address => ⟨Reply.ofByte (m.peek address), m, []⟩
  | .register index => ⟨Reply.ofNumber (m.register index), m, []⟩
  | .start => m.start.map fun _ => .done
  | .stop => ⟨.done, m.stop, []⟩
  | .tick => m.tick.map Reply.ofUnit
  | .run => m.run.map Reply.ofState
  | .runUntil ticks => (m.runUntil ticks).map Reply.ofState
  | .reset => ⟨.done, m.reset, []⟩

/-- Carries out commands one after the other; a fault does not stop the script. -/
def performAll (m : Machine κ) : List Command → Outcome κ (List Reply)
  | [] => ⟨[], m, []⟩
  | command :: rest =>
      let first := m.perform command
      ((first.machine.performAll rest).map (first.result :: ·)).after first.log

end Machine

end ByteMachine
