import ByteMachine.Machine.Basic
import ByteMachine.Text.Quoted

/-! Two views of a machine as text: the dump shown after a fault and the one-line description with
named fields. -/

namespace ByteMachine

/-- A fault as a record with named fields. -/
def Fault.describe : Fault → String
  | .invalidInstruction opcode pc =>
      "InvalidInstruction \x7b opcode: " ++ toString opcode.toNat ++ ", pc: " ++ toString pc ++
        " \x7d"
  | .outOfBounds address => "OutOfBounds \x7b address: " ++ toString address ++ " \x7d"
  | .registerOutOfBounds index => "RegisterOutOfBounds \x7b index: " ++ toString index ++ " \x7d"
  | .divideByZero pc => "DivideByZero \x7b pc: " ++ toString pc ++ " \x7d"
  | .output pc reason =>
      "Output \x7b pc: " ++ toString pc ++ ", reason: " ++ Text.quoted reason ++ " \x7d"

def Lifecycle.title : Lifecycle → String
  | .idle => "Idle"
  | .running => "Running"
  | .halted => "Halted"
  | .faulted => "Faulted"

/-- A clock as a record; of its deadline only the presence is shown. -/
def Clock.describe (clock : Clock) : String :=
  let deadline := if clock.armed then "Some(_)" else "None"
  "Clock \x7b interval: " ++ Period.text clock.interval ++ ", running: " ++
    toString clock.running ++ ", next_deadline: " ++ deadline ++ " \x7d"

namespace Machine

variable {κ : Type}

/-- Program counter, current register and stage, then the registers that are not zero. -/
def dump (m : Machine κ) : List String :=
  let pc := s!"PC = {m.pc} (0x{Text.hexadecimal m.pc})"
  s!"{pc}  CUR = R{m.current.toNat}  STATE = {m.state.name}" :: m.registers.dump

def describe (m : Machine κ) : String :=
  let fault :=
    match m.fault with
    | none => "None"
    | some fault => s!"Some({fault.describe})"
  "Machine \x7b pc: " ++ toString m.pc ++ ", current_register: " ++ toString m.current.toNat ++
    ", state: " ++ m.state.title ++ ", clock: " ++ m.clock.describe ++ ", last_fault: " ++ fault ++
    ", .. \x7d"

end Machine

end ByteMachine
