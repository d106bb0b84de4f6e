import ByteMachine.Console
import ByteMachine.Event
import ByteMachine.Registers
import ByteMachine.Statistics

/-! The machine and its single operations. An operation answers a result, the machine it leaves and
the events it reports; a fault is a result like any other, so the machine after a fault can be
looked at. -/

namespace ByteMachine

/-- A machine that prints to a console of type `κ`. -/
structure Machine (κ : Type) where
  memory : Memory := Memory.zero
  registers : Registers := Registers.zero
  pc : Nat := 0
  /-- The register that `SAVE`, the arithmetic instructions and `PRN` work on. -/
  current : UInt8 := 0
  console : κ
  stats : Statistics := {}
  clock : Clock
  state : Lifecycle := .idle
  /-- Report executed instructions at the level of ordinary information. -/
  trace : Bool := false
  maxTicks : Option UInt64 := none
  /-- The fault that ended the run. -/
  fault : Option Fault := none
  deriving DecidableEq

/-- What an operation answers, leaves behind and reports. -/
structure Outcome (κ α : Type) where
  result : α
  machine : Machine κ
  log : List Event := []

namespace Outcome

variable {κ α β : Type}

/-- The same outcome, with earlier events in front. -/
def after (outcome : Outcome κ α) (log : List Event) : Outcome κ α :=
  { outcome with log := log ++ outcome.log }

def map (f : α → β) (outcome : Outcome κ α) : Outcome κ β :=
  ⟨f outcome.result, outcome.machine, outcome.log⟩

/-- The outcome of an operation that is not broken off. -/
def unbroken (outcome : Outcome κ (Except Panic α)) (h : outcome.result.isOk = true) :
    Outcome κ α :=
  ⟨Panic.excluded outcome.result h, outcome.machine, outcome.log⟩

theorem unbroken_map {outcome : Outcome κ α} (h : (outcome.map Except.ok).result.isOk = true) :
    (outcome.map Except.ok).unbroken h = outcome := rfl

theorem map_unbroken {outcome : Outcome κ (Except Panic α)} (h : outcome.result.isOk = true) :
    (outcome.unbroken h).map .ok = outcome := by
  rw [map, unbroken, Panic.ok_excluded]

end Outcome

namespace Machine

variable {κ : Type}

/-- A new machine: memory and registers are zero and the clock has not been started. -/
def create (config : Config) (console : κ) : Machine κ where
  console := console
  clock := { interval := config.clock.intervalMs }
  trace := config.general.traceInstructions
  maxTicks := config.general.maxTicks

/-! ## Memory and registers from outside -/

def poke (m : Machine κ) (address : Nat) (value : UInt8) : Outcome κ (Except Fault Unit) :=
  match m.memory.write address value with
  | .error fault => ⟨.error fault, m, []⟩
  | .ok memory => ⟨.ok (), { m with memory }, []⟩

def peek (m : Machine κ) (address : Nat) : Except Fault UInt8 := m.memory.read address

def register (m : Machine κ) (index : Nat) : Except Fault Float := m.registers.get index

/-- Copies a program to address 0. -/
def load (m : Machine κ) (bytes : List UInt8) : Outcome κ (Except Fault Unit) :=
  match m.memory.load 0 bytes with
  | .error fault => ⟨.error fault, m, []⟩
  | .ok memory => ⟨.ok (), { m with memory }, [.programLoaded bytes.length]⟩

/-! ## Clock and lifecycle -/

/-- Starts the clock. A machine that has ended stays as it is. -/
def start (m : Machine κ) : Outcome κ Unit :=
  if m.state.isTerminal then ⟨(), m, [.startIgnored m.state]⟩
  else
    ⟨(), { m with state := .running, clock := m.clock.start },
      [.clockStarted m.clock.interval m.pc]⟩

/-- Stops the clock and changes nothing else. -/
def stop (m : Machine κ) : Machine κ := { m with clock := m.clock.stop }

/-- Everything but memory, console and settings as in a new machine. -/
def reset (m : Machine κ) : Machine κ :=
  { m with
    registers := Registers.zero
    pc := 0
    current := 0
    stats := {}
    clock := m.clock.stop
    state := .idle
    fault := none }

def halt (m : Machine κ) : Outcome κ Unit :=
  ⟨(), { m with clock := m.clock.stop, state := .halted }, [.halted m.pc m.stats.ticks]⟩

/-- Ends the run by a fault. -/
def raise (m : Machine κ) (fault : Fault) : Outcome κ (Except Fault Unit) :=
  ⟨.error fault, { m with clock := m.clock.stop, state := .faulted, fault := some fault },
    [.faulted m.pc fault]⟩

/-! ## One instruction -/

/-- Moves the program counter past an instruction. -/
def advance (m : Machine κ) (inst : Instruction) : Outcome κ (Except Panic (Except Fault Unit)) :=
  match addressAfter m.pc inst.width with
  | .error panic => ⟨.error panic, m, []⟩
  | .ok pc => ⟨.ok (.ok ()), { m with pc }, []⟩

/-- Puts a value into the current register. -/
def assign (m : Machine κ) (value : Float) : Machine κ :=
  { m with registers := m.registers.write m.current value }

/-- Prints the current register. A refusal is a fault. -/
def print [Console κ] (m : Machine κ) : Outcome κ (Except Fault Unit) :=
  match Console.emit m.console (m.registers.read m.current) with
  | (.error reason, console) => ⟨.error (.output m.pc reason), { m with console }, []⟩
  | (.ok (), console) => ⟨.ok (), { m with console, stats := m.stats.countOutput }, []⟩

/-- What an instruction does where it stands. All operands are read before the current register is
written. -/
def apply [Console κ] (m : Machine κ) (inst : Instruction) : Outcome κ (Except Fault Unit) :=
  let value := fun index => m.registers.read index
  match inst with
  | .init => ⟨.ok (), { m with current := 0 }, []⟩
  | .set register => ⟨.ok (), { m with current := register }, []⟩
  | .save literal => ⟨.ok (), m.assign literal.toFloat, []⟩
  | .mul a b => ⟨.ok (), m.assign (value a * value b), []⟩
  | .sub a b => ⟨.ok (), m.assign (value a - value b), []⟩
  | .add a b => ⟨.ok (), m.assign (value a + value b), []⟩
  | .div a b =>
      if value b == 0 then ⟨.error (.divideByZero m.pc), m, []⟩
      else ⟨.ok (), m.assign (value a / value b), []⟩
  | .prn => m.print
  | .halt => m.halt.map .ok

/-- Applies an instruction to the machine, without a tick. Then the machine moves past it, unless
it was `HALT` or did not complete. -/
def execute [Console κ] (m : Machine κ) (inst : Instruction) :
    Outcome κ (Except Panic (Except Fault Unit)) :=
  let applied := m.apply inst
  if applied.result.isOk && inst.opcode != .halt then
    (applied.machine.advance inst).after applied.log
  else applied.map .ok

/-- What no instruction touches where it stands. -/
structure Untouched (m left : Machine κ) : Prop where
  memory : left.memory = m.memory
  pc : left.pc = m.pc
  maxTicks : left.maxTicks = m.maxTicks
  ticks : left.stats.ticks = m.stats.ticks

theorem apply_untouched [Console κ] (m : Machine κ) (inst : Instruction) :
    Untouched m (m.apply inst).machine := by
  cases inst with
  | halt | init | set _ | save _ | mul _ _ | sub _ _ | add _ _ => exact ⟨rfl, rfl, rfl, rfl⟩
  | div a b =>
    simp only [apply]
    split <;> exact ⟨rfl, rfl, rfl, rfl⟩
  | prn =>
    simp only [apply, print]
    split <;> exact ⟨rfl, rfl, rfl, rfl⟩

/-- An instruction that was fetched lies in memory, so there is an address behind it. -/
theorem isOk_execute [Console κ] {m : Machine κ} {inst : Instruction}
    (h : m.memory.instructionAt m.pc = .ok inst) : (m.execute inst).result.isOk = true := by
  have hpc := Memory.pc_lt_of_instructionAt h
  have hwidth : inst.width ≤ 3 := inst.opcode.width_le
  have hnext := addressAfter_of_lt (show m.pc + inst.width < addressSpace by
    unfold addressSpace
    omega)
  unfold execute
  dsimp only
  split
  · rw [advance, (apply_untouched m inst).pc, hnext]
    rfl
  · rfl

/-! ## One tick -/

/-- The tick is counted and the machine runs, whether or not its clock does. -/
def beginTick (m : Machine κ) : Machine κ :=
  { m with state := .running, stats := m.stats.countTick }

/-- A fetch is reported when there is a byte at the program counter. -/
def fetchLog (m : Machine κ) : List Event :=
  match m.memory.read m.pc with
  | .error _ => []
  | .ok byte => [.fetched m.pc byte]

/-- Whether as many ticks were counted as the settings allow. -/
def limitReached (m : Machine κ) : Bool :=
  match m.maxTicks with
  | none => false
  | some limit => limit.toNat ≤ m.stats.ticks

/-- Counts an instruction that ran to its end and stops the clock at the tick limit. -/
def endTick (m : Machine κ) (op : Opcode) : Outcome κ (Except Fault Unit) :=
  let m := { m with stats := m.stats.record op }
  if m.limitReached && !m.state.isTerminal then ⟨.ok (), m.stop, [.limitReached m.stats.ticks]⟩
  else ⟨.ok (), m, []⟩

/-- Fetches, decodes and executes one instruction. A machine that has ended refuses the tick; an
idle one begins to run, but its clock stays as it is. -/
def tick [Console κ] (m : Machine κ) : Outcome κ (Except Fault Unit) :=
  if m.state.isTerminal then ⟨.ok (), m, [.tickRefused m.state]⟩
  else
    let begun := m.beginTick
    match hfetched : begun.memory.instructionAt begun.pc with
    | .error fault => (begun.raise fault).after begun.fetchLog
    | .ok inst =>
        let executed := (begun.execute inst).unbroken (isOk_execute hfetched)
        let log := begun.fetchLog ++ [.executing m.trace m.pc inst] ++ executed.log
        match executed.result with
        | .error fault => (executed.machine.raise fault).after log
        | .ok () => (executed.machine.endTick inst.opcode).after log

theorem tick_of_terminal [Console κ] {m : Machine κ} (hs : m.state.isTerminal = true) :
    m.tick = ⟨.ok (), m, [.tickRefused m.state]⟩ := by
  simp [tick, hs]

theorem tick_of_error [Console κ] {m : Machine κ} (hs : m.state.isTerminal = false) {fault : Fault}
    (hi : m.memory.instructionAt m.pc = .error fault) :
    m.tick = (m.beginTick.raise fault).after m.fetchLog := by
  simp only [tick, hs, Bool.false_eq_true, if_false]
  split
  · next _ hfetched =>
    cases hfetched.symm.trans hi
    rfl
  · next _ hfetched => cases hfetched.symm.trans hi

/-- A tick goes on from what executing the fetched instruction leaves. -/
theorem tick_of_executed [Console κ] {m : Machine κ} (hs : m.state.isTerminal = false)
    {inst : Instruction} (hi : m.memory.instructionAt m.pc = .ok inst)
    {executed : Outcome κ (Except Fault Unit)}
    (he : m.beginTick.execute inst = executed.map .ok) :
    m.tick = (match executed.result with
      | .error fault => executed.machine.raise fault
      | .ok () => executed.machine.endTick inst.opcode).after
        (m.fetchLog ++ [Event.executing m.trace m.pc inst] ++ executed.log) := by
  simp only [tick, hs, Bool.false_eq_true, if_false]
  split
  · next _ hfetched => cases hfetched.symm.trans hi
  · next _ hfetched =>
    cases hfetched.symm.trans hi
    simp only [he, Outcome.unbroken_map]
    cases executed.result <;> rfl

end Machine

end ByteMachine
