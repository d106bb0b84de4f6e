import ByteMachine.Machine.Run
import ByteMachine.Proofs.Isa.Fetch
import ByteMachine.Proofs.Number.Comparison

/-! One tick, said once. `Turn` lists what a tick does to a machine that has not ended: it faults,
it halts, or it carries out an instruction and moves past it. `turn_tick` is the only place where
the definition of a tick is taken apart by cases; invariants are proved from `Turn`. -/

namespace ByteMachine

/-! ## What an instruction does -/

namespace Instruction

/-- The current register after an instruction that completed. -/
def select (current : UInt8) : Instruction → UInt8
  | init => 0
  | set register => register
  | _ => current

/-- The value that an instruction puts into the current register. -/
def assigned? (regs : Registers) : Instruction → Option Float
  | save literal => some literal.toFloat
  | mul a b => some (regs.read a * regs.read b)
  | sub a b => some (regs.read a - regs.read b)
  | add a b => some (regs.read a + regs.read b)
  | div a b => some (regs.read a / regs.read b)
  | _ => none

/-- The registers after an instruction that completed. -/
def compute (regs : Registers) (current : UInt8) (inst : Instruction) : Registers :=
  match inst.assigned? regs with
  | some value => regs.write current value
  | none => regs

end Instruction

namespace Statistics

/-- The counts after a tick that completed an instruction. -/
def complete (stats : Statistics) (op : Opcode) : Statistics :=
  (if op = .prn then stats.countTick.countOutput else stats.countTick).record op

@[simp] theorem complete_ticks (stats : Statistics) (op : Opcode) :
    (stats.complete op).ticks = stats.ticks + 1 := by
  unfold complete
  split <;> rfl

@[simp] theorem complete_retired (stats : Statistics) (op : Opcode) :
    (stats.complete op).retired = stats.retired + 1 := by
  unfold complete
  split <;> rfl

@[simp] theorem complete_outputs (stats : Statistics) (op : Opcode) :
    (stats.complete op).outputs = stats.outputs + if op = .prn then 1 else 0 := by
  unfold complete
  split <;> rfl

@[simp] theorem complete_mix (stats : Statistics) (op : Opcode) :
    (stats.complete op).mix = stats.mix.add op := by
  unfold complete
  split <;> rfl

end Statistics

namespace Machine

variable {κ : Type} [Console κ]

/-- What the console answers to the current register. -/
def answer (m : Machine κ) : Except String Unit × κ :=
  Console.emit m.console (m.registers.read m.current)

/-- The console after an instruction was carried out. Only `PRN` reaches it. -/
def consoleAfter (m : Machine κ) : Instruction → κ
  | .prn => m.answer.2
  | _ => m.console

omit [Console κ] in
/-- Whether the tick that begins is the last one that the limit allows. -/
theorem limitReached_beginTick (m : Machine κ) : m.beginTick.limitReached =
    m.maxTicks.any fun limit => limit.toNat ≤ m.stats.ticks + 1 := by
  unfold limitReached beginTick
  cases m.maxTicks <;> rfl

omit [Console κ] in
theorem limitReached_of_none {m : Machine κ} (h : m.maxTicks = none) :
    m.beginTick.limitReached = false := by
  rw [limitReached_beginTick, h]
  rfl

/-- What an instruction needs to complete: a divisor other than zero, a console that accepts. -/
def Completes (m : Machine κ) : Instruction → Prop
  | .div _ b => (m.registers.read b == 0) = false
  | .prn => m.answer.1 = .ok ()
  | _ => True

/-- What executing an instruction does where there is an address behind it. -/
def stepPast (m : Machine κ) (inst : Instruction) : Outcome κ (Except Fault Unit) :=
  let applied := m.apply inst
  if applied.result.isOk && inst.opcode != .halt then
    { applied with machine := { applied.machine with pc := applied.machine.pc + inst.width } }
  else applied

theorem execute_eq_stepPast {m : Machine κ} {inst : Instruction}
    (h : m.pc + inst.width < addressSpace) : m.execute inst = (m.stepPast inst).map .ok := by
  unfold execute stepPast
  dsimp only
  split
  · next hmoves =>
    rw [advance, (apply_untouched m inst).pc, addressAfter_of_lt h]
    cases hresult : (m.apply inst).result with
    | ok done => simp [Outcome.after, Outcome.map]
    | error fault =>
      rw [hresult] at hmoves
      cases hmoves
  · rfl

/-- The part of a tick that is left when the instruction is known. -/
def carryOut (m : Machine κ) (inst : Instruction) : Outcome κ (Except Fault Unit) :=
  let executed := m.beginTick.stepPast inst
  match executed.result with
  | .error fault => (executed.machine.raise fault).after executed.log
  | .ok () => (executed.machine.endTick inst.opcode).after executed.log

/-- A tick reports the fetch and the instruction it fetched, and carries that one out. -/
theorem tick_of_fetched {m : Machine κ} (hs : m.state.isTerminal = false) {inst : Instruction}
    (hi : m.memory.instructionAt m.pc = .ok inst) :
    m.tick = (m.carryOut inst).after
      [.fetched m.pc inst.opcode.byte, .executing m.trace m.pc inst] := by
  have hl : m.fetchLog = [.fetched m.pc inst.opcode.byte] := by
    rw [fetchLog, Memory.read_of_instructionAt hi]
  have hend := Memory.add_width_le_of_instructionAt hi
  have he : m.beginTick.execute inst = (m.beginTick.stepPast inst).map .ok :=
    execute_eq_stepPast (show m.pc + inst.width < addressSpace by unfold addressSpace; omega)
  rw [tick_of_executed hs hi he, hl, carryOut]
  cases (m.beginTick.stepPast inst).result with
  | error fault => simp [Outcome.after]
  | ok done => simp [Outcome.after]

/-! ## Faults -/

/-- The five places where a tick can fault. -/
inductive FaultSite where
  | fetch
  | opcode
  | operand
  | divisor
  | output
  deriving DecidableEq, Repr

/-- The condition under which a tick faults at a place, and the fault it then names. -/
def FaultsAt (m : Machine κ) : FaultSite → Fault → Prop
  | .fetch, fault => m.pc = 256 ∧ fault = .outOfBounds 256
  | .opcode, fault => ∃ byte, m.memory.read m.pc = .ok byte ∧ Opcode.ofByte? byte = none ∧
      fault = .invalidInstruction byte m.pc
  | .operand, fault => ∃ byte op, m.memory.read m.pc = .ok byte ∧
      Opcode.ofByte? byte = some op ∧ 256 < m.pc + op.width ∧ fault = .outOfBounds 256
  | .divisor, fault => ∃ a b, (Instruction.div a b).encode <+: m.memory.toList.drop m.pc ∧
      (∃ negative, Number.Reading.ofFloat (m.registers.read b) = .zero negative) ∧
      fault = .divideByZero m.pc
  | .output, fault => ∃ reason, Instruction.prn.encode <+: m.memory.toList.drop m.pc ∧
      m.answer.1 = .error reason ∧ fault = .output m.pc reason

/-- Where nothing can be fetched, the fetch itself, the opcode or an operand is at fault. -/
theorem faultsAt_of_instructionAt {m : Machine κ} (hpc : m.pc ≤ 256) {fault : Fault}
    (hi : m.memory.instructionAt m.pc = .error fault) :
    ∃ site, site ≠ .output ∧ m.FaultsAt site fault := by
  rw [Memory.instructionAt_eq_fetch] at hi
  cases hbytes : m.memory.toList.drop m.pc with
  | nil =>
    have hend : 256 ≤ m.pc := by
      simpa [Memory.length_toList] using List.drop_eq_nil_iff.mp hbytes
    have he : m.pc = 256 := by omega
    rw [hbytes, he] at hi
    cases hi
    exact ⟨.fetch, by decide, he, rfl⟩
  | cons byte rest =>
    have hread := Memory.read_eq_ok_of_drop hbytes
    have hlen := Memory.add_length_of_drop hbytes
    rw [hbytes] at hi
    cases hop : Opcode.ofByte? byte with
    | none =>
      have hn := Instruction.ofBytes?_eq_none_of_unregistered rest hop
      simp only [Instruction.fetch, hn, hop] at hi
      cases hi
      exact ⟨.opcode, by decide, byte, hread, hop, rfl⟩
    | some op =>
      cases hn : Instruction.ofBytes? (byte :: rest) with
      | some inst => simp [Instruction.fetch, hn] at hi
      | none =>
        have hw := (Instruction.ofBytes?_eq_none_iff hop).mp hn
        simp only [Instruction.fetch, hn, hop] at hi
        cases hi
        exact ⟨.operand, by decide, byte, op, hread, hop, by omega, rfl⟩

/-! ## Execution -/

/-- An instruction that completes, other than `HALT`, leaves the machine behind it. -/
theorem stepPast_of_completes {m : Machine κ} {inst : Instruction} (hne : inst ≠ .halt)
    (hc : m.Completes inst) : m.stepPast inst = ⟨.ok (), { m with
      registers := inst.compute m.registers m.current
      pc := m.pc + inst.width
      current := inst.select m.current
      console := m.consoleAfter inst
      stats := if inst.opcode = .prn then m.stats.countOutput else m.stats }, []⟩ := by
  cases inst with
  | halt => exact absurd rfl hne
  | init | set _ | save _ | mul _ _ | sub _ _ | add _ _ => rfl
  | div a b =>
    have hz : (m.registers.read b == 0) = false := hc
    simp only [stepPast, apply, hz]
    rfl
  | prn =>
    have ha : Console.emit m.console (m.registers.read m.current) = (.ok (), m.answer.2) :=
      Prod.ext hc rfl
    simp only [stepPast, apply, print, ha]
    rfl

/-- Only a division by zero and a refused value keep an instruction from completing; neither moves
anything but the console. -/
theorem stepPast_of_not_completes {m : Machine κ} {inst : Instruction}
    (hc : ¬m.Completes inst) :
    (∃ a b, inst = .div a b ∧ (m.registers.read b == 0) = true ∧
      m.stepPast inst = ⟨.error (.divideByZero m.pc), m, []⟩) ∨
    (∃ reason, inst = .prn ∧ m.answer.1 = .error reason ∧
      m.stepPast inst =
        ⟨.error (.output m.pc reason), { m with console := m.answer.2 }, []⟩) := by
  cases inst with
  | halt | init | set _ | save _ | mul _ _ | sub _ _ | add _ _ => exact absurd trivial hc
  | div a b =>
    have hz : (m.registers.read b == 0) = true := eq_true_of_ne_false hc
    refine .inl ⟨a, b, rfl, hz, ?_⟩
    simp only [stepPast, apply, hz]
    rfl
  | prn =>
    cases hr : m.answer.1 with
    | ok done => exact absurd hr hc
    | error reason =>
      have ha : Console.emit m.console (m.registers.read m.current) = (.error reason, m.answer.2) :=
        Prod.ext hr rfl
      refine .inr ⟨reason, rfl, rfl, ?_⟩
      simp only [stepPast, apply, print, ha]
      rfl

omit [Console κ] in
theorem endTick_machine {m : Machine κ} (hs : m.state = .running) (op : Opcode) :
    (m.endTick op).machine = { m with
      stats := m.stats.record op
      clock := if m.limitReached then m.clock.stop else m.clock } := by
  have hl : ({ m with stats := m.stats.record op : Machine κ }.limitReached &&
      !m.state.isTerminal) = m.limitReached := by
    rw [hs]
    exact Bool.and_true _
  unfold endTick
  dsimp only
  rw [hl]
  split <;> rfl

omit [Console κ] in
theorem endTick_result (m : Machine κ) (op : Opcode) : (m.endTick op).result = .ok () := by
  unfold endTick
  dsimp only
  split <;> rfl

/-! ## Turns -/

/-- What a tick does to a machine that has not ended. A fault keeps everything that the program
can see; a refused value still went to the console. -/
inductive Turn (m : Machine κ) : Except Fault Unit → Machine κ → Prop
  | faulted {site : FaultSite} {fault : Fault} (cause : m.FaultsAt site fault) :
      Turn m (.error fault) { m with
        console := if site = .output then m.answer.2 else m.console
        stats := m.stats.countTick
        clock := m.clock.stop
        state := .faulted
        fault := some fault }
  | halted (fetched : m.memory.instructionAt m.pc = .ok .halt) :
      Turn m (.ok ()) { m with
        stats := m.stats.complete .halt
        clock := m.clock.stop
        state := .halted }
  | advanced {inst : Instruction} (fetched : m.memory.instructionAt m.pc = .ok inst)
      (running : inst ≠ .halt) (completes : m.Completes inst) :
      Turn m (.ok ()) { m with
        registers := inst.compute m.registers m.current
        pc := m.pc + inst.width
        current := inst.select m.current
        console := m.consoleAfter inst
        stats := m.stats.complete inst.opcode
        clock := if m.beginTick.limitReached then m.clock.stop else m.clock
        state := .running }

theorem Turn.of_error {m m' : Machine κ} {fault : Fault} (h : Turn m (.error fault) m') :
    ∃ site, m.FaultsAt site fault ∧ m' = { m with
      console := if site = .output then m.answer.2 else m.console
      stats := m.stats.countTick
      clock := m.clock.stop
      state := .faulted
      fault := some fault } := by
  cases h with
  | faulted cause => exact ⟨_, cause, rfl⟩

theorem Turn.of_ok {m m' : Machine κ} (h : Turn m (.ok ()) m') :
    (m.memory.instructionAt m.pc = .ok .halt ∧ m' = { m with
      stats := m.stats.complete .halt
      clock := m.clock.stop
      state := .halted }) ∨
    ∃ inst, m.memory.instructionAt m.pc = .ok inst ∧ inst ≠ .halt ∧ m.Completes inst ∧ m' = { m with
      registers := inst.compute m.registers m.current
      pc := m.pc + inst.width
      current := inst.select m.current
      console := m.consoleAfter inst
      stats := m.stats.complete inst.opcode
      clock := if m.beginTick.limitReached then m.clock.stop else m.clock
      state := .running } := by
  cases h with
  | halted fetched => exact .inl ⟨fetched, rfl⟩
  | advanced fetched running completes => exact .inr ⟨_, fetched, running, completes, rfl⟩

private theorem turn_halt {m : Machine κ} (hi : m.memory.instructionAt m.pc = .ok .halt) :
    Turn m (m.carryOut .halt).result (m.carryOut .halt).machine := by
  have h := Turn.halted hi
  simpa [carryOut, stepPast, apply, halt, endTick, beginTick, Lifecycle.isTerminal, Outcome.after,
    Outcome.map, Statistics.complete, Instruction.opcode] using h

private theorem turn_advance {m : Machine κ} {inst : Instruction}
    (hi : m.memory.instructionAt m.pc = .ok inst) (hne : inst ≠ .halt) (hc : m.Completes inst) :
    Turn m (m.carryOut inst).result (m.carryOut inst).machine := by
  have hcb : m.beginTick.Completes inst := hc
  have hx := stepPast_of_completes hne hcb
  have hs : (m.beginTick.stepPast inst).machine.state = .running := by rw [hx]; rfl
  have hl : (m.beginTick.stepPast inst).machine.limitReached = m.beginTick.limitReached := by
    rw [hx]
    by_cases hp : inst.opcode = .prn
    · rw [if_pos hp]
      rfl
    · rw [if_neg hp]
      rfl
  have h := Turn.advanced hi hne hc
  simp only [carryOut, hx, Outcome.after, endTick_result]
  rw [hx] at hs hl
  rw [endTick_machine hs, hl]
  exact h

private theorem turn_refuse {m : Machine κ} {inst : Instruction}
    (hi : m.memory.instructionAt m.pc = .ok inst) (hc : ¬m.Completes inst) :
    Turn m (m.carryOut inst).result (m.carryOut inst).machine := by
  have hp := Memory.instructionAt_eq_ok_iff.mp hi
  have hcb : ¬m.beginTick.Completes inst := hc
  rcases stepPast_of_not_completes hcb with ⟨a, b, rfl, hz, hx⟩ | ⟨reason, rfl, ha, hx⟩
  · have hs : m.FaultsAt .divisor (.divideByZero m.pc) :=
      ⟨a, b, hp, (Number.beq_zero_iff _).mp hz, rfl⟩
    simp only [carryOut, hx, Outcome.after]
    exact Turn.faulted hs
  · have hs : m.FaultsAt .output (.output m.pc reason) := ⟨reason, hp, ha, rfl⟩
    simp only [carryOut, hx, Outcome.after]
    exact Turn.faulted hs

/-- A tick of a machine that has not ended takes one of the turns. -/
theorem turn_tick {m : Machine κ} (hs : m.state.isTerminal = false) (hpc : m.pc ≤ 256) :
    Turn m m.tick.result m.tick.machine := by
  cases hi : m.memory.instructionAt m.pc with
  | error fault =>
    obtain ⟨site, hne, hsite⟩ := faultsAt_of_instructionAt hpc hi
    have h := Turn.faulted hsite
    rw [if_neg hne] at h
    rw [tick_of_error hs hi]
    exact h
  | ok inst =>
    rw [tick_of_fetched hs hi]
    change Turn m (m.carryOut inst).result (m.carryOut inst).machine
    by_cases hc : m.Completes inst
    · by_cases hne : inst = .halt
      · subst hne
        exact turn_halt hi
      · exact turn_advance hi hne hc
    · exact turn_refuse hi hc

/-- A tick that succeeds found an instruction, so the program counter was within memory. -/
theorem turn_ok {m : Machine κ} (hs : m.state.isTerminal = false) (ht : m.tick.result = .ok ()) :
    Turn m (.ok ()) m.tick.machine := by
  have hpc : m.pc ≤ 256 := by
    cases hi : m.memory.instructionAt m.pc with
    | error fault =>
      rw [tick_of_error hs hi] at ht
      cases ht
    | ok inst => exact Nat.le_of_lt (Memory.pc_lt_of_instructionAt hi)
  exact ht ▸ turn_tick hs hpc

/-- A fault ends the machine and is kept in it, also when the program counter had left memory. -/
theorem tick_fault {m : Machine κ} (hs : m.state.isTerminal = false) {fault : Fault}
    (ht : m.tick.result = .error fault) : m.tick.machine = { m with
      console := m.tick.machine.console
      stats := m.stats.countTick
      clock := m.clock.stop
      state := .faulted
      fault := some fault } := by
  cases hi : m.memory.instructionAt m.pc with
  | error cause =>
    rw [tick_of_error hs hi] at ht ⊢
    cases ht
    rfl
  | ok inst =>
    have hturn := turn_tick hs (Nat.le_of_lt (Memory.pc_lt_of_instructionAt hi))
    rw [ht] at hturn
    obtain ⟨_, _, hm⟩ := hturn.of_error
    rw [hm]

theorem tick_failed {m : Machine κ} (hs : m.state.isTerminal = false) {fault : Fault}
    (ht : m.tick.result = .error fault) :
    m.tick.machine.state = .faulted ∧ m.tick.machine.clock = m.clock.stop := by
  rw [tick_fault hs ht]
  exact ⟨rfl, rfl⟩

/-! ## Several ticks -/

/-- A run is over where no tick is due or the machine has ended. -/
theorem drive_of_rest {m : Machine κ}
    (h : ¬(m.clock.tickDue = true ∧ m.state.isTerminal = false)) :
    m.drive = ⟨.ok m.state, m, []⟩ := by
  rw [drive, dif_neg h]

theorem drive_of_error {m : Machine κ} (h : m.clock.tickDue = true ∧ m.state.isTerminal = false)
    {fault : Fault} (ht : m.tick.result = .error fault) :
    m.drive = ⟨.error fault, m.tick.machine, m.waitLog ++ m.tick.log⟩ := by
  rw [drive, dif_pos h]
  split
  · rename_i hf
    rw [ht] at hf
    cases hf
    rfl
  · rename_i hf
    rw [ht] at hf
    cases hf

theorem drive_of_ok {m : Machine κ} (h : m.clock.tickDue = true ∧ m.state.isTerminal = false)
    (ht : m.tick.result = .ok ()) :
    m.drive = m.tick.machine.drive.after (m.waitLog ++ m.tick.log) := by
  rw [drive, dif_pos h]
  split
  · rename_i hf
    rw [ht] at hf
    cases hf
  · rfl

/-- The machine after a number of ticks. -/
def ticked (m : Machine κ) : Nat → Machine κ
  | 0 => m
  | n + 1 => (m.ticked n).tick.machine

end Machine

end ByteMachine
