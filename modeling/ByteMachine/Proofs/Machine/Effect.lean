import ByteMachine.Proofs.Isa.Operands
import ByteMachine.Proofs.Machine.Steps

/-! What a tick changes and what it leaves alone. A tick that succeeds has the effect of the
instruction it found, moves past it and counts it, and does nothing else. So memory and every
register that nothing is put into are the same after any number of ticks. -/

namespace ByteMachine

/-- Fetching reads the operands off the bytes after the opcode byte. -/
theorem Memory.operands_of_instructionAt {mem : Memory} {pc : Nat} {inst : Instruction}
    (h : mem.instructionAt pc = .ok inst) :
    inst.operands = (List.range' (pc + 1) (inst.opcode.width - 1)).map mem.byteAt := by
  have hfits : pc + inst.opcode.width ≤ 256 := add_width_le_of_instructionAt h
  have hwidth := inst.opcode.width_pos
  obtain ⟨other, hdecode, _, hoperands⟩ :=
    Instruction.decode_of_inside inst.opcode mem (.inr hfits)
  rw [decode_of_instructionAt h] at hdecode
  cases hdecode
  exact hoperands

namespace Opcode

/-- The instructions that put a value into the current register. -/
def stores : Opcode → Bool
  | save | mul | sub | add | div => true
  | halt | init | set | prn => false

end Opcode

namespace Machine

variable {κ : Type} [Console κ]

/-! ## The effect of an instruction -/

/-- The effect of an instruction followed by the bytes `x` and `y`, apart from what every tick
does. -/
def effect (m : Machine κ) (x y : UInt8) (op : Opcode) : Machine κ :=
  let store (value : Float) : Machine κ := { m with
    registers := ⟨m.registers.cells.set m.current.toNat value m.current.toNat_lt⟩ }
  match op with
  | .halt => m
  | .init => { m with current := 0 }
  | .set => { m with current := x }
  | .save => store x.toFloat
  | .mul => store (m.registers.read x * m.registers.read y)
  | .sub => store (m.registers.read x - m.registers.read y)
  | .add => store (m.registers.read x + m.registers.read y)
  | .div => store (m.registers.read x / m.registers.read y)
  | .prn => { m with
      console := (Console.emit m.console (m.registers.read m.current)).2
      stats := { m.stats with outputs := m.stats.outputs + 1 } }

/-- The machine after a tick that found an opcode and succeeded. -/
def afterTick (m : Machine κ) (op : Opcode) : Machine κ :=
  let done := m.effect (m.memory.byteAt (m.pc + 1)) (m.memory.byteAt (m.pc + 2)) op
  let atLimit := m.maxTicks.any fun limit => limit.toNat ≤ m.stats.ticks + 1
  { done with
    pc := if op = .halt then m.pc else m.pc + op.width
    stats := { done.stats with
      ticks := done.stats.ticks + 1
      retired := done.stats.retired + 1
      mix := done.stats.mix.add op }
    state := if op = .halt then .halted else .running
    clock := if op = .halt ∨ atLimit then { m.clock with running := false } else m.clock }

theorem afterTick_halt (m : Machine κ) : m.afterTick .halt = { m with
    stats := m.stats.complete .halt
    clock := m.clock.stop
    state := .halted } :=
  rfl

theorem afterTick_of_fetched {m : Machine κ} {inst : Instruction}
    (h : m.memory.instructionAt m.pc = .ok inst) (hne : inst ≠ .halt) :
    m.afterTick inst.opcode = { m with
      registers := inst.compute m.registers m.current
      pc := m.pc + inst.width
      current := inst.select m.current
      console := m.consoleAfter inst
      stats := m.stats.complete inst.opcode
      clock := if m.beginTick.limitReached then m.clock.stop else m.clock
      state := .running } := by
  have hoperands := Memory.operands_of_instructionAt h
  have hop : inst.opcode ≠ .halt := by
    cases inst <;> simp_all [Instruction.opcode]
  simp only [afterTick, hop, if_false, false_or, limitReached_beginTick]
  cases inst with
  | halt => exact absurd rfl hne
  | init | prn => rfl
  | set _ | save _ =>
    obtain ⟨rfl, _⟩ := List.cons.inj hoperands
    rfl
  | mul _ _ | sub _ _ | add _ _ | div _ _ =>
    obtain ⟨rfl, hrest⟩ := List.cons.inj hoperands
    obtain ⟨rfl, _⟩ := List.cons.inj hrest
    rfl

/-- A tick that succeeds found a complete instruction and has its effect. -/
theorem tick_of_ok {m : Machine κ} (hs : m.state.isTerminal = false)
    (ht : m.tick.result = .ok ()) :
    ∃ inst, m.memory.instructionAt m.pc = .ok inst ∧ m.Completes inst ∧
      m.tick.machine = m.afterTick inst.opcode := by
  rcases (turn_ok hs ht).of_ok with ⟨hfetched, hm⟩ | ⟨inst, hfetched, hne, hcompletes, hm⟩
  · exact ⟨.halt, hfetched, trivial, hm.trans (afterTick_halt m).symm⟩
  · exact ⟨inst, hfetched, hcompletes, hm.trans (afterTick_of_fetched hfetched hne).symm⟩

/-- An instruction that was fetched and completes has its effect. -/
theorem tick_of_completes {m : Machine κ} (hs : m.state.isTerminal = false) {inst : Instruction}
    (hi : m.memory.instructionAt m.pc = .ok inst) (hc : m.Completes inst) :
    m.tick.result = .ok () ∧ m.tick.machine = m.afterTick inst.opcode := by
  have ht : m.tick.result = .ok () := by
    rw [tick_of_fetched hs hi]
    by_cases hne : inst = .halt
    · subst hne
      exact endTick_result _ _
    · have hbegun : m.beginTick.Completes inst := hc
      simp only [carryOut, stepPast_of_completes hne hbegun, Outcome.after, endTick_result]
  obtain ⟨found, hfound, _, hm⟩ := tick_of_ok hs ht
  obtain rfl := Except.ok.inj (hi.symm.trans hfound)
  exact ⟨ht, hm⟩

/-! ## What a tick leaves alone -/

/-- A tick that puts a value into the current register. -/
structure Stores (m : Machine κ) : Prop where
  live : m.state.isTerminal = false
  succeeds : m.tick.result = .ok ()
  opcode : ∃ op : Opcode, op.stores = true ∧ m.memory.read m.pc = .ok op.byte

theorem tick_memory (m : Machine κ) : m.tick.machine.memory = m.memory := by
  cases hs : m.state.isTerminal with
  | true => rw [tick_of_terminal hs]
  | false =>
    cases ht : m.tick.result with
    | error fault => rw [tick_fault hs ht]
    | ok done => exact memory_turn (turn_ok hs ht)

theorem effect_register (m : Machine κ) (x y : UInt8) {op : Opcode} {index : UInt8}
    (h : op.stores = true → m.current ≠ index) :
    (m.effect x y op).registers.read index = m.registers.read index := by
  cases op with
  | halt | init | set | prn => rfl
  | save | mul | sub | add | div => exact Registers.read_write_of_ne _ _ (h rfl)

theorem tick_register {m : Machine κ} {index : UInt8} (h : m.Stores → m.current ≠ index) :
    m.tick.machine.registers.read index = m.registers.read index := by
  cases hs : m.state.isTerminal with
  | true => rw [tick_of_terminal hs]
  | false =>
    cases ht : m.tick.result with
    | error fault => rw [tick_fault hs ht]
    | ok done =>
      obtain ⟨inst, hfetched, _, hm⟩ := tick_of_ok hs ht
      rw [hm]
      refine effect_register m _ _ fun hstores => h ⟨hs, ht, inst.opcode, hstores, ?_⟩
      exact Memory.read_of_instructionAt hfetched

theorem ticked_memory (m : Machine κ) (n : Nat) : (m.ticked n).memory = m.memory := by
  induction n with
  | zero => rfl
  | succ n ih => exact (tick_memory _).trans ih

theorem ticked_register {m : Machine κ} {index : UInt8} {n : Nat}
    (h : ∀ k, k < n → (m.ticked k).Stores → (m.ticked k).current ≠ index) :
    (m.ticked n).registers.read index = m.registers.read index := by
  induction n with
  | zero => rfl
  | succ n ih =>
    have hlast := tick_register (h n (Nat.lt_succ_self n))
    exact hlast.trans (ih fun k hk => h k (Nat.lt_succ_of_lt hk))

/-- A tick that succeeds found an instruction that stands complete in memory, and leaves exactly
what `afterTick` says; where it printed, the console accepted the value. Over any number of ticks
memory stays as it is, and so does a register that was not the current one in any tick that stored
a value. -/
theorem tick_effect (m : Machine κ) :
    (m.state = .idle ∨ m.state = .running → m.tick.result = .ok () →
      ∃ op : Opcode, m.memory.read m.pc = .ok op.byte ∧ m.pc + op.width ≤ memorySize ∧
        (op = .prn → (Console.emit m.console (m.registers.read m.current)).1 = .ok ()) ∧
        m.tick.machine = m.afterTick op) ∧
    ∀ n, (m.ticked n).memory = m.memory ∧
      ∀ index, (∀ k, k < n → (m.ticked k).Stores → (m.ticked k).current ≠ index) →
        (m.ticked n).registers.read index = m.registers.read index := by
  refine ⟨fun hs ht => ?_, fun n => ⟨ticked_memory m n, fun index => ticked_register⟩⟩
  have hlive : m.state.isTerminal = false := by
    rcases hs with hs | hs <;> rw [hs] <;> rfl
  obtain ⟨inst, hfetched, hcompletes, hm⟩ := tick_of_ok hlive ht
  refine ⟨inst.opcode, Memory.read_of_instructionAt hfetched,
    Memory.add_width_le_of_instructionAt hfetched, fun hprn => ?_, hm⟩
  cases inst with
  | prn => exact hcompletes
  | halt | init | set _ | save _ | mul _ _ | sub _ _ | add _ _ | div _ _ => cases hprn

/-- A machine that puts 3 into register 0 and multiplies it by itself. -/
def squaring : Machine Recorder :=
  { create {} ({} : Recorder) with memory := Memory.zero.overlay 0 [4, 3, 5, 0, 0] }

theorem tick_effect_squaring :
    let m := squaring.ticked 1
    (m.state = .idle ∨ m.state = .running) ∧ m.tick.result = .ok () ∧
      m.memory.read m.pc = .ok Opcode.mul.byte ∧ m.tick.machine = m.afterTick .mul ∧
      m.registers.read 0 = 3 ∧ m.tick.machine.registers.read 0 = 9 ∧
      (squaring.ticked 2).registers.read 1 = squaring.registers.read 1 := by
  intro m
  have hs : m.state = .idle ∨ m.state = .running := by decide +kernel
  have ht : m.tick.result = .ok () := by
    have hok : m.tick.result.isOk = true := by decide +kernel
    cases hr : m.tick.result with
    | ok done => rfl
    | error fault =>
      rw [hr] at hok
      cases hok
  have hread : m.memory.read m.pc = .ok Opcode.mul.byte :=
    Memory.read_ok_iff.mpr ⟨by decide +kernel, by decide +kernel⟩
  obtain ⟨op, hop, _, _, hm⟩ := (tick_effect m).1 hs ht
  obtain rfl : op = .mul := Opcode.byte_injective (Except.ok.inj (hop.symm.trans hread))
  have hcurrent : ∀ k, k < 2 → (squaring.ticked k).current = 0 := by
    decide +kernel
  have hone := ((tick_effect squaring).2 2).2 1 fun k hk _ => by
    rw [hcurrent k hk]
    decide
  exact ⟨hs, ht, hread, hm, by decide +kernel, by decide +kernel, hone⟩

end Machine

end ByteMachine
