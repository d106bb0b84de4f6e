import ByteMachine.Proofs.Machine.Tick

/-! The faults of a tick. The five conditions of `FaultsAt` exclude each other, a tick faults
exactly when one of them holds, and a fault leaves alone what the program works on. -/

namespace ByteMachine.Machine

variable {κ : Type} [Console κ]

private theorem instructionAt_of_fetch {m : Machine κ} {fault : Fault}
    (h : m.FaultsAt .fetch fault) : m.memory.instructionAt m.pc = .error fault := by
  obtain ⟨hpc, rfl⟩ := h
  rw [Memory.instructionAt_eq_fetch, hpc,
    List.drop_eq_nil_of_le (Nat.le_of_eq (Memory.length_toList _))]
  rfl

private theorem instructionAt_of_opcode {m : Machine κ} {fault : Fault}
    (h : m.FaultsAt .opcode fault) : m.memory.instructionAt m.pc = .error fault := by
  obtain ⟨byte, hr, hop, rfl⟩ := h
  rw [Memory.instructionAt_eq_fetch, Memory.drop_eq_cons_of_read hr]
  simp only [Instruction.fetch, Instruction.ofBytes?_eq_none_of_unregistered _ hop, hop]

private theorem instructionAt_of_operand {m : Machine κ} {fault : Fault}
    (h : m.FaultsAt .operand fault) : m.memory.instructionAt m.pc = .error fault := by
  obtain ⟨byte, op, hr, hop, hw, rfl⟩ := h
  have hb := Memory.drop_eq_cons_of_read hr
  have hlen := Memory.add_length_of_drop hb
  have hn := (Instruction.ofBytes?_eq_none_iff hop).mpr
    (show (m.memory.toList.drop (m.pc + 1)).length + 1 < op.width by omega)
  rw [Memory.instructionAt_eq_fetch, hb]
  simp only [Instruction.fetch, hn, hop]

/-- Each of the five conditions makes the tick fault, and names its fault. -/
theorem tick_of_faultsAt {m : Machine κ} (hs : m.state.isTerminal = false) {site : FaultSite}
    {fault : Fault} (h : m.FaultsAt site fault) : m.tick.result = .error fault := by
  cases site with
  | fetch => rw [tick_of_error hs (instructionAt_of_fetch h)]; rfl
  | opcode => rw [tick_of_error hs (instructionAt_of_opcode h)]; rfl
  | operand => rw [tick_of_error hs (instructionAt_of_operand h)]; rfl
  | divisor =>
    obtain ⟨a, b, hp, hz, rfl⟩ := h
    have hb : (m.beginTick.registers.read b == 0) = true := (Number.beq_zero_iff _).mpr hz
    rw [tick_of_fetched hs (Memory.instructionAt_eq_ok_iff.mpr hp)]
    simp only [carryOut, stepPast, apply, hb]
    rfl
  | output =>
    obtain ⟨reason, hp, ha, rfl⟩ := h
    have hb : Console.emit m.beginTick.console
        (m.beginTick.registers.read m.beginTick.current) = (.error reason, m.answer.2) :=
      Prod.ext ha rfl
    rw [tick_of_fetched hs (Memory.instructionAt_eq_ok_iff.mpr hp)]
    simp only [carryOut, stepPast, apply, print, hb]
    rfl

/-- A fetched instruction that does not complete faults at its divisor or its output. -/
theorem faultsAt_of_not_completes {m : Machine κ} {inst : Instruction}
    (hi : m.memory.instructionAt m.pc = .ok inst) (hc : ¬m.Completes inst) :
    ∃ site fault, (site = .divisor ∨ site = .output) ∧ m.FaultsAt site fault := by
  have hprefix := Memory.instructionAt_eq_ok_iff.mp hi
  rcases stepPast_of_not_completes hc with ⟨a, b, rfl, hz, _⟩ | ⟨reason, rfl, ha, _⟩
  · exact ⟨.divisor, _, .inl rfl, a, b, hprefix, (Number.beq_zero_iff _).mp hz, rfl⟩
  · exact ⟨.output, _, .inr rfl, reason, hprefix, ha, rfl⟩

/-- No two of the five conditions hold together. The fault tells them apart, except for the two that
name address 256. -/
theorem FaultsAt.site_unique {m : Machine κ} (hs : m.state.isTerminal = false)
    {site site' : FaultSite} {fault fault' : Fault} (h : m.FaultsAt site fault)
    (h' : m.FaultsAt site' fault') : site' = site := by
  have he : fault' = fault := by
    have ht := (tick_of_faultsAt hs h').symm.trans (tick_of_faultsAt hs h)
    exact Except.error.inj ht
  subst he
  have hread : ∀ byte, m.memory.read m.pc = .ok byte → m.pc ≠ 256 := fun byte hr => by
    have := (Memory.read_ok_iff.mp hr).1
    omega
  cases site <;> cases site' <;> simp only [FaultsAt] at h h' <;> grind

/-- A tick of a machine that has not ended faults exactly when exactly one of the five conditions
holds, with the fault of that condition; and then everything that the program works on is as
before, the tick is counted, the clock stands still and the fault is kept. -/
theorem tick_error_iff {m : Machine κ} (hs : m.state = .idle ∨ m.state = .running)
    (hpc : m.pc ≤ 256) (fault : Fault) :
    (m.tick.result = .error fault ↔
      ∃ site, m.FaultsAt site fault ∧
        ∀ site' fault', m.FaultsAt site' fault' → site' = site) ∧
    (m.tick.result = .error fault →
      m.tick.machine = { m with
        console := m.tick.machine.console
        stats := { m.stats with ticks := m.stats.ticks + 1 }
        clock := { m.clock with running := false }
        state := .faulted
        fault := some fault }) := by
  have ht : m.state.isTerminal = false := by rcases hs with hs | hs <;> rw [hs] <;> rfl
  have hturn := turn_tick ht hpc
  refine ⟨⟨fun h => ?_, ?_⟩, fun h => ?_⟩
  · rw [h] at hturn
    obtain ⟨site, hsite, _⟩ := hturn.of_error
    exact ⟨site, hsite, fun _ _ h' => hsite.site_unique ht h'⟩
  · rintro ⟨site, hsite, _⟩
    exact tick_of_faultsAt ht hsite
  · rw [h] at hturn
    obtain ⟨site, _, hm⟩ := hturn.of_error
    rw [hm]
    rfl

/-- A machine about to divide by a register that is still zero. -/
def dividing : Machine Recorder :=
  { create {} ({} : Recorder) with memory := Memory.zero.overlay 0 [9, 0, 1] }

theorem tick_error_dividing :
    (dividing.state = .idle ∨ dividing.state = .running) ∧ dividing.pc ≤ 256 ∧
      (∃ site, dividing.FaultsAt site (.divideByZero 0)) ∧
      dividing.tick.result = .error (.divideByZero 0) ∧
      dividing.tick.machine = { dividing with
        console := dividing.tick.machine.console
        stats := { dividing.stats with ticks := dividing.stats.ticks + 1 }
        clock := { dividing.clock with running := false }
        state := .faulted
        fault := some (.divideByZero 0) } := by
  have hs : dividing.state = .idle ∨ dividing.state = .running := .inl rfl
  have hpc : dividing.pc ≤ 256 := by decide
  have hsite : dividing.FaultsAt .divisor (.divideByZero 0) :=
    ⟨0, 1, by decide +kernel, ⟨false, by decide +kernel⟩, rfl⟩
  have hr := (tick_error_iff hs hpc _).1.mpr
    ⟨.divisor, hsite, fun _ _ h => hsite.site_unique rfl h⟩
  exact ⟨hs, hpc, ⟨.divisor, hsite⟩, hr, (tick_error_iff hs hpc _).2 hr⟩

end ByteMachine.Machine
