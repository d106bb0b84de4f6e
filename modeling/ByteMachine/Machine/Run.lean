import ByteMachine.Machine.Basic

/-! Runs: ticks one after the other until the clock stops. A run needs no bound of its own, because
every tick that succeeds either ends the machine or moves the program counter on through memory
(`distance_tick`). -/

namespace ByteMachine

namespace Machine

variable {κ : Type}

/-! ## Progress -/

theorem endTick_pc (m : Machine κ) (op : Opcode) : (m.endTick op).machine.pc = m.pc := by
  unfold endTick
  dsimp only
  split <;> rfl

theorem endTick_state (m : Machine κ) (op : Opcode) :
    (m.endTick op).machine.state = m.state := by
  unfold endTick
  dsimp only
  split <;> rfl

/-- Bytes of memory from the program counter to the end, with one more for the tick that finds
nothing there; zero once the machine has ended. -/
def distance (m : Machine κ) : Nat := if m.state.isTerminal then 0 else 257 - m.pc

variable [Console κ]

/-- An instruction that completes leaves the machine halted or moves past itself. -/
theorem execute_ok {m : Machine κ} {inst : Instruction} (hpc : m.pc < 256)
    (h : (m.execute inst).result = .ok (.ok ())) :
    (m.execute inst).machine.state = .halted ∨
      (m.execute inst).machine.pc = m.pc + inst.width := by
  have hwidth : inst.width ≤ 3 := inst.opcode.width_le
  have hnext := addressAfter_of_lt (show m.pc + inst.width < addressSpace by
    unfold addressSpace
    omega)
  by_cases hmoves : ((m.apply inst).result.isOk && inst.opcode != .halt) = true
  · right
    simp only [execute, if_pos hmoves, advance, (apply_untouched m inst).pc, hnext, Outcome.after]
  · left
    simp only [execute, if_neg hmoves, Outcome.map, Except.ok.injEq] at h ⊢
    have hhalt : inst.opcode = .halt := by
      simpa [h, Except.isOk, Except.toBool] using hmoves
    cases inst <;> cases hhalt
    rfl

theorem distance_tick {m : Machine κ} (hs : m.state.isTerminal = false)
    (h : m.tick.result = .ok ()) : m.tick.machine.distance < m.distance := by
  cases hi : m.memory.instructionAt m.pc with
  | error fault =>
    rw [tick_of_error hs hi] at h
    cases h
  | ok inst =>
    have hpc := Memory.pc_lt_of_instructionAt hi
    have hexecuted := Outcome.map_unbroken (isOk_execute (m := m.beginTick) hi)
    generalize (m.beginTick.execute inst).unbroken _ = executed at hexecuted
    rw [tick_of_executed hs hi hexecuted.symm] at h ⊢
    cases he : executed.result with
    | error fault => simp [he, raise, Outcome.after] at h
    | ok done =>
      have hd : m.distance = 257 - m.pc := by simp [distance, hs]
      have hresult : (m.beginTick.execute inst).result = .ok (.ok ()) := by
        rw [← hexecuted, Outcome.map, he]
      have hmoved := execute_ok (m := m.beginTick) hpc hresult
      rw [← hexecuted] at hmoved
      simp only [Outcome.after]
      rw [hd, distance, endTick_pc, endTick_state]
      rcases hmoved with hhalted | hmoved
      · have hterminal : executed.machine.state.isTerminal = true := by
          rw [show executed.machine.state = .halted from hhalted]
          rfl
        rw [if_pos hterminal]
        omega
      · have hnext : executed.machine.pc = m.pc + inst.width := hmoved
        have hwidth := inst.width_pos
        split <;> omega

/-! ## Drivers -/

/-- The report of the wait for the next tick. A clock without a period does not fall behind. -/
def waitLog (m : Machine κ) : List Event :=
  if m.clock.interval = 0 then [] else [.clockWaited m.stats.ticks]

/-- Waits for the clock and dispatches a tick, as long as the clock runs. A fault ends the run. -/
def drive (m : Machine κ) : Outcome κ (Except Fault Lifecycle) :=
  if h : m.clock.tickDue = true ∧ m.state.isTerminal = false then
    match ht : m.tick.result with
    | .error fault => ⟨.error fault, m.tick.machine, m.waitLog ++ m.tick.log⟩
    | .ok () =>
        have := distance_tick h.2 ht
        m.tick.machine.drive.after (m.waitLog ++ m.tick.log)
  else ⟨.ok m.state, m, []⟩
termination_by m.distance

/-- Dispatches at most the given number of ticks while the clock runs, without waiting for it. -/
def driveFor : Nat → Machine κ → Outcome κ (Except Fault Lifecycle)
  | 0, m => ⟨.ok m.state, m, []⟩
  | n + 1, m =>
      if m.clock.tickDue then
        let ticked := m.tick
        match ticked.result with
        | .error fault => ⟨.error fault, ticked.machine, ticked.log⟩
        | .ok () => (driveFor n ticked.machine).after ticked.log
      else ⟨.ok m.state, m, []⟩

/-- Starts the clock and runs until it stops. -/
def run (m : Machine κ) : Outcome κ (Except Fault Lifecycle) :=
  m.start.machine.drive.after m.start.log

/-- Starts the clock and runs until it stops or the given number of ticks is dispatched. -/
def runUntil (m : Machine κ) (n : Nat) : Outcome κ (Except Fault Lifecycle) :=
  (driveFor n m.start.machine).after m.start.log

end Machine

end ByteMachine
