import ByteMachine.Proofs.Machine.Steps

/-! The loops of a machine, said once. A run on the clock and a counted run both dispatch ticks as
long as the clock runs, and then answer. `Dispatch` says how many ticks there were; what a loop
counts and how it ends follows from it by induction on them. -/

namespace ByteMachine.Machine

variable {κ : Type} [Console κ]

/-! ## Single ticks -/

/-- Every tick of a machine that has not ended is counted. -/
theorem tick_counted {m : Machine κ} (hs : m.state.isTerminal = false) :
    m.tick.machine.stats.ticks = m.stats.ticks + 1 := by
  cases ht : m.tick.result with
  | error fault =>
    rw [tick_fault hs ht]
    rfl
  | ok done =>
    rcases (turn_ok hs ht).of_ok with ⟨_, hm⟩ | ⟨_, _, _, _, hm⟩
    · rw [hm]
      exact Statistics.complete_ticks _ _
    · rw [hm]
      exact Statistics.complete_ticks _ _

/-- A tick that succeeds leaves a machine that has halted, with its clock stopped, or one that runs
on, with its clock stopped at the limit only. -/
theorem tick_done {m : Machine κ} (hs : m.state.isTerminal = false)
    (ht : m.tick.result = .ok ()) :
    (m.tick.machine.state = .halted ∧ m.tick.machine.clock = m.clock.stop) ∨
      (m.tick.machine.state = .running ∧
        m.tick.machine.clock = if m.beginTick.limitReached then m.clock.stop else m.clock) := by
  rcases (turn_ok hs ht).of_ok with ⟨_, hm⟩ | ⟨_, _, _, _, hm⟩
  · left
    rw [hm]
    exact ⟨rfl, rfl⟩
  · right
    rw [hm]
    exact ⟨rfl, rfl⟩

theorem ticked_succ (m : Machine κ) (n : Nat) : m.ticked (n + 1) = m.tick.machine.ticked n := by
  induction n with
  | zero => rfl
  | succ n ih =>
    change (m.ticked (n + 1)).tick.machine = (m.tick.machine.ticked n).tick.machine
    rw [ih]

/-! ## Loops -/

/-- A counted loop, which reports its waits for the clock or does not wait. -/
def loopFor (waits : Bool) : Nat → Machine κ → Outcome κ (Except Fault Lifecycle)
  | 0, m => ⟨.ok m.state, m, []⟩
  | n + 1, m =>
      let log := (if waits then m.waitLog else []) ++ m.tick.log
      if m.clock.tickDue then
        match m.tick.result with
        | .error fault => ⟨.error fault, m.tick.machine, log⟩
        | .ok () => (loopFor waits n m.tick.machine).after log
      else ⟨.ok m.state, m, []⟩

theorem driveFor_eq_loopFor (n : Nat) (m : Machine κ) : driveFor n m = loopFor false n m := by
  induction n generalizing m with
  | zero => rfl
  | succ n ih =>
    simp only [driveFor, loopFor, ih]
    rfl

/-- A counted loop is some number of ticks. -/
theorem loopFor_ticked (waits : Bool) (f : Nat) (m : Machine κ) :
    ∃ k, (loopFor waits f m).machine = m.ticked k := by
  induction f generalizing m with
  | zero => exact ⟨0, rfl⟩
  | succ f ih =>
    simp only [loopFor]
    split
    · split
      · exact ⟨1, rfl⟩
      · obtain ⟨k, hk⟩ := ih m.tick.machine
        exact ⟨k + 1, by rw [ticked_succ]; exact hk⟩
    · exact ⟨0, rfl⟩

/-- A loop dispatches a number of ticks, each on a machine that has not ended and whose clock runs,
and answers the stage in which it leaves the machine, or the fault of the last tick. What it reports
does not matter. -/
inductive Dispatch : Nat → Machine κ → Outcome κ (Except Fault Lifecycle) → Prop
  | rest (m : Machine κ) : Dispatch 0 m ⟨.ok m.state, m, []⟩
  | fault {m : Machine κ} {fault : Fault} {log : List Event} (due : m.clock.tickDue = true)
      (live : m.state.isTerminal = false) (failed : m.tick.result = .error fault) :
      Dispatch 1 m ⟨.error fault, m.tick.machine, log⟩
  | next {n : Nat} {m : Machine κ} {outcome : Outcome κ (Except Fault Lifecycle)}
      {log : List Event} (due : m.clock.tickDue = true) (live : m.state.isTerminal = false)
      (done : m.tick.result = .ok ()) (rest : Dispatch n m.tick.machine outcome) :
      Dispatch (n + 1) m (outcome.after log)

/-- A run on the clock dispatches ticks, at least one where one is due. -/
theorem dispatch_drive (m : Machine κ) :
    ∃ n, Dispatch n m m.drive ∧ (m.clock.tickDue = true → m.state.isTerminal = false → 0 < n) := by
  fun_induction drive m with
  | case1 m hc fault ht => exact ⟨1, .fault hc.1 hc.2 ht, fun _ _ => Nat.one_pos⟩
  | case2 m hc ht _ ih =>
    obtain ⟨n, hn, _⟩ := ih
    exact ⟨n + 1, .next hc.1 hc.2 ht hn, fun _ _ => Nat.succ_pos n⟩
  | case3 m hc => exact ⟨0, .rest m, fun hdue hlive => absurd ⟨hdue, hlive⟩ hc⟩

/-- A counted run dispatches ticks, at least one where one is due and it may, and no more than it
may. -/
theorem dispatch_driveFor (n : Nat) {m : Machine κ}
    (hlive : m.clock.tickDue = true → m.state.isTerminal = false) :
    ∃ k, Dispatch k m (driveFor n m) ∧ k ≤ n ∧ (m.clock.tickDue = true → 0 < n → 0 < k) := by
  induction n generalizing m with
  | zero => exact ⟨0, .rest m, Nat.le_refl 0, fun _ h => h⟩
  | succ n ih =>
    cases hc : m.clock.tickDue with
    | false =>
      have hstays : driveFor (n + 1) m = ⟨.ok m.state, m, []⟩ := by simp [driveFor, hc]
      rw [hstays]
      exact ⟨0, .rest m, Nat.zero_le _, fun h => by cases h⟩
    | true =>
      cases ht : m.tick.result with
      | error fault =>
        have hfails : driveFor (n + 1) m = ⟨.error fault, m.tick.machine, m.tick.log⟩ := by
          simp [driveFor, hc, ht]
        rw [hfails]
        exact ⟨1, .fault hc (hlive hc) ht, Nat.succ_le_succ (Nat.zero_le n), fun _ _ => Nat.one_pos⟩
      | ok done =>
        have hgoes : driveFor (n + 1) m = (driveFor n m.tick.machine).after m.tick.log := by
          simp [driveFor, hc, ht]
        obtain ⟨k, hk, hle, _⟩ := ih (m := m.tick.machine) fun hdue => by
          rcases tick_done (hlive hc) ht with ⟨_, hstopped⟩ | ⟨hs, _⟩
          · rw [hstopped] at hdue
            cases hdue
          · rw [hs]
            rfl
        rw [hgoes]
        exact ⟨k + 1, .next hc (hlive hc) ht hk, Nat.succ_le_succ hle, fun _ _ => Nat.succ_pos k⟩

namespace Dispatch

variable {n : Nat} {m : Machine κ} {outcome : Outcome κ (Except Fault Lifecycle)}

theorem ticks (h : Dispatch n m outcome) : outcome.machine.stats.ticks = m.stats.ticks + n := by
  induction h with
  | rest m => rfl
  | fault _ live _ => exact tick_counted live
  | @next n m outcome _ _ live _ _ ih =>
    have hcounted := tick_counted live
    change outcome.machine.stats.ticks = m.stats.ticks + (n + 1)
    omega

/-- A loop over a machine that has not faulted answers the fault that it leaves in the machine, or
the stage of a machine that still has not faulted. -/
theorem answer (h : Dispatch n m outcome) (hs : m.state = .running ∨ m.state = .halted) :
    (∃ fault, outcome.result = .error fault ∧ outcome.machine.state = .faulted ∧
      outcome.machine.fault = some fault) ∨
    (outcome.result = .ok outcome.machine.state ∧
      (outcome.machine.state = .running ∨ outcome.machine.state = .halted)) := by
  induction h with
  | rest m => exact .inr ⟨rfl, hs⟩
  | fault _ live failed =>
    have hm := tick_fault live failed
    refine .inl ⟨_, rfl, ?_, ?_⟩
    · rw [hm]
    · rw [hm]
  | next _ live done _ ih =>
    rcases tick_done live done with ⟨hhalted, _⟩ | ⟨hrunning, _⟩
    · exact ih (.inr hhalted)
    · exact ih (.inl hrunning)

end Dispatch

/-! ## Calls of a driver -/

theorem run_of_terminal {m : Machine κ} (hs : m.state.isTerminal = true) :
    m.run.machine = m ∧ m.run.result = .ok m.state := by
  have hrest : m.drive = ⟨.ok m.state, m, []⟩ := drive_of_rest (by simp [hs])
  rw [run, start_of_terminal hs, hrest]
  exact ⟨rfl, rfl⟩

theorem runUntil_of_terminal {m : Machine κ} (hs : m.state.isTerminal = true) (n : Nat) :
    (m.runUntil n).machine = m ∧ (m.runUntil n).result = .ok m.state := by
  have hrest : (driveFor n m).machine = m ∧ (driveFor n m).result = .ok m.state := by
    induction n with
    | zero => exact ⟨rfl, rfl⟩
    | succ n ih =>
      simp only [driveFor, tick_of_terminal hs]
      split
      · exact ih
      · exact ⟨rfl, rfl⟩
  rw [runUntil, start_of_terminal hs]
  exact hrest

omit [Console κ] in
theorem start_due {m : Machine κ} (hs : m.state.isTerminal = false) :
    m.start.machine.clock.tickDue = true ∧ m.start.machine.state.isTerminal = false := by
  rw [start_of_live hs]
  exact ⟨rfl, rfl⟩

theorem dispatch_run {m : Machine κ} (hs : m.state.isTerminal = false) :
    ∃ n, 0 < n ∧ Dispatch n m.start.machine m.start.machine.drive := by
  obtain ⟨hdue, hlive⟩ := start_due hs
  obtain ⟨n, hn, hpos⟩ := dispatch_drive m.start.machine
  exact ⟨n, hpos hdue hlive, hn⟩

theorem dispatch_runUntil {m : Machine κ} (hs : m.state.isTerminal = false) (n : Nat) :
    ∃ k, k ≤ n ∧ (0 < n → 0 < k) ∧ Dispatch k m.start.machine (driveFor n m.start.machine) := by
  obtain ⟨hdue, hlive⟩ := start_due hs
  obtain ⟨k, hk, hle, hpos⟩ := dispatch_driveFor n fun _ => hlive
  exact ⟨k, hle, hpos hdue, hk⟩

/-- A run of a sound machine that has not faulted answers the fault that it leaves in the machine, or
the stage of a machine without a fault. -/
theorem run_answer {m : Machine κ} (h : m.Sound) (hs : m.state ≠ .faulted) :
    (∃ fault, m.run.result = .error fault ∧ m.run.machine.state = .faulted ∧
      m.run.machine.fault = some fault) ∨
    (m.run.result = .ok m.run.machine.state ∧
      (m.run.machine.state = .running ∨ m.run.machine.state = .halted) ∧
      m.run.machine.fault = none) := by
  have hstart : m.start.machine.state = .running ∨ m.start.machine.state = .halted := by
    cases hstage : m.state with
    | idle | running => exact .inl (by rw [start_of_live (by rw [hstage]; rfl)])
    | halted => exact .inr (by rw [start_of_terminal (by rw [hstage]; rfl), hstage])
    | faulted => exact absurd hstage hs
  have hsound : m.run.machine.Sound := (perform_steps h .run).sound h
  obtain ⟨n, hn, _⟩ := dispatch_drive m.start.machine
  rcases hn.answer hstart with hfault | ⟨hresult, hstage⟩
  · exact .inl hfault
  · refine .inr ⟨hresult, hstage, hsound.fault_eq_none fun hfaulted => ?_⟩
    change m.start.machine.drive.machine.state = .faulted at hfaulted
    rcases hstage with hstage | hstage <;> rw [hstage] at hfaulted <;> cases hfaulted

end ByteMachine.Machine
