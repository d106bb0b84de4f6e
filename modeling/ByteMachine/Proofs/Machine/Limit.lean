import ByteMachine.Proofs.Machine.Dispatch
import ByteMachine.Proofs.Machine.Settings

/-! The tick limit. It is looked at after a tick, and every call of a driver starts the clock again,
so a call dispatches one tick before the limit can stop it: a machine that has used up its limit
counts one tick more with every call. Below the limit, and after a first tick in any case, no driver
goes beyond it. -/

namespace ByteMachine.Machine

variable {κ : Type} [Console κ]

omit [Console κ] in
theorem limitReached_iff {m : Machine κ} {limit : UInt64} (hlimit : m.maxTicks = some limit) :
    m.beginTick.limitReached = true ↔ limit.toNat ≤ m.stats.ticks + 1 := by
  rw [limitReached_beginTick, hlimit]
  exact decide_eq_true_iff

/-- A tick that leaves a machine which has not ended stops the clock at the limit only. -/
theorem clock_of_tick {m : Machine κ} (hs : m.state.isTerminal = false)
    (ht : m.tick.result = .ok ()) (hs' : m.tick.machine.state.isTerminal = false) :
    m.tick.machine.clock = if m.beginTick.limitReached then m.clock.stop else m.clock := by
  rcases tick_done hs ht with ⟨hhalted, _⟩ | ⟨_, hclock⟩
  · rw [hhalted] at hs'
    cases hs'
  · exact hclock

namespace Dispatch

variable {n : Nat} {m : Machine κ} {outcome : Outcome κ (Except Fault Lifecycle)}

/-- After the first tick of a loop no tick is dispatched that the limit does not allow: where a
second tick is due, the first one has not reached the limit. -/
theorem within (h : Dispatch n m outcome) {limit : UInt64} (hlimit : m.maxTicks = some limit) :
    m.stats.ticks + n ≤ max (m.stats.ticks + 1) limit.toNat := by
  induction h with
  | rest m => omega
  | fault _ _ _ => omega
  | @next n m outcome _ _ live done rest ih =>
    have hle := ih ((tick_later m).maxTicks.trans hlimit)
    rw [tick_counted live] at hle
    cases rest with
    | rest => omega
    | fault due live' _ | next due live' _ _ =>
      have hbelow : m.stats.ticks + 1 < limit.toNat := by
        by_cases hreached : m.beginTick.limitReached = true
        · rw [clock_of_tick live done live', if_pos hreached] at due
          cases due
        · have hnot := mt (limitReached_iff hlimit).mpr hreached
          omega
      omega

/-- A loop that leaves a machine which has not ended, at the limit or beyond it, leaves its clock
stopped. -/
theorem stopped (h : Dispatch n m outcome) {limit : UInt64} (hlimit : m.maxTicks = some limit)
    (hn : 0 < n) (hs : outcome.machine.state.isTerminal = false)
    (hreached : limit.toNat ≤ m.stats.ticks + n) : outcome.machine.clock.running = false := by
  induction h with
  | rest m => omega
  | fault _ live failed =>
    rw [tick_fault live failed] at hs
    cases hs
  | @next n m outcome _ _ live done rest ih =>
    cases n with
    | zero =>
      cases rest
      have hlast := (limitReached_iff hlimit).mpr hreached
      change m.tick.machine.clock.running = false
      rw [clock_of_tick live done hs, if_pos hlast]
      rfl
    | succ n =>
      have hcounted := tick_counted live
      exact ih ((tick_later m).maxTicks.trans hlimit) (Nat.succ_pos n) hs (by omega)

/-- In a loop that began with its clock running, only the limit stops the clock of a machine that
has not ended. -/
theorem limit_of_stopped (h : Dispatch n m outcome) (hdue : m.clock.tickDue = true)
    (hs : outcome.machine.state.isTerminal = false)
    (hstopped : outcome.machine.clock.tickDue = false) :
    ∃ limit, m.maxTicks = some limit ∧ limit.toNat ≤ outcome.machine.stats.ticks := by
  induction h with
  | rest m =>
    rw [hdue] at hstopped
    cases hstopped
  | fault _ live failed =>
    rw [tick_fault live failed] at hs
    cases hs
  | @next n m outcome _ _ live done rest ih =>
    rw [← (tick_later m).maxTicks]
    cases hc : m.tick.machine.clock.tickDue with
    | true => exact ih hc hs hstopped
    | false =>
      cases rest with
      | fault due _ _ | next due _ _ _ =>
        rw [hc] at due
        cases due
      | rest =>
        rw [clock_of_tick live done hs] at hc
        by_cases hreached : m.beginTick.limitReached = true
        · cases hm : m.maxTicks with
          | none => exact absurd hreached (Bool.eq_false_iff.mp (limitReached_of_none hm))
          | some limit =>
            refine ⟨limit, (tick_later m).maxTicks.trans hm, ?_⟩
            change limit.toNat ≤ m.tick.machine.stats.ticks
            rw [tick_counted live]
            exact (limitReached_iff hm).mp hreached
        · rw [if_neg hreached, hdue] at hc
          cases hc

end Dispatch

/-! ## Calls of a driver -/

/-- A run on the clock ends when the machine does or its clock is stopped. -/
theorem drive_rests (m : Machine κ) (hs : m.drive.machine.state.isTerminal = false) :
    m.drive.machine.clock.tickDue = false := by
  fun_induction drive m with
  | case1 m hc fault ht =>
    have hended : m.tick.machine.state.isTerminal = true := by
      rw [tick_fault hc.2 ht]
      rfl
    change m.tick.machine.state.isTerminal = false at hs
    rw [hended] at hs
    cases hs
  | case2 m _ _ _ ih => exact ih hs
  | case3 m hc => exact Bool.eq_false_iff.mpr fun hdue => hc ⟨hdue, hs⟩

/-- What a call of a driver keeps of a limit: it counts one tick at the most beyond what was counted
before and what is allowed, and where it ends at the limit before the machine does, the machine is
still running and its clock stands still. -/
structure KeepsLimit (limit : Nat) (m : Machine κ)
    (outcome : Outcome κ (Except Fault Lifecycle)) : Prop where
  ticks_le : outcome.machine.stats.ticks ≤ max (m.stats.ticks + 1) limit
  stopped : m.stats.ticks < outcome.machine.stats.ticks → limit ≤ outcome.machine.stats.ticks →
    outcome.machine.state.isTerminal = false →
      outcome.result = .ok .running ∧ outcome.machine.clock.running = false

omit [Console κ] in
theorem keepsLimit_of_unchanged {m : Machine κ} {outcome : Outcome κ (Except Fault Lifecycle)}
    (h : outcome.machine = m) (limit : Nat) : KeepsLimit limit m outcome where
  ticks_le := by
    rw [h]
    omega
  stopped := by
    rw [h]
    omega

namespace Dispatch

variable {n : Nat} {m : Machine κ} {outcome : Outcome κ (Except Fault Lifecycle)} {limit : UInt64}

/-- A loop begun by a start keeps the limit. -/
theorem keepsLimit (h : Dispatch n m.start.machine outcome) (hs : m.state.isTerminal = false)
    (hlimit : m.maxTicks = some limit) :
    KeepsLimit limit.toNat m (outcome.after m.start.log) := by
  have hlimit' : m.start.machine.maxTicks = some limit := (start_later m).maxTicks.trans hlimit
  have hcount : m.start.machine.stats = m.stats := by rw [start_of_live hs]
  have hrunning : m.start.machine.state = .running := by rw [start_of_live hs]
  have hticks := h.ticks
  have hwithin := h.within hlimit'
  rw [hcount] at hticks hwithin
  constructor
  · change outcome.machine.stats.ticks ≤ _
    omega
  · intro hmore hreached hlive
    change _ < outcome.machine.stats.ticks at hmore
    change _ ≤ outcome.machine.stats.ticks at hreached
    refine ⟨?_, h.stopped hlimit' (by omega) hlive (by rw [hcount]; omega)⟩
    rcases h.answer (.inl hrunning) with ⟨_, _, hfaulted, _⟩ | ⟨hresult, hrunning | hhalted⟩
    · change outcome.machine.state.isTerminal = false at hlive
      rw [hfaulted] at hlive
      cases hlive
    · exact hresult.trans (congrArg Except.ok hrunning)
    · change outcome.machine.state.isTerminal = false at hlive
      rw [hhalted] at hlive
      cases hlive

/-- A loop that dispatches a tick stays within what was counted and what is allowed exactly when the
limit was not used up before. -/
theorem ticks_le_iff (h : Dispatch n m.start.machine outcome) (hs : m.state.isTerminal = false)
    (hlimit : m.maxTicks = some limit) (hn : 0 < n) :
    (outcome.after m.start.log).machine.stats.ticks ≤ max m.stats.ticks limit.toNat ↔
      m.stats.ticks < limit.toNat := by
  have hwithin := (h.keepsLimit hs hlimit).ticks_le
  have hticks : (outcome.after m.start.log).machine.stats.ticks = m.stats.ticks + n := by
    rw [← show m.start.machine.stats = m.stats by rw [start_of_live hs]]
    exact h.ticks
  omega

end Dispatch

/-- A run on the clock that leaves the machine running was ended by the limit. -/
theorem limit_of_running {m : Machine κ} (hr : m.run.result = .ok .running) :
    m.run.machine.state = .running ∧ m.run.machine.clock.running = false ∧
      ∃ limit, m.maxTicks = some limit ∧ limit.toNat ≤ m.run.machine.stats.ticks := by
  cases hs : m.state.isTerminal with
  | true =>
    rw [(run_of_terminal hs).2] at hr
    rw [Except.ok.inj hr] at hs
    cases hs
  | false =>
    obtain ⟨n, _, h⟩ := dispatch_run hs
    change m.start.machine.drive.result = .ok .running at hr
    have hrunning : m.start.machine.drive.machine.state = .running := by
      rcases h.answer (.inl (by rw [start_of_live hs])) with ⟨_, hfault, _⟩ | ⟨hok, _⟩
      · rw [hfault] at hr
        cases hr
      · rw [hok] at hr
        exact Except.ok.inj hr
    have hlive : m.start.machine.drive.machine.state.isTerminal = false := by
      rw [hrunning]
      rfl
    have hrest := drive_rests _ hlive
    obtain ⟨limit, hlimit, hle⟩ := h.limit_of_stopped (start_due hs).1 hlive hrest
    exact ⟨hrunning, hrest, limit, (start_later m).maxTicks.symm.trans hlimit, hle⟩

/-- A driver of a machine with a limit counts one tick at the most beyond the limit and what was
counted before, and where it ends at the limit it leaves the machine running with its clock stopped.
It stays within the limit and what was counted before exactly when the machine has ended already or
has not used up its limit, or when a counted run is given no tick at all. -/
theorem ticks_within_limit {m : Machine κ} {limit : UInt64} (hlimit : m.maxTicks = some limit) :
    KeepsLimit limit.toNat m m.run ∧
    (m.run.result = .ok .running → limit.toNat ≤ m.run.machine.stats.ticks) ∧
    (m.run.machine.stats.ticks ≤ max m.stats.ticks limit.toNat ↔
      m.state.isTerminal = true ∨ m.stats.ticks < limit.toNat) ∧
    ∀ n, KeepsLimit limit.toNat m (m.runUntil n) ∧
      ((m.runUntil n).machine.stats.ticks ≤ max m.stats.ticks limit.toNat ↔
        n = 0 ∨ m.state.isTerminal = true ∨ m.stats.ticks < limit.toNat) := by
  have hended (hr : m.run.result = .ok .running) : limit.toNat ≤ m.run.machine.stats.ticks := by
    obtain ⟨_, _, reached, hreached, hle⟩ := limit_of_running hr
    rw [hlimit] at hreached
    cases hreached
    exact hle
  cases hs : m.state.isTerminal with
  | true =>
    have hran := (run_of_terminal hs).1
    refine ⟨keepsLimit_of_unchanged hran _, hended, ?_, fun n => ?_⟩
    · rw [hran]
      exact iff_of_true (Nat.le_max_left _ _) (.inl rfl)
    · have hcounted := (runUntil_of_terminal hs n).1
      refine ⟨keepsLimit_of_unchanged hcounted _, ?_⟩
      rw [hcounted]
      exact iff_of_true (Nat.le_max_left _ _) (.inr (.inl rfl))
  | false =>
    obtain ⟨_, hpos, hrun⟩ := dispatch_run hs
    have hiff : m.run.machine.stats.ticks ≤ max m.stats.ticks limit.toNat ↔
        m.stats.ticks < limit.toNat := hrun.ticks_le_iff hs hlimit hpos
    refine ⟨hrun.keepsLimit hs hlimit, hended, by simpa using hiff, fun n => ?_⟩
    obtain ⟨k, hle, hpos, hcounted⟩ := dispatch_runUntil hs n
    refine ⟨hcounted.keepsLimit hs hlimit, ?_⟩
    rcases Nat.eq_zero_or_pos n with rfl | hn
    · have hstays : (m.runUntil 0).machine.stats = m.stats := by
        change m.start.machine.stats = _
        rw [start_of_live hs]
      rw [hstays]
      exact iff_of_true (Nat.le_max_left _ _) (.inl rfl)
    · have hiff : (m.runUntil n).machine.stats.ticks ≤ max m.stats.ticks limit.toNat ↔
          m.stats.ticks < limit.toNat := hcounted.ticks_le_iff hs hlimit (hpos hn)
      have hne : n ≠ 0 := by omega
      simpa [hne] using hiff

/-- A machine that has used up its limit of two ticks within a longer program. -/
def usedUp : Machine Recorder :=
  ((create { general := { maxTicks := some 2 } } ({} : Recorder)).performAll
    [.load [1, 1, 1, 1], .run]).machine

theorem ticks_within_limit_used_up :
    usedUp.maxTicks = some 2 ∧ usedUp.stats.ticks = 2 ∧
    KeepsLimit 2 usedUp usedUp.run ∧ usedUp.run.machine.stats.ticks = 3 ∧
    (usedUp.runUntil 0).machine.stats.ticks ≤ 2 := by
  have hlimit : usedUp.maxTicks = some 2 := by decide +kernel
  have hticks : usedUp.stats.ticks = 2 := by decide +kernel
  obtain ⟨hkeeps, _, _, hcounted⟩ := ticks_within_limit hlimit
  have hnone := (hcounted 0).2.mpr (.inl rfl)
  rw [hticks] at hnone
  exact ⟨hlimit, hticks, hkeeps, by decide +kernel, hnone⟩

/-- Drivers go beyond the limit: where no tick is allowed, and where the limit is used up. -/
theorem ticks_beyond_limit :
    (let m := create { general := { maxTicks := some 0 } } ({} : Recorder)
     ¬m.run.machine.stats.ticks ≤ max m.stats.ticks 0 ∧
       ¬(m.runUntil 1).machine.stats.ticks ≤ max m.stats.ticks 0) ∧
    ¬usedUp.run.machine.stats.ticks ≤ max usedUp.stats.ticks 2 := by
  decide +kernel

end ByteMachine.Machine
