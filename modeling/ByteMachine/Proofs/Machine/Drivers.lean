import ByteMachine.Proofs.Machine.Dispatch
import ByteMachine.Proofs.Machine.Termination

/-! The ways to drive a machine agree. A run on the clock, a run of counted ticks and single ticks
stop for different reasons, but as a clock under way stands still only at the end or at the tick
limit, they leave the same machine and answer the same. Only a run on the clock waits, and its waits
are all that it reports beside the ticks. -/

namespace ByteMachine

/-- The events that are shown without tracing. -/
def untraced (log : List Event) : List Event := log.filter (·.level != .trace)

theorem untraced_append (log log' : List Event) :
    untraced (log ++ log') = untraced log ++ untraced log' :=
  List.filter_append log log'

namespace Outcome

variable {κ α : Type}

/-- The same outcome without what only tracing shows. -/
def untraced (outcome : Outcome κ α) : Outcome κ α :=
  { outcome with log := ByteMachine.untraced outcome.log }

theorem untraced_after (outcome : Outcome κ α) (log : List Event) :
    (outcome.after log).untraced = outcome.untraced.after (ByteMachine.untraced log) := by
  unfold untraced after
  rw [untraced_append]

end Outcome

namespace Machine

open Outcome (Related)

variable {κ : Type} [Console κ]

/-! ## Waits for the clock -/

omit [Console κ] in
theorem untraced_waitLog (m : Machine κ) : untraced m.waitLog = [] := by
  unfold waitLog
  split <;> rfl

omit [Console κ] in
theorem untraced_start (m : Machine κ) : untraced m.start.log = m.start.log := by
  unfold start
  split <;> rfl

theorem untraced_carryOut (m : Machine κ) (inst : Instruction) :
    untraced (m.carryOut inst).log = (m.carryOut inst).log := by
  have happly (m : Machine κ) : untraced (m.apply inst).log = (m.apply inst).log := by
    cases inst with
    | halt | init | set _ | save _ | mul _ _ | sub _ _ | add _ _ => rfl
    | div a b =>
      simp only [apply]
      split <;> rfl
    | prn =>
      simp only [apply, print]
      split <;> rfl
  have hstep (m : Machine κ) : untraced (m.stepPast inst).log = (m.stepPast inst).log := by
    unfold stepPast
    dsimp only
    split <;> exact happly m
  have hend (m : Machine κ) :
      untraced (m.endTick inst.opcode).log = (m.endTick inst.opcode).log := by
    unfold endTick
    dsimp only
    split <;> rfl
  unfold carryOut
  dsimp only
  split
  · simp only [Outcome.after, untraced_append, hstep]
    rfl
  · simp only [Outcome.after, untraced_append, hstep, hend]

/-- A tick reports nothing that only tracing shows. -/
theorem untraced_tick (m : Machine κ) : untraced m.tick.log = m.tick.log := by
  cases hs : m.state.isTerminal with
  | true =>
    rw [tick_of_terminal hs]
    rfl
  | false =>
    cases hi : m.memory.instructionAt m.pc with
    | error fault =>
      rw [tick_of_error hs hi]
      simp only [Outcome.after, untraced_append, fetchLog]
      split <;> rfl
    | ok inst =>
      rw [tick_of_fetched hs hi]
      simp only [Outcome.after, untraced_append, untraced_carryOut]
      cases ht : m.trace <;> rfl

/-- Without its waits a loop that waits is one that does not. -/
theorem loopFor_untraced (n : Nat) (m : Machine κ) :
    loopFor false n m = (loopFor true n m).untraced := by
  induction n generalizing m with
  | zero => rfl
  | succ n ih =>
    have hlog : untraced (m.waitLog ++ m.tick.log) = [] ++ m.tick.log := by
      rw [untraced_append, untraced_waitLog, untraced_tick]
    simp only [loopFor, ih]
    split
    · split
      · exact congrArg (Outcome.mk _ _) hlog.symm
      · rw [Outcome.untraced_after]
        exact congrArg (Outcome.after _) hlog.symm
    · rfl

/-! ## Runs on the clock and counted runs -/

/-- A counted loop with a tick for each address left and one more is a run on the clock. The first
tick may find the program counter beyond memory; after one that succeeds it no longer can. -/
theorem loopFor_eq_drive {m : Machine κ} {n : Nat}
    (hlive : m.clock.tickDue = true → m.state.isTerminal = false)
    (hn : m.state.isTerminal = false → 1 ≤ n ∧ 257 ≤ m.pc + n) : loopFor true n m = m.drive := by
  induction n generalizing m with
  | zero =>
    have hend : m.state.isTerminal = true := by
      cases hs : m.state.isTerminal with
      | true => rfl
      | false => exact absurd (hn hs).1 (Nat.not_succ_le_zero 0)
    rw [drive_of_rest (by simp [hend])]
    rfl
  | succ n ih =>
    cases hc : m.clock.tickDue with
    | false =>
      rw [drive_of_rest (by simp [hc])]
      simp [loopFor, hc]
    | true =>
      cases ht : m.tick.result with
      | error fault =>
        rw [drive_of_error ⟨hc, hlive hc⟩ ht]
        simp [loopFor, hc, ht]
      | ok done =>
        have hnext : loopFor true n m.tick.machine = m.tick.machine.drive := by
          rcases (turn_ok (hlive hc) ht).of_ok with ⟨_, hm⟩ | ⟨inst, hi, _, _, hm⟩
          · refine ih (fun hdue => ?_) (fun hs => ?_)
            · rw [hm] at hdue
              cases hdue
            · rw [hm] at hs
              cases hs
          · have hwidth := inst.width_pos
            have hfits := Memory.add_width_le_of_instructionAt hi
            have hleft := (hn (hlive hc)).2
            rw [hm]
            refine ih (fun _ => rfl) (fun _ => ?_)
            dsimp only
            omega
        rw [drive_of_ok ⟨hc, hlive hc⟩ ht, ← hnext]
        simp [loopFor, hc, ht]

theorem loopFor_of_live {m : Machine κ} (hs : m.state.isTerminal = false) {n : Nat}
    (hn : 257 ≤ n) : loopFor true n m.start.machine = m.start.machine.drive := by
  refine loopFor_eq_drive ?_ fun _ => ⟨by omega, by omega⟩
  rw [start_of_live hs]
  exact fun _ => rfl

/-- A counted run with a tick for each address and one more is a run on the clock that does not
wait. -/
theorem runUntil_eq_run {m : Machine κ} (hs : m.state.isTerminal = false) {n : Nat}
    (hn : 257 ≤ n) : m.runUntil n = m.run.untraced := by
  rw [runUntil, run, Outcome.untraced_after, untraced_start, driveFor_eq_loopFor,
    loopFor_untraced, loopFor_of_live hs hn]

/-- Every run is a counted loop. -/
theorem run_eq_loopFor (m : Machine κ) : m.run =
    (loopFor true (if m.state.isTerminal then 0 else 257) m.start.machine).after m.start.log := by
  cases hs : m.state.isTerminal with
  | false =>
    simp only [Bool.false_eq_true, if_false, loopFor_of_live hs (Nat.le_refl 257)]
    rfl
  | true =>
    have hrest : m.drive = ⟨.ok m.state, m, []⟩ := drive_of_rest (by simp [hs])
    rw [run, start_of_terminal hs, hrest]
    rfl

theorem runUntil_eq_loopFor (m : Machine κ) (n : Nat) :
    m.runUntil n = (loopFor false n m.start.machine).after m.start.log := by
  rw [runUntil, driveFor_eq_loopFor]

/-! ## Counted runs and single ticks -/

/-- What a driver has to answer after ticks with the given replies that led to the given stage: the
fault among the replies, or the stage when there is none. -/
structure Answers (replies : List Reply) (state : Lifecycle) (result : Except Fault Lifecycle) :
    Prop where
  fault : ∀ fault, result = .error fault ↔ .fault fault ∈ replies
  state : (∀ fault, .fault fault ∉ replies) → result = .ok state

theorem ticks_of_terminal {m : Machine κ} (ht : m.state.isTerminal = true) (n : Nat) :
    (m.performAll (List.replicate n .tick)).machine = m ∧
      (m.performAll (List.replicate n .tick)).result = List.replicate n .done := by
  have htick : m.perform .tick = ⟨.done, m, [.tickRefused m.state]⟩ := by
    simp [perform, tick_of_terminal ht, Outcome.map, Reply.ofUnit]
  induction n with
  | zero => exact ⟨rfl, rfl⟩
  | succ n ih =>
    simp only [List.replicate_succ, performAll, htick, Outcome.after, Outcome.map]
    exact ⟨ih.1, congrArg (Reply.done :: ·) ih.2⟩

theorem answers_of_done (state : Lifecycle) (n : Nat) :
    Answers (List.replicate n .done) state (.ok state) where
  fault := by simp
  state := fun _ => rfl

/-- A counted run of a machine under way is that many ticks. -/
theorem driveFor_ticks {m : Machine κ} (hu : m.UnderWay) (hlimit : m.maxTicks = none) (n : Nat) :
    (driveFor n m).machine = (m.performAll (List.replicate n .tick)).machine ∧
      Answers (m.performAll (List.replicate n .tick)).result
        (m.performAll (List.replicate n .tick)).machine.state (driveFor n m).result := by
  induction n generalizing m with
  | zero => exact ⟨rfl, answers_of_done m.state 0⟩
  | succ n ih =>
    have hterminal := hu.terminal_eq
    cases hc : m.clock.tickDue with
    | false =>
      rw [hc] at hterminal
      obtain ⟨hm, hr⟩ := ticks_of_terminal hterminal (n + 1)
      have hstays : driveFor (n + 1) m = ⟨.ok m.state, m, []⟩ := by simp [driveFor, hc]
      rw [hstays, hm, hr]
      exact ⟨rfl, answers_of_done m.state (n + 1)⟩
    | true =>
      rw [hc] at hterminal
      simp only [List.replicate_succ, performAll, perform, driveFor, hc, if_true, Outcome.after,
        Outcome.map]
      cases ht : m.tick.result with
      | error fault =>
        have hend : m.tick.machine.state.isTerminal = true := by
          rw [(tick_failed hterminal ht).1]
          rfl
        obtain ⟨hm, hr⟩ := ticks_of_terminal hend n
        rw [hm, hr]
        refine ⟨rfl, ?_, ?_⟩
        · simp [Reply.ofUnit, eq_comm]
        · intro hnone
          exact absurd List.mem_cons_self (hnone fault)
      | ok done =>
        obtain ⟨hm, hfault, hstate⟩ := ih (hu.tick hlimit) ((tick_later m).maxTicks.trans hlimit)
        refine ⟨hm, ?_, ?_⟩
        · intro fault
          rw [List.mem_cons, hfault fault]
          simp [Reply.ofUnit]
        · intro hnone
          exact hstate fun fault hmem => hnone fault (List.mem_cons_of_mem _ hmem)

/-- Single ticks do not depend on the clock. -/
theorem ticks_resemble {m m' : Machine κ} (h : Resembles (fun _ _ => True) Eq id m m') (n : Nat) :
    Related (Resembles (fun _ _ => True) Eq id) (m.performAll (List.replicate n .tick))
      (m'.performAll (List.replicate n .tick)) := by
  induction n generalizing m m' with
  | zero => exact ⟨rfl, h, rfl⟩
  | succ n ih =>
    have hlimit : m'.beginTick.limitReached = m.beginTick.limitReached := by
      obtain ⟨_, _, _, _, rfl⟩ := h
      rfl
    have htick := tick_resembles (fun _ _ _ => trivial) Console.alike_eq h fun _ _ _ _ => hlimit
    simp only [List.replicate_succ, performAll, perform, Outcome.map, htick.result, htick.log]
    exact ((ih htick.machine).map _).after _

/-- The first tick starts a machine as far as the program can see. -/
theorem ticks_start {m : Machine κ} (hs : m.state.isTerminal = false) {n : Nat} (hn : 1 ≤ n) :
    Related (Resembles (fun _ _ => True) Eq id) (m.performAll (List.replicate n .tick))
      (m.start.machine.performAll (List.replicate n .tick)) := by
  obtain ⟨n, rfl⟩ := Nat.exists_eq_add_of_le' hn
  have hwake : m.performAll (List.replicate (n + 1) .tick) =
      { m with state := .running : Machine κ }.performAll (List.replicate (n + 1) .tick) := by
    cases hs' : m.state with
    | idle => simp only [List.replicate_succ, performAll, perform, tick_wake hs']
    | running => rw [← hs']
    | halted | faulted => rw [hs'] at hs; cases hs
  rw [hwake, start_of_live hs]
  exact ticks_resemble (m := { m with state := .running })
    ⟨m.clock.start, m.console, trivial, rfl, rfl⟩ (n + 1)

/-- Without a limit a machine under way stays so while it is ticked. -/
theorem UnderWay.ticks {m : Machine κ} (h : m.UnderWay) (hlimit : m.maxTicks = none) (n : Nat) :
    (m.performAll (List.replicate n .tick)).machine.UnderWay := by
  induction n generalizing m with
  | zero => exact h
  | succ n ih => exact ih (h.tick hlimit) ((tick_later m).maxTicks.trans hlimit)

/-- Two counted runs one after the other are one counted run. -/
theorem runUntil_add {m : Machine κ} (hs : m.state.isTerminal = false) (hlimit : m.maxTicks = none)
    (a b : Nat) : ((m.runUntil a).machine.runUntil b).machine = (m.runUntil (a + b)).machine := by
  have hn : m.start.machine.maxTicks = none := (start_later m).maxTicks.trans hlimit
  have hu := underWay_start hs
  let ticked := (m.start.machine.performAll (List.replicate a .tick)).machine
  have hticked : (m.runUntil a).machine = ticked := (driveFor_ticks hu hn a).1
  have hu' : ticked.UnderWay := hu.ticks hn a
  have hn' : ticked.maxTicks = none := (performAll_later _ _).maxTicks.trans hn
  calc ((m.runUntil a).machine.runUntil b).machine
      = (driveFor b ticked.start.machine).machine := by rw [hticked]; rfl
    _ = (driveFor b ticked).machine := by rw [hu'.start_eq]
    _ = (ticked.performAll (List.replicate b .tick)).machine := (driveFor_ticks hu' hn' b).1
    _ = (m.start.machine.performAll (List.replicate (a + b) .tick)).machine := by
        rw [List.replicate_add, performAll_append]
    _ = (m.runUntil (a + b)).machine := (driveFor_ticks hu hn (a + b)).1.symm

/-- Whatever led to a machine that has not ended, a counted run of 257 ticks or more is a run on the
clock, which only reports its waits as well. Without a limit a counted run is that many ticks, but
for the clock, and can be cut in two anywhere. -/
theorem drivers_agree {m : Machine κ} (hm : m.state = .idle ∨ m.state = .running) :
    (∀ n, 257 ≤ n → m.runUntil n = m.run.untraced) ∧
    (m.maxTicks = none →
      (∀ n, 1 ≤ n →
        let ran := m.runUntil n
        let ticks := m.performAll (List.replicate n .tick)
        ran.machine = { ticks.machine with clock := ran.machine.clock } ∧
          Answers ticks.result ran.machine.state ran.result) ∧
      (∀ a b, ((m.runUntil a).machine.runUntil b).machine = (m.runUntil (a + b)).machine)) := by
  have hs : m.state.isTerminal = false := by rcases hm with h | h <;> rw [h] <;> rfl
  refine ⟨fun n hn => runUntil_eq_run hs hn, fun hnone => ⟨fun n hn => ?_, runUntil_add hs hnone⟩⟩
  · intro ran ticks
    have hlimit : m.start.machine.maxTicks = none := (start_later m).maxTicks.trans hnone
    obtain ⟨hran, hanswer⟩ := driveFor_ticks (underWay_start hs) hlimit n
    obtain ⟨hresult, ⟨clock, _, _, rfl, hmachine⟩, _⟩ := ticks_start hs hn
    change ran.machine = _ at hran
    rw [hresult, ← hran] at hanswer
    refine ⟨?_, hanswer⟩
    rw [hran, hmachine]
    rfl

/-- A machine in the middle of a program that prints 8. It was ticked once, so it runs although its
clock stands still. -/
def stepped : Machine Recorder :=
  ((create {} ({} : Recorder)).performAll [.load [1, 4, 8, 6, 0], .tick]).machine

theorem drivers_agree_stepped :
    stepped.state = .running ∧ stepped.run.result = .ok .halted ∧
    stepped.runUntil 300 = stepped.run.untraced ∧
    Answers (stepped.performAll [.tick, .tick]).result .running (stepped.runUntil 2).result ∧
    ((stepped.runUntil 1).machine.runUntil 2).machine = (stepped.runUntil 3).machine := by
  have hrunning : stepped.state = .running := by decide +kernel
  have hbetween : (stepped.runUntil 2).machine.state = .running := by decide +kernel
  obtain ⟨hrun, hfree⟩ := drivers_agree (.inr hrunning)
  obtain ⟨hticks, hadd⟩ := hfree (by decide +kernel)
  refine ⟨hrunning, ?_, hrun 300 (by decide), ?_, hadd 1 2⟩
  · decide +kernel
  · rw [← hbetween]
    exact (hticks 2 (by decide)).2

end Machine

end ByteMachine
