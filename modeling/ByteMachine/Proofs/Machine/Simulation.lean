import ByteMachine.Machine.Command
import ByteMachine.Proofs.Machine.Tick

/-! Two machines side by side. A relation that the single operations keep is kept by runs and by
whole scripts, which then answer and report the same on both machines (`Simulation.performAll`).
The relations needed most are between machines that differ in the clock, in the console and in the
tick limit alone; for these one lemma about a tick is enough (`tick_resembles`). -/

namespace ByteMachine

variable {κ κ' : Type}

namespace Outcome

variable {α β : Type} {R : Machine κ → Machine κ' → Prop} {outcome : Outcome κ α}
  {outcome' : Outcome κ' α}

/-- Outcomes that answer and report the same and leave related machines. -/
structure Related (R : Machine κ → Machine κ' → Prop) (outcome : Outcome κ α)
    (outcome' : Outcome κ' α) : Prop where
  result : outcome'.result = outcome.result
  machine : R outcome.machine outcome'.machine
  log : outcome'.log = outcome.log

theorem Related.after (h : Related R outcome outcome') (log : List Event) :
    Related R (outcome.after log) (outcome'.after log) :=
  ⟨h.result, h.machine, congrArg (log ++ ·) h.log⟩

theorem Related.map (h : Related R outcome outcome') (f : α → β) :
    Related R (outcome.map f) (outcome'.map f) :=
  ⟨congrArg f h.result, h.machine, h.log⟩

theorem Related.mono {R' : Machine κ → Machine κ' → Prop} (h : Related R outcome outcome')
    (hR : R outcome.machine outcome'.machine → R' outcome.machine outcome'.machine) :
    Related R' outcome outcome' :=
  ⟨h.result, hR h.machine, h.log⟩

end Outcome

/-- Related consoles give the same answer to every value, and are related again afterwards. -/
def Console.Alike [Console κ] [Console κ'] (R : κ → κ' → Prop) : Prop :=
  ∀ console console' value, R console console' →
    (emit console' value).1 = (emit console value).1 ∧
      R (emit console value).2 (emit console' value).2

/-- Related clocks have the same period and run together, and stay related when both are started
and when both are stopped. -/
structure Clock.Alike (C : Clock → Clock → Prop) : Prop where
  interval {clock clock' : Clock} : C clock clock' → clock'.interval = clock.interval
  running {clock clock' : Clock} : C clock clock' → clock'.running = clock.running
  start {clock clock' : Clock} : C clock clock' → C clock.start clock'.start
  stop {clock clock' : Clock} : C clock clock' → C clock.stop clock'.stop

theorem Clock.alike_eq : Clock.Alike Eq where
  interval h := congrArg Clock.interval h.symm
  running h := congrArg Clock.running h.symm
  start h := congrArg Clock.start h
  stop h := congrArg Clock.stop h

theorem Console.alike_eq [Console κ] : Console.Alike (Eq (α := κ)) := by
  rintro console _ value rfl
  exact ⟨rfl, rfl⟩

variable [Console κ] [Console κ']

namespace Machine

open Outcome (Related)

/-! ## From operations to scripts -/

/-- A relation that the single operations keep, between machines with the same memory, registers
and stage whose clocks run together. -/
structure Simulation (R : Machine κ → Machine κ' → Prop) : Prop where
  memory {m : Machine κ} {m' : Machine κ'} : R m m' → m'.memory = m.memory
  registers {m : Machine κ} {m' : Machine κ'} : R m m' → m'.registers = m.registers
  state {m : Machine κ} {m' : Machine κ'} : R m m' → m'.state = m.state
  tickDue {m : Machine κ} {m' : Machine κ'} : R m m' → m'.clock.tickDue = m.clock.tickDue
  waitLog {m : Machine κ} {m' : Machine κ'} : R m m' → m'.waitLog = m.waitLog
  write {m : Machine κ} {m' : Machine κ'} (memory : Memory) : R m m' →
    R { m with memory } { m' with memory }
  start {m : Machine κ} {m' : Machine κ'} : R m m' → Related R m.start m'.start
  stop {m : Machine κ} {m' : Machine κ'} : R m m' → R m.stop m'.stop
  tick {m : Machine κ} {m' : Machine κ'} : R m m' → Related R m.tick m'.tick
  reset {m : Machine κ} {m' : Machine κ'} : R m m' → R m.reset m'.reset

namespace Simulation

variable {R : Machine κ → Machine κ' → Prop} {m : Machine κ} {m' : Machine κ'}

theorem drive (h : Simulation R) (hm : R m m') : Related R m.drive m'.drive := by
  fun_induction Machine.drive m generalizing m' with
  | case1 m hc fault ht =>
    have htick := h.tick hm
    rw [← h.tickDue hm, ← h.state hm] at hc
    rw [drive_of_error hc (htick.result.trans ht), h.waitLog hm, htick.log]
    exact ⟨rfl, htick.machine, rfl⟩
  | case2 m hc ht _ ih =>
    have htick := h.tick hm
    rw [← h.tickDue hm, ← h.state hm] at hc
    rw [drive_of_ok hc (htick.result.trans ht), h.waitLog hm, htick.log]
    exact (ih htick.machine).after _
  | case3 m hc =>
    rw [← h.tickDue hm, ← h.state hm] at hc
    rw [drive_of_rest hc, h.state hm]
    exact ⟨rfl, hm, rfl⟩

theorem driveFor (h : Simulation R) (n : Nat) (hm : R m m') :
    Related R (Machine.driveFor n m) (Machine.driveFor n m') := by
  induction n generalizing m m' with
  | zero => exact ⟨congrArg Except.ok (h.state hm), hm, rfl⟩
  | succ n ih =>
    have htick := h.tick hm
    simp only [Machine.driveFor, h.tickDue hm, htick.result, htick.log]
    split
    · cases m.tick.result with
      | error fault => exact ⟨rfl, htick.machine, rfl⟩
      | ok done => exact (ih htick.machine).after _
    · exact ⟨congrArg Except.ok (h.state hm), hm, rfl⟩

theorem run (h : Simulation R) (hm : R m m') : Related R m.run m'.run := by
  have hstart := h.start hm
  rw [Machine.run, Machine.run, hstart.log]
  exact (h.drive hstart.machine).after _

theorem runUntil (h : Simulation R) (hm : R m m') (n : Nat) :
    Related R (m.runUntil n) (m'.runUntil n) := by
  have hstart := h.start hm
  rw [Machine.runUntil, Machine.runUntil, hstart.log]
  exact (h.driveFor n hstart.machine).after _

theorem perform (h : Simulation R) (hm : R m m') (command : Command) :
    Related R (m.perform command) (m'.perform command) := by
  cases command with
  | load bytes =>
    simp only [Machine.perform, load, h.memory hm]
    cases m.memory.load 0 bytes with
    | error fault => exact ⟨rfl, hm, rfl⟩
    | ok memory => exact ⟨rfl, h.write memory hm, rfl⟩
  | poke address value =>
    simp only [Machine.perform, poke, h.memory hm]
    cases m.memory.write address value with
    | error fault => exact ⟨rfl, hm, rfl⟩
    | ok memory => exact ⟨rfl, h.write memory hm, rfl⟩
  | peek address =>
    refine ⟨?_, hm, rfl⟩
    simp only [Machine.perform, peek, h.memory hm]
  | register index =>
    refine ⟨?_, hm, rfl⟩
    simp only [Machine.perform, register, h.registers hm]
  | start => exact (h.start hm).map fun _ => Reply.done
  | stop => exact ⟨rfl, h.stop hm, rfl⟩
  | tick => exact (h.tick hm).map Reply.ofUnit
  | run => exact (h.run hm).map Reply.ofState
  | runUntil n => exact (h.runUntil hm n).map Reply.ofState
  | reset => exact ⟨rfl, h.reset hm, rfl⟩

/-- Machines in a simulation do the same on every script. -/
theorem performAll (h : Simulation R) (hm : R m m') (script : List Command) :
    Related R (m.performAll script) (m'.performAll script) := by
  induction script generalizing m m' with
  | nil => exact ⟨rfl, hm, rfl⟩
  | cons command rest ih =>
    have hfirst := h.perform hm command
    simp only [Machine.performAll, hfirst.result, hfirst.log]
    exact ((ih hfirst.machine).map _).after _

end Simulation

omit [Console κ] [Console κ'] in
/-- A start keeps a relation between machines of the same stage, place and period if it keeps it
where both clocks are started. -/
theorem start_related {R : Machine κ → Machine κ' → Prop} {m : Machine κ} {m' : Machine κ'}
    (h : R m m') (hstate : m'.state = m.state) (hpc : m'.pc = m.pc)
    (hinterval : m'.clock.interval = m.clock.interval)
    (hstarted : m.state.isTerminal = false →
      R { m with state := .running, clock := m.clock.start }
        { m' with state := .running, clock := m'.clock.start }) : Related R m.start m'.start := by
  have hlog : m'.start.log = m.start.log := by
    simp only [start, hstate, hpc, hinterval]
    split <;> rfl
  refine ⟨rfl, ?_, hlog⟩
  cases hs : m.state.isTerminal with
  | true => simpa only [start, hstate, hs, if_true] using h
  | false => simpa only [start, hstate, hs, Bool.false_eq_true, if_false] using hstarted hs

/-! ## Clock, console and limit -/

/-- Machines that differ in nothing but their clocks and consoles, which are related, and their
tick limits. -/
def Resembles (C : Clock → Clock → Prop) (R : κ → κ' → Prop)
    (limit : Option UInt64 → Option UInt64) (m : Machine κ) (m' : Machine κ') : Prop :=
  ∃ clock console, C m.clock clock ∧ R m.console console ∧
    m' = { m with clock, console, maxTicks := limit m.maxTicks }

section

variable {C : Clock → Clock → Prop} {R : κ → κ' → Prop} {limit : Option UInt64 → Option UInt64}
  {m : Machine κ} {m' : Machine κ'}

omit [Console κ'] in
theorem stepPast_limitReached (m : Machine κ) (inst : Instruction) :
    (m.stepPast inst).machine.limitReached = m.limitReached := by
  have happly : (m.apply inst).machine.limitReached = m.limitReached := by
    have huntouched := apply_untouched m inst
    rw [limitReached, limitReached, huntouched.maxTicks, huntouched.ticks]
  unfold stepPast
  dsimp only
  split <;> exact happly

private theorem apply_resembles (hC : ∀ clock clock', C clock clock' → C clock.stop clock'.stop)
    (h : Resembles C R limit m m') (inst : Instruction)
    (hanswer : inst = .prn → m'.answer.1 = m.answer.1 ∧ R m.answer.2 m'.answer.2) :
    Related (Resembles C R limit) (m.apply inst) (m'.apply inst) := by
  obtain ⟨clock, console, hc, hr, rfl⟩ := h
  cases inst with
  | init | set _ | save _ | mul _ _ | sub _ _ | add _ _ =>
    exact ⟨rfl, ⟨clock, console, hc, hr, rfl⟩, rfl⟩
  | halt => exact ⟨rfl, ⟨clock.stop, console, hC _ _ hc, hr, rfl⟩, rfl⟩
  | div a b =>
    simp only [apply]
    split
    · exact ⟨rfl, ⟨clock, console, hc, hr, rfl⟩, rfl⟩
    · exact ⟨rfl, ⟨clock, console, hc, hr, rfl⟩, rfl⟩
  | prn =>
    obtain ⟨ha, hr⟩ := hanswer rfl
    simp only [apply, print]
    unfold answer at ha hr
    cases hm : Console.emit m.console (m.registers.read m.current) with
    | mk result rest =>
      cases hm' : Console.emit console (m.registers.read m.current) with
      | mk result' rest' =>
        rw [hm, hm'] at ha hr
        cases ha
        cases result <;> exact ⟨rfl, ⟨clock, rest', hc, hr, rfl⟩, rfl⟩

private theorem stepPast_resembles (hC : ∀ clock clock', C clock clock' → C clock.stop clock'.stop)
    (h : Resembles C R limit m m') (inst : Instruction)
    (hanswer : inst = .prn → m'.answer.1 = m.answer.1 ∧ R m.answer.2 m'.answer.2) :
    Related (Resembles C R limit) (m.stepPast inst) (m'.stepPast inst) := by
  have happly := apply_resembles hC h inst hanswer
  unfold stepPast
  dsimp only
  rw [happly.result]
  split
  · obtain ⟨clock, console, hc, hr, he⟩ := happly.machine
    refine ⟨rfl, ⟨clock, console, hc, hr, ?_⟩, happly.log⟩
    rw [he]
  · exact happly

omit [Console κ] [Console κ'] in
private theorem endTick_resembles
    (hC : ∀ clock clock', C clock clock' → C clock.stop clock'.stop)
    (h : Resembles C R limit m m')
    (hlimit : m.state.isTerminal = true ∨ m'.limitReached = m.limitReached) (op : Opcode) :
    Related (Resembles C R limit) (m.endTick op) (m'.endTick op) := by
  obtain ⟨clock, console, hc, hr, rfl⟩ := h
  have hstops : (Machine.limitReached
        { m with clock, console, maxTicks := limit m.maxTicks, stats := m.stats.record op } &&
      !m.state.isTerminal) =
      (Machine.limitReached { m with stats := m.stats.record op } && !m.state.isTerminal) := by
    rcases hlimit with ht | hl
    · simp only [ht, Bool.not_true, Bool.and_false]
    · exact congrArg (· && !m.state.isTerminal) hl
  unfold endTick
  dsimp only
  rw [hstops]
  split
  · exact ⟨rfl, ⟨clock.stop, console, hC _ _ hc, hr, rfl⟩, rfl⟩
  · exact ⟨rfl, ⟨clock, console, hc, hr, rfl⟩, rfl⟩

private theorem carryOut_resembles
    (hC : ∀ clock clock', C clock clock' → C clock.stop clock'.stop)
    (h : Resembles C R limit m m') (inst : Instruction)
    (hanswer : inst = .prn → m'.answer.1 = m.answer.1 ∧ R m.answer.2 m'.answer.2)
    (hlimit : inst ≠ .halt → m'.beginTick.limitReached = m.beginTick.limitReached) :
    Related (Resembles C R limit) (m.carryOut inst) (m'.carryOut inst) := by
  have hbegun : Resembles C R limit m.beginTick m'.beginTick := by
    obtain ⟨clock, console, hc, hr, rfl⟩ := h
    exact ⟨clock, console, hc, hr, rfl⟩
  have hexec := stepPast_resembles hC hbegun inst hanswer
  have hlimit : (m.beginTick.stepPast inst).machine.state.isTerminal = true ∨
      (m'.beginTick.stepPast inst).machine.limitReached =
        (m.beginTick.stepPast inst).machine.limitReached := by
    by_cases hi : inst = .halt
    · subst hi
      exact .inl rfl
    · rw [stepPast_limitReached, stepPast_limitReached]
      exact .inr (hlimit hi)
  simp only [carryOut, hexec.result, hexec.log]
  cases (m.beginTick.stepPast inst).result with
  | error fault =>
    obtain ⟨clock, console, hc, hr, he⟩ := hexec.machine
    rw [he]
    exact ⟨rfl, ⟨clock.stop, console, hC _ _ hc, hr, rfl⟩, rfl⟩
  | ok done => exact (endTick_resembles hC hexec.machine hlimit inst.opcode).after _

/-- A tick does not look at the clock, the console only answers `PRN`, and the limit matters only
where an instruction other than `HALT` is carried out. -/
theorem tick_resembles_of_answer (hC : ∀ clock clock', C clock clock' → C clock.stop clock'.stop)
    (h : Resembles C R limit m m')
    (hanswer : m.state.isTerminal = false → m.memory.instructionAt m.pc = .ok .prn →
      m'.answer.1 = m.answer.1 ∧ R m.answer.2 m'.answer.2)
    (hlimit : m.state.isTerminal = false → ∀ inst, m.memory.instructionAt m.pc = .ok inst →
      inst ≠ .halt → m'.beginTick.limitReached = m.beginTick.limitReached) :
    Related (Resembles C R limit) m.tick m'.tick := by
  have h' := h
  obtain ⟨clock, console, hc, hr, rfl⟩ := h'
  cases hs : m.state.isTerminal with
  | true =>
    rw [tick_of_terminal hs, tick_of_terminal (by exact hs)]
    exact ⟨rfl, h, rfl⟩
  | false =>
    cases hi : m.memory.instructionAt m.pc with
    | error fault =>
      rw [tick_of_error hs hi, tick_of_error (by exact hs) (by exact hi)]
      exact ⟨rfl, ⟨clock.stop, console, hC _ _ hc, hr, rfl⟩, rfl⟩
    | ok inst =>
      rw [tick_of_fetched hs hi, tick_of_fetched (by exact hs) (by exact hi)]
      have hanswer (hp : inst = .prn) := hanswer hs (hp ▸ hi)
      exact (carryOut_resembles hC h inst hanswer (hlimit hs inst hi)).after _

/-- On consoles that are alike a tick is answered alike whatever it prints. -/
theorem tick_resembles (hC : ∀ clock clock', C clock clock' → C clock.stop clock'.stop)
    (hR : Console.Alike R) (h : Resembles C R limit m m')
    (hlimit : m.state.isTerminal = false → ∀ inst, m.memory.instructionAt m.pc = .ok inst →
      inst ≠ .halt → m'.beginTick.limitReached = m.beginTick.limitReached) :
    Related (Resembles C R limit) m.tick m'.tick := by
  refine tick_resembles_of_answer hC h (fun _ _ => ?_) hlimit
  obtain ⟨_, console, _, hr, rfl⟩ := h
  exact hR _ _ (m.registers.read m.current) hr

/-- Machines of the same limit on clocks and consoles that are alike do the same. -/
theorem resembles_simulation (hC : Clock.Alike C) (hR : Console.Alike R) :
    Simulation (Resembles C R id) where
  memory := by rintro m _ ⟨_, _, _, _, rfl⟩; rfl
  registers := by rintro m _ ⟨_, _, _, _, rfl⟩; rfl
  state := by rintro m _ ⟨_, _, _, _, rfl⟩; rfl
  tickDue := by
    rintro m _ ⟨_, _, hc, _, rfl⟩
    exact hC.running hc
  waitLog := by
    rintro m _ ⟨_, _, hc, _, rfl⟩
    simp only [waitLog, hC.interval hc]
  write memory := by
    rintro ⟨clock, console, hc, hr, rfl⟩
    exact ⟨clock, console, hc, hr, rfl⟩
  start := by
    rintro m _ ⟨clock, console, hc, hr, rfl⟩
    refine start_related ⟨clock, console, hc, hr, rfl⟩ rfl rfl (hC.interval hc) fun _ => ?_
    exact ⟨clock.start, console, hC.start hc, hr, rfl⟩
  stop := by
    rintro m _ ⟨clock, console, hc, hr, rfl⟩
    exact ⟨clock.stop, console, hC.stop hc, hr, rfl⟩
  tick := by
    rintro m _ ⟨clock, console, hc, hr, rfl⟩
    exact tick_resembles (fun _ _ => hC.stop) hR ⟨clock, console, hc, hr, rfl⟩
      fun _ _ _ _ => rfl
  reset := by
    rintro m _ ⟨clock, console, hc, hr, rfl⟩
    exact ⟨clock.stop, console, hC.stop hc, hr, rfl⟩

end

end Machine

end ByteMachine
