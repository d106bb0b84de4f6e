import Mathlib.Algebra.Order.BigOperators.Group.List
import Mathlib.Algebra.Order.Group.Nat
import ByteMachine.Proofs.Machine.Accounting
import ByteMachine.Proofs.Machine.Settings
import ByteMachine.Proofs.Machine.Simulation

/-! Every machine ends. A tick that is dispatched ends the machine or brings it nearer to the end of
memory, whatever is written to memory before the next one. So there are at most 257 of them before
a reset, the counts stay small, a run without a limit comes to an end, and a limit of 257 or more
is never noticed. -/

namespace ByteMachine

/-- No count exceeds the bound. -/
structure Statistics.Within (stats : Statistics) (bound : Nat) : Prop where
  ticks : stats.ticks ≤ bound
  retired : stats.retired ≤ bound
  outputs : stats.outputs ≤ bound
  mix : ∀ op, stats.mix.count op ≤ bound

/-- The settings with another tick limit. -/
def Config.limited (config : Config) (limit : Option UInt64) : Config :=
  { config with general := { config.general with maxTicks := limit } }

/-- The machine with another tick limit. -/
def Machine.limited {κ : Type} (m : Machine κ) (limit : Option UInt64) : Machine κ :=
  { m with maxTicks := limit }

/-- The same outcome on a machine with another tick limit. -/
def Outcome.limited {κ α : Type} (outcome : Outcome κ α) (limit : Option UInt64) : Outcome κ α :=
  { outcome with machine := outcome.machine.limited limit }

namespace Machine

variable {κ : Type} [Console κ]

/-! ## Paths -/

/-- A way from a machine to another, change by change. -/
inductive Path : List Change → Machine κ → Machine κ → Prop
  | nil (m : Machine κ) : Path [] m m
  | cons {change : Change} {changes : List Change} {m m' m'' : Machine κ}
      (step : Step change m m') (rest : Path changes m' m'') : Path (change :: changes) m m''

theorem Steps.exists_path {allowed : List Change} {m m' : Machine κ} (h : Steps allowed m m') :
    ∃ changes, Path changes m m' ∧ changes ⊆ allowed := by
  induction h with
  | refl m => exact ⟨[], .nil m, List.nil_subset _⟩
  | next mem step _ ih =>
    obtain ⟨changes, hpath, hsub⟩ := ih
    exact ⟨_ :: changes, .cons step hpath, List.cons_subset.mpr ⟨mem, hsub⟩⟩

theorem Path.sound {changes : List Change} {m m' : Machine κ} (h : Path changes m m')
    (hs : m.Sound) : m'.Sound := by
  induction h with
  | nil => exact hs
  | cons step _ ih => exact ih (step.sound hs)

/-! ## The distance to the end -/

omit [Console κ] in
theorem distance_of_live {m : Machine κ} (hs : m.state.isTerminal = false) :
    m.distance = 257 - m.pc := by
  simp [distance, hs]

omit [Console κ] in
theorem distance_of_terminal {m : Machine κ} (hs : m.state.isTerminal = true) :
    m.distance = 0 := by
  simp [distance, hs]

omit [Console κ] in
/-- Only a machine that has ended is at no distance from the end. -/
theorem Sound.terminal_of_distance {m : Machine κ} (h : m.Sound) (hd : m.distance = 0) :
    m.state.isTerminal = true := by
  cases hs : m.state.isTerminal with
  | true => rfl
  | false =>
    have hpc := h.pc_le
    rw [distance_of_live hs] at hd
    omega

theorem distance_turn {m m' : Machine κ} {result : Except Fault Unit} (h : m.Sound)
    (hs : m.state = .running) (hturn : Turn m result m') : m'.distance < m.distance := by
  have hpc := h.pc_le
  have hlive : m.distance = 257 - m.pc := distance_of_live (by rw [hs]; rfl)
  cases hturn with
  | faulted cause =>
    have hend := distance_of_terminal (m := { m with state := .faulted }) rfl
    exact lt_of_eq_of_lt hend (by omega)
  | halted fetched =>
    have hend := distance_of_terminal (m := { m with state := .halted }) rfl
    exact lt_of_eq_of_lt hend (by omega)
  | @advanced inst fetched running completes =>
    have hwidth := inst.width_pos
    have hfits := Memory.add_width_le_of_instructionAt fetched
    have hnext := distance_of_live
      (m := { m with pc := m.pc + inst.width, state := .running }) rfl
    exact lt_of_eq_of_lt hnext (by dsimp only; omega)

theorem ticks_turn {m m' : Machine κ} {result : Except Fault Unit} (hturn : Turn m result m') :
    m'.stats.ticks = m.stats.ticks + 1 := by
  cases hturn with
  | faulted cause => rfl
  | halted fetched => exact Statistics.complete_ticks _ _
  | advanced fetched running completes => exact Statistics.complete_ticks _ _

/-- Every change but a reset keeps the distance or shortens it, and a dispatch shortens it. -/
theorem Step.distance {change : Change} {m m' : Machine κ} (h : Step change m m') (hs : m.Sound)
    (hne : change ≠ .reset) :
    m'.distance + (if change = .dispatch then 1 else 0) ≤ m.distance := by
  cases h with
  | write | stop => exact le_refl _
  | start live =>
    rw [start_of_live live, distance_of_live live]
    exact le_refl _
  | wake idle =>
    rw [distance_of_live (m := m) (by rw [idle]; rfl)]
    exact le_refl _
  | dispatch running =>
    exact distance_turn hs running (turn_tick (by rw [running]; rfl) hs.pc_le)
  | reset => exact absurd rfl hne

/-- A dispatch is counted once, and nothing else is counted. -/
theorem Step.ticks {change : Change} {m m' : Machine κ} (h : Step change m m') (hs : m.Sound)
    (hne : change ≠ .reset) :
    m'.stats.ticks = m.stats.ticks + if change = .dispatch then 1 else 0 := by
  cases h with
  | write | stop | wake => rfl
  | start live =>
    rw [start_of_live live]
    rfl
  | dispatch running =>
    exact ticks_turn (turn_tick (by rw [running]; rfl) hs.pc_le)
  | reset => exact absurd rfl hne

theorem Path.distance {changes : List Change} {m m' : Machine κ} (h : Path changes m m')
    (hs : m.Sound) (hne : .reset ∉ changes) :
    m'.distance + changes.count .dispatch ≤ m.distance := by
  induction h with
  | nil m => simp
  | @cons change changes m m' m'' step _ ih =>
    rw [List.mem_cons, not_or] at hne
    obtain ⟨hfirst, hrest⟩ := hne
    have hstep := step.distance hs (Ne.symm hfirst)
    have htail := ih (step.sound hs) hrest
    rw [List.count_cons]
    simp only [beq_iff_eq]
    omega

theorem Path.ticks {changes : List Change} {m m' : Machine κ} (h : Path changes m m')
    (hs : m.Sound) (hne : .reset ∉ changes) :
    m'.stats.ticks = m.stats.ticks + changes.count .dispatch := by
  induction h with
  | nil m => simp
  | @cons change changes m m' m'' step _ ih =>
    rw [List.mem_cons, not_or] at hne
    obtain ⟨hfirst, hrest⟩ := hne
    have hstep := step.ticks hs (Ne.symm hfirst)
    have htail := ih (step.sound hs) hrest
    rw [List.count_cons]
    simp only [beq_iff_eq]
    omega

/-! ## The counts -/

/-- A sound machine that has 257 ticks at the most, those that were counted and those that may still
come. -/
structure WithinBudget (m : Machine κ) : Prop where
  sound : m.Sound
  ticks_le : m.stats.ticks + m.distance ≤ 257

omit [Console κ] in
theorem create_withinBudget (config : Config) (console : κ) :
    (create config console).WithinBudget :=
  ⟨sound_create config console, le_refl 257⟩

theorem Step.withinBudget {change : Change} {m m' : Machine κ} (h : Step change m m')
    (hb : m.WithinBudget) : m'.WithinBudget := by
  refine ⟨h.sound hb.sound, ?_⟩
  by_cases hne : change = .reset
  · subst hne
    cases h
    exact le_refl 257
  · have hdistance := h.distance hb.sound hne
    have hticks := h.ticks hb.sound hne
    have hle := hb.ticks_le
    omega

theorem Steps.withinBudget {allowed : List Change} {m m' : Machine κ} (h : Steps allowed m m')
    (hb : m.WithinBudget) : m'.WithinBudget :=
  h.preserves (fun _ _ _ _ step => step.withinBudget) hb

theorem WithinBudget.perform {m : Machine κ} (h : m.WithinBudget) (command : Command) :
    (m.perform command).machine.WithinBudget :=
  (perform_steps h.sound command).withinBudget h

omit [Console κ] in
/-- No count of a balanced machine exceeds its ticks. -/
theorem Balanced.counts {m : Machine κ} (h : m.Balanced) {bound : Nat}
    (hticks : m.stats.ticks ≤ bound) : m.stats.Within bound := by
  have hretired : m.stats.retired ≤ bound := by
    rw [h.ticks] at hticks
    omega
  have hmix (op : Opcode) : m.stats.mix.count op ≤ bound := by
    refine le_trans ?_ hretired
    rw [h.retired]
    exact List.single_le_sum (fun _ _ => Nat.zero_le _) _ (List.mem_map_of_mem op.mem_all)
  exact ⟨hticks, hretired, h.outputs ▸ hmix .prn, hmix⟩

/-- From here at most `n` ticks are dispatched before the next reset, and with the last of them the
machine has ended. -/
def EndsWithin (m : Machine κ) (n : Nat) : Prop :=
  ∀ changes m', Path changes m m' → .reset ∉ changes →
    changes.count .dispatch ≤ n ∧ (changes.count .dispatch = n → m'.state.isTerminal = true)

theorem Sound.endsWithin {m : Machine κ} (h : m.Sound) (hs : m.state.isTerminal = false) :
    m.EndsWithin (257 - m.pc) := by
  intro changes m' hpath hne
  have hdistance := hpath.distance h hne
  rw [distance_of_live hs] at hdistance
  refine ⟨by omega, fun hcount => ?_⟩
  exact (hpath.sound h).terminal_of_distance (by omega)

/-! ## Runs come to an end -/

/-- What the loop answers that waits and dispatches a tick as long as the clock runs, and knows no
other reason to stop. A loop that goes on forever answers nothing. -/
inductive Loop : Machine κ → Outcome κ (Except Fault Lifecycle) → Prop
  | rest {m : Machine κ} (stopped : m.clock.tickDue = false) : Loop m ⟨.ok m.state, m, []⟩
  | fault {m : Machine κ} {fault : Fault} (due : m.clock.tickDue = true)
      (failed : m.tick.result = .error fault) :
      Loop m ⟨.error fault, m.tick.machine, m.waitLog ++ m.tick.log⟩
  | next {m : Machine κ} {outcome : Outcome κ (Except Fault Lifecycle)}
      (due : m.clock.tickDue = true) (ticked : m.tick.result = .ok ())
      (rest : Loop m.tick.machine outcome) : Loop m (outcome.after (m.waitLog ++ m.tick.log))

/-- Where the clock of a sound machine runs, a tick is dispatched in a running machine. -/
theorem Sound.tick {m : Machine κ} (h : m.Sound) (hc : m.clock.tickDue = true) :
    m.tick.machine.Sound :=
  (Step.dispatch (h.clock_running hc)).sound h

/-- The loop over a sound machine always answers. -/
theorem loop_drive {m : Machine κ} (h : m.Sound) : Loop m m.drive := by
  fun_induction drive m with
  | case1 m hc fault ht => exact .fault hc.1 ht
  | case2 m hc ht _ ih => exact .next hc.1 ht (ih (h.tick hc.1))
  | case3 m hc =>
    refine .rest (Bool.eq_false_iff.mpr fun hdue => hc ⟨hdue, ?_⟩)
    rw [h.clock_running hdue]
    rfl

/-- A machine under way: its clock was started and runs, or the machine has ended and its clock
stands still. -/
def UnderWay (m : Machine κ) : Prop :=
  m.state.isTerminal = true ∧ m.clock.tickDue = false ∨ m.state = .running ∧ m.clock = m.clock.start

omit [Console κ] in
theorem underWay_start {m : Machine κ} (hs : m.state.isTerminal = false) :
    m.start.machine.UnderWay := by
  rw [start_of_live hs]
  exact .inr ⟨rfl, rfl⟩

omit [Console κ] in
theorem UnderWay.start_eq {m : Machine κ} (h : m.UnderWay) : m.start.machine = m := by
  rcases h with ⟨ht, _⟩ | ⟨hs, hc⟩
  · exact start_of_terminal ht
  · rw [start_of_live (by rw [hs]; rfl), ← hc, ← hs]

omit [Console κ] in
/-- Of a machine under way the clock runs up to the end and no longer. -/
theorem UnderWay.terminal_eq {m : Machine κ} (h : m.UnderWay) :
    m.state.isTerminal = !m.clock.tickDue := by
  rcases h with ⟨ht, hc⟩ | ⟨hs, hc⟩
  · rw [ht, hc]
    rfl
  · rw [hs, hc]
    rfl

/-- Without a limit a machine stays under way. -/
theorem UnderWay.tick {m : Machine κ} (h : m.UnderWay) (hlimit : m.maxTicks = none) :
    m.tick.machine.UnderWay := by
  rcases h with ⟨ht, hc⟩ | ⟨hrun, hc⟩
  · rw [tick_of_terminal ht]
    exact .inl ⟨ht, hc⟩
  · have hfree := limitReached_of_none hlimit
    have hlive : m.state.isTerminal = false := by rw [hrun]; rfl
    cases hr : m.tick.result with
    | error fault =>
      obtain ⟨hs, hstopped⟩ := tick_failed hlive hr
      refine .inl ⟨?_, ?_⟩
      · rw [hs]
        rfl
      · rw [hstopped]
        rfl
    | ok done =>
      rcases (turn_ok hlive hr).of_ok with ⟨_, hm⟩ | ⟨_, _, _, _, hm⟩
      · rw [hm]
        exact .inl ⟨rfl, rfl⟩
      · rw [hm]
        refine .inr ⟨rfl, ?_⟩
        simpa [hfree] using hc

/-- Without a limit a run under way ends with `HALT` or with a fault. -/
theorem drive_result {m : Machine κ} (hu : m.UnderWay) (hlimit : m.maxTicks = none)
    (hf : m.state ≠ .faulted) :
    m.drive.result = .ok .halted ∨ ∃ fault, m.drive.result = .error fault := by
  fun_induction drive m with
  | case1 m hc fault ht => exact .inr ⟨fault, rfl⟩
  | case2 m hc ht _ ih =>
    refine ih (hu.tick hlimit) ((tick_later m).maxTicks.trans hlimit) ?_
    rcases (turn_ok hc.2 ht).of_ok with ⟨_, hm⟩ | ⟨_, _, _, _, hm⟩
    · rw [hm]
      intro h
      cases h
    · rw [hm]
      intro h
      cases h
  | case3 m hc =>
    left
    have hend : m.state.isTerminal = true := by
      have hterminal := hu.terminal_eq
      cases hs : m.state.isTerminal with
      | true => rfl
      | false => simp_all
    cases hs : m.state with
    | halted => rfl
    | faulted => exact absurd hs hf
    | idle | running => rw [hs] at hend; cases hend

/-! ## Limits beyond the budget -/

omit [Console κ] in
/-- Where an instruction lies within memory, the tick that carries it out is not the last one of the
budget, so a limit beyond the budget is not reached by it. -/
theorem WithinBudget.limit_not_reached {m : Machine κ} (h : m.WithinBudget) {limit : UInt64}
    (hl : 257 ≤ limit.toNat) (hs : m.state.isTerminal = false) {inst : Instruction}
    (hi : m.memory.instructionAt m.pc = .ok inst) :
    (m.limited (some limit)).beginTick.limitReached = false := by
  have hfits := Memory.add_width_le_of_instructionAt hi
  have hwidth := inst.width_pos
  have hbudget := h.ticks_le
  rw [distance_of_live hs] at hbudget
  rw [limitReached_beginTick]
  change decide (limit.toNat ≤ m.stats.ticks + 1) = false
  rw [decide_eq_false_iff_not]
  omega

/-- A limit beyond the budget does not change what a machine within the budget does. -/
theorem limited_simulation {limit : UInt64} (hl : 257 ≤ limit.toNat) :
    Simulation fun m m' : Machine κ =>
      m.WithinBudget ∧ m.maxTicks = none ∧ m' = m.limited (some limit) where
  memory := by rintro m _ ⟨_, _, rfl⟩; rfl
  registers := by rintro m _ ⟨_, _, rfl⟩; rfl
  state := by rintro m _ ⟨_, _, rfl⟩; rfl
  tickDue := by rintro m _ ⟨_, _, rfl⟩; rfl
  waitLog := by rintro m _ ⟨_, _, rfl⟩; rfl
  write {m _} memory := by
    rintro ⟨hb, hn, rfl⟩
    exact ⟨(Step.write m memory).withinBudget hb, hn, rfl⟩
  start := by
    rintro m _ ⟨hb, hn, rfl⟩
    refine start_related ⟨hb, hn, rfl⟩ rfl rfl rfl fun hs => ⟨?_, hn, rfl⟩
    rw [← start_of_live hs]
    exact hb.perform .start
  stop := by
    rintro m _ ⟨hb, hn, rfl⟩
    exact ⟨hb.perform .stop, hn, rfl⟩
  tick := by
    rintro m _ ⟨hb, hn, rfl⟩
    have hlike : Resembles Eq Eq (fun _ => some limit) m (m.limited (some limit)) :=
      ⟨_, _, rfl, rfl, rfl⟩
    have hstop : ∀ clock clock' : Clock, clock = clock' → clock.stop = clock'.stop :=
      fun _ _ => Clock.alike_eq.stop
    have hfree := limitReached_of_none hn
    refine (tick_resembles hstop Console.alike_eq hlike fun hs inst hi _ => ?_).mono ?_
    · rw [hb.limit_not_reached hl hs hi, hfree]
    · rintro ⟨_, _, rfl, rfl, he⟩
      exact ⟨hb.perform .tick, (tick_later m).maxTicks.trans hn, he⟩
  reset := by
    rintro m _ ⟨hb, hn, rfl⟩
    exact ⟨hb.perform .reset, hn, rfl⟩

/-- With a limit beyond the budget every script does the same as without a limit. -/
theorem performAll_limited (config : Config) (console : κ) {limit : UInt64}
    (hl : 257 ≤ limit.toNat) (script : List Command) :
    (create (config.limited (some limit)) console).performAll script =
      ((create (config.limited none) console).performAll script).limited (some limit) := by
  have hnew := create_withinBudget (config.limited none) console
  change ((create (config.limited none) console).limited (some limit)).performAll script = _
  obtain ⟨hresult, ⟨_, _, hmachine⟩, hlog⟩ :=
    (limited_simulation hl).performAll ⟨hnew, rfl, rfl⟩ script
  generalize ((create (config.limited none) console).limited (some limit)).performAll script =
    outcome at *
  cases outcome
  cases hresult
  cases hmachine
  cases hlog
  rfl

/-- A machine that has not ended stands before the end of memory or just behind it, and from there
at most one tick for each address left and one more can be dispatched before the next reset,
whatever else is done to it. So no count ever exceeds 257, a run without a limit
answers that the machine has halted or by which fault it has ended, and a limit of 257 or more
makes no difference. -/
theorem termination (config : Config) (console : κ) (script : List Command) :
    let m := ((create config console).performAll script).machine
    (m.state.isTerminal = false → m.EndsWithin (257 - m.pc)) ∧
    (∀ more, .reset ∉ more → ∃ changes, Path changes m (m.performAll more).machine ∧
      .reset ∉ changes ∧
      (m.performAll more).machine.stats.ticks = m.stats.ticks + changes.count .dispatch) ∧
    (∀ m', Steps Change.all m m' → m'.stats.Within 257) ∧
    (config.general.maxTicks = none → m.state.isTerminal = false →
      ∃ outcome, Loop m.start.machine outcome ∧ m.run = outcome.after m.start.log ∧
        (outcome.result = .ok .halted ∨ ∃ fault, outcome.result = .error fault)) ∧
    (∀ limit : UInt64, 257 ≤ limit.toNat →
      (create (config.limited (some limit)) console).performAll script =
        ((create (config.limited none) console).performAll script).limited (some limit)) := by
  intro m
  have hsteps : Steps Change.all (create config console) m := create_steps config console script
  have hbudget := hsteps.withinBudget (create_withinBudget config console)
  refine ⟨hbudget.sound.endsWithin, fun more hmore => ?_, fun m' hm' => ?_, fun hlimit hs => ?_,
    fun limit hl => performAll_limited config console hl script⟩
  · have hallowed : ∀ command ∈ more, command.changes ⊆ Change.onward := fun command hc =>
      Command.changes_onward fun he => hmore (he ▸ hc)
    obtain ⟨changes, hpath, hsub⟩ :=
      (performAll_steps more hallowed hbudget.sound).exists_path
    have hne : .reset ∉ changes := fun hr => by simpa [Change.onward] using hsub hr
    exact ⟨changes, hpath, hne, hpath.ticks hbudget.sound hne⟩
  · have hbalanced : m'.Balanced := (hsteps.trans hm').keeps
      (fun _ _ _ _ step hs hb => step.balanced hs hb) (sound_create config console)
      (balanced_of_blank rfl rfl rfl)
    have hle := (hm'.withinBudget hbudget).ticks_le
    exact hbalanced.counts (by omega)
  · have hstart : m.start.machine.Sound := (hbudget.perform .start).sound
    have hnone : m.start.machine.maxTicks = none :=
      (start_later m).maxTicks.trans ((performAll_later _ script).maxTicks.trans hlimit)
    have hrun : m.start.machine.state ≠ .faulted := by
      rw [start_of_live hs]
      intro h
      cases h
    exact ⟨_, loop_drive hstart, rfl, drive_result (underWay_start hs) hnone hrun⟩

end Machine

end ByteMachine
