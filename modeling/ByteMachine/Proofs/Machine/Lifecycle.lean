import ByteMachine.Proofs.Machine.Steps

/-! The life of a machine. Whatever commands are given in whatever order, every state on the way
is sound, a stage is entered only by the change meant for it, and a machine that has ended keeps
everything but its memory until it is reset. -/

namespace ByteMachine.Machine

variable {κ : Type}

/-- How a change may lead into another stage: to idle only by a reset, to an end only by the tick
of a running machine, and to halted only where the program counter stands at the byte of
`HALT`. -/
structure Entry (change : Change) (m m' : Machine κ) : Prop where
  idle : m'.state = .idle → change = .reset
  halted : m'.state = .halted → change = .dispatch ∧ m.state = .running ∧
    m.memory.read m.pc = .ok Opcode.halt.byte
  faulted : m'.state = .faulted → change = .dispatch ∧ m.state = .running

theorem entry_of_running {change : Change} {m m' : Machine κ} (hs : m'.state = .running) :
    Entry change m m' :=
  ⟨fun h => by simp [hs] at h, fun h => by simp [hs] at h, fun h => by simp [hs] at h⟩

variable [Console κ]

theorem entry_of_turn {m m' : Machine κ} {result : Except Fault Unit} (hs : m.state = .running)
    (hturn : Turn m result m') : Entry .dispatch m m' := by
  cases hturn with
  | faulted cause => exact ⟨nofun, nofun, fun _ => ⟨rfl, hs⟩⟩
  | halted fetched =>
    exact ⟨nofun, fun _ => ⟨rfl, hs, Memory.read_of_instructionAt fetched⟩, nofun⟩
  | advanced fetched running completes => exact entry_of_running rfl

/-- A change of stage is an entry that is meant for it. -/
theorem Step.entry {change : Change} {m m' : Machine κ} (h : Step change m m') (hm : m.Sound)
    (hne : m'.state ≠ m.state) : Entry change m m' := by
  cases h with
  | write memory => exact absurd rfl hne
  | start live =>
    rw [start_of_live live]
    exact entry_of_running rfl
  | stop => exact absurd rfl hne
  | wake idle => exact entry_of_running rfl
  | dispatch running =>
    exact entry_of_turn running (turn_tick (by rw [running]; rfl) hm.pc_le)
  | reset =>
    have hidle : m.reset.state = .idle := rfl
    exact ⟨fun _ => rfl, fun h => by simp [hidle] at h, fun h => by simp [hidle] at h⟩

omit [Console κ] in
theorem clock_of_terminal {m : Machine κ} (h : m.Sound) (ht : m.state.isTerminal = true) :
    m.clock.running = false := by
  cases hr : m.clock.running with
  | false => rfl
  | true =>
    rw [h.clock_running hr] at ht
    cases ht

omit [Console κ] in
theorem stop_of_terminal {m : Machine κ} (h : m.Sound) (ht : m.state.isTerminal = true) :
    m.stop = m := by
  have hk : m.clock.stop = m.clock := by rw [Clock.stop, ← clock_of_terminal h ht]
  rw [stop, hk]

theorem driveFor_of_terminal (n : Nat) {m : Machine κ} (h : m.Sound)
    (ht : m.state.isTerminal = true) : driveFor n m = ⟨.ok m.state, m, []⟩ := by
  cases n with
  | zero => rfl
  | succ n => simp [driveFor, Clock.tickDue, clock_of_terminal h ht]

/-- A machine that has ended is left as it is by every command but a reset, except that its memory
may be written. -/
theorem perform_of_terminal {m : Machine κ} (h : m.Sound) (ht : m.state.isTerminal = true)
    {command : Command} (hne : command ≠ .reset) :
    (m.perform command).machine = { m with memory := (m.perform command).machine.memory } ∧
      (.write ∉ command.changes → (m.perform command).machine = m) := by
  have hframe (hm : (m.perform command).machine = m) :
      (m.perform command).machine = { m with memory := (m.perform command).machine.memory } ∧
        (.write ∉ command.changes → (m.perform command).machine = m) :=
    ⟨by rw [hm], fun _ => hm⟩
  have hstart := start_of_terminal ht
  cases command with
  | load bytes =>
    refine ⟨?_, fun hw => absurd List.mem_cons_self hw⟩
    simp only [perform, load, Outcome.map]
    cases m.memory.load 0 bytes <;> rfl
  | poke address value =>
    refine ⟨?_, fun hw => absurd List.mem_cons_self hw⟩
    simp only [perform, poke, Outcome.map]
    cases m.memory.write address value <;> rfl
  | peek _ | register _ => exact hframe rfl
  | start => exact hframe hstart
  | stop => exact hframe (stop_of_terminal h ht)
  | tick =>
    apply hframe
    simp only [perform, Outcome.map, tick_of_terminal ht]
  | run =>
    apply hframe
    have hdrive : m.drive = ⟨.ok m.state, m, []⟩ := drive_of_rest (by simp [ht])
    simp only [perform, run, Outcome.map, Outcome.after, hstart, hdrive]
  | runUntil n =>
    apply hframe
    simp only [perform, runUntil, Outcome.map, Outcome.after, hstart, driveFor_of_terminal n h ht]
  | reset => exact absurd rfl hne

/-- Every machine that commands make of a new one is sound, and so is every machine on the way
through a command; there each change of stage is an entry meant for it; and once the machine has
ended, nothing but a reset moves it, though its memory may still be written. -/
theorem lifecycle (config : Config) (console : κ) (script : List Command) :
    let m := ((create config console).performAll script).machine
    (∀ command, Steps command.changes m (m.perform command).machine) ∧
    (∀ m', Steps Change.all m m' → m'.Sound ∧
      ∀ change m'', Step change m' m'' → m''.state ≠ m'.state → Entry change m' m'') ∧
    (m.state.isTerminal = true → ∀ command, command ≠ .reset →
      (m.perform command).machine = { m with memory := (m.perform command).machine.memory } ∧
        (.write ∉ command.changes → (m.perform command).machine = m)) := by
  intro m
  have hm : m.Sound := performAll_sound config console script
  refine ⟨fun command => perform_steps hm command, fun m' hsteps => ?_, fun ht command hne => ?_⟩
  · have hm' := hsteps.sound hm
    exact ⟨hm', fun change m'' hstep hne => hstep.entry hm' hne⟩
  · exact perform_of_terminal hm ht hne

end ByteMachine.Machine
