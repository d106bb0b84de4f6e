import ByteMachine.Machine.Command
import ByteMachine.Proofs.Machine.Tick

/-! Commands as sequences of single changes. A run is not one change but a start and a number of
ticks, and a tick of an idle machine first moves it to running; what holds at every state on the
way, also inside a run, is proved of the single changes and carried along by `Steps.preserves`. -/

namespace ByteMachine.Machine

variable {κ : Type}

/-- The kinds of single changes. `wake` is the move to running with which the tick of an idle
machine begins, and `dispatch` is a tick of a running machine. -/
inductive Change where
  | write
  | start
  | stop
  | wake
  | dispatch
  | reset
  deriving DecidableEq, Repr

namespace Change

def all : List Change := [write, start, stop, wake, dispatch, reset]

/-- Every change but a reset. -/
def onward : List Change := [write, start, stop, wake, dispatch]

theorem mem_all (change : Change) : change ∈ all := by
  cases change <;> decide

end Change

/-- The changes that a command is made of. -/
def Command.changes : Command → List Change
  | .load _ | .poke _ _ => [.write]
  | .peek _ | .register _ => []
  | .start => [.start]
  | .stop => [.stop]
  | .tick => [.wake, .dispatch]
  | .run | .runUntil _ => [.start, .dispatch]
  | .reset => [.reset]

theorem Command.changes_onward {command : Command} (hne : command ≠ .reset) :
    command.changes ⊆ Change.onward := by
  cases command with
  | reset => exact absurd rfl hne
  | _ => simp [changes, Change.onward]

theorem start_of_live {m : Machine κ} (hs : m.state.isTerminal = false) :
    m.start.machine = { m with state := .running, clock := m.clock.start } := by
  simp [start, hs]

theorem start_of_terminal {m : Machine κ} (hs : m.state.isTerminal = true) :
    m.start.machine = m := by
  simp [start, hs]

variable [Console κ]

inductive Step : Change → Machine κ → Machine κ → Prop
  | write (m : Machine κ) (memory : Memory) : Step .write m { m with memory }
  | start {m : Machine κ} (live : m.state.isTerminal = false) : Step .start m m.start.machine
  | stop (m : Machine κ) : Step .stop m m.stop
  | wake {m : Machine κ} (idle : m.state = .idle) : Step .wake m { m with state := .running }
  | dispatch {m : Machine κ} (running : m.state = .running) : Step .dispatch m m.tick.machine
  | reset (m : Machine κ) : Step .reset m m.reset

/-- Any number of changes of the allowed kinds. -/
inductive Steps (allowed : List Change) : Machine κ → Machine κ → Prop
  | refl (m : Machine κ) : Steps allowed m m
  | next {change : Change} {m m' m'' : Machine κ} (mem : change ∈ allowed)
      (step : Step change m m') (rest : Steps allowed m' m'') : Steps allowed m m''

namespace Steps

theorem single {allowed : List Change} {change : Change} {m m' : Machine κ}
    (mem : change ∈ allowed) (step : Step change m m') : Steps allowed m m' :=
  .next mem step (.refl m')

theorem trans {allowed : List Change} {m m' m'' : Machine κ} (h : Steps allowed m m')
    (h' : Steps allowed m' m'') : Steps allowed m m'' := by
  induction h with
  | refl => exact h'
  | next mem step _ ih => exact .next mem step (ih h')

theorem mono {allowed allowed' : List Change} (hsub : allowed ⊆ allowed') {m m' : Machine κ}
    (h : Steps allowed m m') : Steps allowed' m m' := by
  induction h with
  | refl m => exact .refl m
  | next mem step _ ih => exact .next (hsub mem) step ih

/-- What every allowed change keeps, any number of them keeps. -/
theorem preserves {allowed : List Change} {P : Machine κ → Prop}
    (hP : ∀ change ∈ allowed, ∀ m m', Step change m m' → P m → P m') {m m' : Machine κ}
    (h : Steps allowed m m') (hm : P m) : P m' := by
  induction h with
  | refl => exact hm
  | next mem step _ ih => exact ih (hP _ mem _ _ step hm)

end Steps

/-! ## Sound machines -/

/-- The program counter stays within memory or just behind it, the clock runs only in a running
machine, a fault is kept exactly in a faulted one, and an idle machine is blank. -/
structure Sound (m : Machine κ) : Prop where
  pc_le : m.pc ≤ 256
  clock_running : m.clock.running = true → m.state = .running
  fault_isSome : m.fault.isSome = true ↔ m.state = .faulted
  idle_blank : m.state = .idle → m.pc = 0 ∧ m.current = 0 ∧ m.registers = Registers.zero ∧
    m.stats = {} ∧ m.clock.running = false

omit [Console κ] in
theorem sound_create (config : Config) (console : κ) : (create config console).Sound where
  pc_le := Nat.zero_le _
  clock_running := nofun
  fault_isSome := by simp [create]
  idle_blank := fun _ => ⟨rfl, rfl, rfl, rfl, rfl⟩

omit [Console κ] in
theorem sound_reset (m : Machine κ) : m.reset.Sound where
  pc_le := Nat.zero_le _
  clock_running := nofun
  fault_isSome := by simp [Machine.reset]
  idle_blank := fun _ => ⟨rfl, rfl, rfl, rfl, rfl⟩

omit [Console κ] in
theorem Sound.fault_eq_none {m : Machine κ} (h : m.Sound) (hs : m.state ≠ .faulted) :
    m.fault = none := by
  have := h.fault_isSome
  cases hf : m.fault with
  | none => rfl
  | some fault => simp_all

theorem memory_turn {m m' : Machine κ} {result : Except Fault Unit} (hturn : Turn m result m') :
    m'.memory = m.memory := by
  cases hturn <;> rfl

/-- A tick of a running machine leaves a sound machine. -/
theorem sound_turn {m m' : Machine κ} {result : Except Fault Unit} (h : m.Sound)
    (hs : m.state = .running) (hturn : Turn m result m') : m'.Sound := by
  have hf := h.fault_eq_none (by rw [hs]; decide)
  cases hturn with
  | faulted cause =>
    exact ⟨h.pc_le, nofun, by simp, nofun⟩
  | halted fetched =>
    exact ⟨h.pc_le, nofun, by simp [hf], nofun⟩
  | advanced fetched running completes =>
    exact ⟨Memory.add_width_le_of_instructionAt fetched, fun _ => rfl, by simp [hf],
      nofun⟩

theorem Step.sound {change : Change} {m m' : Machine κ} (h : Step change m m') (hm : m.Sound) :
    m'.Sound := by
  cases h with
  | write memory => exact ⟨hm.pc_le, hm.clock_running, hm.fault_isSome, hm.idle_blank⟩
  | start live =>
    have hf := hm.fault_eq_none (fun hs => by rw [hs] at live; cases live)
    rw [start_of_live live]
    exact ⟨hm.pc_le, fun _ => rfl, by simp [hf], nofun⟩
  | stop =>
    refine ⟨hm.pc_le, nofun, hm.fault_isSome, fun hi => ?_⟩
    obtain ⟨hp, hc, hr, hs, _⟩ := hm.idle_blank hi
    exact ⟨hp, hc, hr, hs, rfl⟩
  | wake idle =>
    have hf := hm.fault_eq_none (by rw [idle]; decide)
    exact ⟨hm.pc_le, fun _ => rfl, by simp [hf], nofun⟩
  | dispatch running =>
    exact sound_turn hm running (turn_tick (by rw [running]; rfl) hm.pc_le)
  | reset => exact sound_reset m

theorem Steps.sound {allowed : List Change} {m m' : Machine κ} (h : Steps allowed m m')
    (hm : m.Sound) : m'.Sound :=
  h.preserves (fun _ _ _ _ step => step.sound) hm

/-- What every allowed change of a sound machine keeps, any number of them keeps. -/
theorem Steps.keeps {allowed : List Change} {P : Machine κ → Prop}
    (hP : ∀ change ∈ allowed, ∀ m m', Step change m m' → m.Sound → P m → P m')
    {m m' : Machine κ} (h : Steps allowed m m') (hs : m.Sound) (hm : P m) : P m' := by
  have hkept : m'.Sound ∧ P m' := by
    refine h.preserves (P := fun m => m.Sound ∧ P m) ?_ ⟨hs, hm⟩
    rintro change mem m m' step ⟨hs, hm⟩
    exact ⟨step.sound hs, hP change mem m m' step hs hm⟩
  exact hkept.2

/-- Memory is written from outside only. -/
theorem Step.memory {change : Change} {m m' : Machine κ} (h : Step change m m') (hs : m.Sound)
    (hne : change ≠ .write) : m'.memory = m.memory := by
  cases h with
  | write => exact absurd rfl hne
  | start live => rw [start_of_live live]
  | stop | wake | reset => rfl
  | dispatch running =>
    exact memory_turn (turn_tick (by rw [running]; rfl) hs.pc_le)

/-! ## Commands are steps -/

/-- The tick of an idle machine is the tick of that machine moved to running. -/
theorem tick_wake {m : Machine κ} (hs : m.state = .idle) :
    { m with state := .running : Machine κ }.tick = m.tick := by
  have ht : m.state.isTerminal = false := by rw [hs]; rfl
  have hr : { m with state := .running : Machine κ }.state.isTerminal = false := rfl
  cases hi : m.memory.instructionAt m.pc with
  | error fault =>
    rw [tick_of_error ht hi, tick_of_error hr hi]
    rfl
  | ok inst =>
    rw [tick_of_fetched ht hi, tick_of_fetched hr hi]
    rfl

private theorem start_steps (m : Machine κ) : Steps [.start] m m.start.machine := by
  cases hs : m.state.isTerminal with
  | true => rw [start_of_terminal hs]; exact .refl m
  | false => exact .single (by decide) (.start hs)

private theorem tick_steps (m : Machine κ) : Steps [.wake, .dispatch] m m.tick.machine := by
  cases hs : m.state with
  | idle =>
    have hd := Step.dispatch (m := { m with state := .running }) rfl
    rw [tick_wake hs] at hd
    exact .next (by decide) (.wake hs) (.single (by decide) hd)
  | running => exact .single (by decide) (.dispatch hs)
  | halted | faulted =>
    rw [tick_of_terminal (by rw [hs]; rfl)]
    exact .refl m

/-- Where the clock of a sound machine runs, a tick is dispatched in a running machine. -/
private theorem dispatch_step {m : Machine κ} (h : m.Sound) (hc : m.clock.tickDue = true) :
    Step .dispatch m m.tick.machine :=
  .dispatch (h.clock_running hc)

private theorem drive_steps {m : Machine κ} (h : m.Sound) :
    Steps [.dispatch] m m.drive.machine := by
  fun_induction drive m with
  | case1 m hc fault ht =>
    exact .single (by decide) (dispatch_step h hc.1)
  | case2 m hc ht _ ih =>
    have hd := dispatch_step h hc.1
    exact .next (by decide) hd (ih (hd.sound h))
  | case3 m hc => exact .refl m

private theorem driveFor_steps (n : Nat) {m : Machine κ} (h : m.Sound) :
    Steps [.dispatch] m (driveFor n m).machine := by
  induction n generalizing m with
  | zero => exact .refl m
  | succ n ih =>
    simp only [driveFor]
    split
    · rename_i hc
      have hd := dispatch_step h hc
      split
      · exact .single (by decide) hd
      · exact .next (by decide) hd (ih (hd.sound h))
    · exact .refl m

/-- On a sound machine a command is a sequence of the changes listed for it. -/
theorem perform_steps {m : Machine κ} (h : m.Sound) (command : Command) :
    Steps command.changes m (m.perform command).machine := by
  cases command with
  | load bytes =>
    change Steps [.write] m _
    simp only [perform, load, Outcome.map]
    cases m.memory.load 0 bytes with
    | error fault => exact .refl m
    | ok memory => exact .single (by decide) (.write m memory)
  | poke address value =>
    change Steps [.write] m _
    simp only [perform, poke, Outcome.map]
    cases m.memory.write address value with
    | error fault => exact .refl m
    | ok memory => exact .single (by decide) (.write m memory)
  | peek _ | register _ => exact .refl m
  | start => exact start_steps m
  | stop => exact .single (by decide) (.stop m)
  | tick => exact tick_steps m
  | run =>
    have hs := (start_steps m).sound h
    exact ((start_steps m).mono (by decide)).trans ((drive_steps hs).mono (by decide))
  | runUntil n =>
    change Steps [.start, .dispatch] m _
    have hs := (start_steps m).sound h
    exact ((start_steps m).mono (by decide)).trans ((driveFor_steps n hs).mono (by decide))
  | reset => exact .single (by decide) (.reset m)

theorem performAll_append (m : Machine κ) (first second : List Command) :
    (m.performAll (first ++ second)).machine =
      ((m.performAll first).machine.performAll second).machine := by
  induction first generalizing m with
  | nil => rfl
  | cons command first ih => exact ih (m.perform command).machine

/-- A script is a sequence of changes, all of them changes of its commands. -/
theorem performAll_steps {allowed : List Change} (script : List Command)
    (hsub : ∀ command ∈ script, command.changes ⊆ allowed) {m : Machine κ} (h : m.Sound) :
    Steps allowed m (m.performAll script).machine := by
  induction script generalizing m with
  | nil => exact .refl m
  | cons command rest ih =>
    have hfirst := perform_steps h command
    have hrest := ih (fun c hc => hsub c (List.mem_cons_of_mem _ hc)) (hfirst.sound h)
    exact (hfirst.mono (hsub command List.mem_cons_self)).trans hrest

theorem Sound.performAll {m : Machine κ} (h : m.Sound) (script : List Command) :
    (m.performAll script).machine.Sound := by
  have hsteps : Steps Change.all m (m.performAll script).machine :=
    performAll_steps script (fun _ _ change _ => change.mem_all) h
  exact hsteps.sound h

/-- Whatever a script makes of a new machine, it makes by changes. -/
theorem create_steps (config : Config) (console : κ) (script : List Command) :
    Steps Change.all (create config console)
      ((create config console).performAll script).machine :=
  performAll_steps script (fun _ _ change _ => change.mem_all) (sound_create config console)

theorem performAll_sound (config : Config) (console : κ) (script : List Command) :
    ((create config console).performAll script).machine.Sound :=
  (sound_create config console).performAll script

end ByteMachine.Machine
