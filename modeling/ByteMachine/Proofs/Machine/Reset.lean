import ByteMachine.Proofs.Isa.Fetch
import ByteMachine.Proofs.Machine.Consoles
import ByteMachine.Proofs.Machine.Settings
import ByteMachine.Proofs.Machine.Steps

/-! What a reset leaves behind. Whatever was done to a machine, also by executing instructions
without a tick, after a reset it does the same as a new machine of the same settings that was
loaded with its memory. -/

namespace ByteMachine

variable {κ κ' : Type}

/-- Clocks of one period of which both run or none does. One may have been started before and the
other not. -/
def Clock.Agrees (clock clock' : Clock) : Prop :=
  clock'.interval = clock.interval ∧ clock'.running = clock.running

theorem Clock.alike_agrees : Clock.Alike Clock.Agrees where
  interval h := h.1
  running h := h.2
  start h := ⟨h.1, rfl⟩
  stop h := ⟨h.1, rfl⟩

/-- Loading all the bytes of a memory gives that memory. -/
theorem Memory.load_toList (mem other : Memory) : other.load 0 mem.toList = .ok mem := by
  have hsame : other.overlay 0 mem.toList = mem := by
    obtain ⟨cells⟩ := mem
    refine congrArg Memory.mk (Vector.ext fun i hi => ?_)
    simp [toList]
  rw [load_eq_ite, if_pos (by rw [length_toList]; decide), hsame]

variable [Console κ] [Console κ']

namespace Watched

omit [Console κ] in
/-- The values that were accepted, oldest first. -/
def printed (watched : Watched κ) : List Float :=
  watched.emissions.filterMap fun (value, answer) => if answer.isOk then some value else none

theorem emit_fed (watched : Watched κ) (value : Float) :
    Console.Fed watched.console (Console.emit watched value).2.console :=
  (Console.Fed.refl _).emit value

omit [Console κ] in
theorem length_printed (watched : Watched κ) : watched.printed.length = watched.accepted := by
  unfold printed accepted
  rw [List.length_filterMap_eq_countP]
  refine List.countP_congr fun emission _ => ?_
  cases hok : emission.2.isOk <;> simp [hok]

theorem printed_emit (watched : Watched κ) (value : Float) :
    (Console.emit watched value).2.printed = watched.printed ++
      if (Console.emit watched.console value).1.isOk then [value] else [] := by
  rw [printed, emissions_emit, List.filterMap_append]
  cases hok : (Console.emit watched.console value).1.isOk <;> simp [printed, hok]

/-- What was printed stays printed. -/
theorem printed_fed {watched watched' : Watched κ} (h : Console.Fed watched watched') :
    watched.printed <+: watched'.printed := by
  induction h with
  | refl => exact List.prefix_rfl
  | emit _ value ih =>
    rw [printed_emit]
    exact ih.trans (List.prefix_append _ _)

end Watched

/-- Two consoles that accept every value, watched since they were given the same values. -/
def Watched.BothAccept (watched : Watched κ) (watched' : Watched κ') : Prop :=
  Console.Accepting watched.console ∧ Console.Accepting watched'.console ∧
    watched'.emissions = watched.emissions

theorem Watched.alike_bothAccept :
    Console.Alike (Watched.BothAccept : Watched κ → Watched κ' → Prop) := by
  rintro watched watched' value ⟨h, h', he⟩
  have ha : (Console.emit watched.console value).1 = .ok () := h _ (.refl _) value
  have ha' : (Console.emit watched'.console value).1 = .ok () := h' _ (.refl _) value
  refine ⟨ha'.trans ha.symm, h.fed (watched.emit_fed value), h'.fed (watched'.emit_fed value), ?_⟩
  rw [emissions_emit, emissions_emit, he, ha, ha']

namespace Machine

open Outcome (Related)

theorem Reply.ofState_injective {result result' : Except Fault Lifecycle}
    (h : Reply.ofState result = Reply.ofState result') : result = result' := by
  cases result <;> cases result' <;> simp_all [Reply.ofState]

/-- The values that the console accepts while a script is carried out, oldest first. -/
def printed (m : Machine κ) (script : List Command) : List Float :=
  (m.watched.performAll script).machine.console.printed

/-! ## Operations -/

/-- What can be done to a machine: a command, or an instruction executed without a tick. -/
inductive Operation where
  | command (command : Command)
  | execute (inst : Instruction)

def operate (m : Machine κ) : Operation → Machine κ
  | .command command => (m.perform command).machine
  | .execute inst => (m.execute inst).machine

def operateAll (m : Machine κ) (operations : List Operation) : Machine κ :=
  operations.foldl operate m

theorem operateAll_later (m : Machine κ) (operations : List Operation) :
    Later m (m.operateAll operations) := by
  induction operations generalizing m with
  | nil => exact .refl m
  | cons operation rest ih =>
    refine Later.trans ?_ (ih (m.operate operation))
    cases operation with
    | command command => exact perform_later m command
    | execute inst => exact execute_later m inst

/-! ## After a reset -/

/-- Machines of the same settings and the same memory on consoles that accept every value. -/
structure Kin (m : Machine κ) (m' : Machine κ') : Prop where
  memory : m'.memory = m.memory
  trace : m'.trace = m.trace
  maxTicks : m'.maxTicks = m.maxTicks
  interval : m'.clock.interval = m.clock.interval
  accepting : Console.Accepting m.console
  accepting' : Console.Accepting m'.console

namespace Kin

variable {m : Machine κ} {m' : Machine κ'}

/-- After a reset such machines differ only in console and deadline, also when they are watched. -/
theorem resembles (h : Kin m m') :
    Resembles Clock.Agrees Watched.BothAccept id m.reset.watched m'.reset.watched := by
  refine ⟨m'.clock.stop, { console := m'.console }, ⟨h.interval, rfl⟩,
    ⟨h.accepting, h.accepting', rfl⟩, ?_⟩
  simp only [watched, connect, reset, h.memory, h.trace, h.maxTicks, id]

theorem performAll (h : Kin m m') (script : List Command) :
    Related (Resembles Clock.Agrees (fun _ _ => True) id) (m.reset.performAll script)
      (m'.reset.performAll script) ∧
    m'.reset.printed script = m.reset.printed script := by
  obtain ⟨hresult, ⟨clock, console, hclock, ⟨_, _, he⟩, hmachine⟩, hlog⟩ :=
    (resembles_simulation Clock.alike_agrees Watched.alike_bothAccept).performAll h.resembles script
  obtain ⟨hr, ⟨_, _, hm⟩, hl⟩ := m.reset.performAll_watched script
  obtain ⟨hr', ⟨_, _, hm'⟩, hl'⟩ := m'.reset.performAll_watched script
  refine ⟨⟨?_, ?_, ?_⟩, ?_⟩
  · rw [hr, hr', hresult]
  · rw [hm, hm', hmachine]
    exact ⟨clock, _, hclock, trivial, rfl⟩
  · rw [hl, hl', hlog]
  · rw [printed, printed, hmachine, Watched.printed, Watched.printed, he]

end Kin

/-- A run, a reset and another run: the second one answers, ends and prints as the first. -/
def RunsAgain (m : Machine κ) : Prop :=
  let again := m.run.machine.reset
  again.run.result = m.run.result ∧ again.run.machine.state = m.run.machine.state ∧
    again.run.machine.fault = m.run.machine.fault ∧ again.printed [.run] = m.printed [.run]

/-- A run keeps the memory of a sound machine. -/
theorem run_memory {m : Machine κ} (hs : m.Sound) : m.run.machine.memory = m.memory := by
  have hsteps : Steps [.start, .dispatch] m m.run.machine := perform_steps hs .run
  refine hsteps.keeps (P := fun m' => m'.memory = m.memory) ?_ hs rfl
  intro change hmem _ _ step hs' he
  exact (step.memory hs' (by rintro rfl; simp at hmem)).trans he

/-- A machine that a reset would not change runs the same a second time. -/
theorem runsAgain {m : Machine κ} (hs : m.Sound) (hreset : m.reset = m)
    (hc : Console.Accepting m.console) : m.RunsAgain := by
  have hlater : Later m m.run.machine := perform_later m .run
  have hkin : Kin m m.run.machine := ⟨run_memory hs, hlater.trace, hlater.maxTicks, hlater.interval,
    hc, hc.fed hlater.console⟩
  obtain ⟨⟨hresult, ⟨_, _, _, _, hmachine⟩, _⟩, hprinted⟩ := hkin.performAll [.run]
  rw [hreset] at hresult hmachine hprinted
  have hrun : m.run.machine.reset.run.machine = _ := hmachine
  refine ⟨?_, ?_, ?_, hprinted⟩
  · have hreply : Reply.ofState m.run.machine.reset.run.result = Reply.ofState m.run.result :=
      (List.cons.inj hresult).1
    exact Reply.ofState_injective hreply
  · rw [hrun]
    rfl
  · rw [hrun]
    rfl

/-- After a reset a machine on an accepting console, whatever was done to it, answers and reports
the same to every script as a new machine of its settings that was loaded with its memory, prints the
same values and resembles it in everything but the console and the deadline of the clock. A run that
is repeated after a reset repeats its answer and what it printed. -/
theorem reset_renews (config : Config) {console : κ} {console' : κ'}
    (hc : Console.Accepting console) (hc' : Console.Accepting console')
    (operations : List Operation) :
    let m := (create config console).operateAll operations
    let new := ((create config console').load m.memory.toList).machine
    (∀ script,
      Related (Resembles Clock.Agrees (fun _ _ => True) id) (new.performAll script)
        (m.reset.performAll script) ∧
      m.reset.printed script = new.printed script) ∧
    m.reset.RunsAgain ∧ new.RunsAgain := by
  intro m new
  have hlater : Later (create config console) m := operateAll_later _ operations
  have hm : Console.Accepting m.console := hc.fed hlater.console
  have hload : new = { create config console' with memory := m.memory } := by
    simp only [new, load, Memory.load_toList]
  have hreset : new.reset = new := by
    rw [hload]
    rfl
  have hkin : Kin new m := by
    rw [hload]
    exact ⟨rfl, hlater.trace, hlater.maxTicks, hlater.interval, hc', hm⟩
  have hsound : new.Sound :=
    (perform_steps (sound_create config console') (.load _)).sound (sound_create config console')
  have hnew : Console.Accepting new.console := by
    rw [hload]
    exact hc'
  refine ⟨fun script => ?_, runsAgain (sound_reset m) rfl hm, runsAgain hsound hreset hnew⟩
  have hsame := hkin.performAll script
  rwa [hreset] at hsame

/-- What was done to a machine before its reset: a program that prints 8 was loaded and cut short by
a `HALT` executed without a tick. -/
def interrupted : List Operation :=
  [.command (.load [1, 4, 8, 6, 0]), .command .tick, .execute (.set 3), .execute .halt]

theorem reset_renews_interrupted :
    Console.Accepting ({} : Recorder) ∧
    (let m := (create {} ({} : Recorder)).operateAll interrupted
     let new := ((create {} ({} : Recorder)).load m.memory.toList).machine
     (m.reset.performAll [.run, .register 0]).result = [.state .halted, .number 8] ∧
       (m.reset.performAll [.run, .register 0]).result =
         (new.performAll [.run, .register 0]).result ∧
       m.reset.printed [.run] = new.printed [.run] ∧ m.reset.RunsAgain) := by
  have haccepting : Console.Accepting ({} : Recorder) := Recorder.accepting rfl
  have hrenewed := reset_renews {} haccepting haccepting interrupted
  refine ⟨haccepting, ?_, (hrenewed.1 [.run, .register 0]).1.result, (hrenewed.1 [.run]).2,
    hrenewed.2.1⟩
  decide +kernel

end Machine

end ByteMachine
