import ByteMachine.Proofs.Machine.Dispatch
import ByteMachine.Simulator.Command

/-! What a run of a simulator answers. It answers a fault exactly when the run itself ends by it; on
a machine that has faulted before, nothing is dispatched, and the run answers the faulted stage as
if it were an outcome like any other. -/

namespace ByteMachine.Simulator

variable {κ : Type} [Console κ]

/-! ## Sound machines -/

theorem sound_load {m : Machine κ} (h : m.Sound) (bytes : List UInt8) :
    (m.load bytes).machine.Sound :=
  (Machine.perform_steps h (.load bytes)).sound h

theorem sound_loadBytes {sim : Simulator κ} (h : sim.machine.Sound) (bytes : List UInt8) :
    (sim.loadBytes bytes).simulator.machine.Sound := by
  unfold loadBytes
  dsimp only
  split <;> exact sound_load h bytes

/-- A run of the simulator is one of its machine. -/
theorem run_machine (sim : Simulator κ) : sim.run.simulator.machine = sim.machine.run.machine := by
  unfold run
  dsimp only
  split <;> rfl

theorem sound_perform {sim : Simulator κ} (h : sim.machine.Sound) (command : Command) :
    (sim.perform command).machine.Sound := by
  cases command with
  | loadText text =>
    simp only [perform, loadText]
    split
    · exact h
    · exact sound_loadBytes h _
  | loadFile files path =>
    simp only [perform, loadFile]
    split
    · exact h
    · exact sound_loadBytes h _
  | machine command => exact (Machine.perform_steps h command).sound h
  | run =>
    simp only [perform, run_machine]
    exact (Machine.perform_steps h .run).sound h

/-- Whatever is done to a simulator, its machine is sound. -/
theorem sound_performAll {sim : Simulator κ} (h : sim.machine.Sound) (script : List Command) :
    (sim.performAll script).machine.Sound := by
  induction script generalizing sim with
  | nil => exact h
  | cons command rest ih => exact ih (sound_perform h command)

/-! ## Answers of a run -/

theorem run_of_ok {sim : Simulator κ} {state : Lifecycle}
    (h : sim.machine.run.result = .ok state) :
    sim.run.result = .ok ⟨state, sim.machine.run.machine.stats.ticks,
      sim.machine.run.machine.stats.outputs⟩ := by
  unfold run
  dsimp only
  rw [h]

theorem run_of_error {sim : Simulator κ} {fault : Fault}
    (h : sim.machine.run.result = .error fault) : sim.run.result = .error fault := by
  unfold run
  dsimp only
  rw [h]

/-- Whatever was done to a simulator before, on a machine that has not faulted its run answers a
fault exactly when it leaves the machine faulted by it, and otherwise a summary of a machine that
has halted or is running, without a fault. On a machine that has faulted the run changes nothing and
answers a summary of the faulted stage. -/
theorem run_reports_fault (config : Config) (console : κ) (script : List Command) :
    let sim := (create config console).performAll script
    let left := sim.run.simulator.machine
    (sim.machine.state ≠ .faulted →
      (∀ fault, sim.run.result = .error fault ↔
        left.state = .faulted ∧ left.fault = some fault) ∧
      ∀ summary, sim.run.result = .ok summary →
        summary = ⟨left.state, left.stats.ticks, left.stats.outputs⟩ ∧
          (summary.state = .halted ∨ summary.state = .running) ∧ left.fault = none) ∧
    (sim.machine.state = .faulted →
      left = sim.machine ∧ (∃ fault, left.fault = some fault) ∧
        sim.run.result = .ok ⟨.faulted, left.stats.ticks, left.stats.outputs⟩) := by
  intro sim left
  have hs : sim.machine.Sound := sound_performAll (Machine.sound_create config console) script
  have hleft : left = sim.machine.run.machine := sim.run_machine
  rw [hleft]
  refine ⟨fun hne => ?_, fun hfaulted => ?_⟩
  · rcases Machine.run_answer hs hne with ⟨fault, hr, hstate, hfault⟩ | ⟨hr, hstage, hfault⟩
    · rw [run_of_error hr, hfault]
      exact ⟨by simp [hstate], nofun⟩
    · rw [run_of_ok hr, hfault]
      refine ⟨by simp, fun summary hsummary => ?_⟩
      obtain rfl := Except.ok.inj hsummary
      exact ⟨rfl, hstage.symm, rfl⟩
  · have hterminal : sim.machine.state.isTerminal = true := by
      rw [hfaulted]
      rfl
    obtain ⟨hm, hr⟩ := Machine.run_of_terminal hterminal
    have hkept := Option.isSome_iff_exists.mp (hs.fault_isSome.mpr hfaulted)
    rw [run_of_ok hr, hm, hfaulted]
    exact ⟨rfl, hkept, rfl⟩

theorem run_reports_fault_unregistered :
    let sim := (create {} ({} : Recorder)).performAll [.loadText "11111111"]
    let left := sim.run.simulator.machine
    sim.machine.state ≠ .faulted ∧ left.state = .faulted ∧
      left.fault = some (.invalidInstruction 255 0) ∧
      sim.run.result = .error (.invalidInstruction 255 0) := by
  intro sim left
  have hlive : sim.machine.state ≠ .faulted := by decide +kernel
  have hleft : left.state = .faulted ∧ left.fault = some (.invalidInstruction 255 0) := by
    decide +kernel
  obtain ⟨hreports, -⟩ := run_reports_fault {} ({} : Recorder) [.loadText "11111111"]
  exact ⟨hlive, hleft.1, hleft.2, ((hreports hlive).1 _).mpr hleft⟩

/-- A run after a fault hides it: the machine is left faulted, but what is answered is a summary. -/
theorem second_run_hides_fault :
    let sim := (create {} ({} : Recorder)).performAll [.loadText "11111111", .run]
    let left := sim.run.simulator.machine
    left.state = .faulted ∧ left.fault = some (.invalidInstruction 255 0) ∧
      ¬(sim.run.result = .error (.invalidInstruction 255 0)) ∧
      ∃ summary, sim.run.result = .ok summary ∧
        ¬(summary.state = .halted ∨ summary.state = .running) := by
  intro sim left
  have hstate : sim.machine.state = .faulted := by decide +kernel
  have hfault : sim.machine.fault = some (.invalidInstruction 255 0) := by decide +kernel
  have hterminal : sim.machine.state.isTerminal = true := by
    rw [hstate]
    rfl
  obtain ⟨hm, hr⟩ := Machine.run_of_terminal hterminal
  have hleft : left = sim.machine := sim.run_machine.trans hm
  rw [hleft, run_of_ok hr]
  exact ⟨hstate, hfault, nofun, _, rfl, by simp [hstate]⟩

end ByteMachine.Simulator
