import ByteMachine.Proofs.Machine.Tick

/-! Settings that matter only for what is reported. A machine with another tracing or another
period reports other events, but it answers the same and comes to the same machine otherwise. A
tick is the only operation where this has to be looked at instruction by instruction. -/

namespace ByteMachine

variable {κ α : Type}

namespace Machine

/-- The machine with another tracing and another period of its clock. -/
def restyle (m : Machine κ) (trace : Bool) (interval : UInt64) : Machine κ :=
  { m with trace, clock := { m.clock with interval } }

end Machine

/-- Outcomes that answer the same and leave machines that differ in tracing and period alone. What
they report may differ. -/
structure Outcome.Restyled (trace : Bool) (interval : UInt64) (outcome outcome' : Outcome κ α) :
    Prop where
  result : outcome'.result = outcome.result
  machine : outcome'.machine = outcome.machine.restyle trace interval

namespace Machine

open Outcome (Restyled)

/-- A new machine is a new machine of other settings restyled, if the tick limit is the same. -/
theorem create_restyle {config settings : Config}
    (h : settings.general.maxTicks = config.general.maxTicks) (console : κ) :
    create config console = (create settings console).restyle config.general.traceInstructions
      config.clock.intervalMs := by
  unfold create restyle
  rw [h]

variable (trace : Bool) (interval : UInt64)

theorem load_restyle (m : Machine κ) (bytes : List UInt8) :
    Restyled trace interval (m.load bytes) ((m.restyle trace interval).load bytes) := by
  have hmemory : (m.restyle trace interval).memory = m.memory := rfl
  unfold load
  rw [hmemory]
  cases m.memory.load 0 bytes with
  | error fault => exact ⟨rfl, rfl⟩
  | ok memory => exact ⟨rfl, rfl⟩

theorem start_restyle (m : Machine κ) :
    Restyled trace interval m.start (m.restyle trace interval).start := by
  have hstate : (m.restyle trace interval).state = m.state := rfl
  unfold start
  rw [hstate]
  cases m.state.isTerminal with
  | true => exact ⟨rfl, rfl⟩
  | false => exact ⟨rfl, rfl⟩

variable [Console κ]

theorem apply_restyle (m : Machine κ) (inst : Instruction) :
    Restyled trace interval (m.apply inst) ((m.restyle trace interval).apply inst) := by
  have hregisters : (m.restyle trace interval).registers = m.registers := rfl
  cases inst with
  | halt | init | set _ | save _ | mul _ _ | sub _ _ | add _ _ => exact ⟨rfl, rfl⟩
  | div a b =>
    simp only [apply, hregisters]
    split
    · exact ⟨rfl, rfl⟩
    · exact ⟨rfl, rfl⟩
  | prn =>
    have hconsole : (m.restyle trace interval).console = m.console := rfl
    have hcurrent : (m.restyle trace interval).current = m.current := rfl
    simp only [apply, print, hregisters, hconsole, hcurrent]
    cases Console.emit m.console (m.registers.read m.current) with
    | mk answer console =>
      cases answer with
      | error reason => exact ⟨rfl, rfl⟩
      | ok done => exact ⟨rfl, rfl⟩

theorem stepPast_restyle (m : Machine κ) (inst : Instruction) :
    Restyled trace interval (m.stepPast inst) ((m.restyle trace interval).stepPast inst) := by
  have happly := apply_restyle trace interval m inst
  unfold stepPast
  dsimp only
  rw [happly.result]
  split
  · refine ⟨rfl, ?_⟩
    rw [happly.machine]
    rfl
  · exact happly

omit [Console κ] in
theorem endTick_restyle (m : Machine κ) (op : Opcode) :
    Restyled trace interval (m.endTick op) ((m.restyle trace interval).endTick op) := by
  have hlimit : Machine.limitReached
      { m.restyle trace interval with stats := m.stats.record op } =
        Machine.limitReached { m with stats := m.stats.record op } := rfl
  unfold endTick
  dsimp only
  rw [show (m.restyle trace interval).stats = m.stats from rfl, hlimit,
    show (m.restyle trace interval).state = m.state from rfl]
  split
  · exact ⟨rfl, rfl⟩
  · exact ⟨rfl, rfl⟩

theorem carryOut_restyle (m : Machine κ) (inst : Instruction) :
    Restyled trace interval (m.carryOut inst) ((m.restyle trace interval).carryOut inst) := by
  have hexec := stepPast_restyle trace interval m.beginTick inst
  have hbegin : (m.restyle trace interval).beginTick = m.beginTick.restyle trace interval := rfl
  unfold carryOut
  dsimp only
  rw [hbegin, hexec.result]
  cases (m.beginTick.stepPast inst).result with
  | error fault =>
    refine ⟨rfl, ?_⟩
    simp only [Outcome.after, hexec.machine]
    rfl
  | ok done =>
    have hend := endTick_restyle trace interval
      (m.beginTick.stepPast inst).machine inst.opcode
    rw [← hexec.machine] at hend
    exact ⟨hend.result, hend.machine⟩

theorem tick_restyle (m : Machine κ) :
    Restyled trace interval m.tick (m.restyle trace interval).tick := by
  cases hs : m.state.isTerminal with
  | true =>
    rw [tick_of_terminal hs, tick_of_terminal (by exact hs)]
    exact ⟨rfl, rfl⟩
  | false =>
    cases hi : m.memory.instructionAt m.pc with
    | error fault =>
      rw [tick_of_error hs hi, tick_of_error (by exact hs) (by exact hi)]
      exact ⟨rfl, rfl⟩
    | ok inst =>
      have h := carryOut_restyle trace interval m inst
      rw [tick_of_fetched hs hi, tick_of_fetched (by exact hs) (by exact hi)]
      exact ⟨h.result, h.machine⟩

theorem drive_restyle (m : Machine κ) :
    Restyled trace interval m.drive (m.restyle trace interval).drive := by
  fun_induction drive m with
  | case1 m hc fault ht =>
    have htick := tick_restyle trace interval m
    rw [drive_of_error (by exact hc) (htick.result.trans ht)]
    exact ⟨rfl, htick.machine⟩
  | case2 m hc ht _ ih =>
    have htick := tick_restyle trace interval m
    rw [drive_of_ok (by exact hc) (htick.result.trans ht), htick.machine]
    exact ⟨ih.result, ih.machine⟩
  | case3 m hc =>
    rw [drive_of_rest (by exact hc)]
    exact ⟨rfl, rfl⟩

/-- Tracing and period do not matter for what a run does. -/
theorem run_restyle (m : Machine κ) :
    Restyled trace interval m.run (m.restyle trace interval).run := by
  have hstart := start_restyle trace interval m
  have hdrive := drive_restyle trace interval m.start.machine
  rw [← hstart.machine] at hdrive
  exact ⟨hdrive.result, hdrive.machine⟩

end Machine

end ByteMachine
