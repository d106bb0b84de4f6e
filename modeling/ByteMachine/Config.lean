import ByteMachine.Clock

/-! The settings of a run and their defaults. -/

namespace ByteMachine

structure GeneralConfig where
  /-- Report every executed instruction at the level of ordinary information. -/
  traceInstructions : Bool := false
  /-- Stop the clock after this many ticks. -/
  maxTicks : Option UInt64 := none
  /-- Report the statistics when a run ends. -/
  printStats : Bool := false
  deriving DecidableEq, Repr

structure ClockConfig where
  /-- The period of the clock in milliseconds. -/
  intervalMs : UInt64 := 500
  deriving DecidableEq, Repr

structure Config where
  general : GeneralConfig := {}
  clock : ClockConfig := {}
  deriving DecidableEq, Repr

namespace Config

/-- The settings as nested records with every field named. -/
def describe (config : Config) : String :=
  let limit :=
    match config.general.maxTicks with
    | none => "None"
    | some n => s!"Some({n.toNat})"
  let general :=
    s!"trace_instructions: {config.general.traceInstructions}, max_ticks: {limit}, " ++
      s!"print_stats: {config.general.printStats}"
  "Config \x7b general: GeneralConfig \x7b " ++ general ++
    " \x7d, clock: ClockConfig \x7b interval_ms: " ++ toString config.clock.intervalMs.toNat ++
    " \x7d \x7d"

end Config

end ByteMachine
