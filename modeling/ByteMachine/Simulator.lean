import ByteMachine.Config.Reader
import ByteMachine.Machine.Report
import ByteMachine.Machine.Run
import ByteMachine.Program

/-! A machine together with the settings it was built from: program text goes in, a summary of the
run comes out, and on the way a list of notes for whoever watches. -/

namespace ByteMachine

/-- Something to be shown beside the output of the program. -/
inductive Note where
  | event (event : Event)
  | statistics (stats : Statistics)
  | line (text : String)

/-- What only the caller can measure: how long the run took, and how many periods had been missed at
the end of the wait that followed so many ticks. -/
structure Timing where
  seconds : String
  missed : Nat → UInt32

namespace Note

/-- The lines that are shown. Only events depend on the verbosity, and of the waits for the clock
only those that missed periods are shown. -/
def lines (verbosity : Verbosity) (timing : Timing) : Note → List String
  | event e =>
      if e.level.shownAt verbosity then
        match e with
        | .clockWaited ticks =>
            let missed := timing.missed ticks
            if 0 < missed then [s!"{e.line} skipped={missed}"] else []
        | _ => [e.line]
      else []
  | statistics stats => stats.report timing.seconds
  | line text => [text]

end Note

/-- A run that did not fault. -/
structure RunSummary where
  state : Lifecycle
  ticks : Nat
  outputs : Nat
  deriving DecidableEq, Repr

structure Simulator (κ : Type) where
  machine : Machine κ
  printStats : Bool

namespace Simulator

/-- What an operation answers, leaves behind and notes. -/
structure Step (κ α : Type) where
  result : α
  simulator : Simulator κ
  notes : List Note := []

variable {κ : Type}

def create (config : Config) (console : κ) : Simulator κ where
  machine := Machine.create config console
  printStats := config.general.printStats

/-! ## Loading -/

/-- Copies a program to address 0 and lists it. The answer is its length. -/
def loadBytes (sim : Simulator κ) (bytes : List UInt8) : Step κ (Except LoadError Nat) :=
  let loaded := sim.machine.load bytes
  let sim := { sim with machine := loaded.machine }
  match loaded.result with
  | .error _ => ⟨.error (.tooLarge bytes.length memorySize), sim, loaded.log.map .event⟩
  | .ok () =>
      let listing := (disassemble bytes).map fun (address, item) => Event.listed address item
      ⟨.ok bytes.length, sim, (loaded.log ++ listing).map .event⟩

def loadText (sim : Simulator κ) (text : String) : Step κ (Except LoadError Nat) :=
  match Program.parse text with
  | .error e => ⟨.error e, sim, []⟩
  | .ok bytes => sim.loadBytes bytes

def loadFile (sim : Simulator κ) (files : FileReader) (path : String) :
    Step κ (Except LoadError Nat) :=
  match Program.read files path with
  | .error e => ⟨.error e, sim, []⟩
  | .ok bytes =>
      let loaded := sim.loadBytes bytes
      { loaded with notes := .event (.programParsed path bytes.length) :: loaded.notes }

/-! ## Running -/

/-- Runs the machine on its clock. The statistics are noted whether or not the run faults. -/
def run [Console κ] (sim : Simulator κ) : Step κ (Except Fault RunSummary) :=
  let ran := sim.machine.run
  let stats := ran.machine.stats
  let notes := ran.log.map .event ++ if sim.printStats then [.statistics stats] else []
  let sim := { sim with machine := ran.machine }
  match ran.result with
  | .error fault => ⟨.error fault, sim, notes⟩
  | .ok state =>
      ⟨.ok ⟨state, stats.ticks, stats.outputs⟩, sim,
        notes ++ [.event (.runFinished state stats.ticks)]⟩

end Simulator

end ByteMachine
