import ByteMachine.Machine.Command
import ByteMachine.Simulator

/-! Simulators under the hands of a user. The machine of a simulator is open to every command of its
own; beside them there are the loading of program text and files and the run of the simulator. -/

namespace ByteMachine

namespace Simulator

inductive Command where
  | loadText (text : String)
  | loadFile (files : FileReader) (path : String)
  | machine (command : Machine.Command)
  | run

variable {κ : Type} [Console κ]

/-- The simulator that a command leaves. -/
def perform (sim : Simulator κ) : Command → Simulator κ
  | .loadText text => (sim.loadText text).simulator
  | .loadFile files path => (sim.loadFile files path).simulator
  | .machine command => { sim with machine := (sim.machine.perform command).machine }
  | .run => sim.run.simulator

def performAll (sim : Simulator κ) (script : List Command) : Simulator κ :=
  script.foldl perform sim

end Simulator

end ByteMachine
