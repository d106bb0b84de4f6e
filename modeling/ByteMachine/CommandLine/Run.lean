import ByteMachine.CommandLine.Arguments
import ByteMachine.Simulator
import ByteMachine.Text.Lines

/-! The command line as a function of its surroundings. Program output and everything else are kept
apart: the first goes to standard output, notes and errors to standard error. -/

namespace ByteMachine.CommandLine

/-- What the command line is called with. -/
structure Invocation where
  arguments : List String
  files : FileReader
  /-- The file of settings, when one is named. -/
  configPath : Option String := none
  /-- How much to show, when it is asked for. -/
  verbosity : Option Verbosity := none

/-- What a call leaves: the exit code, the standard output, and the notes with the verbosity at
which they are shown. -/
structure Result where
  code : UInt8
  output : List Char
  verbosity : Verbosity
  notes : List Note

namespace Result

def stdout (result : Result) : String := String.ofList result.output

/-- The text on standard error. -/
def stderr (result : Result) (timing : Timing) : String :=
  Text.unlines (result.notes.flatMap (Note.lines result.verbosity timing))

/-- A call that only prints a text. -/
def ofText (texts : List String) : Result := ⟨0, (Text.unlines texts).toList, .off, []⟩

/-- A call that ends before anything ran. -/
def failure (verbosity : Verbosity) (notes : List Note) (text : String) : Result :=
  ⟨1, [], verbosity, notes ++ [.line text]⟩

end Result

/-- The settings of a call. -/
def Invocation.config (call : Invocation) : Except ConfigError Config :=
  match call.configPath with
  | none => .ok {}
  | some path => Config.read call.files path

/-- Unless asked otherwise, warnings are shown, and with tracing every executed instruction. -/
def Invocation.shown (call : Invocation) (config : Config) : Verbosity :=
  match call.verbosity with
  | some verbosity => verbosity
  | none => if config.general.traceInstructions then .info else .warn

/-- Loads a program file and runs it on a machine that prints to standard output. -/
def runProgram (files : FileReader) (config : Config) (verbosity : Verbosity) (program : String) :
    Result :=
  let configured := [Note.event (.configured config)]
  let loaded := (Simulator.create config ({} : Paper)).loadFile files program
  match loaded.result with
  | .error e => .failure verbosity configured s!"ls8: {e.message}"
  | .ok length =>
      let ran := loaded.simulator.run
      let machine := ran.simulator.machine
      let notes := configured ++ loaded.notes ++
        [.event (.programAccepted program length)] ++ ran.notes
      match ran.result with
      | .ok summary =>
          ⟨0, machine.console.text, verbosity,
            notes ++ [.event (.done summary.state summary.ticks)]⟩
      | .error fault =>
          let report := ["", s!"ls8: FATAL: {fault.message}"] ++ machine.dump
          ⟨1, machine.console.text, verbosity, notes ++ report.map .line⟩

/-- Carries out a call. The settings are read before the program is looked for. -/
def Invocation.result (call : Invocation) : Result :=
  match Request.ofArguments call.arguments with
  | .misuse => .failure .off [] usage
  | .version => .ofText versionText
  | .shortHelp => .ofText shortHelpText
  | .longHelp => .ofText longHelpText
  | .run program =>
      match call.config with
      | .error e => .failure .off [] s!"ls8: {e.message}"
      | .ok config => runProgram call.files config (call.shown config) program

end ByteMachine.CommandLine
