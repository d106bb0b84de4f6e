import ByteMachine.CommandLine.Run
import ByteMachine.Proofs.Machine.Consoles
import ByteMachine.Proofs.Machine.Display
import ByteMachine.Proofs.Program.Grammar
import ByteMachine.Proofs.Simulator.Answers
import ByteMachine.Proofs.Simulator.Loading

/-! Standard output and exit code of a call that names a program. They are those of a machine that
records its values, built from any settings with the same tick limit: standard output is only
another console (`written_alike`), and of the other settings nothing reaches a run but what is
reported (`run_restyle`). Everything that is reported goes elsewhere. -/

namespace ByteMachine

/-! ## Standard output as a console -/

/-- The lines of some values. -/
def Paper.lines (values : List Float) : List Char :=
  values.flatMap fun value => (Number.text value).toList ++ ['\n']

/-- A text without bounds that holds the lines of all recorded values. -/
def Paper.Holds (recorder : Recorder) (paper : Paper) : Prop :=
  recorder.refusal = none ∧ paper = { text := Paper.lines recorder.values }

/-- Writing a value answers what recording it answers. -/
theorem Paper.holds_alike : Console.Alike Paper.Holds := by
  rintro ⟨values, refusal⟩ paper value ⟨hrefusal, rfl⟩
  obtain rfl : refusal = none := hrefusal
  have hrecorded : Console.emit (⟨values, none⟩ : Recorder) value =
      (.ok (), ⟨values ++ [value], none⟩) := rfl
  have hwritten : Console.emit ({ text := Paper.lines values } : Paper) value =
      (.ok (), { text := Paper.lines (values ++ [value]) }) := by
    have htake : List.take ((Number.text value).toList.length + 1)
        ((Number.text value).toList ++ ['\n']) = (Number.text value).toList ++ ['\n'] := by
      apply List.take_of_length_le
      simp
    show Paper.emit _ value = _
    simp [Paper.emit, Paper.write, Paper.fitting, Paper.flush, Paper.lines, htake]
  rw [hrecorded, hwritten]
  exact ⟨rfl, rfl, rfl⟩

namespace Machine

/-- The run of a new machine on some bytes. -/
def runOf {κ : Type} [Console κ] (config : Config) (console : κ) (bytes : List UInt8) :
    Outcome κ (Except Fault Lifecycle) :=
  ((create config console).load bytes).machine.run

/-- Settings other than the tick limit change neither the result of a run nor its console. -/
theorem runOf_restyle {κ : Type} [Console κ] {config settings : Config}
    (h : settings.general.maxTicks = config.general.maxTicks) (console : κ) (bytes : List UInt8) :
    (runOf config console bytes).result = (runOf settings console bytes).result ∧
    (runOf config console bytes).machine.console =
      (runOf settings console bytes).machine.console := by
  have hload := load_restyle config.general.traceInstructions config.clock.intervalMs
    (create settings console) bytes
  have hrun := run_restyle config.general.traceInstructions config.clock.intervalMs
    ((create settings console).load bytes).machine
  rw [← hload.machine, ← create_restyle h] at hrun
  refine ⟨hrun.result, ?_⟩
  rw [runOf, hrun.machine]
  rfl

/-- A run on standard output writes the lines of the values that a recorder would keep. -/
theorem runOf_written (config : Config) (bytes : List UInt8) :
    (runOf config ({} : Paper) bytes).result = (runOf config ({} : Recorder) bytes).result ∧
    (runOf config ({} : Paper) bytes).machine.console.text =
      Paper.lines (runOf config ({} : Recorder) bytes).machine.console.values := by
  have hnew : Resembles Eq Paper.Holds id (create config ({} : Recorder))
      (create config ({} : Paper)) := ⟨_, _, rfl, ⟨rfl, rfl⟩, rfl⟩
  have hsim := resembles_simulation Clock.alike_eq Paper.holds_alike
  have hload := (hsim.perform hnew (.load bytes)).machine
  obtain ⟨hresult, ⟨_, console, -, ⟨-, rfl⟩, hmachine⟩, -⟩ := hsim.run hload
  exact ⟨hresult, congrArg (fun m => m.console.text) hmachine⟩

end Machine

/-! ## The simulator -/

namespace Simulator

variable {κ : Type} [Console κ]

theorem run_result (sim : Simulator κ) :
    (∃ fault, sim.run.result = .error fault ∧ sim.machine.run.result = .error fault) ∨
      ∃ summary state, sim.run.result = .ok summary ∧ sim.machine.run.result = .ok state := by
  unfold run
  dsimp only
  cases hrun : sim.machine.run.result with
  | error fault => exact .inl ⟨fault, rfl, rfl⟩
  | ok state => exact .inr ⟨_, state, rfl, rfl⟩

end Simulator

namespace CommandLine

/-! ## What a call asks for -/

/-- An argument that does not begin with a dash is no option. -/
theorem ofString_of_not_dash {text : String} (h : text.toList.head? ≠ some '-') :
    Argument.ofString text = .positional text := by
  have hne (option : String) (hoption : option.toList.head? = some '-') :
      (text == option) = false := by
    rw [beq_eq_false_iff_ne]
    rintro rfl
    exact h hoption
  rw [Argument.ofString, hne "--" (by decide), hne "--help" (by decide),
    hne "--version" (by decide)]
  simp only [Bool.false_eq_true, if_false]
  split
  next hlist => simp [hlist] at h
  next hlist => simp [hlist] at h
  next => rfl

theorem ofArguments_program {program : String} (hname : program ≠ "")
    (hdash : program.toList.head? ≠ some '-') :
    Request.ofArguments [program] = .run program := by
  have hempty : program.isEmpty = false := by simp [hname]
  simp [Request.ofArguments, readArguments, ofString_of_not_dash hdash, takeProgram, hempty]

/-! ## What a call leaves -/

/-- The exit code of a run: 1 when it faults. -/
def codeOf {α : Type} : Except Fault α → UInt8
  | .ok _ => 0
  | .error _ => 1

theorem runProgram_of_error {files : FileReader} {program : String} {e : LoadError}
    (h : Program.read files program = .error e) (config : Config) (verbosity : Verbosity) :
    (runProgram files config verbosity program).output = [] ∧
      (runProgram files config verbosity program).code = 1 := by
  have hload := (Simulator.create config ({} : Paper)).loadFile_of_error h
  unfold runProgram
  dsimp only
  rw [hload]
  exact ⟨rfl, rfl⟩

theorem runProgram_of_ok {files : FileReader} {program : String} {bytes : List UInt8}
    (h : Program.read files program = .ok bytes) (config : Config) (verbosity : Verbosity) :
    (runProgram files config verbosity program).output =
        (Machine.runOf config ({} : Paper) bytes).machine.console.text ∧
      (runProgram files config verbosity program).code =
        codeOf (Machine.runOf config ({} : Paper) bytes).result := by
  obtain ⟨hresult, hmachine⟩ := (Simulator.create config ({} : Paper)).loadFile_of_ok h
  have hran : Machine.runOf config ({} : Paper) bytes =
      ((Simulator.create config ({} : Paper)).loadFile files program).simulator.machine.run := by
    rw [hmachine]
    rfl
  unfold runProgram
  dsimp only
  rw [hresult, hran, ← Simulator.run_machine]
  generalize ((Simulator.create config ({} : Paper)).loadFile files program).simulator = sim
  rcases sim.run_result with ⟨fault, hsim, hrun⟩ | ⟨summary, state, hsim, hrun⟩
  · rw [hsim, hrun]
    exact ⟨rfl, rfl⟩
  · rw [hsim, hrun]
    exact ⟨rfl, rfl⟩

/-- Standard output and exit code as they follow from the settings and the program file. -/
def expected (config : Except ConfigError Config) (program : Except LoadError (List UInt8)) :
    String × UInt8 :=
  match config, program with
  | .ok config, .ok bytes =>
      let ran := Machine.runOf config ({} : Recorder) bytes
      (String.ofList (Paper.lines ran.machine.console.values), codeOf ran.result)
  | _, _ => ("", 1)

/-- Of the settings only the tick limit counts. -/
theorem expected_of_maxTicks {config settings : Except ConfigError Config}
    (h : settings.toOption.map (·.general.maxTicks) = config.toOption.map (·.general.maxTicks))
    (program : Except LoadError (List UInt8)) :
    expected config program = expected settings program := by
  cases config with
  | error e =>
    cases settings with
    | error e' => rfl
    | ok settings => simp [Except.toOption] at h
  | ok config =>
    cases settings with
    | error e => simp [Except.toOption] at h
    | ok settings =>
      cases program with
      | error e => rfl
      | ok bytes =>
        obtain ⟨hresult, hconsole⟩ :=
          Machine.runOf_restyle (Option.some.inj h) ({} : Recorder) bytes
        simp only [expected, hresult, hconsole]

section

variable {call : Invocation} {program : String}

/-- What a call that names a program leaves. -/
theorem result_of_program (hargs : call.arguments = [program]) (hname : program ≠ "")
    (hdash : program.toList.head? ≠ some '-') :
    (call.result.stdout, call.result.code) =
      expected call.config (Program.read call.files program) := by
  unfold Invocation.result
  rw [hargs, ofArguments_program hname hdash]
  dsimp only
  cases hconfig : call.config with
  | error e => rfl
  | ok config =>
    dsimp only
    cases hread : Program.read call.files program with
    | error e =>
      obtain ⟨houtput, hcode⟩ := runProgram_of_error hread config (call.shown config)
      rw [Result.stdout, houtput, hcode]
      rfl
    | ok bytes =>
      obtain ⟨houtput, hcode⟩ := runProgram_of_ok hread config (call.shown config)
      obtain ⟨hresult, htext⟩ := Machine.runOf_written config bytes
      rw [Result.stdout, houtput, hcode, hresult, htext]
      rfl

/-- A call that names a program writes nothing and fails if there are no settings or no program.
Otherwise it writes the lines of the values that a recording machine of the same tick limit is given
when it runs the program, whatever its other settings are, and fails if this run faults. So calls
with the same program file and the same tick limit cannot be told apart by standard output and exit
code, whatever else their settings and the verbosity ask to be shown. -/
theorem output_of_call (hargs : call.arguments = [program]) (hname : program ≠ "")
    (hdash : program.toList.head? ≠ some '-') :
    (match call.config, Program.read call.files program with
      | .ok config, .ok bytes =>
          ∀ settings : Config, settings.general.maxTicks = config.general.maxTicks →
            let loaded := (Machine.create settings ({} : Recorder)).load bytes
            let ran := loaded.machine.run
            loaded.result = .ok () ∧
            call.result.stdout = String.ofList
              (ran.machine.console.values.flatMap fun value =>
                (Number.text value).toList ++ ['\n']) ∧
            call.result.code = codeOf ran.result
      | _, _ => call.result.stdout = "" ∧ call.result.code = 1) ∧
    ∀ other : Invocation, other.arguments = [program] →
      other.files program = call.files program →
      other.config.toOption.map (·.general.maxTicks) =
        call.config.toOption.map (·.general.maxTicks) →
      other.result.stdout = call.result.stdout ∧ other.result.code = call.result.code := by
  have hcall := result_of_program hargs hname hdash
  constructor
  · cases hconfig : call.config with
    | error e =>
      rw [hconfig] at hcall
      exact Prod.ext_iff.mp hcall
    | ok config =>
      cases hread : Program.read call.files program with
      | error e =>
        rw [hconfig, hread] at hcall
        exact Prod.ext_iff.mp hcall
      | ok bytes =>
        intro settings hlimit
        have hsame : expected (.ok config) (.ok bytes) = expected (.ok settings) (.ok bytes) :=
          expected_of_maxTicks (by simp [Except.toOption, hlimit]) _
        rw [hconfig, hread, hsame] at hcall
        obtain ⟨hstdout, hcode⟩ := Prod.ext_iff.mp hcall
        exact ⟨Machine.load_of_fits _ (Program.length_of_read hread), hstdout, hcode⟩
  · intro other hargs' hfiles hlimit
    have hother := result_of_program hargs' hname hdash
    have hread : Program.read other.files program = Program.read call.files program := by
      unfold Program.read FileReader.text
      rw [hfiles]
    rw [hread, ← expected_of_maxTicks hlimit, ← hcall] at hother
    exact Prod.ext_iff.mp hother

/-- A call that prints 8. -/
def printing : Invocation where
  arguments := ["print8.ls8"]
  files path :=
    if path = "print8.ls8" then .ok "00000001\n00000100\n00001000\n00000110\n00000000\n".toUTF8
    else if path = "ls8.json" then .ok "\x7b\"general\": \x7b\"print_stats\": true\x7d\x7d".toUTF8
    else .error .missing

/-- The same call with statistics and with everything else that can be shown. -/
def verbose : Invocation :=
  { printing with configPath := some "ls8.json", verbosity := some .trace }

theorem output_of_call_printing :
    printing.arguments = ["print8.ls8"] ∧ "print8.ls8".toList.head? ≠ some '-' ∧
    printing.result.stdout = "8\n" ∧ printing.result.code = 0 ∧
    verbose.result.stdout = "8\n" ∧ verbose.result.code = 0 := by
  have hconfig : printing.config = .ok {} := rfl
  have hverbose : verbose.config = .ok { general := { printStats := true } } := by decide +kernel
  have hread : Program.read printing.files "print8.ls8" = .ok [1, 4, 8, 6, 0] := by decide +kernel
  have hran : ((Machine.create {} ({} : Recorder)).load [1, 4, 8, 6, 0]).machine.run.result =
      .ok .halted := by decide +kernel
  have hlines : (((Machine.create {} ({} : Recorder)).load
      [1, 4, 8, 6, 0]).machine.run.machine.console.values.flatMap fun value =>
        (Number.text value).toList ++ ['\n']) = ['8', '\n'] := by decide +kernel
  obtain ⟨hcall, hother⟩ := @output_of_call printing "print8.ls8" rfl (by decide) (by decide)
  rw [hconfig, hread] at hcall
  obtain ⟨-, hstdout, hcode⟩ := hcall {} rfl
  rw [hlines] at hstdout
  rw [hran] at hcode
  obtain ⟨hstdout', hcode'⟩ := hother verbose rfl rfl (by rw [hconfig, hverbose]; rfl)
  exact ⟨rfl, by decide, hstdout, hcode, hstdout'.trans hstdout, hcode'.trans hcode⟩

end

end CommandLine

end ByteMachine
