import ByteMachine.Proofs.CommandLine.Output
import ByteMachine.Proofs.Machine.Limit
import ByteMachine.Proofs.Machine.Termination

/-! The exit code of a call that names a program. It is 0 when the program has come to its `HALT`,
and also when the tick limit of the settings cut it off before; a limit of 257 ticks or more cuts
nothing off, so under such a limit, or under none, 0 means `HALT`. -/

namespace ByteMachine.CommandLine

/-! ## How the run of a program ends -/

/-- The machine that a call leaves when it runs a program. -/
def ran (config : Config) (bytes : List UInt8) : Machine Paper :=
  (Machine.runOf config ({} : Paper) bytes).machine

/-- The program was run up to a `HALT`, which was carried out. -/
def Halts (config : Config) (bytes : List UInt8) : Prop :=
  (ran config bytes).state = .halted ∧ (ran config bytes).stats.mix.count .halt = 1

/-- The program was stopped by the tick limit before it came to an end. -/
def CutOff (config : Config) (bytes : List UInt8) : Prop :=
  (ran config bytes).state = .running ∧ (ran config bytes).clock.running = false ∧
    ∃ limit, config.general.maxTicks = some limit ∧ limit.toNat ≤ (ran config bytes).stats.ticks

/-- The machine that a program is run on. -/
def loaded (config : Config) (bytes : List UInt8) : Machine Paper :=
  ((Machine.create config ({} : Paper)).load bytes).machine

theorem loaded_maxTicks (config : Config) (bytes : List UInt8) :
    (loaded config bytes).maxTicks = config.general.maxTicks :=
  (Machine.perform_later (Machine.create config ({} : Paper)) (.load bytes)).maxTicks

theorem loaded_withinBudget (config : Config) (bytes : List UInt8) :
    (loaded config bytes).WithinBudget :=
  (Machine.create_withinBudget config ({} : Paper)).perform (.load bytes)

theorem loaded_idle (config : Config) (bytes : List UInt8) :
    (loaded config bytes).state = .idle := by
  unfold loaded Machine.load
  split <;> rfl

/-- A machine that has halted counts one `HALT`. -/
theorem halts_of_halted {config : Config} {bytes : List UInt8}
    (h : (ran config bytes).state = .halted) : Halts config bytes := by
  have hbalanced := Machine.performAll_balanced config ({} : Paper) [.load bytes, .run]
  have hcount : (ran config bytes).stats.mix.count .halt =
      if (ran config bytes).state = .halted then 1 else 0 := hbalanced.halts
  rw [h, if_pos rfl] at hcount
  exact ⟨h, hcount⟩

theorem cutOff_of_running {config : Config} {bytes : List UInt8}
    (h : (Machine.runOf config ({} : Paper) bytes).result = .ok .running) :
    CutOff config bytes := by
  obtain ⟨hrunning, hstopped, limit, hlimit, hle⟩ := Machine.limit_of_running h
  exact ⟨hrunning, hstopped, limit, (loaded_maxTicks config bytes).symm.trans hlimit, hle⟩

/-- A limit of 257 ticks or more cuts nothing off: a machine that is still running has not used up
its budget. -/
theorem not_cutOff {config : Config} {bytes : List UInt8}
    (hlimit : ∀ limit, config.general.maxTicks = some limit → 257 ≤ limit.toNat) :
    ¬CutOff config bytes := by
  rintro ⟨hrunning, _, limit, hmax, hle⟩
  have hbudget : (ran config bytes).WithinBudget := (loaded_withinBudget config bytes).perform .run
  have hleft := hbudget.ticks_le
  have hpc := hbudget.sound.pc_le
  have hbeyond := hlimit limit hmax
  rw [Machine.distance_of_live (by rw [hrunning]; rfl)] at hleft
  omega

/-- A run answers without a fault exactly when the program halts or is cut off. -/
theorem codeOf_run (config : Config) (bytes : List UInt8) :
    codeOf (Machine.runOf config ({} : Paper) bytes).result = 0 ↔
      Halts config bytes ∨ CutOff config bytes := by
  have hlive : (loaded config bytes).state ≠ .faulted := by
    rw [loaded_idle]
    decide
  rcases Machine.run_answer (loaded_withinBudget config bytes).sound hlive with
    ⟨fault, hr, hfaulted, _⟩ | ⟨hr, hstage, _⟩
  · have hresult : (Machine.runOf config ({} : Paper) bytes).result = .error fault := hr
    have hstate : (ran config bytes).state = .faulted := hfaulted
    rw [hresult]
    constructor
    · intro hcode
      have hone : codeOf (.error fault : Except Fault Lifecycle) = 1 := rfl
      rw [hone] at hcode
      cases hcode
    · rintro (⟨hhalted, _⟩ | ⟨hrunning, _⟩)
      · rw [hstate] at hhalted
        cases hhalted
      · rw [hstate] at hrunning
        cases hrunning
  · have hresult : (Machine.runOf config ({} : Paper) bytes).result =
        .ok (ran config bytes).state := hr
    have hends : Halts config bytes ∨ CutOff config bytes := by
      rcases hstage with hrunning | hhalted
      · exact .inr (cutOff_of_running (hresult.trans (congrArg Except.ok hrunning)))
      · exact .inl (halts_of_halted hhalted)
    rw [hresult]
    exact ⟨fun _ => hends, fun _ => rfl⟩

/-! ## The exit code -/

variable {call : Invocation} {program : String}

theorem code_of_program (hargs : call.arguments = [program]) (hname : program ≠ "")
    (hdash : program.toList.head? ≠ some '-') {config : Config} {bytes : List UInt8}
    (hconfig : call.config = .ok config) (hread : Program.read call.files program = .ok bytes) :
    call.result.code = codeOf (Machine.runOf config ({} : Paper) bytes).result := by
  have hcall := result_of_program hargs hname hdash
  rw [hconfig, hread] at hcall
  rw [(Machine.runOf_written config bytes).1]
  exact (Prod.ext_iff.mp hcall).2

theorem code_of_rejected (hargs : call.arguments = [program]) (hname : program ≠ "")
    (hdash : program.toList.head? ≠ some '-')
    (hrejected : ∀ config bytes, call.config = .ok config →
      Program.read call.files program ≠ .ok bytes) : call.result.code = 1 := by
  have hcall := result_of_program hargs hname hdash
  cases hconfig : call.config with
  | error e =>
    rw [hconfig] at hcall
    exact (Prod.ext_iff.mp hcall).2
  | ok config =>
    cases hread : Program.read call.files program with
    | error e =>
      rw [hconfig, hread] at hcall
      exact (Prod.ext_iff.mp hcall).2
    | ok bytes => exact absurd hread (hrejected config bytes hconfig)

/-- A call that names a program exits with 0 exactly when its settings and the program are accepted
and the program runs up to its `HALT` or is cut off by the tick limit, and with 1 otherwise. Where no
limit is set, or one of at least 257 ticks, 0 means `HALT`. -/
theorem exit_code_of_call (hargs : call.arguments = [program]) (hname : program ≠ "")
    (hdash : program.toList.head? ≠ some '-') :
    (call.result.code = 0 ↔ ∃ config bytes, call.config = .ok config ∧
      Program.read call.files program = .ok bytes ∧ (Halts config bytes ∨ CutOff config bytes)) ∧
    (call.result.code ≠ 0 → call.result.code = 1) ∧
    ∀ config, call.config = .ok config →
      (∀ limit, config.general.maxTicks = some limit → 257 ≤ limit.toNat) →
      (call.result.code = 0 ↔
        ∃ bytes, Program.read call.files program = .ok bytes ∧ Halts config bytes) := by
  have hzero : call.result.code = 0 ↔ ∃ config bytes, call.config = .ok config ∧
      Program.read call.files program = .ok bytes ∧
        (Halts config bytes ∨ CutOff config bytes) := by
    constructor
    · intro hcode
      by_contra hnone
      have hrejected : ∀ config bytes, call.config = .ok config →
          Program.read call.files program ≠ .ok bytes := by
        intro config bytes hconfig hread
        rw [code_of_program hargs hname hdash hconfig hread, codeOf_run] at hcode
        exact hnone ⟨config, bytes, hconfig, hread, hcode⟩
      rw [code_of_rejected hargs hname hdash hrejected] at hcode
      exact absurd hcode (by decide)
    · rintro ⟨config, bytes, hconfig, hread, hends⟩
      rw [code_of_program hargs hname hdash hconfig hread]
      exact (codeOf_run config bytes).mpr hends
  refine ⟨hzero, fun hcode => ?_, fun config hconfig hlimit => ?_⟩
  · by_cases hrejected : ∀ config bytes, call.config = .ok config →
        Program.read call.files program ≠ .ok bytes
    · exact code_of_rejected hargs hname hdash hrejected
    · push Not at hrejected
      obtain ⟨config, bytes, hconfig, hread⟩ := hrejected
      rw [code_of_program hargs hname hdash hconfig hread] at hcode ⊢
      cases hr : (Machine.runOf config ({} : Paper) bytes).result with
      | error fault => rfl
      | ok state => exact absurd (by rw [hr]; rfl) hcode
  · rw [hzero]
    constructor
    · rintro ⟨config', bytes, hconfig', hread, hends⟩
      rw [hconfig] at hconfig'
      cases hconfig'
      exact ⟨bytes, hread, hends.resolve_right (not_cutOff hlimit)⟩
    · rintro ⟨bytes, hread, hhalts⟩
      exact ⟨config, bytes, hconfig, hread, .inl hhalts⟩

/-- A call that runs one `SAVE` and is then cut off. -/
def limited : Invocation where
  arguments := ["p.ls8"]
  files path :=
    if path = "p.ls8" then .ok "00000100\n00000001\n00000000\n".toUTF8
    else if path = "ls8.json" then .ok "\x7b\"general\": \x7b\"max_ticks\": 1\x7d\x7d".toUTF8
    else .error .missing
  configPath := some "ls8.json"

/-- The settings that the call finds. -/
def oneTick : Config := { general := { maxTicks := some 1 } }

/-- The same call with the settings that hold when none are given. -/
def unlimited : Invocation := { limited with configPath := none }

theorem exit_code_of_call_limited :
    limited.arguments = ["p.ls8"] ∧ "p.ls8" ≠ "" ∧ "p.ls8".toList.head? ≠ some '-' ∧
    limited.config = .ok oneTick ∧ Program.read limited.files "p.ls8" = .ok [4, 1, 0] ∧
    CutOff oneTick [4, 1, 0] ∧ limited.result.code = 0 ∧
    unlimited.config = .ok {} ∧ Halts {} [4, 1, 0] ∧ unlimited.result.code = 0 := by
  have hconfig : limited.config = .ok oneTick := by decide +kernel
  have hread : Program.read limited.files "p.ls8" = .ok [4, 1, 0] := by decide +kernel
  have hran : (Machine.runOf oneTick ({} : Paper) [4, 1, 0]).result = .ok .running := by
    decide +kernel
  have hcut : CutOff oneTick [4, 1, 0] := cutOff_of_running hran
  obtain ⟨hzero, -, -⟩ := @exit_code_of_call limited "p.ls8" rfl (by decide) (by decide)
  have hstate : (ran {} [4, 1, 0]).state = .halted := by decide +kernel
  have hhalts : Halts {} [4, 1, 0] := halts_of_halted hstate
  obtain ⟨-, -, hfree⟩ := @exit_code_of_call unlimited "p.ls8" rfl (by decide) (by decide)
  have hnone : unlimited.config = .ok {} := rfl
  exact ⟨rfl, by decide, by decide, hconfig, hread, hcut,
    hzero.mpr ⟨oneTick, [4, 1, 0], hconfig, hread, .inr hcut⟩, hnone, hhalts,
    (hfree {} hnone nofun).mpr ⟨[4, 1, 0], hread, hhalts⟩⟩

/-- An exit code of 0 alone does not mean `HALT`: the call that is cut off exits with 0. -/
theorem zero_without_halt :
    ¬(limited.result.code = 0 ↔ ∃ config bytes, limited.config = .ok config ∧
      Program.read limited.files "p.ls8" = .ok bytes ∧ Halts config bytes) := by
  have hconfig : limited.config = .ok oneTick := by decide +kernel
  have hread : Program.read limited.files "p.ls8" = .ok [4, 1, 0] := by decide +kernel
  have hstate : (ran oneTick [4, 1, 0]).state = .running := by decide +kernel
  have hcode : limited.result.code = 0 := by
    rw [code_of_program rfl (by decide) (by decide) hconfig hread]
    decide +kernel
  intro hzero
  obtain ⟨config, bytes, hconfig', hread', hhalted, -⟩ := hzero.mp hcode
  rw [hconfig] at hconfig'
  cases hconfig'
  rw [hread] at hread'
  cases hread'
  rw [hstate] at hhalted
  cases hhalted

end ByteMachine.CommandLine
