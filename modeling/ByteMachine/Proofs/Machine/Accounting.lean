import Mathlib.Algebra.GroupWithZero.Nat
import ByteMachine.Proofs.Machine.Consoles
import ByteMachine.Proofs.Machine.Steps

/-! The books of a machine. Ticks, completed instructions, printed values and the program counter
are kept apart and updated at different places of a tick, but they always add up to the counts of
the single opcodes, and the printed values to what the console accepted. -/

namespace ByteMachine

namespace Tally

/-- Counting one more opcode adds its weight to every weighted sum in which it occurs. -/
theorem sum_add (tally : Tally) (weight : Opcode → Nat) (added : Opcode) {ops : List Opcode}
    (hnodup : ops.Nodup) :
    (ops.map fun op => weight op * (tally.add added).count op).sum =
      (ops.map fun op => weight op * tally.count op).sum +
        if added ∈ ops then weight added else 0 := by
  induction ops with
  | nil => rfl
  | cons op rest ih =>
    obtain ⟨hnot, hrest⟩ := List.nodup_cons.mp hnodup
    rw [List.map_cons, List.sum_cons, List.map_cons, List.sum_cons, ih hrest, count_add]
    by_cases he : added = op
    · subst he
      rw [if_pos rfl, if_neg hnot, if_pos List.mem_cons_self, Nat.mul_add, Nat.mul_one]
      omega
    · have hmem : added ∈ op :: rest ↔ added ∈ rest := by simp [he]
      simp only [if_neg he, hmem, Nat.add_zero]
      omega

theorem sum_zero (weight : Opcode → Nat) (ops : List Opcode) :
    (ops.map fun op => weight op * zero.count op).sum = 0 := by
  induction ops with
  | nil => rfl
  | cons op rest ih => rw [List.map_cons, List.sum_cons, ih, count_zero, Nat.mul_zero]

end Tally

namespace Machine

/-- The books of a machine are balanced: what is counted and where the program counter stands
agrees with the counts of the opcodes and with the stage. -/
structure Balanced {κ : Type} (m : Machine κ) : Prop where
  retired : m.stats.retired = (Opcode.all.map m.stats.mix.count).sum
  ticks : m.stats.ticks = m.stats.retired + if m.state = .faulted then 1 else 0
  halts : m.stats.mix.count .halt = if m.state = .halted then 1 else 0
  outputs : m.stats.outputs = m.stats.mix.count .prn
  pc : m.pc = ((Opcode.all.filter (· ≠ .halt)).map fun op =>
    op.width * m.stats.mix.count op).sum

variable {κ : Type}

/-- A machine that nothing was counted on is balanced where it stands at address 0. -/
theorem balanced_of_blank {m : Machine κ} (hpc : m.pc = 0) (hstats : m.stats = {})
    (hs : m.state = .idle) : m.Balanced where
  retired := by rw [hstats]; simpa using (Tally.sum_zero (fun _ => 1) Opcode.all).symm
  ticks := by rw [hstats, hs]; rfl
  halts := by rw [hstats, hs]; exact Tally.count_zero _
  outputs := by rw [hstats]; exact (Tally.count_zero _).symm
  pc := by rw [hstats, hpc]; exact (Tally.sum_zero _ _).symm

/-- Changes that move neither the counts nor the program counter keep the books, as long as the
machine is live before and after. -/
theorem Balanced.of_live {m m' : Machine κ} (h : m.Balanced) (hpc : m'.pc = m.pc)
    (hstats : m'.stats = m.stats) (hs : m.state.isTerminal = false)
    (hs' : m'.state.isTerminal = false) : m'.Balanced := by
  have hlive : ∀ {state : Lifecycle}, state.isTerminal = false →
      state ≠ .halted ∧ state ≠ .faulted := by
    intro state ht
    cases state <;> simp_all [Lifecycle.isTerminal]
  obtain ⟨hh, hf⟩ := hlive hs
  obtain ⟨hh', hf'⟩ := hlive hs'
  refine ⟨?_, ?_, ?_, ?_, ?_⟩
  · rw [hstats, h.retired]
  · rw [hstats, h.ticks, if_neg hf, if_neg hf']
  · rw [hstats, h.halts, if_neg hh, if_neg hh']
  · rw [hstats, h.outputs]
  · rw [hstats, hpc, h.pc]

variable [Console κ]

/-- A turn of a running machine keeps the books: a fault is one tick that completed nothing, and
anything else is one more opcode on every side. -/
theorem balanced_turn {m m' : Machine κ} {result : Except Fault Unit} (h : m.Balanced)
    (hs : m.state = .running) (hturn : Turn m result m') : m'.Balanced := by
  have hticks : m.stats.ticks = m.stats.retired := by rw [h.ticks, hs]; rfl
  have hhalts : m.stats.mix.count .halt = 0 := by rw [h.halts, hs]; rfl
  have hretired (op : Opcode) :
      m.stats.retired + 1 = (Opcode.all.map (m.stats.mix.add op).count).sum := by
    have hsum := Tally.sum_add m.stats.mix (fun _ => 1) op (show Opcode.all.Nodup by decide)
    rw [if_pos op.mem_all] at hsum
    simpa [h.retired] using hsum.symm
  have hpc (op : Opcode) : m.pc + (if op = .halt then 0 else op.width) =
      ((Opcode.all.filter (· ≠ .halt)).map fun counted =>
        counted.width * (m.stats.mix.add op).count counted).sum := by
    rw [Tally.sum_add _ _ _ (by decide), ← h.pc]
    cases op <;> rfl
  cases hturn with
  | faulted cause =>
    refine ⟨h.retired, ?_, hhalts, h.outputs, h.pc⟩
    change m.stats.ticks + 1 = m.stats.retired + 1
    rw [hticks]
  | halted fetched =>
    refine ⟨?_, ?_, ?_, ?_, ?_⟩
    · simpa using hretired .halt
    · simp [hticks]
    · simp [Tally.count_add, hhalts]
    · simpa [Tally.count_add] using h.outputs
    · simpa using hpc .halt
  | @advanced inst fetched running completes =>
    have hne : inst.opcode ≠ .halt := by
      cases inst <;> simp_all [Instruction.opcode]
    refine ⟨?_, ?_, ?_, ?_, ?_⟩
    · simpa using hretired inst.opcode
    · simp [hticks]
    · simp [Tally.count_add, hhalts, hne]
    · simp [Tally.count_add, h.outputs]
    · simpa [hne, Instruction.width] using hpc inst.opcode

theorem Step.balanced {change : Change} {m m' : Machine κ} (h : Step change m m') (hm : m.Sound)
    (hb : m.Balanced) : m'.Balanced := by
  cases h with
  | write memory => exact ⟨hb.retired, hb.ticks, hb.halts, hb.outputs, hb.pc⟩
  | start live =>
    rw [start_of_live live]
    exact hb.of_live rfl rfl live rfl
  | stop => exact ⟨hb.retired, hb.ticks, hb.halts, hb.outputs, hb.pc⟩
  | wake idle => exact hb.of_live rfl rfl (by rw [idle]; rfl) rfl
  | dispatch running =>
    exact balanced_turn hb running (turn_tick (by rw [running]; rfl) hm.pc_le)
  | reset => exact balanced_of_blank rfl rfl rfl

theorem performAll_balanced (config : Config) (console : κ) (script : List Command) :
    ((create config console).performAll script).machine.Balanced :=
  (create_steps config console script).keeps (fun _ _ _ _ step hs hb => step.balanced hs hb)
    (sound_create config console) (balanced_of_blank rfl rfl rfl)

/-! ## Printed values -/

/-- How many values the console accepts while a script is carried out. -/
def accepted (m : Machine κ) (script : List Command) : Nat :=
  (m.watched.performAll script).machine.console.accepted

/-- The count of outputs and the count of accepted values grow together. -/
theorem outputs_turn {m m' : Machine (Watched κ)} {result : Except Fault Unit}
    (h : m.stats.outputs = m.console.accepted) (hturn : Turn m result m') :
    m'.stats.outputs = m'.console.accepted := by
  have hanswer : m.answer.2.accepted = m.console.accepted + if m.answer.1.isOk then 1 else 0 :=
    Watched.accepted_emit m.console (m.registers.read m.current)
  cases hturn with
  | @faulted site fault cause =>
    cases site with
    | output =>
      obtain ⟨reason, _, ha, _⟩ := cause
      rw [ha] at hanswer
      exact h.trans hanswer.symm
    | fetch | opcode | operand | divisor => exact h
  | halted fetched => simpa using h
  | @advanced inst fetched running completes =>
    cases inst with
    | prn =>
      have ha : m.answer.1 = .ok () := completes
      rw [ha] at hanswer
      change (m.stats.complete .prn).outputs = m.answer.2.accepted
      rw [hanswer, Statistics.complete_outputs, h]
      rfl
    | halt | init | set _ | save _ | mul _ _ | sub _ _ | add _ _ | div _ _ => exact h

theorem outputs_step {change : Change} {m m' : Machine (Watched κ)} (hstep : Step change m m')
    (hne : change ≠ .reset) (hs : m.Sound) (h : m.stats.outputs = m.console.accepted) :
    m'.stats.outputs = m'.console.accepted := by
  cases hstep with
  | write | stop | wake => exact h
  | start live =>
    rw [start_of_live live]
    exact h
  | dispatch running => exact outputs_turn h (turn_tick (by rw [running]; rfl) hs.pc_le)
  | reset => exact absurd rfl hne

/-- From a machine that has not printed, the outputs of a script without a reset are the values
that the console accepts. -/
theorem outputs_of_script {m : Machine κ} (hs : m.Sound) (hzero : m.stats.outputs = 0)
    {script : List Command} (hscript : .reset ∉ script) :
    (m.performAll script).machine.stats.outputs = m.accepted script := by
  obtain ⟨_, _, hm⟩ := (m.performAll_watched script).machine
  have hw : m.watched.Sound := ⟨hs.pc_le, hs.clock_running, hs.fault_isSome, hs.idle_blank⟩
  have hsteps : Steps Change.onward m.watched _ :=
    performAll_steps script
      (fun command hc => Command.changes_onward fun he => hscript (he ▸ hc)) hw
  have hne : ∀ change ∈ Change.onward, change ≠ .reset := by decide
  have hkept := hsteps.keeps
    (P := fun m : Machine (Watched κ) => m.stats.outputs = m.console.accepted)
    (fun change hc _ _ step hs h => outputs_step step (hne change hc) hs h) hw hzero
  rw [hm]
  exact hkept

/-- After any script the books of a machine are balanced, and its outputs are the values that the
console accepted since the last reset. -/
theorem accounting (config : Config) (console : κ) (script : List Command) :
    let new := create config console
    let m := (new.performAll script).machine
    m.Balanced ∧
    (.reset ∉ script → m.stats.outputs = new.accepted script) ∧
    (∀ before after, script = before ++ .reset :: after → .reset ∉ after →
      m.stats.outputs = (new.performAll (before ++ [.reset])).machine.accepted after) := by
  intro new m
  refine ⟨performAll_balanced config console script, fun hscript => ?_, ?_⟩
  · exact outputs_of_script (sound_create config console) rfl hscript
  · intro before after hsplit hafter
    have hsound := performAll_sound config console (before ++ [.reset])
    have hm : m = ((new.performAll (before ++ [.reset])).machine.performAll after).machine := by
      rw [← performAll_append, List.append_assoc, List.singleton_append, ← hsplit]
    have hzero : (new.performAll (before ++ [.reset])).machine.stats.outputs = 0 := by
      rw [performAll_append]
      rfl
    rw [hm]
    exact outputs_of_script hsound hzero hafter

end Machine

end ByteMachine
