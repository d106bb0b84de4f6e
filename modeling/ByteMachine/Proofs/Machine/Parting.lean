import ByteMachine.Proofs.Machine.Consoles
import ByteMachine.Proofs.Machine.Dispatch
import ByteMachine.Proofs.Machine.Drivers
import ByteMachine.Proofs.Machine.Faults
import ByteMachine.Proofs.Machine.Lifecycle

/-! Two machines until they part. One console accepts every value and the other so many of them; the
machines do the same up to the tick that prints one value more, where the second one faults
(`Abreast.tick`). From ticks this is carried to loops, commands and scripts. -/

namespace ByteMachine

variable {κ κ' : Type} [Console κ] [Console κ']

open Outcome (Related)

/-! ## Consoles that run out -/

namespace Console

/-- Of related consoles the first accepts every value, and the second as many as are left. -/
structure RunsOut (reason : String) (R : Nat → κ → κ' → Prop) : Prop where
  accepts {left : Nat} {console : κ} {console' : κ'} (h : R (left + 1) console console')
    (value : Float) : (emit console value).1 = .ok () ∧ (emit console' value).1 = .ok () ∧
      R left (emit console value).2 (emit console' value).2
  refuses {console : κ} {console' : κ'} (h : R 0 console console') (value : Float) :
    (emit console value).1 = .ok () ∧ (emit console' value).1 = .error reason

end Console

namespace Machine

variable {m : Machine κ} {m' : Machine κ'}

/-! ## One tick -/

/-- A tick of machines that differ in their consoles alone is the same on both if the consoles
answer the same where it prints. -/
theorem tick_twin (h : Twin (fun _ _ => True) m m')
    (hanswer : m.state.isTerminal = false → m.memory.instructionAt m.pc = .ok .prn →
      m'.answer.1 = m.answer.1) : Related (Twin fun _ _ => True) m.tick m'.tick := by
  obtain ⟨console, -, rfl⟩ := h
  have hlike : Resembles Eq (fun _ _ => True) id m (m.connect console) :=
    ⟨m.clock, console, rfl, trivial, rfl⟩
  have htick : Related (Resembles Eq (fun _ _ => True) id) m.tick (m.connect console).tick :=
    tick_resembles_of_answer (fun _ _ he => congrArg Clock.stop he) hlike
      (fun hs hi => ⟨hanswer hs hi, trivial⟩) fun _ _ _ _ => rfl
  refine htick.mono ?_
  rintro ⟨_, console', rfl, -, hmachine⟩
  exact ⟨console', trivial, hmachine⟩

/-- A tick that does not print leaves the console and the count of outputs alone. -/
theorem tick_silent (h : m.state.isTerminal = false → m.memory.instructionAt m.pc ≠ .ok .prn) :
    m.tick.machine.console = m.console ∧ m.tick.machine.stats.outputs = m.stats.outputs := by
  cases hs : m.state.isTerminal with
  | true =>
    rw [tick_of_terminal hs]
    exact ⟨rfl, rfl⟩
  | false =>
    cases hi : m.memory.instructionAt m.pc with
    | error fault =>
      rw [tick_of_error hs hi]
      exact ⟨rfl, rfl⟩
    | ok inst =>
      have hturn := turn_tick hs (Nat.le_of_lt (Memory.pc_lt_of_instructionAt hi))
      generalize m.tick.result = result, m.tick.machine = left at hturn
      cases hturn with
      | @faulted site fault cause =>
        have hsite : site ≠ .output := by
          rintro rfl
          obtain ⟨_, hprints, _⟩ := cause
          exact h hs (Memory.instructionAt_eq_ok_iff.mpr hprints)
        exact ⟨if_neg hsite, rfl⟩
      | halted => exact ⟨rfl, by simp⟩
      | @advanced inst fetched =>
        have hne : inst ≠ .prn := fun he => h hs (he ▸ fetched)
        cases inst with
        | prn => exact absurd rfl hne
        | halt | init | set _ | save _ | mul _ _ | sub _ _ | add _ _ | div _ _ =>
          exact ⟨rfl, by simp [Instruction.opcode]⟩

/-- A tick that prints a value which the console accepts. -/
theorem tick_printed (hs : m.state.isTerminal = false)
    (hi : m.memory.instructionAt m.pc = .ok .prn) (ha : m.answer.1 = .ok ()) :
    m.tick.result = .ok () ∧ m.tick.machine.console = m.answer.2 ∧
      m.tick.machine.stats.outputs = m.stats.outputs + 1 := by
  have hcompletes : m.beginTick.Completes .prn := ha
  have hr : m.tick.result = .ok () := by
    rw [tick_of_fetched hs hi]
    simp only [carryOut, stepPast_of_completes (by decide) hcompletes, Outcome.after,
      endTick_result]
  refine ⟨hr, ?_⟩
  rcases (turn_ok hs hr).of_ok with ⟨hhalt, _⟩ | ⟨inst, hinst, _, _, hm⟩
  · rw [hi] at hhalt
    cases hhalt
  · rw [hi] at hinst
    cases hinst
    rw [hm]
    exact ⟨rfl, Statistics.complete_outputs _ _⟩

/-- A tick that prints a value which the console refuses. -/
theorem tick_refused (hs : m.state.isTerminal = false)
    (hi : m.memory.instructionAt m.pc = .ok .prn) {reason : String}
    (ha : m.answer.1 = .error reason) :
    m.tick.result = .error (.output m.pc reason) ∧ m.tick.machine = { m with
      console := m.answer.2
      stats := m.stats.countTick
      clock := m.clock.stop
      state := .faulted
      fault := some (.output m.pc reason) } := by
  have hsite : m.FaultsAt .output (.output m.pc reason) :=
    ⟨reason, Memory.instructionAt_eq_ok_iff.mp hi, ha, rfl⟩
  have hr := tick_of_faultsAt hs hsite
  refine ⟨hr, ?_⟩
  have hturn := turn_tick hs (Nat.le_of_lt (Memory.pc_lt_of_instructionAt hi))
  rw [hr] at hturn
  obtain ⟨site, hcause, hm⟩ := hturn.of_error
  obtain rfl : site = .output := hsite.site_unique hs hcause
  exact hm

/-! ## Two machines side by side -/

/-- Machines that differ in their consoles alone, of which the second accepts as many values more as
the outputs are short of `n`. -/
def Abreast (n : Nat) (R : Nat → κ → κ' → Prop) (m : Machine κ) (m' : Machine κ') : Prop :=
  ∃ left, m.stats.outputs + left = n ∧ Twin (R left) m m'

/-- The tick at which two machines part: both are about to print, and of the consoles only the first
accepts. The second machine faults and keeps what both had before the tick. -/
structure Parts (n : Nat) (reason : String) (m : Machine κ) (m' : Machine κ') : Prop where
  live : m.state.isTerminal = false
  prints : m.memory.instructionAt m.pc = .ok .prn
  outputs : m.stats.outputs = n
  accepts : m.answer.1 = .ok ()
  accepted : m.tick.result = .ok () ∧ m.tick.machine.stats.outputs = n + 1
  refuses : m'.answer.1 = .error reason
  refused : m'.tick.result = .error (.output m.pc reason)
  kept : m'.tick.machine = { m with
    console := m'.answer.2
    stats := m.stats.countTick
    clock := m.clock.stop
    state := .faulted
    fault := some (.output m.pc reason) }

section

variable {n : Nat} {reason : String} {R : Nat → κ → κ' → Prop}

omit [Console κ] [Console κ'] in
theorem Abreast.twin (h : Abreast n R m m') : Twin (fun _ _ => True) m m' := by
  obtain ⟨_, _, console, _, hm⟩ := h
  exact ⟨console, trivial, hm⟩

omit [Console κ] [Console κ'] in
theorem Abreast.outputs_le (h : Abreast n R m m') : m.stats.outputs ≤ n := by
  obtain ⟨left, hleft, _⟩ := h
  omega

omit [Console κ] [Console κ'] in
theorem Twin.of_console {S : κ → κ' → Prop} (h : Twin (fun _ _ => True) m m')
    (hs : S m.console m'.console) : Twin S m m' := by
  obtain ⟨console, _, rfl⟩ := h
  exact ⟨console, hs, rfl⟩

/-- Machines abreast do the same in a tick and stay abreast, or part there. -/
theorem Abreast.tick (hR : Console.RunsOut reason R) (h : Abreast n R m m') :
    Related (Abreast n R) m.tick m'.tick ∨ Parts n reason m m' := by
  have htwin := h.twin
  obtain ⟨left, hleft, console, hr, rfl⟩ := h
  by_cases hprints : m.state.isTerminal = false ∧ m.memory.instructionAt m.pc = .ok .prn
  · obtain ⟨hs, hi⟩ := hprints
    cases left with
    | zero =>
      obtain ⟨ha, ha'⟩ := hR.refuses hr (m.registers.read m.current)
      obtain ⟨hresult, _, houtputs⟩ := tick_printed hs hi ha
      obtain ⟨hrefused, hkept⟩ := tick_refused (m := m.connect console) hs hi ha'
      exact .inr ⟨hs, hi, hleft, ha, ⟨hresult, houtputs.trans (congrArg (· + 1) hleft)⟩, ha',
        hrefused, hkept⟩
    | succ left =>
      obtain ⟨ha, ha', hnext⟩ := hR.accepts hr (m.registers.read m.current)
      obtain ⟨_, hconsole, houtputs⟩ := tick_printed hs hi ha
      obtain ⟨_, hconsole', _⟩ := tick_printed (m := m.connect console) hs hi ha'
      have hsame := tick_twin htwin fun _ _ => ha'.trans ha.symm
      refine .inl (hsame.mono fun htwin' => ⟨left, by omega, htwin'.of_console ?_⟩)
      rw [hconsole, hconsole']
      exact hnext
  · have hsilent : m.state.isTerminal = false → m.memory.instructionAt m.pc ≠ .ok .prn :=
      fun hs hi => hprints ⟨hs, hi⟩
    obtain ⟨hconsole, houtputs⟩ := tick_silent hsilent
    obtain ⟨hconsole', _⟩ := tick_silent (m := m.connect console) hsilent
    have hsame := tick_twin htwin fun hs hi => absurd hi (hsilent hs)
    refine .inl (hsame.mono fun htwin' => ⟨left, by rw [houtputs, hleft], htwin'.of_console ?_⟩)
    rw [hconsole, hconsole']
    exact hr

/-! ## Loops -/

/-- How ticks of two machines are cut short. The first `k` of them are the same on both, and at the
next one the machines part: it is the last one of the second machine, while the first goes on. -/
structure Cut (S : Machine κ → Machine κ' → Prop) (n : Nat) (reason : String) (k : Nat)
    (m : Machine κ) (m' : Machine κ') (left : Machine κ) (left' : Machine κ') : Prop where
  abreast : ∀ i, i ≤ k → S (m.ticked i) (m'.ticked i)
  alike : ∀ i, i < k → (m'.ticked i).tick.result = (m.ticked i).tick.result
  parts : Parts n reason (m.ticked k) (m'.ticked k)
  goesOn : ∃ more, left = (m.ticked (k + 1)).ticked more
  stays : left' = m'.ticked (k + 1)

theorem cut_here {S : Machine κ → Machine κ' → Prop} {left : Machine κ} (hS : S m m')
    (h : Parts n reason m m') (hgoes : ∃ more, left = m.tick.machine.ticked more) :
    Cut S n reason 0 m m' left m'.tick.machine where
  abreast i hi := by
    obtain rfl := Nat.le_zero.mp hi
    exact hS
  alike i hi := absurd hi (Nat.not_lt_zero i)
  parts := h
  goesOn := hgoes
  stays := rfl

theorem Cut.next {S : Machine κ → Machine κ' → Prop} {k : Nat} {left : Machine κ}
    {left' : Machine κ'} (h : Cut S n reason k m.tick.machine m'.tick.machine left left')
    (hS : S m m') (hresult : m'.tick.result = m.tick.result) :
    Cut S n reason (k + 1) m m' left left' where
  abreast i hi := by
    cases i with
    | zero => exact hS
    | succ i =>
      rw [ticked_succ, ticked_succ]
      exact h.abreast i (Nat.le_of_succ_le_succ hi)
  alike i hi := by
    cases i with
    | zero => exact hresult
    | succ i =>
      rw [ticked_succ, ticked_succ]
      exact h.alike i (Nat.lt_of_succ_lt_succ hi)
  parts := by
    rw [ticked_succ, ticked_succ]
    exact h.parts
  goesOn := by
    rw [ticked_succ]
    exact h.goesOn
  stays := by
    rw [ticked_succ]
    exact h.stays

theorem Cut.mono {S T : Machine κ → Machine κ' → Prop} {k : Nat} {left : Machine κ}
    {left' : Machine κ'} (h : Cut S n reason k m m' left left') (hST : ∀ {m m'}, S m m' → T m m') :
    Cut T n reason k m m' left left' :=
  ⟨fun i hi => hST (h.abreast i hi), h.alike, h.parts, h.goesOn, h.stays⟩

/-- Counted loops of machines abreast do the same, or are cut short by a refusal, which the second
one answers. -/
theorem Abreast.loopFor (hR : Console.RunsOut reason R) (h : Abreast n R m m') (waits : Bool)
    (f : Nat) : Related (Abreast n R) (loopFor waits f m) (loopFor waits f m') ∨
      ∃ k, Cut (Abreast n R) n reason k m m' (loopFor waits f m).machine
          (loopFor waits f m').machine ∧
        (loopFor waits f m').result = .error (.output (m.ticked k).pc reason) := by
  induction f generalizing m m' with
  | zero =>
    refine .inl ⟨?_, h, rfl⟩
    obtain ⟨_, _, _, _, rfl⟩ := h
    rfl
  | succ f ih =>
    have hclock : m'.clock.tickDue = m.clock.tickDue ∧ m'.state = m.state := by
      obtain ⟨_, _, _, _, rfl⟩ := h
      exact ⟨rfl, rfl⟩
    have hwait : m'.waitLog = m.waitLog := by
      obtain ⟨_, _, _, _, rfl⟩ := h
      rfl
    cases hc : m.clock.tickDue with
    | false =>
      rw [hc] at hclock
      refine .inl ?_
      simp only [Machine.loopFor, hc, hclock.1, hclock.2]
      exact ⟨rfl, h, rfl⟩
    | true =>
      rw [hc] at hclock
      rcases h.tick hR with hsame | hparts
      · cases ht : m.tick.result with
        | error fault =>
          have ht' := hsame.result.trans ht
          refine .inl ?_
          simp only [Machine.loopFor, hc, hclock.1, ht, ht', if_true, hwait, hsame.log]
          exact ⟨rfl, hsame.machine, rfl⟩
        | ok done =>
          have ht' := hsame.result.trans ht
          simp only [Machine.loopFor, hc, hclock.1, ht, ht', if_true, hwait, hsame.log]
          rcases ih hsame.machine with hrest | ⟨k, hcut, hr⟩
          · exact .inl (hrest.after _)
          · refine .inr ⟨k + 1, hcut.next h hsame.result, ?_⟩
            rw [ticked_succ]
            exact hr
      · have hr := hparts.accepted.1
        have hr' := hparts.refused
        refine .inr ⟨0, ?_⟩
        simp only [Machine.loopFor, hc, hclock.1, hr, hr', if_true]
        exact ⟨cut_here h hparts (loopFor_ticked waits f _), rfl⟩

/-! ## Commands -/

/-- The commands that dispatch ticks. -/
def Command.drives : Command → Bool
  | .tick | .run | .runUntil _ => true
  | .load _ | .poke _ _ | .peek _ | .register _ | .start | .stop | .reset => false

/-- The machine that the first tick of such a command is dispatched on. -/
def opened (m : Machine κ) : Command → Machine κ
  | .tick => m
  | _ => m.start.machine

/-- How a command is cut short: its ticks are, and the second machine answers the refusal. -/
structure CutShort (S : Machine κ → Machine κ' → Prop) (n : Nat) (reason : String) (k : Nat)
    (command : Command) (m : Machine κ) (m' : Machine κ') : Prop where
  cut : Cut S n reason k (m.opened command) (m'.opened command) (m.perform command).machine
    (m'.perform command).machine
  answer : (m'.perform command).result =
    .fault (.output ((m.opened command).ticked k).pc reason)

omit [Console κ] [Console κ'] in
theorem Abreast.start (h : Abreast n R m m') : Related (Abreast n R) m.start m'.start := by
  obtain ⟨left, hleft, console, hr, rfl⟩ := h
  refine start_related ⟨left, hleft, console, hr, rfl⟩ rfl rfl rfl fun _ => ?_
  exact ⟨left, hleft, console, hr, rfl⟩

/-- Runs that are counted loops from the start do the same on machines abreast, or are cut short. -/
theorem Abreast.startedFor (hR : Console.RunsOut reason R) (h : Abreast n R m m') {waits : Bool}
    {f : Nat} {ran : Outcome κ (Except Fault Lifecycle)}
    {ran' : Outcome κ' (Except Fault Lifecycle)}
    (hran : ran = (Machine.loopFor waits f m.start.machine).after m.start.log)
    (hran' : ran' = (Machine.loopFor waits f m'.start.machine).after m'.start.log) :
    Related (Abreast n R) ran ran' ∨
      ∃ k, Cut (Abreast n R) n reason k m.start.machine m'.start.machine ran.machine ran'.machine ∧
        ran'.result = .error (.output (m.start.machine.ticked k).pc reason) := by
  have hstart := h.start
  rw [hran, hran', hstart.log]
  exact (hstart.machine.loopFor hR waits f).imp_left fun hsame => hsame.after _

/-- A command that dispatches ticks does the same on machines abreast, or is cut short. -/
theorem Abreast.perform (hR : Console.RunsOut reason R) (h : Abreast n R m m') {command : Command}
    (hdrives : command.drives = true) :
    Related (Abreast n R) (m.perform command) (m'.perform command) ∨
      ∃ k, CutShort (Abreast n R) n reason k command m m' := by
  cases command with
  | tick =>
    rcases h.tick hR with hsame | hparts
    · exact .inl (hsame.map _)
    · exact .inr ⟨0, cut_here h hparts ⟨0, rfl⟩, congrArg Reply.ofUnit hparts.refused⟩
  | runUntil f =>
    rcases h.startedFor hR (m.runUntil_eq_loopFor f) (m'.runUntil_eq_loopFor f) with
      hsame | ⟨k, hcut, hr⟩
    · exact .inl (hsame.map _)
    · exact .inr ⟨k, hcut, congrArg Reply.ofState hr⟩
  | run =>
    have hstate : m'.state = m.state := by
      obtain ⟨_, _, _, _, rfl⟩ := h
      rfl
    have hran' := m'.run_eq_loopFor
    rw [hstate] at hran'
    rcases h.startedFor hR m.run_eq_loopFor hran' with hsame | ⟨k, hcut, hr⟩
    · exact .inl (hsame.map _)
    · exact .inr ⟨k, hcut, congrArg Reply.ofState hr⟩
  | load _ | poke _ _ | peek _ | register _ | start | stop | reset => cases hdrives

/-- A script that dispatches ticks does the same on machines abreast, or one of its commands is cut
short. -/
theorem Abreast.performAll (hR : Console.RunsOut reason R) (h : Abreast n R m m')
    {script : List Command} (hdrives : ∀ command ∈ script, command.drives = true) :
    Related (Abreast n R) (m.performAll script) (m'.performAll script) ∨
      ∃ before command after k, script = before ++ command :: after ∧
        Related (Abreast n R) (m.performAll before) (m'.performAll before) ∧
        CutShort (Abreast n R) n reason k command (m.performAll before).machine
          (m'.performAll before).machine := by
  induction script generalizing m m' with
  | nil =>
    exact .inl ⟨rfl, h, rfl⟩
  | cons command rest ih =>
    obtain ⟨hcommand, hrest⟩ := List.forall_mem_cons.mp hdrives
    rcases h.perform hR hcommand with hfirst | ⟨k, hcut⟩
    · have hcons {tail : List Command}
          (htail : Related (Abreast n R) ((m.perform command).machine.performAll tail)
            ((m'.perform command).machine.performAll tail)) :
          Related (Abreast n R) (m.performAll (command :: tail))
            (m'.performAll (command :: tail)) := by
        simp only [Machine.performAll, hfirst.result, hfirst.log]
        exact (htail.map _).after _
      rcases ih hfirst.machine hrest with hsame | ⟨before, cut, after, k, hsplit, hbefore, hcut⟩
      · exact .inl (hcons hsame)
      · exact .inr ⟨command :: before, cut, after, k, congrArg (command :: ·) hsplit, hcons hbefore,
          hcut⟩
    · exact .inr ⟨[], command, rest, k, rfl, ⟨rfl, h, rfl⟩, hcut⟩

/-! ## After the cut -/

/-- The machine that was refused a value keeps what it had: it faulted in the tick. -/
theorem CutShort.kept {S : Machine κ → Machine κ' → Prop} {k : Nat} {command : Command}
    (h : CutShort S n reason k command m m') :
    (m'.perform command).machine = { (m.opened command).ticked k with
      console := ((m'.opened command).ticked k).answer.2
      stats := ((m.opened command).ticked k).stats.countTick
      clock := ((m.opened command).ticked k).clock.stop
      state := .faulted
      fault := some (.output ((m.opened command).ticked k).pc reason) } :=
  h.cut.stays.trans h.cut.parts.kept

theorem CutShort.mono {S T : Machine κ → Machine κ' → Prop} {k : Nat} {command : Command}
    (h : CutShort S n reason k command m m') (hST : ∀ {m m'}, S m m' → T m m') :
    CutShort T n reason k command m m' :=
  ⟨h.cut.mono hST, h.answer⟩

/-- Commands that dispatch ticks leave alone a machine that has ended. -/
theorem performAll_of_terminal (hsound : m.Sound) (ht : m.state.isTerminal = true)
    {script : List Command} (hdrives : ∀ command ∈ script, command.drives = true) :
    (m.performAll script).machine = m := by
  induction script with
  | nil => rfl
  | cons command rest ih =>
    obtain ⟨hcommand, hrest⟩ := List.forall_mem_cons.mp hdrives
    have hkept : (m.perform command).machine = m := by
      cases command with
      | tick | run | runUntil _ =>
        exact (perform_of_terminal hsound ht (by intro h; cases h)).2
          (by simp [Command.changes])
      | load _ | poke _ _ | peek _ | register _ | start | stop | reset => cases hcommand
    change ((m.perform command).machine.performAll rest).machine = m
    rw [hkept]
    exact ih hrest

/-! ### Counts of outputs -/

theorem outputs_le_tick (m : Machine κ) : m.stats.outputs ≤ m.tick.machine.stats.outputs := by
  by_cases hprints : m.state.isTerminal = false ∧ m.memory.instructionAt m.pc = .ok .prn
  · obtain ⟨hs, hi⟩ := hprints
    cases ha : m.answer.1 with
    | ok done =>
      rw [(tick_printed hs hi ha).2.2]
      exact Nat.le_succ _
    | error reason =>
      rw [(tick_refused hs hi ha).2]
      exact Nat.le_refl _
  · rw [(tick_silent fun hs hi => hprints ⟨hs, hi⟩).2]

theorem outputs_le_ticked (m : Machine κ) (k : Nat) :
    m.stats.outputs ≤ (m.ticked k).stats.outputs := by
  induction k with
  | zero => exact Nat.le_refl _
  | succ k ih => exact ih.trans (outputs_le_tick _)

theorem outputs_le_perform (m : Machine κ) {command : Command} (hdrives : command.drives = true) :
    m.stats.outputs ≤ (m.perform command).machine.stats.outputs := by
  have hloop (waits : Bool) (f : Nat) : m.stats.outputs ≤
      (loopFor waits f m.start.machine).machine.stats.outputs := by
    have hstart : m.start.machine.stats = m.stats := by
      unfold Machine.start
      split <;> rfl
    obtain ⟨k, hk⟩ := loopFor_ticked waits f m.start.machine
    rw [← hstart, hk]
    exact outputs_le_ticked _ k
  cases command with
  | tick => exact outputs_le_tick m
  | runUntil f =>
    simp only [Machine.perform, Outcome.map, runUntil_eq_loopFor]
    exact hloop false f
  | run =>
    simp only [Machine.perform, Outcome.map, run_eq_loopFor]
    exact hloop true _
  | load _ | poke _ _ | peek _ | register _ | start | stop | reset => cases hdrives

theorem outputs_le_performAll (m : Machine κ) {script : List Command}
    (hdrives : ∀ command ∈ script, command.drives = true) :
    m.stats.outputs ≤ (m.performAll script).machine.stats.outputs := by
  induction script generalizing m with
  | nil => exact Nat.le_refl _
  | cons command rest ih =>
    obtain ⟨hcommand, hrest⟩ := List.forall_mem_cons.mp hdrives
    exact (outputs_le_perform m hcommand).trans (ih _ hrest)

/-- The machine that goes on prints more than the values that are accepted on both. -/
theorem CutShort.outputs_lt {S : Machine κ → Machine κ' → Prop} {k : Nat} {command : Command}
    (h : CutShort S n reason k command m m') : n < (m.perform command).machine.stats.outputs := by
  obtain ⟨more, hmore⟩ := h.cut.goesOn
  have hnext : ((m.opened command).ticked (k + 1)).stats.outputs = n + 1 :=
    h.cut.parts.accepted.2
  have hle := outputs_le_ticked ((m.opened command).ticked (k + 1)) more
  rw [hnext] at hle
  rw [hmore]
  exact hle

/-- Machines abreast stay abreast as long as the first one prints no more than the second accepts. -/
theorem Abreast.performAll_of_le (hR : Console.RunsOut reason R) (h : Abreast n R m m')
    {script : List Command} (hdrives : ∀ command ∈ script, command.drives = true)
    (hle : (m.performAll script).machine.stats.outputs ≤ n) :
    Related (Abreast n R) (m.performAll script) (m'.performAll script) := by
  rcases h.performAll hR hdrives with hsame | ⟨before, command, after, k, rfl, _, hcut⟩
  · exact hsame
  · have hafter : ∀ other ∈ after, other.drives = true :=
      (List.forall_mem_cons.mp (List.forall_mem_append.mp hdrives).2).2
    rw [performAll_append] at hle
    have hgrows := outputs_le_performAll ((m.performAll before).machine.perform command).machine
      hafter
    exact absurd (hcut.outputs_lt.trans_le hgrows) (Nat.not_lt_of_le hle)

/-- Machines abreast are cut short where the first one prints more than the second accepts, and the
second one stays as it is from there on. -/
theorem Abreast.performAll_of_lt (hR : Console.RunsOut reason R) (h : Abreast n R m m')
    (hsound : m'.Sound) {script : List Command}
    (hdrives : ∀ command ∈ script, command.drives = true)
    (hlt : n < (m.performAll script).machine.stats.outputs) :
    ∃ before command after k, script = before ++ command :: after ∧
      Related (Abreast n R) (m.performAll before) (m'.performAll before) ∧
      CutShort (Abreast n R) n reason k command (m.performAll before).machine
        (m'.performAll before).machine ∧
      ∀ further, (∀ other ∈ further, other.drives = true) →
        (m'.performAll (before ++ command :: further)).machine =
          ((m'.performAll before).machine.perform command).machine := by
  rcases h.performAll hR hdrives with hsame | ⟨before, command, after, k, hsplit, hbefore, hcut⟩
  · exact absurd hlt (Nat.not_lt_of_le hsame.machine.outputs_le)
  · refine ⟨before, command, after, k, hsplit, hbefore, hcut, fun further hfurther => ?_⟩
    have hended : ((m'.performAll before).machine.perform command).machine.state.isTerminal =
        true := by
      rw [hcut.kept]
      rfl
    have hsound' := hsound.performAll before
    rw [performAll_append]
    exact performAll_of_terminal ((perform_steps hsound' command).sound hsound') hended hfurther

end

end Machine

end ByteMachine
