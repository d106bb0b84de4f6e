import ByteMachine.Proofs.Machine.Accounting
import ByteMachine.Proofs.Machine.Parting
import ByteMachine.Proofs.Machine.Reset

/-! Consoles that fail. A machine whose console refuses every value after the first few does what a
machine does whose console accepts everything, up to the tick that would print one value more. There
it faults, and what it had before that tick it keeps. -/

namespace ByteMachine

variable {κ κ' : Type} [Console κ] [Console κ']

open Outcome (Related)

/-! ## Consoles that refuse -/

namespace Console

/-- A console that accepts so many values more and refuses every later one for the given reason. -/
def RefusesAfter (reason : String) : Nat → κ → Prop
  | 0, console =>
      ∀ console', Fed console console' → ∀ value, (emit console' value).1 = .error reason
  | left + 1, console =>
      ∀ value, (emit console value).1 = .ok () ∧ RefusesAfter reason left (emit console value).2

/-- The first console accepts every value, the second so many more. -/
def Outlasts (reason : String) (left : Nat) (console : κ) (console' : κ') : Prop :=
  Accepting console ∧ RefusesAfter reason left console'

theorem runsOut_outlasts (reason : String) :
    RunsOut reason (Outlasts reason : Nat → κ → κ' → Prop) where
  accepts := by
    rintro left console console' ⟨ha, hr⟩ value
    exact ⟨ha _ (.refl _) value, (hr value).1, ha.fed ((Fed.refl _).emit value), (hr value).2⟩
  refuses := by
    rintro console console' ⟨ha, hr⟩ value
    exact ⟨ha _ (.refl _) value, hr _ (.refl _) value⟩

end Console

/-- A recorder with a refusal accepts what it has room for. -/
theorem Recorder.refusesAfter {recorder : Recorder} {after left : Nat} {reason : String}
    (h : recorder.refusal = some ⟨after, reason⟩) (hleft : recorder.values.length + left = after) :
    Console.RefusesAfter reason left recorder := by
  induction left generalizing recorder with
  | zero =>
    have hrefused (value : Float) : Console.emit recorder value = (.error reason, recorder) := by
      change Recorder.emit recorder value = _
      simp [Recorder.emit, h, ← hleft]
    intro recorder' hfed value
    obtain rfl : recorder' = recorder := by
      induction hfed with
      | refl => rfl
      | emit _ value ih => rw [ih, hrefused]
    rw [hrefused]
  | succ left ih =>
    intro value
    have hkept : Console.emit recorder value =
        (.ok (), { recorder with values := recorder.values ++ [value] }) := by
      change Recorder.emit recorder value = _
      have hroom : recorder.values.length < after := by omega
      simp [Recorder.emit, h, hroom]
    rw [hkept]
    refine ⟨rfl, ih h ?_⟩
    simp only [List.length_append, List.length_singleton]
    omega

/-! ## Watched consoles -/

/-- Watched consoles that were given the same values and still accept what the consoles that are
watched do. -/
def Watched.Together (n : Nat) (R : Nat → κ → κ' → Prop) (left : Nat) (watched : Watched κ)
    (watched' : Watched κ') : Prop :=
  R left watched.console watched'.console ∧ watched'.emissions = watched.emissions ∧
    watched.accepted + left = n

theorem Console.RunsOut.watched {reason : String} {R : Nat → κ → κ' → Prop}
    (hR : RunsOut reason R) (n : Nat) : RunsOut reason (Watched.Together n R) where
  accepts := by
    rintro left watched watched' ⟨hr, he, hn⟩ value
    obtain ⟨ha, ha', hnext⟩ := hR.accepts hr value
    refine ⟨ha, ha', hnext, ?_, ?_⟩
    · rw [Watched.emissions_emit, Watched.emissions_emit, he, ha, ha']
    · have hok : (emit watched value).1 = .ok () := ha
      rw [Watched.accepted_emit, hok]
      change watched.accepted + 1 + left = n
      omega
  refuses := by
    rintro watched watched' ⟨hr, _, _⟩ value
    exact hR.refuses hr value

namespace Machine

section

variable {n : Nat} {reason : String} {R : Nat → κ → κ' → Prop}

/-! ## Printed values -/

/-- The values that were accepted up to the cut are all that the second machine prints, and the first
ones that the other prints. -/
theorem CutShort.printed {m : Machine (Watched κ)} {m' : Machine (Watched κ')} {k : Nat}
    {command : Command} (h : CutShort (Abreast n (Watched.Together n R)) n reason k command m m') :
    (m'.perform command).machine.console.printed.length = n ∧
      (m'.perform command).machine.console.printed <+:
        (m.perform command).machine.console.printed := by
  obtain ⟨left, hleft, console, ⟨_, hsame, hn⟩, htwin⟩ := h.cut.abreast k (Nat.le_refl k)
  have hparts := h.cut.parts
  have hfull : ((m.opened command).ticked k).console.accepted = n := by
    have := hparts.outputs
    omega
  have hprinted : (m'.perform command).machine.console.printed =
      ((m.opened command).ticked k).console.printed := by
    have hanswer : ((m'.opened command).ticked k).answer.1 = .error reason := hparts.refuses
    rw [h.kept]
    change ((m'.opened command).ticked k).answer.2.printed = _
    rw [htwin] at hanswer ⊢
    change (Console.emit console.console _).1 = _ at hanswer
    change (Console.emit console _).2.printed = _
    rw [Watched.printed_emit, hanswer]
    simp [Watched.printed, Except.isOk, Except.toBool, hsame]
  rw [hprinted, Watched.length_printed]
  refine ⟨hfull, ?_⟩
  obtain ⟨more, hmore⟩ := h.cut.goesOn
  have hlater : Later ((m.opened command).ticked k) (m.perform command).machine := by
    rw [hmore]
    exact (tick_later _).trans (ticked_later _ more)
  exact Watched.printed_fed hlater.console

theorem Abreast.printed_of_le {m : Machine (Watched κ)} {m' : Machine (Watched κ')}
    (hR : Console.RunsOut reason R) (h : Abreast n (Watched.Together n R) m m')
    {script : List Command} (hdrives : ∀ command ∈ script, command.drives = true)
    (hle : (m.performAll script).machine.stats.outputs ≤ n) :
    (m'.performAll script).machine.console.printed =
      (m.performAll script).machine.console.printed := by
  obtain ⟨_, _, _, ⟨_, hemissions, _⟩, hmachine⟩ :=
    (h.performAll_of_le (hR.watched n) hdrives hle).machine
  rw [hmachine, Watched.printed, Watched.printed]
  exact congrArg _ hemissions

theorem Abreast.printed_of_lt {m : Machine (Watched κ)} {m' : Machine (Watched κ')}
    (hR : Console.RunsOut reason R) (h : Abreast n (Watched.Together n R) m m')
    (hsound : m'.Sound) {script : List Command}
    (hdrives : ∀ command ∈ script, command.drives = true)
    (hlt : n < (m.performAll script).machine.stats.outputs) :
    (m'.performAll script).machine.console.printed =
      (m.performAll script).machine.console.printed.take n := by
  obtain ⟨before, command, after, k, rfl, _, hcut, hstays⟩ :=
    h.performAll_of_lt (hR.watched n) hsound hdrives hlt
  have hafter : ∀ other ∈ after, other.drives = true :=
    (List.forall_mem_cons.mp (List.forall_mem_append.mp hdrives).2).2
  obtain ⟨hlength, hbegins⟩ := hcut.printed
  have hgrows := Watched.printed_fed
    (performAll_later ((m.performAll before).machine.perform command).machine after).console
  have htake := List.prefix_iff_eq_take.mp (hbegins.trans hgrows)
  rw [hstays after hafter, performAll_append]
  rwa [hlength] at htake

/-! ## A run that is cut short -/

/-- A new machine that holds a memory. -/
def createWith (config : Config) (memory : Memory) (console : κ) : Machine κ :=
  { create config console with memory }

/-- Two new machines of the same settings and memory, one on a console that accepts every value and
one on a console that refuses every value after the first `n`, are ticked and run by the same script.
If the first prints no more than `n` values, they answer the same and differ in the console alone.
Otherwise they do so up to a tick that prints one value more. There the second machine, which has
printed the first `n` values, faults with the reason of its console, its command answers that fault,
and what the machines had before that tick it keeps, whatever ticks and runs follow. -/
theorem refusal_cuts_short (config : Config) (memory : Memory) {console : κ} {console' : κ'}
    (hc : Console.Accepting console) (hc' : Console.RefusesAfter reason n console')
    {script : List Command} (hdrives : ∀ command ∈ script, command.drives = true) :
    let m := createWith config memory console
    let m' := createWith config memory console'
    ((m.printed script).length ≤ n →
      Related (Twin fun _ _ => True) (m.performAll script) (m'.performAll script) ∧
        m'.printed script = m.printed script) ∧
    (n < (m.printed script).length →
      m'.printed script = (m.printed script).take n ∧
      ∃ before command after k, script = before ++ command :: after ∧
        Related (Twin fun _ _ => True) (m.performAll before) (m'.performAll before) ∧
        CutShort (Twin fun _ _ => True) n reason k command (m.performAll before).machine
          (m'.performAll before).machine ∧
        ∀ further, (∀ other ∈ further, other.drives = true) →
          (m'.performAll (before ++ command :: further)).machine =
            ((m'.performAll before).machine.perform command).machine) := by
  intro m m'
  have hm : m.Sound := (Step.write _ memory).sound (sound_create config console)
  have hm' : m'.Sound := (Step.write _ memory).sound (sound_create config console')
  have hR : Console.RunsOut reason (Console.Outlasts reason : Nat → κ → κ' → Prop) :=
    Console.runsOut_outlasts reason
  have habreast : Abreast n (Console.Outlasts reason) m m' :=
    ⟨n, Nat.zero_add n, console', ⟨hc, hc'⟩, rfl⟩
  have hreset : .reset ∉ script := fun hmem => by
    have := hdrives _ hmem
    cases this
  have houtputs : (m.performAll script).machine.stats.outputs = (m.printed script).length := by
    rw [outputs_of_script hm rfl hreset, printed, Watched.length_printed]
    rfl
  have hwatched : Abreast n (Watched.Together n (Console.Outlasts reason)) m.watched m'.watched :=
    ⟨n, Nat.zero_add n, { console := console' }, ⟨⟨hc, hc'⟩, rfl, Nat.zero_add n⟩, rfl⟩
  have hw' : m'.watched.Sound := ⟨hm'.pc_le, hm'.clock_running, hm'.fault_isSome, hm'.idle_blank⟩
  have hsame : (m.watched.performAll script).machine.stats.outputs = (m.printed script).length := by
    obtain ⟨_, _, hmachine⟩ := (m.performAll_watched script).machine
    rw [← houtputs, hmachine]
    rfl
  constructor
  · intro hle
    have hrelated := habreast.performAll_of_le hR hdrives (houtputs.trans_le hle)
    exact ⟨hrelated.mono Abreast.twin, hwatched.printed_of_le hR hdrives (hsame.trans_le hle)⟩
  · intro hlt
    refine ⟨hwatched.printed_of_lt hR hw' hdrives (hsame.symm ▸ hlt), ?_⟩
    obtain ⟨before, command, after, k, hsplit, hbefore, hcut, hstays⟩ :=
      habreast.performAll_of_lt hR hm' hdrives (houtputs.symm ▸ hlt)
    exact ⟨before, command, after, k, hsplit, hbefore.mono Abreast.twin, hcut.mono Abreast.twin,
      hstays⟩

end

/-- A program that prints 8 and 9. -/
def printsTwice : Memory := Memory.zero.overlay 0 [4, 8, 6, 4, 9, 6, 0]

/-- A recorder with room for some values. -/
def roomFor (count : Nat) : Recorder := { refusal := some ⟨count, "full"⟩ }

theorem refusal_cuts_short_prints_twice :
    let script : List Command := [.tick, .run, .runUntil 3]
    let m := createWith {} printsTwice ({} : Recorder)
    let m' := createWith {} printsTwice (roomFor 1)
    Console.Accepting ({} : Recorder) ∧ Console.RefusesAfter "full" 1 (roomFor 1) ∧
    (∀ command ∈ script, command.drives = true) ∧ m.printed script = [8, 9] ∧
    m'.printed script = [8] ∧
    (∃ before command after k, script = before ++ command :: after ∧
      CutShort (Twin fun _ _ => True) 1 "full" k command (m.performAll before).machine
        (m'.performAll before).machine) ∧
    (m'.performAll script).result = [.done, .fault (.output 5 "full"), .state .faulted] ∧
    (createWith {} printsTwice (roomFor 2)).printed script = [8, 9] := by
  intro script m m'
  have hc : Console.Accepting ({} : Recorder) := Recorder.accepting rfl
  have hone : Console.RefusesAfter "full" 1 (roomFor 1) := Recorder.refusesAfter rfl rfl
  have htwo : Console.RefusesAfter "full" 2 (roomFor 2) := Recorder.refusesAfter rfl rfl
  have hdrives : ∀ command ∈ script, command.drives = true := by decide
  have hprinted : m.printed script = [8, 9] := by decide +kernel
  have hfits := (refusal_cuts_short {} printsTwice hc htwo hdrives).1 (by rw [hprinted]; decide)
  obtain ⟨htake, before, command, after, k, hsplit, _, hcut, _⟩ :=
    (refusal_cuts_short {} printsTwice hc hone hdrives).2 (by rw [hprinted]; decide)
  refine ⟨hc, hone, hdrives, hprinted, ?_, ⟨before, command, after, k, hsplit, hcut⟩,
    by decide +kernel, hfits.2.trans hprinted⟩
  exact htake.trans (congrArg (List.take 1) hprinted)

end Machine

end ByteMachine
