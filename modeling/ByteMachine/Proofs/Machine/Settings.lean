import ByteMachine.Machine.Command
import ByteMachine.Proofs.Machine.Tick

/-! What stays while a machine is used. Nothing that can be done to a machine changes its settings,
and its console changes only by the values that it is given. This holds of every machine, also of
one that no commands lead to. -/

namespace ByteMachine

variable {κ : Type} [Console κ]

namespace Console

/-- What a console can become when it is given values. -/
inductive Fed : κ → κ → Prop
  | refl (console : κ) : Fed console console
  | emit {console console' : κ} (h : Fed console console') (value : Float) :
      Fed console (Console.emit console' value).2

theorem Fed.trans {first second third : κ} (h : Fed first second) (h' : Fed second third) :
    Fed first third := by
  induction h' with
  | refl => exact h
  | emit _ value ih => exact .emit ih value

/-- A console that accepts every value, however many it was given before. -/
def Accepting (console : κ) : Prop :=
  ∀ console', Fed console console' → ∀ value, (emit console' value).1 = .ok ()

theorem Accepting.fed {console console' : κ} (h : Accepting console) (hf : Fed console console') :
    Accepting console' :=
  fun _ hf' => h _ (hf.trans hf')

end Console

/-- A recorder that refuses nothing accepts every value. -/
theorem Recorder.accepting {recorder : Recorder} (h : recorder.refusal = none) :
    Console.Accepting recorder := by
  have hkept (r : Recorder) (hr : r.refusal = none) (value : Float) :
      Console.emit r value = (.ok (), { r with values := r.values ++ [value] }) := by
    change Recorder.emit r value = _
    unfold Recorder.emit
    rw [hr]
  intro console hf value
  have hnone : console.refusal = none := by
    induction hf with
    | refl => exact h
    | emit _ value ih => rw [hkept _ ih]; exact ih
  rw [hkept console hnone]

namespace Machine

/-- One and the same machine at a later time: the settings are kept, and the console was given
values. -/
structure Later (m m' : Machine κ) : Prop where
  trace : m'.trace = m.trace
  maxTicks : m'.maxTicks = m.maxTicks
  interval : m'.clock.interval = m.clock.interval
  console : Console.Fed m.console m'.console

theorem Later.refl (m : Machine κ) : Later m m :=
  ⟨rfl, rfl, rfl, .refl _⟩

theorem Later.trans {m m' m'' : Machine κ} (h : Later m m') (h' : Later m' m'') : Later m m'' :=
  ⟨h'.trace.trans h.trace, h'.maxTicks.trans h.maxTicks, h'.interval.trans h.interval,
    h.console.trans h'.console⟩

theorem apply_later (m : Machine κ) (inst : Instruction) : Later m (m.apply inst).machine := by
  cases inst with
  | halt | init | set _ | save _ | mul _ _ | sub _ _ | add _ _ => exact ⟨rfl, rfl, rfl, .refl _⟩
  | div a b =>
    simp only [apply]
    split
    · exact .refl m
    · exact ⟨rfl, rfl, rfl, .refl _⟩
  | prn =>
    have hfed := (Console.Fed.refl m.console).emit (m.registers.read m.current)
    simp only [apply, print]
    cases he : Console.emit m.console (m.registers.read m.current) with
    | mk result rest =>
      rw [he] at hfed
      cases result with
      | ok done => exact ⟨rfl, rfl, rfl, hfed⟩
      | error reason => exact ⟨rfl, rfl, rfl, hfed⟩

theorem execute_later (m : Machine κ) (inst : Instruction) : Later m (m.execute inst).machine := by
  have hadvance (m : Machine κ) : Later m (m.advance inst).machine := by
    unfold advance
    split
    · exact .refl m
    · exact ⟨rfl, rfl, rfl, .refl _⟩
  unfold execute
  dsimp only
  split
  · exact (apply_later m inst).trans (hadvance _)
  · exact apply_later m inst

theorem start_later (m : Machine κ) : Later m m.start.machine := by
  unfold start
  split
  · exact .refl m
  · exact ⟨rfl, rfl, rfl, .refl _⟩

theorem endTick_later (m : Machine κ) (op : Opcode) : Later m (m.endTick op).machine := by
  unfold endTick
  dsimp only
  split
  · exact ⟨rfl, rfl, rfl, .refl _⟩
  · exact ⟨rfl, rfl, rfl, .refl _⟩

theorem raise_later (m : Machine κ) (fault : Fault) : Later m (m.raise fault).machine :=
  ⟨rfl, rfl, rfl, .refl _⟩

theorem tick_later (m : Machine κ) : Later m m.tick.machine := by
  have hbegin : Later m m.beginTick := ⟨rfl, rfl, rfl, .refl _⟩
  unfold tick
  split
  · exact .refl m
  · dsimp only
    split
    · exact hbegin.trans (raise_later _ _)
    · next inst _ =>
      have hexec := hbegin.trans (execute_later m.beginTick inst)
      split
      · exact hexec.trans (raise_later _ _)
      · exact hexec.trans (endTick_later _ _)

theorem ticked_later (m : Machine κ) (k : Nat) : Later m (m.ticked k) := by
  induction k with
  | zero => exact .refl m
  | succ k ih => exact ih.trans (tick_later _)

theorem drive_later (m : Machine κ) : Later m m.drive.machine := by
  fun_induction drive m with
  | case1 m _ _ _ => exact tick_later m
  | case2 m _ _ _ ih => exact (tick_later m).trans ih
  | case3 m _ => exact .refl m

theorem driveFor_later (n : Nat) (m : Machine κ) : Later m (driveFor n m).machine := by
  induction n generalizing m with
  | zero => exact .refl m
  | succ n ih =>
    simp only [driveFor]
    split
    · split
      · exact tick_later m
      · exact (tick_later m).trans (ih _)
    · exact .refl m

theorem perform_later (m : Machine κ) (command : Command) :
    Later m (m.perform command).machine := by
  cases command with
  | load bytes =>
    simp only [perform, load]
    split <;> exact ⟨rfl, rfl, rfl, .refl _⟩
  | poke address value =>
    simp only [perform, poke]
    split <;> exact ⟨rfl, rfl, rfl, .refl _⟩
  | peek _ | register _ | stop | reset => exact ⟨rfl, rfl, rfl, .refl _⟩
  | start => exact start_later m
  | tick => exact tick_later m
  | run => exact (start_later m).trans (drive_later _)
  | runUntil n => exact (start_later m).trans (driveFor_later n _)

theorem performAll_later (m : Machine κ) (script : List Command) :
    Later m (m.performAll script).machine := by
  induction script generalizing m with
  | nil => exact .refl m
  | cons command rest ih => exact (perform_later m command).trans (ih _)

end Machine

end ByteMachine
