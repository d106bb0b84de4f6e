import ByteMachine.Proofs.Machine.Simulation

/-! Machines on different consoles. Of a console nothing but its answers reaches the rest of a
machine, so machines that differ only in consoles which answer alike still do after any script. -/

namespace ByteMachine

variable {κ κ' : Type}

namespace Machine

/-- The machine with its output going to another console. -/
def connect (m : Machine κ) (console : κ') : Machine κ' := { m with console }

/-- Machines that differ in their consoles alone, which are related. -/
def Twin (R : κ → κ' → Prop) (m : Machine κ) (m' : Machine κ') : Prop :=
  ∃ console, R m.console console ∧ m' = m.connect console

end Machine

namespace Outcome

variable {R : κ → κ' → Prop} {α : Type}

/-- Outcomes that differ in the console alone. -/
structure Twin (R : κ → κ' → Prop) (outcome : Outcome κ α) (outcome' : Outcome κ' α) : Prop where
  result : outcome'.result = outcome.result
  machine : Machine.Twin R outcome.machine outcome'.machine
  log : outcome'.log = outcome.log

end Outcome

variable [Console κ] [Console κ']

namespace Machine

variable {R : κ → κ' → Prop} {m : Machine κ} {m' : Machine κ'}

/-- Machines on consoles that answer alike do the same on every script. -/
theorem performAll_twin (hR : Console.Alike R) (h : Twin R m m') (script : List Command) :
    Outcome.Twin R (m.performAll script) (m'.performAll script) := by
  obtain ⟨console, hr, rfl⟩ := h
  have hlike : Resembles Eq R id m (m.connect console) := ⟨m.clock, console, rfl, hr, rfl⟩
  obtain ⟨hresult, ⟨_, console', rfl, hr', hmachine⟩, hlog⟩ :=
    (resembles_simulation Clock.alike_eq hR).performAll hlike script
  exact ⟨hresult, ⟨console', hr', hmachine⟩, hlog⟩

end Machine

/-! ## Watched consoles -/

/-- A console together with every value that it was given and the answer it gave. -/
structure Watched (κ : Type) where
  console : κ
  emissions : List (Float × Except String Unit) := []

namespace Watched

def emit (watched : Watched κ) (value : Float) : Except String Unit × Watched κ :=
  let (answer, console) := Console.emit watched.console value
  (answer, ⟨console, watched.emissions ++ [(value, answer)]⟩)

instance : Console (Watched κ) := ⟨emit⟩

omit [Console κ] in
/-- How many values were accepted. -/
def accepted (watched : Watched κ) : Nat := watched.emissions.countP (·.2.isOk)

theorem emissions_emit (watched : Watched κ) (value : Float) :
    (Console.emit watched value).2.emissions =
      watched.emissions ++ [(value, (Console.emit watched.console value).1)] :=
  rfl

theorem accepted_emit (watched : Watched κ) (value : Float) :
    (Console.emit watched value).2.accepted =
      watched.accepted + if (Console.emit watched value).1.isOk then 1 else 0 := by
  rw [accepted, emissions_emit, List.countP_append, List.countP_singleton]
  rfl

theorem alike : Console.Alike fun (watched : Watched κ) console => watched.console = console := by
  rintro watched _ value rfl
  exact ⟨rfl, rfl⟩

end Watched

namespace Machine

omit [Console κ] in
/-- The machine, watched from now on. -/
def watched (m : Machine κ) : Machine (Watched κ) := m.connect { console := m.console }

/-- Watching a machine does not change what it does. -/
theorem performAll_watched (m : Machine κ) (script : List Command) :
    Outcome.Twin (fun watched console => watched.console = console)
      (m.watched.performAll script) (m.performAll script) :=
  performAll_twin Watched.alike ⟨m.console, rfl, rfl⟩ script

end Machine

end ByteMachine
