import ByteMachine.Isa.Opcode
import ByteMachine.Text.Numeral

/-! Counts of one run: ticks dispatched, instructions completed in all and by opcode, and values
printed. A tick that faults is counted as a tick and nothing else. -/

namespace ByteMachine

/-- A count for each opcode. -/
structure Tally where
  counts : Vector Nat 9
  deriving DecidableEq, Repr

namespace Tally

def zero : Tally := ⟨Vector.replicate 9 0⟩

def place : Opcode → Fin 9
  | .halt => 0
  | .init => 1
  | .set => 2
  | .save => 3
  | .mul => 4
  | .prn => 5
  | .sub => 6
  | .add => 7
  | .div => 8

def count (tally : Tally) (op : Opcode) : Nat := tally.counts[place op]

def add (tally : Tally) (op : Opcode) : Tally :=
  ⟨tally.counts.set (place op) (tally.count op + 1)⟩

theorem place_injective {a b : Opcode} (h : place a = place b) : a = b := by
  cases a <;> cases b <;> first | rfl | exact absurd h (by decide)

theorem count_zero (op : Opcode) : zero.count op = 0 := by
  simp [count, zero]

theorem count_add (tally : Tally) (added op : Opcode) :
    (tally.add added).count op = tally.count op + if added = op then 1 else 0 := by
  by_cases h : added = op
  · subst h
    simp [count, add]
  · have hn : (place added).val ≠ (place op).val := fun he => h (place_injective (Fin.ext he))
    simp [count, add, Vector.getElem_set_ne, hn, h]

end Tally

structure Statistics where
  ticks : Nat := 0
  retired : Nat := 0
  outputs : Nat := 0
  mix : Tally := Tally.zero
  deriving DecidableEq, Repr

namespace Statistics

def countTick (stats : Statistics) : Statistics := { stats with ticks := stats.ticks + 1 }

def countOutput (stats : Statistics) : Statistics := { stats with outputs := stats.outputs + 1 }

/-- Counts an instruction that ran to its end. -/
def record (stats : Statistics) (op : Opcode) : Statistics :=
  { stats with retired := stats.retired + 1, mix := stats.mix.add op }

def rule : String := "----------------------------------------"

/-- The report, after an empty line. The duration of the run is measured by the caller, and only
opcodes that were used are listed. -/
def report (stats : Statistics) (seconds : String) : List String :=
  let used := Opcode.all.filter fun op => 0 < stats.mix.count op
  ["", rule, "LS-8 RUN STATISTICS", rule,
    s!"host_seconds       {seconds} s",
    s!"ticks              {stats.ticks}",
    s!"insts_retired      {stats.retired}",
    s!"outputs            {stats.outputs}",
    "INSTRUCTION MIX"] ++
  used.map (fun op => s!"  {Text.column 16 op.mnemonic} {stats.mix.count op}") ++
  [rule]

end Statistics

end ByteMachine
