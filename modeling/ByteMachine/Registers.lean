import ByteMachine.Fault
import ByteMachine.Number.Format

/-! The 256 registers, each a double. An instruction names a register by one byte and cannot miss;
a caller from outside may name any index and is refused above 255. -/

namespace ByteMachine

structure Registers where
  cells : Vector Float 256
  deriving DecidableEq

namespace Registers

def zero : Registers := ⟨Vector.replicate 256 0⟩

def read (regs : Registers) (index : UInt8) : Float :=
  have := index.toNat_lt
  regs.cells[index.toNat]

def write (regs : Registers) (index : UInt8) (value : Float) : Registers :=
  ⟨regs.cells.set index.toNat value index.toNat_lt⟩

def get (regs : Registers) (index : Nat) : Except Fault Float :=
  if h : index < 256 then .ok regs.cells[index] else .error (.registerOutOfBounds index)

def toList (regs : Registers) : List Float := regs.cells.toList

/-- Equality as doubles compare: the two zeros are equal, and a value that is no number differs
from everything. -/
def same (a b : Registers) : Bool :=
  (a.toList.zip b.toList).all fun (x, y) => x == y

/-- One line for each register that is not zero, or a single line saying that all are. -/
def dump (regs : Registers) : List String :=
  let shown := (regs.toList.zipIdx.filter fun (value, _) => !(value == 0)).map fun (value, index) =>
    s!"R{Text.column 3 (toString index)} = {Number.text value}"
  if shown.isEmpty then ["(all registers zero)"] else shown

/-! ## Small laws -/

theorem read_write_of_ne (regs : Registers) {written index : UInt8} (value : Float)
    (h : written ≠ index) : (regs.write written value).read index = regs.read index := by
  have hn : written.toNat ≠ index.toNat := fun he => h (UInt8.toNat_inj.mp he)
  simp [read, write, Vector.getElem_set_ne, hn]

end Registers

end ByteMachine
