import ByteMachine.Isa.Opcode
import ByteMachine.Memory

/-! Instructions with their operands: decoding from memory, encoding to bytes, and the assembly
text. `decode` answers the instruction at an address or the fault of the first operand that lies
outside memory; where the address of an operand is no word, it answers nothing. -/

namespace ByteMachine

/-- `save` takes a literal, `set` a register, the arithmetic instructions two registers. -/
inductive Instruction where
  | init
  | set (register : UInt8)
  | save (value : UInt8)
  | mul (a b : UInt8)
  | sub (a b : UInt8)
  | add (a b : UInt8)
  | div (a b : UInt8)
  | prn
  | halt
  deriving DecidableEq, Repr

namespace Instruction

def opcode : Instruction → Opcode
  | init => .init
  | set _ => .set
  | save _ => .save
  | mul _ _ => .mul
  | sub _ _ => .sub
  | add _ _ => .add
  | div _ _ => .div
  | prn => .prn
  | halt => .halt

def operands : Instruction → List UInt8
  | init | prn | halt => []
  | set x | save x => [x]
  | mul a b | sub a b | add a b | div a b => [a, b]

def width (inst : Instruction) : Nat := inst.opcode.width

def encode (inst : Instruction) : List UInt8 := inst.opcode.byte :: inst.operands

/-- Assembly text: registers as `R` and the index, literals in decimal. -/
def text (inst : Instruction) : String :=
  match inst with
  | init | prn | halt => inst.opcode.mnemonic
  | set r => s!"{inst.opcode.mnemonic} R{r.toNat}"
  | save v => s!"{inst.opcode.mnemonic} {v.toNat}"
  | mul a b | sub a b | add a b | div a b =>
      s!"{inst.opcode.mnemonic} R{a.toNat}, R{b.toNat}"

/-- The byte `distance` cells after the opcode byte. -/
def operand (mem : Memory) (pc distance : Nat) : ExceptT Fault (Except Panic) UInt8 := do
  mem.read (← addressAfter pc distance)

/-- The instruction for an opcode that was fetched from `pc`. -/
def decode (op : Opcode) (mem : Memory) (pc : Nat) : ExceptT Fault (Except Panic) Instruction :=
  match op with
  | .halt => return halt
  | .init => return init
  | .prn => return prn
  | .set => do return set (← operand mem pc 1)
  | .save => do return save (← operand mem pc 1)
  | .mul => do
      let a ← operand mem pc 1
      return mul a (← operand mem pc 2)
  | .sub => do
      let a ← operand mem pc 1
      return sub a (← operand mem pc 2)
  | .add => do
      let a ← operand mem pc 1
      return add a (← operand mem pc 2)
  | .div => do
      let a ← operand mem pc 1
      return div a (← operand mem pc 2)

/-! ## Small laws -/

theorem length_encode (inst : Instruction) : inst.encode.length = inst.width := by
  cases inst <;> rfl

theorem width_pos (inst : Instruction) : 0 < inst.width := inst.opcode.width_pos

theorem operand_of_lt (mem : Memory) {pc distance : Nat} (h : pc + distance < addressSpace) :
    (operand mem pc distance).run = .ok (mem.read (pc + distance)) := by
  rw [operand, addressAfter_of_lt h]
  rfl

/-- A decoded instruction has the opcode it was decoded for. -/
theorem opcode_of_decode {op : Opcode} {mem : Memory} {pc : Nat} {inst : Instruction}
    (h : (decode op mem pc).run = .ok (.ok inst)) : inst.opcode = op := by
  cases op with
  | halt | init | prn =>
    cases h
    rfl
  | set | save =>
    simp only [decode, ExceptT.run_bind] at h
    generalize (operand mem pc 1).run = read at h
    rcases read with _ | _ | x <;> cases h
    rfl
  | mul | sub | add | div =>
    simp only [decode, ExceptT.run_bind] at h
    generalize (operand mem pc 1).run = first at h
    generalize (operand mem pc 2).run = second at h
    rcases first with _ | _ | x <;> rcases second with _ | _ | y <;> cases h
    rfl

/-- Where there are words for the addresses of all operands, decoding answers. -/
theorem isOk_decode (op : Opcode) (mem : Memory) {pc : Nat} (h : pc + 2 < addressSpace) :
    (decode op mem pc).run.isOk = true := by
  have h1 := operand_of_lt mem (show pc + 1 < addressSpace by omega)
  have h2 := operand_of_lt mem h
  cases op with
  | halt | init | prn => rfl
  | set | save =>
    simp only [decode, ExceptT.run_bind, h1]
    cases mem.read (pc + 1) <;> rfl
  | mul | sub | add | div =>
    simp only [decode, ExceptT.run_bind, h1, h2]
    cases mem.read (pc + 1) <;> cases mem.read (pc + 2) <;> rfl

end Instruction

/-! ## Fetching -/

namespace Memory

/-- The instruction that starts at an address, or the fault of running it: the address lies
outside memory, its byte is not an opcode, or an operand lies outside memory. Where there is a byte,
the addresses of the operands are words. -/
def instructionAt (mem : Memory) (pc : Nat) : Except Fault Instruction :=
  match hread : mem.read pc with
  | .error fault => .error fault
  | .ok byte =>
      match DispatchTable.standard.lookup byte with
      | none => .error (.invalidInstruction byte pc)
      | some op =>
          have hpc : pc < 256 := (read_ok_iff.mp hread).1
          Panic.excluded (Instruction.decode op mem pc).run
            (Instruction.isOk_decode op mem (by unfold addressSpace; omega))

variable {mem : Memory} {pc : Nat}

theorem instructionAt_of_error {fault : Fault} (h : mem.read pc = .error fault) :
    mem.instructionAt pc = .error fault := by
  unfold instructionAt
  split
  · next _ hread =>
    cases hread.symm.trans h
    rfl
  · next _ hread => cases hread.symm.trans h

theorem instructionAt_of_unregistered {byte : UInt8} (h : mem.read pc = .ok byte)
    (hop : DispatchTable.standard.lookup byte = none) :
    mem.instructionAt pc = .error (.invalidInstruction byte pc) := by
  unfold instructionAt
  split
  · next _ hread => cases hread.symm.trans h
  · next _ hread =>
    cases hread.symm.trans h
    simp only [hop]

/-- Fetching gives what decoding answers. -/
theorem instructionAt_of_registered {byte : UInt8} {op : Opcode} (h : mem.read pc = .ok byte)
    (hop : DispatchTable.standard.lookup byte = some op) :
    (Instruction.decode op mem pc).run = .ok (mem.instructionAt pc) := by
  unfold instructionAt
  split
  · next _ hread => cases hread.symm.trans h
  · next _ hread =>
    cases hread.symm.trans h
    simp only [hop]
    exact (Panic.ok_excluded _).symm

theorem pc_lt_of_instructionAt {inst : Instruction} (h : mem.instructionAt pc = .ok inst) :
    pc < 256 := by
  cases hread : mem.read pc with
  | error fault =>
    rw [instructionAt_of_error hread] at h
    cases h
  | ok byte => exact (read_ok_iff.mp hread).1

end Memory

end ByteMachine
