/-! The nine opcodes: their bytes, their widths and the table that dispatches a fetched byte. -/

namespace ByteMachine

inductive Opcode where
  | halt
  | init
  | set
  | save
  | mul
  | prn
  | sub
  | add
  | div
  deriving DecidableEq, Repr

namespace Opcode

/-- Every opcode, in the order of the bytes. -/
def all : List Opcode := [halt, init, set, save, mul, prn, sub, add, div]

def byte : Opcode → UInt8
  | halt => 0
  | init => 1
  | set => 2
  | save => 4
  | mul => 5
  | prn => 6
  | sub => 7
  | add => 8
  | div => 9

def ofByte? : UInt8 → Option Opcode
  | 0 => some halt
  | 1 => some init
  | 2 => some set
  | 4 => some save
  | 5 => some mul
  | 6 => some prn
  | 7 => some sub
  | 8 => some add
  | 9 => some div
  | _ => none

/-- Bytes taken in memory, the opcode byte and its operands together. -/
def width : Opcode → Nat
  | halt | init | prn => 1
  | set | save => 2
  | mul | sub | add | div => 3

def mnemonic : Opcode → String
  | halt => "HALT"
  | init => "INIT"
  | set => "SET"
  | save => "SAVE"
  | mul => "MUL"
  | prn => "PRN"
  | sub => "SUB"
  | add => "ADD"
  | div => "DIV"

def ofMnemonic? (text : String) : Option Opcode :=
  all.find? fun op => op.mnemonic == text

theorem mem_all (op : Opcode) : op ∈ all := by
  cases op <;> decide

theorem ofByte?_byte (op : Opcode) : ofByte? op.byte = some op := by
  cases op <;> rfl

theorem byte_of_ofByte? {b : UInt8} {op : Opcode} (h : ofByte? b = some op) : op.byte = b := by
  unfold ofByte? at h
  split at h <;> simp_all <;> subst h <;> rfl

theorem ofByte?_eq_some_iff {b : UInt8} {op : Opcode} : ofByte? b = some op ↔ op.byte = b :=
  ⟨byte_of_ofByte?, fun h => h ▸ ofByte?_byte op⟩

theorem byte_injective {a b : Opcode} (h : a.byte = b.byte) : a = b := by
  have := congrArg ofByte? h
  simpa only [ofByte?_byte, Option.some.injEq] using this

theorem width_pos (op : Opcode) : 0 < op.width := by
  cases op <;> decide

theorem width_le (op : Opcode) : op.width ≤ 3 := by
  cases op <;> decide

end Opcode

/-! ## Dispatch -/

/-- One entry for each byte value, empty where the byte is not an opcode. -/
structure DispatchTable where
  entries : Vector (Option Opcode) 256

namespace DispatchTable

def register (table : DispatchTable) (op : Opcode) : DispatchTable :=
  ⟨table.entries.set op.byte.toNat (some op) op.byte.toNat_lt⟩

/-- The table that knows the given opcodes and nothing else. -/
def ofOpcodes (ops : List Opcode) : DispatchTable :=
  ops.foldl register ⟨Vector.replicate 256 none⟩

/-- The table of every opcode. -/
def standard : DispatchTable := ofOpcodes Opcode.all

def lookup (table : DispatchTable) (b : UInt8) : Option Opcode :=
  have := b.toNat_lt
  table.entries[b.toNat]

/-- How many byte values are registered. -/
def size (table : DispatchTable) : Nat :=
  (table.entries.toList.filter Option.isSome).length

def isEmpty (table : DispatchTable) : Bool := table.size == 0

end DispatchTable

end ByteMachine
