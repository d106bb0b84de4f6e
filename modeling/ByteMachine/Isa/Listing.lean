import ByteMachine.Isa.Instruction

/-! Disassembly of a byte image. The listing sweeps the image from the left; a byte that does not
begin a complete instruction is listed as data and the sweep goes on at the next byte. -/

namespace ByteMachine

/-- The instruction at the head of a byte list. -/
def Instruction.ofBytes? : List UInt8 → Option Instruction
  | [] => none
  | byte :: rest =>
      match Opcode.ofByte? byte, rest with
      | some .halt, _ => some .halt
      | some .init, _ => some .init
      | some .prn, _ => some .prn
      | some .set, r :: _ => some (.set r)
      | some .save, v :: _ => some (.save v)
      | some .mul, a :: b :: _ => some (.mul a b)
      | some .sub, a :: b :: _ => some (.sub a b)
      | some .add, a :: b :: _ => some (.add a b)
      | some .div, a :: b :: _ => some (.div a b)
      | _, _ => none

namespace Listing

/-- What one line of a listing shows. -/
inductive Item where
  | instruction (inst : Instruction)
  | data (byte : UInt8)
  deriving DecidableEq, Repr

namespace Item

def bytes : Item → List UInt8
  | instruction inst => inst.encode
  | data byte => [byte]

def width : Item → Nat
  | instruction inst => inst.width
  | data _ => 1

def text : Item → String
  | instruction inst => inst.text
  | data byte => s!".byte 0b{Text.binary byte}"

theorem width_pos (item : Item) : 0 < item.width := by
  cases item with
  | instruction inst => exact inst.width_pos
  | data _ => exact Nat.one_pos

end Item

/-- The first line's item of a non-empty image. -/
def firstItem (byte : UInt8) (rest : List UInt8) : Item :=
  match Instruction.ofBytes? (byte :: rest) with
  | some inst => .instruction inst
  | none => .data byte

/-- The lines of an image whose first byte stands at `address`. -/
def sweep (address : Nat) : List UInt8 → List (Nat × Item)
  | [] => []
  | byte :: rest =>
      let item := firstItem byte rest
      (address, item) :: sweep (address + item.width) (rest.drop (item.width - 1))
termination_by bytes => bytes.length
decreasing_by
  simp only [List.length_drop, List.length_cons]
  omega

end Listing

/-- The listing of an image loaded at address 0. -/
def disassemble (bytes : List UInt8) : List (Nat × Listing.Item) := Listing.sweep 0 bytes

end ByteMachine
