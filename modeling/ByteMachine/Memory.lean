import ByteMachine.Fault

/-! The 256 cells of memory. Every access names an address of any size and is refused when the
address is not below 256; loading an image writes all of it or nothing. -/

namespace ByteMachine

def memorySize : Nat := 256

/-- How many addresses there are, as they are words of 64 bits. -/
def addressSpace : Nat := 0x10000000000000000

/-- The sum of two words, if it is a word. -/
def wordSum? (a b : Nat) : Option Nat := if a + b < addressSpace then some (a + b) else none

/-- An address that moves forward. Beyond the last word there is none to move to. -/
def addressAfter (address distance : Nat) : Except Panic Nat :=
  match wordSum? address distance with
  | some sum => .ok sum
  | none => .error .overflow

theorem addressAfter_of_lt {address distance : Nat} (h : address + distance < addressSpace) :
    addressAfter address distance = .ok (address + distance) := by
  rw [addressAfter, wordSum?, if_pos h]

theorem addressAfter_of_le {address distance : Nat} (h : addressSpace ≤ address + distance) :
    addressAfter address distance = .error .overflow := by
  rw [addressAfter, wordSum?, if_neg (Nat.not_lt.mpr h)]

structure Memory where
  cells : Vector UInt8 256
  deriving DecidableEq

namespace Memory

def zero : Memory := ⟨Vector.replicate 256 0⟩

/-- The byte at an address, 0 outside memory. -/
def byteAt (mem : Memory) (address : Nat) : UInt8 :=
  if h : address < 256 then mem.cells[address] else 0

def read (mem : Memory) (address : Nat) : Except Fault UInt8 :=
  if h : address < 256 then .ok mem.cells[address] else .error (.outOfBounds address)

def write (mem : Memory) (address : Nat) (value : UInt8) : Except Fault Memory :=
  if h : address < 256 then .ok ⟨mem.cells.set address value h⟩
  else .error (.outOfBounds address)

/-- The memory with `bytes` laid over the cells from `offset` on. -/
def overlay (mem : Memory) (offset : Nat) (bytes : List UInt8) : Memory :=
  ⟨Vector.ofFn fun i =>
    if offset ≤ i.val then (bytes[i.val - offset]?).getD (mem.cells.get i) else mem.cells.get i⟩

/-- Copies an image to `offset`. An image that does not fit changes nothing, and the fault names
the first address past the end of memory that it would need. -/
def load (mem : Memory) (offset : Nat) (bytes : List UInt8) : Except Fault Memory :=
  let outside := Fault.outOfBounds (max offset memorySize)
  match wordSum? offset bytes.length with
  | none => .error outside
  | some stop =>
      if offset ≤ stop ∧ stop ≤ memorySize then .ok (mem.overlay offset bytes)
      else .error outside

def toList (mem : Memory) : List UInt8 := mem.cells.toList

/-! ## Small laws -/

theorem read_eq (mem : Memory) (a : Nat) :
    mem.read a = if a < 256 then .ok (mem.byteAt a) else .error (.outOfBounds a) := by
  unfold read byteAt
  split <;> rfl

theorem read_ok_iff {mem : Memory} {a : Nat} {b : UInt8} :
    mem.read a = .ok b ↔ a < 256 ∧ mem.byteAt a = b := by
  rw [read_eq]
  split <;> rename_i h <;> simp [h]

theorem byteAt_zero (a : Nat) : zero.byteAt a = 0 := by
  unfold byteAt zero
  split <;> simp

theorem byteAt_of_write {mem written : Memory} {a : Nat} {value : UInt8}
    (h : mem.write a value = .ok written) (b : Nat) :
    written.byteAt b = if b = a then value else mem.byteAt b := by
  unfold write at h
  split at h
  · next ha =>
    cases h
    unfold byteAt
    by_cases hb : b < 256
    · simp only [dif_pos hb, Vector.getElem_set, eq_comm]
    · have hne : b ≠ a := by omega
      simp only [dif_neg hb, if_neg hne]
  · cases h

/-- An image is copied exactly if it ends within memory, whichever check would notice otherwise. -/
theorem load_eq_ite (mem : Memory) (offset : Nat) (bytes : List UInt8) :
    mem.load offset bytes = if offset + bytes.length ≤ memorySize then
      .ok (mem.overlay offset bytes) else .error (.outOfBounds (max offset memorySize)) := by
  unfold load wordSum? memorySize addressSpace
  by_cases hword : offset + bytes.length < 0x10000000000000000
  · simp only [if_pos hword, Nat.le_add_right, true_and]
  · have hbeyond : ¬ offset + bytes.length ≤ 256 := by omega
    simp only [if_neg hword, if_neg hbeyond]

theorem byteAt_overlay (mem : Memory) (offset a : Nat) (bytes : List UInt8) (h : a < 256) :
    (mem.overlay offset bytes).byteAt a =
      if offset ≤ a then (bytes[a - offset]?).getD (mem.byteAt a) else mem.byteAt a := by
  simp only [byteAt, overlay, h, dif_pos, Vector.getElem_ofFn]
  rfl

end Memory

end ByteMachine
