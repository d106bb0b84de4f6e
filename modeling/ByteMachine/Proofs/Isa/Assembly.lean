import ByteMachine.Proofs.Isa.Listing
import ByteMachine.Proofs.Text.Numeral
import Mathlib.Algebra.Ring.Nat

/-! Disassembly and assembly. An assembler is defined here that reads the lines of a listing back:
an instruction gives its encoding, a `.byte` line gives its byte.

* `ofText?_text`: every line can be read in one way only, so lines that look alike show the same;
* `sweep_encode`: the listing of encodings shows the instructions;
* `sweep_tiles`: a listing covers its image without gaps;
* `assemble?_sweep`: assembling the lines of a listing gives the image back. -/

namespace ByteMachine

open Text

/-! ## Reading an instruction -/

theorem Opcode.ofMnemonic?_mnemonic (op : Opcode) : ofMnemonic? op.mnemonic = some op := by
  cases op <;> decide

namespace Instruction

/-- The words of an instruction's text. -/
def words (inst : Instruction) : List (List Char) :=
  inst.opcode.mnemonic.toList ::
    match inst with
    | init | prn | halt => []
    | set r => ['R' :: Nat.toDigits 10 r.toNat]
    | save v => [Nat.toDigits 10 v.toNat]
    | mul a b | sub a b | add a b | div a b =>
        ['R' :: (Nat.toDigits 10 a.toNat ++ [',']), 'R' :: Nat.toDigits 10 b.toNat]

def register? : List Char → Option UInt8
  | 'R' :: digits => decimalByte? digits
  | _ => none

/-- Two registers, of which the first has a comma behind it. -/
def registers? (first second : List Char) : Option (UInt8 × UInt8) := do
  if first.getLast? ≠ some ',' then none
  else return (← register? first.dropLast, ← register? second)

/-- Reads an instruction from its words. -/
def ofWords? : List (List Char) → Option Instruction
  | [] => none
  | name :: operands =>
      match Opcode.ofMnemonic? (String.ofList name), operands with
      | some .init, [] => some init
      | some .prn, [] => some prn
      | some .halt, [] => some halt
      | some .set, [r] => (register? r).map set
      | some .save, [v] => (decimalByte? v).map save
      | some .mul, [a, b] => (registers? a b).map fun (a, b) => mul a b
      | some .sub, [a, b] => (registers? a b).map fun (a, b) => sub a b
      | some .add, [a, b] => (registers? a b).map fun (a, b) => add a b
      | some .div, [a, b] => (registers? a b).map fun (a, b) => div a b
      | _, _ => none

theorem toList_text (inst : Instruction) : inst.text.toList = [' '].intercalate inst.words := by
  have hself (s : String) : toString s = s := rfl
  cases inst <;> simp [text, words, opcode, List.intercalate, hself]

theorem register?_toDigits (r : UInt8) : register? ('R' :: Nat.toDigits 10 r.toNat) = some r :=
  decimalByte?_toDigits r

theorem registers?_toDigits (a b : UInt8) :
    registers? ('R' :: (Nat.toDigits 10 a.toNat ++ [','])) ('R' :: Nat.toDigits 10 b.toNat) =
      some (a, b) := by
  have hlast : ('R' :: Nat.toDigits 10 a.toNat ++ [',']).getLast? = some ',' :=
    List.getLast?_concat
  rw [← List.cons_append, registers?, hlast, List.dropLast_concat, register?_toDigits,
    register?_toDigits]
  rfl

theorem ofWords?_words (inst : Instruction) : ofWords? inst.words = some inst := by
  have hname := Opcode.ofMnemonic?_mnemonic inst.opcode
  cases inst <;>
    simp_all [ofWords?, words, opcode, register?_toDigits, registers?_toDigits,
      decimalByte?_toDigits]

theorem blank_not_mem_words {inst : Instruction} {word : List Char} (h : word ∈ inst.words) :
    ' ' ∉ word := by
  have hdigits (n : Nat) : ' ' ∉ Nat.toDigits 10 n := not_mem_toDigits (by decide) n
  have hname : ' ' ∉ inst.opcode.mnemonic.toList := by
    cases inst.opcode <;> decide
  rcases List.mem_cons.mp h with rfl | h
  · exact hname
  · cases inst <;> simp_all <;> rcases h with rfl | rfl <;> simp [hdigits]

end Instruction

/-! ## Reading a line -/

namespace Listing.Item

def words : Item → List (List Char)
  | instruction inst => inst.words
  | data byte => [".byte".toList, '0' :: 'b' :: (Text.binary byte).toList]

/-- Reads a line of a listing. -/
def ofText? (text : String) : Option Item :=
  match text.toList.splitOn ' ' with
  | [['.', 'b', 'y', 't', 'e'], '0' :: 'b' :: digits] => (binaryByte? digits).map data
  | words => (Instruction.ofWords? words).map instruction

theorem splitOn_text (item : Item) : item.text.toList.splitOn ' ' = item.words := by
  have hself (s : String) : toString s = s := rfl
  have htext : item.text.toList = [' '].intercalate item.words := by
    cases item with
    | instruction inst => exact inst.toList_text
    | data byte => simp [text, words, List.intercalate, hself]
  have hblank : ∀ word ∈ item.words, ' ' ∉ word := by
    intro word hword
    cases item with
    | instruction inst => exact Instruction.blank_not_mem_words hword
    | data byte =>
      simp only [words, List.mem_cons, List.not_mem_nil, or_false] at hword
      rcases hword with rfl | rfl
      · decide
      · simp only [Text.binary, String.toList_ofList, List.mem_cons, List.mem_map, not_or,
          not_exists, not_and]
        refine ⟨by decide, by decide, fun i _ => ?_⟩
        split <;> decide
  rw [htext, List.splitOn_intercalate ' ' hblank]
  cases item <;> simp [words, Instruction.words]

/-- Every line is read as what it shows. -/
theorem ofText?_text (item : Item) : ofText? item.text = some item := by
  rw [ofText?, splitOn_text]
  cases item with
  | data byte => simp [words, binaryByte?_binary]
  | instruction inst =>
    have hread := Instruction.ofWords?_words inst
    have hname : inst.opcode.mnemonic.toList ≠ ['.', 'b', 'y', 't', 'e'] := by
      cases inst.opcode <;> decide
    split
    next h =>
      simp only [words, Instruction.words, List.cons.injEq] at h
      exact absurd h.1 hname
    next => simp [words, hread]

end Listing.Item

/-- The bytes that the lines of a listing stand for. -/
def assemble? (lines : List String) : Option (List UInt8) :=
  (lines.mapM Listing.Item.ofText?).map (·.flatMap Listing.Item.bytes)

/-! ## Sweeping an image -/

namespace Listing

/-- The lines cover the addresses from the first to the last without gaps: each begins where the
one before it ends. -/
inductive Tiles : Nat → Nat → List (Nat × Item) → Prop
  | nil (address : Nat) : Tiles address address []
  | cons {address stop : Nat} {item : Item} {rest : List (Nat × Item)}
      (h : Tiles (address + item.width) stop rest) : Tiles address stop ((address, item) :: rest)

theorem length_bytes (item : Item) : item.bytes.length = item.width := by
  cases item with
  | instruction inst => exact inst.length_encode
  | data byte => rfl

/-- The first line shows bytes at the head of the image. -/
theorem firstItem_bytes (byte : UInt8) (rest : List UInt8) :
    (firstItem byte rest).bytes <+: byte :: rest := by
  cases h : firstItem byte rest with
  | instruction inst => exact firstItem_eq_instruction_iff.mp h
  | data listed =>
    obtain ⟨rfl, -⟩ := firstItem_eq_data_iff.mp h
    exact ⟨rest, rfl⟩

/-- Behind the first line the image goes on. -/
theorem bytes_append_drop (byte : UInt8) (rest : List UInt8) :
    (firstItem byte rest).bytes ++ (byte :: rest).drop (firstItem byte rest).width =
      byte :: rest := by
  obtain ⟨tail, htail⟩ := firstItem_bytes byte rest
  rw [← htail, ← length_bytes, List.drop_left]

/-- An induction along the lines of a listing. -/
theorem sweep_induction {motive : Nat → List UInt8 → Prop} (nil : ∀ address, motive address [])
    (cons : ∀ address byte rest,
      motive (address + (firstItem byte rest).width)
        ((byte :: rest).drop (firstItem byte rest).width) → motive address (byte :: rest))
    (address : Nat) (bytes : List UInt8) : motive address bytes := by
  induction hlength : bytes.length using Nat.strongRecOn generalizing address bytes with
  | _ length ih =>
    cases bytes with
    | nil => exact nil address
    | cons byte rest =>
      have hw := (firstItem byte rest).width_pos
      refine cons address byte rest (ih _ ?_ _ _ rfl)
      rw [← hlength, List.length_drop, List.length_cons]
      omega

theorem sweep_tiles (address : Nat) (bytes : List UInt8) :
    Tiles address (address + bytes.length) (sweep address bytes) := by
  induction address, bytes using sweep_induction with
  | nil address =>
    rw [sweep_nil]
    exact .nil address
  | cons address byte rest ih =>
    have hlength := congrArg List.length (bytes_append_drop byte rest)
    rw [List.length_append, length_bytes] at hlength
    rw [Nat.add_assoc, hlength] at ih
    rw [sweep_cons]
    exact .cons ih

theorem sweep_bytes (address : Nat) (bytes : List UInt8) :
    (sweep address bytes).flatMap (·.2.bytes) = bytes := by
  induction address, bytes using sweep_induction with
  | nil address => rw [sweep_nil, List.flatMap_nil]
  | cons address byte rest ih =>
    rw [sweep_cons, List.flatMap_cons, ih]
    exact bytes_append_drop byte rest

theorem assemble?_sweep (address : Nat) (bytes : List UInt8) :
    assemble? ((sweep address bytes).map (·.2.text)) = some bytes := by
  have hread (lines : List (Nat × Item)) :
      (lines.map (·.2.text)).mapM Item.ofText? = some (lines.map (·.2)) := by
    induction lines with
    | nil => rfl
    | cons line lines ih => simp [Item.ofText?_text, ih]
  rw [assemble?, hread, Option.map_some, List.flatMap_map, sweep_bytes]

/-! ## Sweeping encodings -/

/-- What the listing of some instructions should be. -/
def entries (address : Nat) : List Instruction → List (Nat × Item)
  | [] => []
  | inst :: rest => (address, .instruction inst) :: entries (address + inst.width) rest

theorem sweep_encode (address : Nat) (insts : List Instruction) :
    sweep address (insts.flatMap Instruction.encode) = entries address insts := by
  induction insts generalizing address with
  | nil => exact sweep_nil address
  | cons inst rest ih =>
    have hbytes : inst.encode ++ rest.flatMap Instruction.encode =
        inst.opcode.byte :: (inst.operands ++ rest.flatMap Instruction.encode) := rfl
    have hfirst : firstItem inst.opcode.byte (inst.operands ++ rest.flatMap Instruction.encode) =
        .instruction inst := firstItem_eq_instruction_iff.mpr ⟨_, hbytes⟩
    rw [List.flatMap_cons, hbytes, sweep_cons, hfirst, ← hbytes, Item.width,
      ← inst.length_encode, List.drop_left, ih, inst.length_encode]
    rfl

/-- Each instruction stands behind the widths of those before it. -/
theorem entries_getElem? (address : Nat) (insts : List Instruction) (i : Nat) :
    (entries address insts)[i]? = insts[i]?.map fun inst =>
      (address + ((insts.take i).map Instruction.width).sum, .instruction inst) := by
  induction insts generalizing address i with
  | nil => simp [entries]
  | cons inst rest ih =>
    cases i with
    | zero => simp [entries]
    | succ i => simp [entries, ih, Nat.add_assoc]

end Listing

/-- Disassembly and assembly are inverse. The listing of encodings put one after another shows the
instructions, each behind the widths of those before it. The listing of any bytes covers them from
address 0 to their end without gaps, and assembling its lines gives the bytes back, so different
bytes have different listings. -/
theorem disassemble_assemble :
    (∀ (insts : List Instruction) (i : Nat),
      ((disassemble (insts.flatMap Instruction.encode)).map fun line => (line.1, line.2.text))[i]? =
        insts[i]?.map fun inst => (((insts.take i).map Instruction.width).sum, inst.text)) ∧
    (∀ bytes : List UInt8, Listing.Tiles 0 bytes.length (disassemble bytes) ∧
      assemble? ((disassemble bytes).map (·.2.text)) = some bytes) ∧
    ∀ bytes other : List UInt8,
      (disassemble bytes).map (fun line => (line.1, line.2.text)) =
        (disassemble other).map (fun line => (line.1, line.2.text)) → bytes = other := by
  refine ⟨fun insts i => ?_, fun bytes => ⟨?_, ?_⟩, fun bytes other h => ?_⟩
  · rw [disassemble, Listing.sweep_encode, List.getElem?_map, Listing.entries_getElem?]
    cases insts[i]? with
    | none => rfl
    | some inst => simp [Listing.Item.text]
  · have htiles := Listing.sweep_tiles 0 bytes
    rwa [Nat.zero_add] at htiles
  · exact Listing.assemble?_sweep 0 bytes
  · have htexts : (disassemble bytes).map (·.2.text) = (disassemble other).map (·.2.text) := by
      have hlines := congrArg (List.map Prod.snd) h
      rwa [List.map_map, List.map_map] at hlines
    have hbytes := Listing.assemble?_sweep 0 bytes
    have hother := Listing.assemble?_sweep 0 other
    rw [disassemble, disassemble] at htexts
    rw [htexts, hother] at hbytes
    exact (Option.some.inj hbytes).symm

end ByteMachine
