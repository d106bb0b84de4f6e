import ByteMachine.Isa.Instruction

/-! Reading operands. Decoding takes the program counter as a word of any size. Below the last word
the operands are the bytes after the opcode byte, and decoding fails exactly where one of them lies
outside memory. At the last word there is no address for an operand, and decoding an instruction
that has one is broken off. -/

namespace ByteMachine.Instruction

/-- The lowest address at which an instruction has an operand outside memory. -/
structure FirstOutside (op : Opcode) (pc address : Nat) : Prop where
  isOperand : pc < address ∧ address < pc + op.width
  outside : memorySize ≤ address
  first : ∀ earlier, pc < earlier → earlier < address → earlier < memorySize

/-- The address of an operand is computed once all operands before it have been read. -/
structure Computed (op : Opcode) (mem : Memory) (pc distance : Nat) : Prop where
  isOperand : 0 < distance ∧ distance < op.width
  readBefore : ∀ earlier, 0 < earlier → earlier < distance →
    ∃ byte, (operand mem pc earlier).run = .ok (.ok byte)

section

variable {op : Opcode} {pc distance : Nat}

theorem operand_eq_ok (mem : Memory) (h : pc + distance < memorySize) :
    (operand mem pc distance).run = .ok (.ok (mem.byteAt (pc + distance))) := by
  unfold memorySize at h
  rw [operand_of_lt mem (by unfold addressSpace; omega), Memory.read_eq, if_pos h]

theorem operand_eq_error (mem : Memory) (hword : pc + distance < addressSpace)
    (h : memorySize ≤ pc + distance) :
    (operand mem pc distance).run = .ok (.error (.outOfBounds (pc + distance))) := by
  unfold memorySize at h
  rw [operand_of_lt mem hword, Memory.read_eq, if_neg (by omega)]

theorem operand_eq_panic (mem : Memory) (h : addressSpace ≤ pc + distance) :
    (operand mem pc distance).run = .error .overflow := by
  rw [operand, addressAfter_of_le h]
  rfl

/-- Where all operands lie in memory, decoding answers the instruction with these operands. -/
theorem decode_eq_ok (op : Opcode) (mem : Memory)
    (h : ∀ distance, 0 < distance → distance < op.width → pc + distance < memorySize) :
    ∃ inst, (decode op mem pc).run = .ok (.ok inst) ∧ inst.opcode = op ∧
      inst.operands = (List.range' 1 (op.width - 1)).map fun distance =>
        mem.byteAt (pc + distance) := by
  cases op with
  | halt | init | prn => exact ⟨_, rfl, rfl, rfl⟩
  | set | save =>
    have h1 := operand_eq_ok mem (h 1 (by decide) (by decide))
    exact ⟨_, by simp only [decode, ExceptT.run_bind, h1]; rfl, rfl, rfl⟩
  | mul | sub | add | div =>
    have h1 := operand_eq_ok mem (h 1 (by decide) (by decide))
    have h2 := operand_eq_ok mem (h 2 (by decide) (by decide))
    exact ⟨_, by simp only [decode, ExceptT.run_bind, h1, h2]; rfl, rfl, rfl⟩

/-- Decoding fails at the first operand that lies outside memory. -/
theorem decode_eq_error (mem : Memory) (hpos : 0 < distance) (hlt : distance < op.width)
    (hword : pc + distance < addressSpace) (hout : memorySize ≤ pc + distance)
    (hbefore : ∀ earlier, 0 < earlier → earlier < distance → pc + earlier < memorySize) :
    (decode op mem pc).run = .ok (.error (.outOfBounds (pc + distance))) := by
  have hn := operand_eq_error mem hword hout
  have hwidth := op.width_le
  obtain rfl | rfl : distance = 1 ∨ distance = 2 := by omega
  · cases op with
    | halt | init | prn => exact absurd hlt (by decide)
    | set | save | mul | sub | add | div =>
      simp only [decode, ExceptT.run_bind, hn]
      rfl
  · have h1 := operand_eq_ok mem (hbefore 1 (by decide) (by decide))
    cases op with
    | halt | init | prn | set | save => exact absurd hlt (by decide)
    | mul | sub | add | div =>
      simp only [decode, ExceptT.run_bind, h1, hn]
      rfl

theorem exists_firstOutside (hop : 1 < op.width) (hend : memorySize < pc + op.width) :
    ∃ address, FirstOutside op pc address := by
  refine ⟨max (pc + 1) memorySize, ⟨by omega, by omega⟩, by omega, ?_⟩
  intro earlier _ _
  omega

/-! ## Below the last word -/

theorem decode_of_firstOutside (mem : Memory) (hpc : pc + 1 < addressSpace) {address : Nat}
    (h : FirstOutside op pc address) :
    (decode op mem pc).run = .ok (.error (.outOfBounds address)) := by
  obtain ⟨hlow, hhigh⟩ := h.isOperand
  obtain ⟨distance, rfl⟩ : ∃ distance, address = pc + distance := ⟨address - pc, by omega⟩
  have hbefore : ∀ earlier, 0 < earlier → earlier < distance → pc + earlier < memorySize := by
    intro earlier hpos hlt
    exact h.first _ (by omega) (by omega)
  have hword : pc + distance < addressSpace := by
    by_cases hone : distance = 1
    · exact hone ▸ hpc
    · have hin := hbefore (distance - 1) (by omega) (by omega)
      unfold memorySize at hin
      unfold addressSpace
      omega
  exact decode_eq_error mem (by omega) (by omega) hword h.outside hbefore

theorem decode_of_inside (op : Opcode) (mem : Memory)
    (h : op.width = 1 ∨ pc + op.width ≤ memorySize) :
    ∃ inst, (decode op mem pc).run = .ok (.ok inst) ∧ inst.opcode = op ∧
      inst.operands = (List.range' (pc + 1) (op.width - 1)).map mem.byteAt := by
  obtain ⟨inst, hdecode, hop, hoperands⟩ :=
    decode_eq_ok op mem fun distance hpos hlt => show pc + distance < memorySize by omega
  refine ⟨inst, hdecode, hop, hoperands.trans ?_⟩
  rw [List.range'_eq_map_range, List.range'_eq_map_range, List.map_map, List.map_map]
  simp only [Nat.add_assoc]
  rfl

/-- The second address is computed only when the first one lies in memory, and that is far below
the top of the address space. -/
theorem Computed.lt_addressSpace {mem : Memory} (hpc : pc + 1 < addressSpace)
    (h : Computed op mem pc distance) : pc + distance < addressSpace := by
  obtain ⟨hpos, hlt⟩ := h.isOperand
  have hwidth := op.width_le
  obtain rfl | rfl : distance = 1 ∨ distance = 2 := by omega
  · exact hpc
  · obtain ⟨byte, hread⟩ := h.readBefore 1 (by decide) (by decide)
    rw [operand_of_lt mem hpc] at hread
    have hin := (Memory.read_ok_iff.mp (Except.ok.inj hread)).1
    unfold addressSpace
    omega

/-! ## The last word -/

/-- At the last word the address of the first operand is no word. -/
theorem decode_of_last (mem : Memory) (hpc : pc + 1 = addressSpace) (hop : 1 < op.width) :
    (decode op mem pc).run = .error .overflow := by
  have h1 := operand_eq_panic mem (show addressSpace ≤ pc + 1 by omega)
  cases op with
  | halt | init | prn => exact absurd hop (by decide)
  | set | save | mul | sub | add | div =>
    simp only [decode, ExceptT.run_bind, h1]
    rfl

end

/-- At any word but the last, decoding answers; it fails exactly where an opcode has operands and
the instruction does not end within memory; the fault names the first operand address outside;
otherwise the operands are the bytes that follow the opcode byte; and every address that is computed
is a word. At the last word an opcode without operands is decoded, and for any other one the first
address to be computed is no word, which breaks decoding off. -/
theorem decode_reads_operands (op : Opcode) (mem : Memory) (pc : UInt64) :
    (pc.toNat + 1 < addressSpace →
      (∀ panic, (decode op mem pc.toNat).run ≠ .error panic) ∧
      ((∃ fault, (decode op mem pc.toNat).run = .ok (.error fault)) ↔
        1 < op.width ∧ memorySize < pc.toNat + op.width) ∧
      (∀ fault, (decode op mem pc.toNat).run = .ok (.error fault) →
        ∃ address, FirstOutside op pc.toNat address ∧ fault = .outOfBounds address) ∧
      (∀ inst, (decode op mem pc.toNat).run = .ok (.ok inst) → inst.opcode = op ∧
        inst.operands = (List.range' (pc.toNat + 1) (op.width - 1)).map mem.byteAt) ∧
      ∀ distance, Computed op mem pc.toNat distance → pc.toNat + distance < addressSpace) ∧
    (pc.toNat + 1 = addressSpace →
      (op.width = 1 → ∃ inst, (decode op mem pc.toNat).run = .ok (.ok inst) ∧
        inst.opcode = op ∧ inst.operands = []) ∧
      (1 < op.width → Computed op mem pc.toNat 1 ∧
        (decode op mem pc.toNat).run = .error .overflow)) := by
  refine ⟨fun hpc => ?_, fun hpc => ⟨fun hop => ?_, fun hop => ?_⟩⟩
  · by_cases hout : 1 < op.width ∧ memorySize < pc.toNat + op.width
    · obtain ⟨address, hfirst⟩ := exists_firstOutside hout.1 hout.2
      have herror := decode_of_firstOutside mem hpc hfirst
      rw [herror]
      refine ⟨nofun, iff_of_true ⟨_, rfl⟩ hout, ?_, nofun, fun _ => Computed.lt_addressSpace hpc⟩
      rintro _ ⟨⟩
      exact ⟨address, hfirst, rfl⟩
    · have hwidth := op.width_pos
      obtain ⟨inst, hdecode, hinst⟩ :=
        decode_of_inside op mem (show op.width = 1 ∨ pc.toNat + op.width ≤ memorySize by omega)
      rw [hdecode]
      refine ⟨nofun, iff_of_false ?_ hout, nofun, ?_, fun _ => Computed.lt_addressSpace hpc⟩
      · rintro ⟨_, ⟨⟩⟩
      · rintro _ ⟨⟩
        exact hinst
  · obtain ⟨inst, hdecode, hinst, hoperands⟩ := decode_of_inside op mem (.inl hop)
    refine ⟨inst, hdecode, hinst, ?_⟩
    rw [hoperands, hop]
    rfl
  · refine ⟨⟨⟨by decide, hop⟩, ?_⟩, decode_of_last mem hpc hop⟩
    intro earlier hpos hlt
    omega

/-- At the last word decoding `SET` answers no fault, although its operand would lie far outside
memory. -/
theorem decode_panics_at_last_word :
    ¬∀ (op : Opcode) (mem : Memory) (pc : UInt64),
      ((∃ fault, (decode op mem pc.toNat).run = .ok (.error fault)) ↔
        1 < op.width ∧ memorySize < pc.toNat + op.width) := by
  intro h
  have hset : (decode .set Memory.zero (0xffffffffffffffff : UInt64).toNat).run =
      .error .overflow := rfl
  obtain ⟨fault, herror⟩ := (h .set Memory.zero 0xffffffffffffffff).mpr (by decide)
  rw [hset] at herror
  cases herror

end ByteMachine.Instruction
