import ByteMachine.Isa.Listing

/-! Fetching an instruction. Reading operands one by one from memory agrees with reading the
instruction off the bytes that stand from the program counter to the end of memory, so fetching
succeeds exactly where the encoding of an instruction stands complete. -/

namespace ByteMachine

/-! ## The dispatch table -/

namespace DispatchTable

private theorem lookup_register (table : DispatchTable) (op : Opcode) (b : UInt8) :
    (table.register op).lookup b = if op.byte = b then some op else table.lookup b := by
  unfold register lookup
  by_cases h : op.byte = b
  · subst h
    simp
  · have hn : op.byte.toNat ≠ b.toNat := fun he => h (UInt8.toNat_inj.mp he)
    simp [Vector.getElem_set_ne, hn, h]

private theorem lookup_foldl_register (ops : List Opcode) (table : DispatchTable) (b : UInt8)
    (op : Opcode) :
    (ops.foldl register table).lookup b = some op ↔
      (op ∈ ops ∧ op.byte = b) ∨ ((∀ o ∈ ops, o.byte ≠ b) ∧ table.lookup b = some op) := by
  induction ops generalizing table with
  | nil => simp
  | cons o ops ih =>
    rw [List.foldl_cons, ih, lookup_register]
    have hinj : ∀ a : Opcode, a.byte = o.byte → a = o := fun _ => Opcode.byte_injective
    grind

/-- The table of every opcode answers as the opcodes themselves do. -/
theorem lookup_standard (b : UInt8) : standard.lookup b = Opcode.ofByte? b := by
  apply Option.ext
  intro op
  rw [Opcode.ofByte?_eq_some_iff]
  unfold standard ofOpcodes
  rw [lookup_foldl_register]
  simp [Opcode.mem_all, lookup]

end DispatchTable

/-! ## Instructions in a list of bytes -/

namespace Instruction

/-- An instruction is read off a list of bytes exactly when its encoding stands at the head. -/
theorem ofBytes?_eq_some_iff {bytes : List UInt8} {inst : Instruction} :
    ofBytes? bytes = some inst ↔ inst.encode <+: bytes := by
  constructor
  · intro h
    unfold ofBytes? at h
    split at h
    · cases h
    · next byte rest =>
      split at h <;> cases h
      all_goals
        rename_i hop
        rw [← Opcode.byte_of_ofByte? hop]
        simp [encode, operands, opcode]
  · rintro ⟨rest, rfl⟩
    cases inst <;> rfl

theorem ofBytes?_eq_none_of_unregistered {byte : UInt8} (rest : List UInt8)
    (h : Opcode.ofByte? byte = none) : ofBytes? (byte :: rest) = none := by
  simp [ofBytes?, h]

theorem ofBytes?_eq_none_iff {byte : UInt8} {rest : List UInt8} {op : Opcode}
    (h : Opcode.ofByte? byte = some op) :
    ofBytes? (byte :: rest) = none ↔ rest.length + 1 < op.width := by
  cases op <;> obtain _ | ⟨a, _ | ⟨b, rest⟩⟩ := rest <;> simp [ofBytes?, h, Opcode.width]

/-- What running an instruction at `pc` finds when `bytes` stand from there to the end of
memory. -/
def fetch (pc : Nat) (bytes : List UInt8) : Except Fault Instruction :=
  match ofBytes? bytes, bytes with
  | some inst, _ => .ok inst
  | none, [] => .error (.outOfBounds pc)
  | none, byte :: _ =>
      match Opcode.ofByte? byte with
      | none => .error (.invalidInstruction byte pc)
      | some _ => .error (.outOfBounds 256)

theorem fetch_eq_ok_iff {pc : Nat} {bytes : List UInt8} {inst : Instruction} :
    fetch pc bytes = .ok inst ↔ inst.encode <+: bytes := by
  rw [← ofBytes?_eq_some_iff]
  unfold fetch
  cases ofBytes? bytes with
  | some found => simp
  | none =>
    cases bytes with
    | nil => simp
    | cons byte rest => cases hop : Opcode.ofByte? byte <;> simp [hop]

end Instruction

/-! ## Instructions in memory -/

namespace Memory

theorem length_toList (mem : Memory) : mem.toList.length = 256 := by
  simp [toList]

theorem read_eq_getElem? (mem : Memory) (a : Nat) :
    mem.read a = match mem.toList[a]? with
      | some b => .ok b
      | none => .error (.outOfBounds a) := by
  unfold read toList
  by_cases h : a < 256
  · simp [h]
  · simp [h]

/-- The bytes from an address on begin with the byte read there. -/
theorem read_eq_ok_of_drop {mem : Memory} {a : Nat} {byte : UInt8} {rest : List UInt8}
    (h : mem.toList.drop a = byte :: rest) : mem.read a = .ok byte := by
  have hb : mem.toList[a]? = some byte := by
    rw [← Nat.add_zero a, ← List.getElem?_drop, h]
    rfl
  rw [read_eq_getElem?, hb]

theorem drop_eq_cons_of_read {mem : Memory} {a : Nat} {byte : UInt8} (h : mem.read a = .ok byte) :
    mem.toList.drop a = byte :: mem.toList.drop (a + 1) := by
  rw [read_eq_getElem?] at h
  cases hb : mem.toList[a]? with
  | none => simp [hb] at h
  | some b =>
    obtain ⟨ha, rfl⟩ := List.getElem?_eq_some_iff.mp hb
    simp only [hb, Except.ok.injEq] at h
    rw [List.drop_eq_getElem_cons ha, h]

/-- The bytes from an address on fill memory up to its end. -/
theorem add_length_of_drop {mem : Memory} {a : Nat} {byte : UInt8} {rest : List UInt8}
    (h : mem.toList.drop a = byte :: rest) : a + rest.length + 1 = 256 := by
  have hl := congrArg List.length h
  rw [List.length_drop, length_toList, List.length_cons] at hl
  omega

end Memory

namespace Instruction

private theorem operand_eq {mem : Memory} {pc distance : Nat}
    (h : pc + distance < addressSpace) :
    (operand mem pc distance).run = .ok (match (mem.toList.drop pc)[distance]? with
      | some b => .ok b
      | none => .error (.outOfBounds (pc + distance))) := by
  rw [operand_of_lt mem h, Memory.read_eq_getElem?, List.getElem?_drop]

/-- An operand is missing exactly where the bytes after the opcode byte end too early, and then at
address 256. -/
private theorem decode_eq_fetch {mem : Memory} {pc : Nat} {byte : UInt8} {rest : List UInt8}
    {op : Opcode} (hbytes : mem.toList.drop pc = byte :: rest)
    (hop : Opcode.ofByte? byte = some op) :
    (decode op mem pc).run = .ok (fetch pc (byte :: rest)) := by
  have hlen := Memory.add_length_of_drop hbytes
  have h1 : (operand mem pc 1).run = _ := operand_eq (by unfold addressSpace; omega)
  have h2 : (operand mem pc 2).run = _ := operand_eq (by unfold addressSpace; omega)
  rw [hbytes] at h1 h2
  obtain _ | ⟨a, _ | ⟨b, rest⟩⟩ := rest
  · obtain rfl : pc = 255 := by simpa using hlen
    cases op <;> simp only [decode, ExceptT.run_bind, h1, fetch, ofBytes?, hop] <;> rfl
  · obtain rfl : pc = 254 := by simpa using hlen
    cases op <;> simp only [decode, ExceptT.run_bind, h1, h2, fetch, ofBytes?, hop] <;> rfl
  · cases op <;> simp only [decode, ExceptT.run_bind, h1, h2, fetch, ofBytes?, hop] <;> rfl

end Instruction

namespace Memory

/-- Fetching from memory reads the instruction off the bytes from the program counter on. -/
theorem instructionAt_eq_fetch (mem : Memory) (pc : Nat) :
    mem.instructionAt pc = Instruction.fetch pc (mem.toList.drop pc) := by
  have hread := mem.read_eq_getElem? pc
  rw [← Nat.add_zero pc, ← List.getElem?_drop, Nat.add_zero] at hread
  cases hbytes : mem.toList.drop pc with
  | nil =>
    rw [hbytes] at hread
    exact instructionAt_of_error hread
  | cons byte rest =>
    rw [hbytes] at hread
    cases hop : Opcode.ofByte? byte with
    | none =>
      rw [instructionAt_of_unregistered hread (by rw [DispatchTable.lookup_standard, hop])]
      simp [Instruction.fetch, Instruction.ofBytes?, hop]
    | some op =>
      have hdecode :=
        instructionAt_of_registered hread ((DispatchTable.lookup_standard byte).trans hop)
      exact Except.ok.inj (hdecode.symm.trans (Instruction.decode_eq_fetch hbytes hop))

/-- Fetching succeeds exactly where an encoding stands complete. -/
theorem instructionAt_eq_ok_iff {mem : Memory} {pc : Nat} {inst : Instruction} :
    mem.instructionAt pc = .ok inst ↔ inst.encode <+: mem.toList.drop pc := by
  rw [instructionAt_eq_fetch, Instruction.fetch_eq_ok_iff]

/-- Fetching decodes the operands for the opcode that it found. -/
theorem decode_of_instructionAt {mem : Memory} {pc : Nat} {inst : Instruction}
    (h : mem.instructionAt pc = .ok inst) :
    (Instruction.decode inst.opcode mem pc).run = .ok (.ok inst) := by
  cases hread : mem.read pc with
  | error fault =>
    rw [instructionAt_of_error hread] at h
    cases h
  | ok byte =>
    cases hop : DispatchTable.standard.lookup byte with
    | none =>
      rw [instructionAt_of_unregistered hread hop] at h
      cases h
    | some op =>
      have hdecode := instructionAt_of_registered hread hop
      rw [h] at hdecode
      rwa [Instruction.opcode_of_decode hdecode]

/-- A fetched instruction lies inside memory. -/
theorem add_width_le_of_instructionAt {mem : Memory} {pc : Nat} {inst : Instruction}
    (h : mem.instructionAt pc = .ok inst) : pc + inst.width ≤ 256 := by
  have hl := (instructionAt_eq_ok_iff.mp h).length_le
  have hw := inst.width_pos
  rw [Instruction.length_encode, List.length_drop, length_toList] at hl
  omega

/-- A fetched instruction begins with the byte of its opcode. -/
theorem read_of_instructionAt {mem : Memory} {pc : Nat} {inst : Instruction}
    (h : mem.instructionAt pc = .ok inst) : mem.read pc = .ok inst.opcode.byte := by
  obtain ⟨rest, hr⟩ := instructionAt_eq_ok_iff.mp h
  exact read_eq_ok_of_drop hr.symm

end Memory

end ByteMachine
