import ByteMachine.Proofs.Isa.Fetch

/-! The sweep of a listing, line by line: what its first line shows, and that the other lines are
the sweep of the bytes behind it. -/

namespace ByteMachine.Listing

theorem firstItem_eq_instruction_iff {byte : UInt8} {rest : List UInt8} {inst : Instruction} :
    firstItem byte rest = .instruction inst ↔ inst.encode <+: byte :: rest := by
  rw [← Instruction.ofBytes?_eq_some_iff]
  unfold firstItem
  cases Instruction.ofBytes? (byte :: rest) <;> simp

theorem firstItem_eq_data_iff {byte listed : UInt8} {rest : List UInt8} :
    firstItem byte rest = .data listed ↔
      listed = byte ∧ Instruction.ofBytes? (byte :: rest) = none := by
  unfold firstItem
  cases Instruction.ofBytes? (byte :: rest) <;> simp [eq_comm]

theorem sweep_nil (address : Nat) : sweep address [] = [] := by
  rw [sweep]

theorem sweep_cons (address : Nat) (byte : UInt8) (rest : List UInt8) :
    sweep address (byte :: rest) =
      (address, firstItem byte rest) ::
        sweep (address + (firstItem byte rest).width)
          ((byte :: rest).drop (firstItem byte rest).width) := by
  have hw := (firstItem byte rest).width_pos
  obtain ⟨w, hw⟩ := Nat.exists_eq_add_of_lt hw
  rw [sweep, hw, Nat.zero_add, Nat.add_sub_cancel, List.drop_succ_cons]

end ByteMachine.Listing
