import ByteMachine.Proofs.Isa.Listing
import ByteMachine.Proofs.Machine.Effect
import ByteMachine.Proofs.Machine.Faults

/-! Execution follows the listing. As long as the lines passed are instructions other than `HALT`
that completed, the program counter stands at the address of the next line, and the next tick does
what that line shows. -/

namespace ByteMachine.Machine

variable {κ : Type}

/-- A machine at the beginning of a run: newly built, with any bytes in memory, or just reset. -/
inductive AtStart : Machine κ → Prop
  | created (config : Config) (console : κ) (memory : Memory) :
      AtStart { create config console with memory }
  | reset (m : Machine κ) : AtStart m.reset

/-- The machine stands before line `k` of the listing of its memory. -/
structure AtLine (memory : Memory) (k : Nat) (m : Machine κ) : Prop where
  memory_eq : m.memory = memory
  live : m.state.isTerminal = false
  pc_le : m.pc ≤ 256
  lines : (disassemble memory.toList).drop k = Listing.sweep m.pc (memory.toList.drop m.pc)

theorem atLine_zero {m : Machine κ} (h : AtStart m) : AtLine m.memory 0 m := by
  cases h with
  | created config console memory => exact ⟨rfl, rfl, Nat.zero_le _, rfl⟩
  | reset m => exact ⟨rfl, rfl, Nat.zero_le _, rfl⟩

/-- At a line, either memory ends or the line shows what stands at the program counter. -/
theorem AtLine.line {memory : Memory} {k : Nat} {m : Machine κ} (h : AtLine memory k m) :
    (memory.toList.drop m.pc = [] ∧ (disassemble memory.toList)[k]? = none) ∨
    ∃ byte rest, memory.toList.drop m.pc = byte :: rest ∧
      (disassemble memory.toList)[k]? = some (m.pc, Listing.firstItem byte rest) := by
  rw [← List.head?_drop, h.lines]
  cases hb : memory.toList.drop m.pc with
  | nil => exact .inl ⟨rfl, by rw [Listing.sweep_nil]; rfl⟩
  | cons byte rest => exact .inr ⟨byte, rest, rfl, by rw [Listing.sweep_cons]; rfl⟩

variable [Console κ]

/-- The next tick does what a line of the listing shows. For an instruction it reports the fetch
and the text of the line and carries out that instruction: it has its effect, or faults at its
divisor or its output. Where the listing ends there is nothing to fetch. -/
def FollowsLine (m : Machine κ) : Option (Nat × Listing.Item) → Prop
  | some (address, .instruction inst) =>
      m.pc = address ∧ (Instruction.decode inst.opcode m.memory address).run = .ok (.ok inst) ∧
      m.tick = (m.carryOut inst).after
        [.fetched address inst.opcode.byte, .executing m.trace address inst] ∧
      (m.Completes inst →
        m.tick.result = .ok () ∧ m.tick.machine = m.afterTick inst.opcode) ∧
      (¬m.Completes inst → ∃ site fault, (site = .divisor ∨ site = .output) ∧
        m.FaultsAt site fault ∧ m.tick.result = .error fault) ∧
      (Event.executing m.trace address inst).message =
        s!"{(Listing.Item.instruction inst).text} pc={address}"
  | some (address, .data byte) =>
      m.pc = address ∧ m.memory.read address = .ok byte ∧
      match Opcode.ofByte? byte with
      | none => m.tick.result = .error (.invalidInstruction byte address)
      | some op => 256 < address + op.width ∧ m.tick.result = .error (.outOfBounds 256)
  | none => m.pc = 256 ∧ m.tick.result = .error (.outOfBounds 256)

theorem AtLine.followsLine {memory : Memory} {k : Nat} {m : Machine κ} (h : AtLine memory k m) :
    m.FollowsLine (disassemble memory.toList)[k]? := by
  have hline := h.line
  obtain ⟨rfl, live, hpc, _⟩ := h
  rcases hline with ⟨hb, hl⟩ | ⟨byte, rest, hb, hl⟩
  · have he : m.pc = 256 := by
      have := List.drop_eq_nil_iff.mp hb
      rw [Memory.length_toList] at this
      omega
    have hf : m.FaultsAt .fetch (.outOfBounds 256) := ⟨he, rfl⟩
    rw [hl]
    exact ⟨he, tick_of_faultsAt live hf⟩
  · have hr := Memory.read_eq_ok_of_drop hb
    have hlen := Memory.add_length_of_drop hb
    rw [hl]
    cases hi : Listing.firstItem byte rest with
    | instruction inst =>
      rw [Listing.firstItem_eq_instruction_iff, ← hb] at hi
      have hf := Memory.instructionAt_eq_ok_iff.mpr hi
      refine ⟨rfl, Memory.decode_of_instructionAt hf, tick_of_fetched live hf,
        tick_of_completes live hf, fun hc => ?_, rfl⟩
      obtain ⟨site, fault, hsite, hfault⟩ := faultsAt_of_not_completes hf hc
      exact ⟨site, fault, hsite, hfault, tick_of_faultsAt live hfault⟩
    | data listed =>
      obtain ⟨rfl, hn⟩ := Listing.firstItem_eq_data_iff.mp hi
      refine ⟨rfl, hr, ?_⟩
      cases ho : Opcode.ofByte? listed with
      | none =>
        have hf : m.FaultsAt .opcode (.invalidInstruction listed m.pc) := ⟨listed, hr, ho, rfl⟩
        exact tick_of_faultsAt live hf
      | some op =>
        have hw := (Instruction.ofBytes?_eq_none_iff ho).mp hn
        have hw' : 256 < m.pc + op.width := by omega
        have hf : m.FaultsAt .operand (.outOfBounds 256) := ⟨listed, op, hr, ho, hw', rfl⟩
        exact ⟨hw', tick_of_faultsAt live hf⟩

/-- A line with an instruction other than `HALT` leads to the next line when it completes. -/
theorem AtLine.next {memory : Memory} {k : Nat} {m : Machine κ} (h : AtLine memory k m)
    {address : Nat} {inst : Instruction} (hne : inst ≠ .halt)
    (hline : (disassemble memory.toList)[k]? = some (address, .instruction inst))
    (hok : m.tick.result = .ok ()) : AtLine memory (k + 1) m.tick.machine := by
  rcases h.line with ⟨_, hl⟩ | ⟨byte, rest, hb, hl⟩
  · rw [hl] at hline
    cases hline
  obtain ⟨rfl, live, hpc, lines⟩ := h
  rw [hl] at hline
  simp only [Option.some.injEq, Prod.mk.injEq] at hline
  obtain ⟨rfl, hi⟩ := hline
  have hp := Listing.firstItem_eq_instruction_iff.mp hi
  rw [← hb, ← Memory.instructionAt_eq_ok_iff] at hp
  have hturn := turn_tick live hpc
  rw [hok] at hturn
  rcases hturn.of_ok with ⟨hf, _⟩ | ⟨found, hf, _, _, hm⟩
  · rw [hp] at hf
    exact absurd (Except.ok.inj hf) hne
  · obtain rfl := Except.ok.inj (hp.symm.trans hf)
    have hw := Memory.add_width_le_of_instructionAt hf
    rw [hm]
    refine ⟨rfl, rfl, hw, ?_⟩
    rw [← List.tail_drop, lines, hb, Listing.sweep_cons, hi, ← hb, List.drop_drop]
    rfl

/-- **Execution follows the listing.** -/
theorem tick_follows_listing {m : Machine κ} (hm : AtStart m) (k : Nat)
    (hlines : ∀ i < k, ∃ address inst, inst ≠ .halt ∧
      (disassemble m.memory.toList)[i]? = some (address, .instruction inst))
    (hok : ∀ i < k, (m.ticked i).tick.result = .ok ()) :
    (m.ticked k).memory = m.memory ∧
      (m.ticked k).FollowsLine (disassemble m.memory.toList)[k]? := by
  have h : AtLine m.memory k (m.ticked k) := by
    induction k with
    | zero => exact atLine_zero hm
    | succ k ih =>
      have hk := ih (fun i hi => hlines i (by omega)) (fun i hi => hok i (by omega))
      obtain ⟨address, inst, hne, hl⟩ := hlines k (by omega)
      exact hk.next hne hl (hok k (by omega))
  exact ⟨h.memory_eq, h.followsLine⟩

/-- A new machine with the program `INIT`, `SAVE 8`, `PRN`, `HALT`. -/
def printing : Machine Recorder :=
  { create {} ({} : Recorder) with memory := Memory.zero.overlay 0 [1, 4, 8, 6] }

theorem tick_follows_listing_printing :
    AtStart printing ∧
    (∀ i < 2, ∃ address inst, inst ≠ .halt ∧
      (disassemble printing.memory.toList)[i]? = some (address, .instruction inst)) ∧
    (∀ i < 2, (printing.ticked i).tick.result = .ok ()) ∧
    (printing.ticked 2).FollowsLine (some (3, .instruction .prn)) := by
  have hs : AtStart printing := .created {} ({} : Recorder) _
  have htake : (disassemble printing.memory.toList).take 3 =
      [(0, .instruction .init), (1, .instruction (.save 8)), (3, .instruction .prn)] := by
    decide +kernel
  have hline {i : Nat} (hi : i < 3) : (disassemble printing.memory.toList)[i]? =
      [(0, Listing.Item.instruction .init), (1, .instruction (.save 8)),
        (3, .instruction .prn)][i]? := by
    rw [← htake, List.getElem?_take_of_lt hi]
  have hlines : ∀ i < 2, ∃ address inst, inst ≠ .halt ∧
      (disassemble printing.memory.toList)[i]? = some (address, .instruction inst) := by
    intro i hi
    obtain rfl | rfl : i = 0 ∨ i = 1 := by omega
    · exact ⟨0, .init, by decide, hline (by omega)⟩
    · exact ⟨1, .save 8, by decide, hline (by omega)⟩
  have hok : ∀ i < 2, (printing.ticked i).tick.result = .ok () := by
    have hb : ∀ i < 2, (printing.ticked i).tick.result.isOk = true := by decide +kernel
    intro i hi
    cases hr : (printing.ticked i).tick.result with
    | ok done => rfl
    | error fault => simpa [hr, Except.isOk, Except.toBool] using hb i hi
  have hl : (disassemble printing.memory.toList)[2]? = some (3, .instruction .prn) :=
    hline (by omega)
  exact ⟨hs, hlines, hok, hl ▸ (tick_follows_listing hs 2 hlines hok).2⟩

end ByteMachine.Machine
