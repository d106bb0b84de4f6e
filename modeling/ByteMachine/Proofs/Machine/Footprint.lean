import ByteMachine.Proofs.Machine.Dispatch
import ByteMachine.Proofs.Machine.Drivers
import ByteMachine.Proofs.Machine.Effect
import ByteMachine.Proofs.Machine.Reset

/-! What a run reads. Of memory a tick sees nothing but the bytes of the instruction it fetches, so
a run does the same on every memory that agrees with its own on those bytes. As the program counter
only moves forward, nothing below it matters any more, and nothing above the byte at which the run
ends. -/

namespace ByteMachine

open Outcome (Related)

variable {κ κ' : Type}

/-! ## Bytes of an instruction -/

namespace Memory

/-- The addresses of the instruction at an address, as far as they lie in memory. A byte that is not
an opcode stands alone. -/
def span (mem : Memory) (pc : Nat) : List Nat :=
  let width :=
    match Opcode.ofByte? (mem.byteAt pc) with
    | some op => op.width
    | none => 1
  (List.range' pc width).filter (· < memorySize)

/-- The addresses that are read when the instructions from an address on are fetched one after the
other. -/
inductive Ahead (mem : Memory) : Nat → Nat → Prop
  | here {pc address : Nat} (mem_span : address ∈ mem.span pc) : Ahead mem pc address
  | next {pc address : Nat} {inst : Instruction} (fetched : mem.instructionAt pc = .ok inst)
      (running : inst ≠ .halt) (rest : Ahead mem (pc + inst.width) address) : Ahead mem pc address

theorem mem_span_of_width {mem : Memory} {pc address : Nat} {op : Opcode}
    (hop : Opcode.ofByte? (mem.byteAt pc) = some op) :
    address ∈ mem.span pc ↔ (pc ≤ address ∧ address < pc + op.width) ∧ address < memorySize := by
  simp [span, hop, List.mem_range'_1]

theorem self_mem_span {mem : Memory} {pc : Nat} (h : pc < memorySize) : pc ∈ mem.span pc := by
  cases hop : Opcode.ofByte? (mem.byteAt pc) with
  | none => simp [span, hop, h]
  | some op =>
    have hwidth := op.width_pos
    exact (mem_span_of_width hop).mpr ⟨⟨Nat.le_refl pc, by omega⟩, h⟩

theorem le_of_mem_span {mem : Memory} {pc address : Nat} (h : address ∈ mem.span pc) :
    pc ≤ address := by
  unfold span at h
  exact (List.mem_range'_1.mp (List.mem_filter.mp h).1).1

/-- The bytes ahead lie at the address or above it. -/
theorem Ahead.le {mem : Memory} {pc address : Nat} (h : mem.Ahead pc address) : pc ≤ address := by
  induction h with
  | here hmem => exact le_of_mem_span hmem
  | next _ _ _ ih => omega

theorem read_congr {mem mem' : Memory} {a : Nat}
    (h : a < memorySize → mem'.byteAt a = mem.byteAt a) : mem'.read a = mem.read a := by
  rw [read_eq, read_eq]
  split
  · next ha => rw [h ha]
  · rfl

end Memory

/-- Decoding sees no other bytes than the operands. -/
theorem Instruction.decode_congr {op : Opcode} {mem mem' : Memory} {pc : Nat}
    (h : ∀ distance, 0 < distance → distance < op.width →
      (operand mem' pc distance).run = (operand mem pc distance).run) :
    (decode op mem' pc).run = (decode op mem pc).run := by
  cases op with
  | halt | init | prn => rfl
  | set | save => simp only [decode, ExceptT.run_bind, h 1 (by decide) (by decide)]
  | mul | sub | add | div =>
    simp only [decode, ExceptT.run_bind, h 1 (by decide) (by decide), h 2 (by decide) (by decide)]

/-- Fetching sees no other bytes than those of the instruction it fetches. -/
theorem Memory.instructionAt_congr {mem mem' : Memory} {pc : Nat}
    (h : ∀ a ∈ mem.span pc, mem'.byteAt a = mem.byteAt a) :
    mem'.read pc = mem.read pc ∧ mem'.instructionAt pc = mem.instructionAt pc := by
  have hread : mem'.read pc = mem.read pc := read_congr fun hpc => h pc (self_mem_span hpc)
  refine ⟨hread, ?_⟩
  cases hr : mem.read pc with
  | error fault => rw [instructionAt_of_error hr, instructionAt_of_error (hread.trans hr)]
  | ok byte =>
    obtain ⟨hpc, hbyte⟩ := read_ok_iff.mp hr
    cases hop : DispatchTable.standard.lookup byte with
    | none =>
      rw [instructionAt_of_unregistered hr hop,
        instructionAt_of_unregistered (hread.trans hr) hop]
    | some op =>
      have hdecode : (Instruction.decode op mem' pc).run = (Instruction.decode op mem pc).run := by
        refine Instruction.decode_congr fun distance hpos hlt => ?_
        have hwidth := op.width_le
        have hword : pc + distance < addressSpace := by
          unfold addressSpace
          omega
        rw [Instruction.operand_of_lt mem hword, Instruction.operand_of_lt mem' hword]
        refine congrArg Except.ok (read_congr fun hin => h _ ?_)
        rw [mem_span_of_width (by rw [hbyte, ← DispatchTable.lookup_standard]; exact hop)]
        exact ⟨⟨by omega, by omega⟩, hin⟩
      rw [instructionAt_of_registered hr hop,
        instructionAt_of_registered (hread.trans hr) hop] at hdecode
      exact Except.ok.inj hdecode

/-! ## One tick on another memory -/

/-- The machine with another memory. -/
def Machine.withMemory (m : Machine κ) (memory : Memory) : Machine κ := { m with memory }

/-- The same outcome on a machine with another memory. -/
def Outcome.withMemory {α : Type} (outcome : Outcome κ α) (memory : Memory) : Outcome κ α :=
  { outcome with machine := outcome.machine.withMemory memory }

namespace Machine

/-- The addresses that the next tick reads. -/
def fetched (m : Machine κ) : List Nat := if m.state.isTerminal then [] else m.memory.span m.pc

theorem endTick_withMemory (m : Machine κ) (memory : Memory) (op : Opcode) :
    (m.withMemory memory).endTick op = (m.endTick op).withMemory memory := by
  unfold endTick
  dsimp only
  cases hl : { m with stats := m.stats.record op : Machine κ }.limitReached &&
      !m.state.isTerminal with
  | true => exact if_pos hl
  | false => exact if_neg (Bool.eq_false_iff.mp hl)

variable [Console κ]

theorem apply_withMemory (m : Machine κ) (memory : Memory) (inst : Instruction) :
    (m.withMemory memory).apply inst = (m.apply inst).withMemory memory := by
  cases inst with
  | halt | init | set _ | save _ | mul _ _ | sub _ _ | add _ _ => rfl
  | div a b =>
    cases hz : m.registers.read b == 0 with
    | true => simp only [apply, withMemory, hz, if_true]; rfl
    | false => simp only [apply, withMemory, hz]; rfl
  | prn =>
    have hemit : Console.emit (m.withMemory memory).console
        ((m.withMemory memory).registers.read (m.withMemory memory).current) = m.answer := rfl
    have hemit' : Console.emit m.console (m.registers.read m.current) = m.answer := rfl
    simp only [apply, print, hemit, hemit']
    rcases m.answer with ⟨reason | done, console⟩ <;> rfl

theorem stepPast_withMemory (m : Machine κ) (memory : Memory) (inst : Instruction) :
    (m.withMemory memory).stepPast inst = (m.stepPast inst).withMemory memory := by
  have hresult : ((m.apply inst).withMemory memory).result = (m.apply inst).result := rfl
  simp only [stepPast, apply_withMemory, hresult]
  split <;> rfl

theorem carryOut_withMemory (m : Machine κ) (memory : Memory) (inst : Instruction) :
    (m.withMemory memory).carryOut inst = (m.carryOut inst).withMemory memory := by
  have hstep := m.beginTick.stepPast_withMemory memory inst
  have hbegin : (m.withMemory memory).beginTick = m.beginTick.withMemory memory := rfl
  simp only [carryOut, hbegin, hstep]
  cases hr : (m.beginTick.stepPast inst).result with
  | error fault =>
    have hr' : ((m.beginTick.stepPast inst).withMemory memory).result = .error fault := hr
    simp only [hr']
    rfl
  | ok done =>
    have hr' : ((m.beginTick.stepPast inst).withMemory memory).result = .ok done := hr
    have hend := (m.beginTick.stepPast inst).machine.endTick_withMemory memory inst.opcode
    simp only [hr']
    exact congrArg (Outcome.after · (m.beginTick.stepPast inst).log) hend

/-- A tick does the same on every memory that agrees on the bytes it reads. -/
theorem tick_withMemory {m : Machine κ} {memory : Memory}
    (h : ∀ a ∈ m.fetched, memory.byteAt a = m.memory.byteAt a) :
    (m.withMemory memory).tick = m.tick.withMemory memory := by
  cases hs : m.state.isTerminal with
  | true =>
    rw [tick_of_terminal hs, tick_of_terminal (by exact hs)]
    rfl
  | false =>
    have hspan : ∀ a ∈ m.memory.span m.pc, memory.byteAt a = m.memory.byteAt a := by
      simpa [fetched, hs] using h
    obtain ⟨hread, hfetch⟩ := Memory.instructionAt_congr hspan
    cases hi : m.memory.instructionAt m.pc with
    | error fault =>
      have hlog : (m.withMemory memory).fetchLog = m.fetchLog := by
        simp only [fetchLog, withMemory, hread]
      rw [tick_of_error hs hi, tick_of_error (by exact hs) (by exact hfetch.trans hi), hlog]
      rfl
    | ok inst =>
      rw [tick_of_fetched hs hi, tick_of_fetched (by exact hs) (by exact hfetch.trans hi),
        carryOut_withMemory]
      rfl

/-! ## Ticks -/

/-- The addresses that the next ticks read. -/
def footprint : Nat → Machine κ → List Nat
  | 0, _ => []
  | k + 1, m => m.fetched ++ footprint k m.tick.machine

theorem footprint_subset {j k : Nat} (hle : j ≤ k) (m : Machine κ) :
    m.footprint j ⊆ m.footprint k := by
  induction j generalizing k m with
  | zero => exact List.nil_subset _
  | succ j ih =>
    obtain ⟨k, rfl⟩ : ∃ n, k = n + 1 := ⟨k - 1, by omega⟩
    have hrest := ih (Nat.le_of_succ_le_succ hle) m.tick.machine
    exact List.append_subset.mpr
      ⟨List.subset_append_left _ _, List.Subset.trans hrest (List.subset_append_right _ _)⟩

theorem performAll_cons_withMemory {m : Machine κ} {memory : Memory} {command : Command}
    {rest : List Command}
    (hfirst : (m.withMemory memory).perform command = (m.perform command).withMemory memory)
    (hrest : ((m.perform command).machine.withMemory memory).performAll rest =
      ((m.perform command).machine.performAll rest).withMemory memory) :
    (m.withMemory memory).performAll (command :: rest) =
      (m.performAll (command :: rest)).withMemory memory := by
  have hmachine : ((m.perform command).withMemory memory).machine =
      (m.perform command).machine.withMemory memory := rfl
  simp only [performAll, hfirst, hmachine, hrest]
  rfl

theorem perform_tick_withMemory {m : Machine κ} {memory : Memory}
    (h : (m.withMemory memory).tick = m.tick.withMemory memory) :
    (m.withMemory memory).perform .tick = (m.perform .tick).withMemory memory :=
  congrArg (Outcome.map Reply.ofUnit) h

/-- Ticks do the same on every memory that agrees on the bytes they read. -/
theorem ticks_withMemory (memory : Memory) (k : Nat) {m : Machine κ}
    (h : ∀ a ∈ m.footprint k, memory.byteAt a = m.memory.byteAt a) :
    (m.withMemory memory).performAll (List.replicate k .tick) =
      (m.performAll (List.replicate k .tick)).withMemory memory := by
  induction k generalizing m with
  | zero => rfl
  | succ k ih =>
    obtain ⟨hnow, hlater⟩ := List.forall_mem_append.mp h
    have hrest := ih (m := m.tick.machine) fun a ha => by
      rw [tick_memory]
      exact hlater a ha
    exact performAll_cons_withMemory (perform_tick_withMemory (tick_withMemory hnow)) hrest

/-! ## Runs -/

/-- The memory agrees with that of the machine on every byte the machine may still read. -/
def Unseen (memory : Memory) (m : Machine κ) : Prop :=
  m.state.isTerminal = false →
    ∀ a, m.memory.Ahead m.pc a → memory.byteAt a = m.memory.byteAt a

/-- The commands that neither look at memory nor write it, other than a reset. -/
def Command.goesOn : Command → Bool
  | .register _ | .start | .stop | .tick | .run | .runUntil _ => true
  | .load _ | .poke _ _ | .peek _ | .reset => false

/-- A machine that has not ended after a tick had not before, and moved past an instruction. -/
theorem tick_moved {m : Machine κ} (hlive : m.tick.machine.state.isTerminal = false) :
    m.state.isTerminal = false ∧ ∃ inst, m.memory.instructionAt m.pc = .ok inst ∧
      inst ≠ .halt ∧ m.tick.machine.pc = m.pc + inst.width := by
  cases hs : m.state.isTerminal with
  | true =>
    rw [tick_of_terminal hs] at hlive
    exact absurd (hs.symm.trans hlive) (by decide)
  | false =>
    refine ⟨rfl, ?_⟩
    cases ht : m.tick.result with
    | error fault =>
      rw [(tick_failed hs ht).1] at hlive
      cases hlive
    | ok done =>
      rcases (turn_ok hs ht).of_ok with ⟨_, hm⟩ | ⟨inst, hfetched, hne, _, hm⟩
      · rw [hm] at hlive
        cases hlive
      · exact ⟨inst, hfetched, hne, by rw [hm]⟩

section

variable {m : Machine κ} {memory : Memory}

theorem Unseen.tick (h : Unseen memory m) :
    (m.withMemory memory).tick = m.tick.withMemory memory ∧ Unseen memory m.tick.machine := by
  constructor
  · refine tick_withMemory fun a ha => ?_
    unfold fetched at ha
    cases hs : m.state.isTerminal with
    | true => simp [hs] at ha
    | false => exact h hs a (.here (by simpa [hs] using ha))
  · intro hlive a ha
    obtain ⟨hs, inst, hfetched, hne, hpc⟩ := tick_moved hlive
    rw [tick_memory, hpc] at ha
    rw [tick_memory]
    exact h hs a (.next hfetched hne ha)

omit [Console κ] in
theorem Unseen.start (h : Unseen memory m) :
    (m.withMemory memory).start = m.start.withMemory memory ∧ Unseen memory m.start.machine := by
  cases hs : m.state.isTerminal with
  | true =>
    have hs' : (m.withMemory memory).state.isTerminal = true := hs
    simp only [Machine.start, hs, hs', if_true]
    exact ⟨rfl, h⟩
  | false =>
    have hs' : (m.withMemory memory).state.isTerminal = false := hs
    simp only [Machine.start, hs, hs', Bool.false_eq_true, if_false]
    exact ⟨rfl, fun _ => h hs⟩

theorem Unseen.loopFor (waits : Bool) (n : Nat) (h : Unseen memory m) :
    Machine.loopFor waits n (m.withMemory memory) =
        (Machine.loopFor waits n m).withMemory memory ∧
      Unseen memory (Machine.loopFor waits n m).machine := by
  induction n generalizing m with
  | zero => exact ⟨rfl, h⟩
  | succ n ih =>
    obtain ⟨htick, hnext⟩ := h.tick
    have hdue : (m.withMemory memory).clock.tickDue = m.clock.tickDue := rfl
    have hmachine : (m.tick.withMemory memory).machine = m.tick.machine.withMemory memory := rfl
    simp only [Machine.loopFor, hdue, htick, hmachine]
    cases hc : m.clock.tickDue with
    | false => exact ⟨rfl, h⟩
    | true =>
      have hresult : (m.tick.withMemory memory).result = m.tick.result := rfl
      simp only [hresult, if_true]
      cases m.tick.result with
      | error fault => exact ⟨rfl, hnext⟩
      | ok done =>
        obtain ⟨hrest, hlast⟩ := ih hnext
        simp only [hrest]
        exact ⟨rfl, hlast⟩

theorem Unseen.startedFor (waits : Bool) (n : Nat) (h : Unseen memory m) :
    (Machine.loopFor waits n (m.withMemory memory).start.machine).after
        (m.withMemory memory).start.log =
      ((Machine.loopFor waits n m.start.machine).after m.start.log).withMemory memory ∧
      Unseen memory (Machine.loopFor waits n m.start.machine).machine := by
  obtain ⟨hstart, hstarted⟩ := h.start
  obtain ⟨hloop, hdone⟩ := hstarted.loopFor waits n
  have hmachine : (m.start.withMemory memory).machine = m.start.machine.withMemory memory := rfl
  rw [hstart, hmachine, hloop]
  exact ⟨rfl, hdone⟩

theorem Unseen.perform (h : Unseen memory m) {command : Command} (hgoes : command.goesOn = true) :
    (m.withMemory memory).perform command = (m.perform command).withMemory memory ∧
      Unseen memory (m.perform command).machine := by
  cases command with
  | load _ | poke _ _ | peek _ | reset => cases hgoes
  | register _ | stop => exact ⟨rfl, h⟩
  | start =>
    obtain ⟨hstart, hstarted⟩ := h.start
    exact ⟨congrArg (Outcome.map fun _ => Reply.done) hstart, hstarted⟩
  | tick =>
    obtain ⟨htick, hnext⟩ := h.tick
    exact ⟨perform_tick_withMemory htick, hnext⟩
  | runUntil n =>
    simp only [Machine.perform, runUntil_eq_loopFor]
    obtain ⟨hran, hdone⟩ := h.startedFor false n
    exact ⟨congrArg (Outcome.map Reply.ofState) hran, hdone⟩
  | run =>
    have hstate : (m.withMemory memory).state = m.state := rfl
    simp only [Machine.perform, run_eq_loopFor, hstate]
    obtain ⟨hran, hdone⟩ := h.startedFor true (if m.state.isTerminal then 0 else 257)
    exact ⟨congrArg (Outcome.map Reply.ofState) hran, hdone⟩

/-- What is not read any more does not matter for the rest of a script. -/
theorem Unseen.performAll (h : Unseen memory m) {script : List Command}
    (hgoes : ∀ command ∈ script, command.goesOn = true) :
    (m.withMemory memory).performAll script = (m.performAll script).withMemory memory := by
  induction script generalizing m with
  | nil => rfl
  | cons command rest ih =>
    obtain ⟨hcommand, hrest⟩ := List.forall_mem_cons.mp hgoes
    obtain ⟨hfirst, hnext⟩ := h.perform hcommand
    exact performAll_cons_withMemory hfirst (ih hnext hrest)

end

/-! ## The byte at which a run ends -/

/-- The ticks of a machine lead to a byte that is `HALT` or no opcode. -/
structure EndsAt (m : Machine κ) (last : Nat) : Prop where
  reached : ∃ n, (m.ticked n).state.isTerminal = false ∧ (m.ticked n).pc = last
  stops : ∃ byte, m.memory.read last = .ok byte ∧
    (byte = Opcode.halt.byte ∨ Opcode.ofByte? byte = none)

omit [Console κ] in
/-- From such a byte on nothing but the byte itself is read. -/
theorem ahead_of_stop {mem : Memory} {last : Nat} {byte : UInt8} (hread : mem.read last = .ok byte)
    (hstop : byte = Opcode.halt.byte ∨ Opcode.ofByte? byte = none) {a : Nat}
    (h : mem.Ahead last a) : a = last := by
  have hbyte := (Memory.read_ok_iff.mp hread).2
  cases h with
  | here hmem =>
    rcases hstop with rfl | hnone
    · have hop : Opcode.ofByte? (mem.byteAt last) = some .halt := by
        rw [hbyte]
        rfl
      have hspan := (Memory.mem_span_of_width hop).mp hmem
      have hwidth : Opcode.halt.width = 1 := rfl
      omega
    · simp only [Memory.span, hbyte, hnone] at hmem
      simpa using (List.mem_filter.mp hmem).1
  | @next _ _ inst hfetched hne _ =>
    have hfirst := Memory.read_of_instructionAt hfetched
    rw [hread] at hfirst
    cases hfirst
    rcases hstop with hhalt | hnone
    · have hop := Opcode.byte_injective hhalt
      cases inst <;> simp_all [Instruction.opcode]
    · rw [Opcode.ofByte?_byte] at hnone
      cases hnone

theorem ticked_live {m : Machine κ} {n : Nat} (h : (m.ticked n).state.isTerminal = false) :
    m.state.isTerminal = false := by
  induction n with
  | zero => exact h
  | succ n ih => exact ih (tick_moved h).1

/-- A run that comes to such a byte reads nothing above it. -/
theorem EndsAt.ahead_le {m : Machine κ} {last : Nat} (h : m.EndsAt last) :
    m.pc ≤ last ∧ ∀ a, m.memory.Ahead m.pc a → a ≤ last := by
  obtain ⟨⟨n, hlive, hpc⟩, byte, hread, hstop⟩ := h
  induction n generalizing m with
  | zero =>
    subst hpc
    exact ⟨Nat.le_refl _, fun a ha => Nat.le_of_eq (ahead_of_stop hread hstop ha)⟩
  | succ n ih =>
    rw [ticked_succ] at hlive hpc
    obtain ⟨_, inst, hfetched, hne, hmoved⟩ := tick_moved (ticked_live hlive)
    obtain ⟨hle, hahead⟩ := ih hlive hpc (by rwa [tick_memory])
    rw [tick_memory] at hahead
    rw [hmoved] at hle hahead
    refine ⟨by omega, fun a ha => ?_⟩
    cases ha with
    | here hmem =>
      have hop : Opcode.ofByte? (m.memory.byteAt m.pc) = some inst.opcode := by
        rw [(Memory.read_ok_iff.mp (Memory.read_of_instructionAt hfetched)).2, Opcode.ofByte?_byte]
      have hspan := (Memory.mem_span_of_width hop).mp hmem
      have hwidth : inst.opcode.width = inst.width := rfl
      omega
    | next hfetched' _ hrest =>
      rw [hfetched] at hfetched'
      cases hfetched'
      exact hahead a hrest

/-- A write below the program counter, or above the byte at which the run ends, is not seen. -/
theorem unseen_poke {m : Machine κ} {address : Nat}
    (h : address < m.pc ∨ ∃ last, m.EndsAt last ∧ last < address) (value : UInt8) :
    Unseen (m.poke address value).machine.memory m := by
  intro _ a ha
  have hne : a ≠ address := by
    rcases h with hbelow | ⟨last, hends, habove⟩
    · have := ha.le
      omega
    · have := hends.ahead_le.2 a ha
      omega
  unfold poke
  cases hw : m.memory.write address value with
  | error fault => rfl
  | ok written => exact (Memory.byteAt_of_write hw a).trans (if_neg hne)

omit [Console κ] in
theorem poke_machine (m : Machine κ) (address : Nat) (value : UInt8) :
    (m.poke address value).machine = m.withMemory (m.poke address value).machine.memory := by
  unfold poke
  split <;> rfl

/-! ## Two machines -/

/-- Machines that differ in memory and console alone. -/
def ApartInMemory (m : Machine κ) (m' : Machine κ') : Prop :=
  ∃ memory console, m' = (m.withMemory memory).connect console

omit [Console κ] in
theorem apart_withMemory (m : Machine κ) (memory : Memory) :
    ApartInMemory m (m.withMemory memory) :=
  ⟨memory, m.console, rfl⟩

variable [Console κ']

theorem footprint_twin {R : κ → κ' → Prop} (hR : Console.Alike R) (k : Nat) {m : Machine κ}
    {m' : Machine κ'} (h : Twin R m m') : m'.footprint k = m.footprint k := by
  induction k generalizing m m' with
  | zero => rfl
  | succ k ih =>
    have htick : Twin R m.tick.machine m'.tick.machine := (performAll_twin hR h [.tick]).machine
    have hfetched : m'.fetched = m.fetched := by
      obtain ⟨_, _, rfl⟩ := h
      rfl
    simp only [footprint, hfetched, ih htick]

/-- Machines on accepting consoles whose memories agree on what the ticks of the first one read
do the same in these ticks. -/
theorem ApartInMemory.ticks {m : Machine κ} {m' : Machine κ'} (h : ApartInMemory m m')
    (hc : Console.Accepting m.console) (hc' : Console.Accepting m'.console) {k : Nat}
    (hagree : ∀ a ∈ m.footprint k, m'.memory.byteAt a = m.memory.byteAt a) :
    Related ApartInMemory (m.performAll (List.replicate k .tick))
      (m'.performAll (List.replicate k .tick)) ∧
    m'.printed (List.replicate k .tick) = m.printed (List.replicate k .tick) := by
  obtain ⟨memory, console, rfl⟩ := h
  have hfootprint := footprint_twin Watched.alike k (m.performAll_watched []).machine
  have hmemory := ticks_withMemory memory k (m := m.watched) fun a ha =>
    hagree a (hfootprint ▸ ha)
  have htwin : Twin Watched.BothAccept (m.watched.withMemory memory)
      ((m.withMemory memory).connect console).watched := ⟨_, ⟨hc, hc', rfl⟩, rfl⟩
  obtain ⟨hresult, ⟨rest, ⟨_, _, he⟩, hmachine⟩, hlog⟩ :=
    performAll_twin Watched.alike_bothAccept htwin (List.replicate k .tick)
  rw [hmemory] at hresult he hmachine hlog
  obtain ⟨hr, ⟨_, _, hm⟩, hl⟩ := m.performAll_watched (List.replicate k .tick)
  obtain ⟨hr', ⟨_, _, hm'⟩, hl'⟩ :=
    ((m.withMemory memory).connect console).performAll_watched (List.replicate k .tick)
  refine ⟨⟨?_, ?_, ?_⟩, ?_⟩
  · rw [hr, hr', hresult]
    rfl
  · rw [hm, hm', hmachine]
    exact ⟨memory, _, rfl⟩
  · rw [hl, hl', hlog]
    rfl
  · rw [printed, printed, hmachine]
    exact congrArg _ he

/-- A run reads the bytes of the instructions it dispatches and no others. Two machines that differ
in memory and in their accepting consoles alone, and whose memories agree on what the next ticks of
the first one read, answer, report and print the same in each of these ticks and still differ in
nothing else. And until a reset, a write below the program counter or above the byte at which the
run ends changes nothing but the memory it writes to, whatever commands drive the machine. -/
theorem run_reads_footprint {m : Machine κ} {m' : Machine κ'} (hc : Console.Accepting m.console)
    (hc' : Console.Accepting m'.console) (h : ApartInMemory m m') :
    (∀ k, (∀ a ∈ m.footprint k, m'.memory.byteAt a = m.memory.byteAt a) → ∀ j, j ≤ k →
      Related ApartInMemory (m.performAll (List.replicate j .tick))
        (m'.performAll (List.replicate j .tick)) ∧
      m'.printed (List.replicate j .tick) = m.printed (List.replicate j .tick)) ∧
    ∀ address value, (address < m.pc ∨ ∃ last, m.EndsAt last ∧ last < address) →
      ∀ script, (∀ command ∈ script, command.goesOn = true) →
        (m.poke address value).machine.performAll script =
          (m.performAll script).withMemory (m.poke address value).machine.memory := by
  constructor
  · intro k hagree j hj
    exact h.ticks hc hc' fun a ha => hagree a (footprint_subset hj m ha)
  · intro address value hplace script hgoes
    have hrest := (unseen_poke hplace value).performAll hgoes
    rwa [← poke_machine] at hrest

/-- A machine that has taken the first tick of a program that prints 8. -/
def advanced : Machine Recorder :=
  { create {} ({} : Recorder) with
    memory := Memory.zero.overlay 0 [1, 4, 8, 6, 0] : Machine _ }.ticked 1

/-- Another program, with the same bytes where the first one is still read. -/
def overwritten : Memory := Memory.zero.overlay 0 [255, 4, 8, 6, 0, 7]

theorem run_reads_footprint_printing :
    Console.Accepting advanced.console ∧ ApartInMemory advanced (advanced.withMemory overwritten) ∧
    advanced.footprint 4 = [1, 2, 3, 4] ∧ overwritten ≠ advanced.memory ∧
    (let rest : List Command := List.replicate 4 .tick
     ((advanced.withMemory overwritten).performAll rest).result =
         (advanced.performAll rest).result ∧
       (advanced.withMemory overwritten).printed rest = advanced.printed rest ∧
       advanced.printed rest = [8]) ∧
    advanced.EndsAt 4 ∧
    ∀ address ∈ [0, 5], ((advanced.poke address 255).machine.performAll [.run]).result =
      [.state .halted] := by
  have hc : Console.Accepting advanced.console := Recorder.accepting (by decide +kernel)
  have happart : ApartInMemory advanced (advanced.withMemory overwritten) :=
    apart_withMemory advanced overwritten
  have hread : advanced.footprint 4 = [1, 2, 3, 4] := by decide +kernel
  have hends : advanced.EndsAt 4 := by
    refine ⟨⟨2, by decide +kernel, by decide +kernel⟩, 0, ?_, .inl rfl⟩
    exact Memory.read_ok_iff.mpr ⟨by decide, by decide +kernel⟩
  have hother : overwritten ≠ advanced.memory := by
    intro heq
    have hbyte : overwritten.byteAt 0 ≠ advanced.memory.byteAt 0 := by decide +kernel
    exact hbyte (congrArg (fun memory => memory.byteAt 0) heq)
  have hc' : Console.Accepting (advanced.withMemory overwritten).console :=
    Recorder.accepting (by decide +kernel)
  obtain ⟨hticks, hpokes⟩ := run_reads_footprint hc hc' happart
  obtain ⟨hsame, hprinted⟩ := hticks 4 (by decide +kernel) 4 (Nat.le_refl 4)
  refine ⟨hc, happart, hread, hother, ⟨hsame.result, hprinted, by decide +kernel⟩, hends, ?_⟩
  intro address hmem
  have hplace : address < advanced.pc ∨ ∃ last, advanced.EndsAt last ∧ last < address := by
    rcases List.mem_pair.mp hmem with rfl | rfl
    · exact .inl (by decide +kernel)
    · exact .inr ⟨4, hends, by decide⟩
  rw [hpokes address 255 hplace [.run] (by decide)]
  change (advanced.performAll [.run]).result = _
  decide +kernel

end Machine

end ByteMachine
