import ByteMachine.Proofs.Isa.Fetch
import ByteMachine.Proofs.Machine.Contents
import ByteMachine.Proofs.Program.Grammar
import ByteMachine.Simulator

/-! Loading a program into a simulator is all or nothing. A program that was read has been measured
already, so the memory takes it, and the check of its size that comes second never fails. -/

namespace ByteMachine

variable {κ : Type}

namespace Memory

theorem getElem_toList (mem : Memory) {i : Nat} (h : i < mem.toList.length) :
    mem.toList[i] = mem.byteAt i := by
  have hi : i < 256 := by rwa [length_toList] at h
  simp [toList, byteAt, hi]

/-- Bytes laid over the start of memory are followed by the cells that were there before. -/
theorem toList_overlay (mem : Memory) {bytes : List UInt8} (h : bytes.length ≤ memorySize) :
    (mem.overlay 0 bytes).toList = bytes ++ mem.toList.drop bytes.length := by
  have hle : bytes.length ≤ 256 := h
  refine List.ext_getElem ?_ fun i hi hi' => ?_
  · rw [List.length_append, List.length_drop, length_toList, length_toList]
    omega
  · rw [length_toList] at hi
    rw [getElem_toList, byteAt_overlay _ _ _ _ hi, if_pos (Nat.zero_le _), Nat.sub_zero]
    by_cases hin : i < bytes.length
    · rw [List.getElem_append_left hin, List.getElem?_eq_getElem hin, Option.getD_some]
    · have hout : bytes.length ≤ i := Nat.le_of_not_lt hin
      rw [List.getElem_append_right hout, List.getElem?_eq_none hout, Option.getD_none,
        List.getElem_drop, getElem_toList, Nat.add_sub_cancel' hout]

end Memory

/-! ## Programs that fit -/

namespace Machine

/-- A program that fits into memory is loaded. -/
theorem load_of_fits (m : Machine κ) {bytes : List UInt8} (h : bytes.length ≤ memorySize) :
    (m.load bytes).result = .ok () :=
  (m.load_result bytes).trans (if_pos h)

/-- It stands at the start of memory, and nothing else has changed. -/
theorem load_of_fits_machine (m : Machine κ) {bytes : List UInt8}
    (h : bytes.length ≤ memorySize) :
    (m.load bytes).machine = { m with memory := m.memory.overlay 0 bytes } := by
  rw [load_access, Memory.access_load_of_le m.memory ((Nat.zero_add _).symm ▸ h)]

end Machine

namespace Program

/-- What is read from a file is the program in its text. -/
theorem read_eq (files : FileReader) (path : String) :
    read files path =
      ((files.text path).mapError fun reason => LoadError.unreadable path reason.message) >>=
        parse := by
  unfold read
  cases files.text path <;> rfl

theorem length_of_parse {text : String} {bytes : List UInt8} (h : parse text = .ok bytes) :
    bytes.length ≤ memorySize :=
  (parse_eq_ok_iff.mp h).1

/-- A program file that is accepted fits into memory. -/
theorem length_of_read {files : FileReader} {path : String} {bytes : List UInt8}
    (h : read files path = .ok bytes) : bytes.length ≤ memorySize := by
  unfold read at h
  split at h
  · cases h
  · exact length_of_parse h

theorem read_eq_tooLarge_iff {files : FileReader} {path : String} {length capacity : Nat} :
    read files path = .error (.tooLarge length capacity) ↔
      ∃ text, files.text path = .ok text ∧ parse text = .error (.tooLarge length capacity) := by
  unfold read
  cases files.text path with
  | error reason => simp
  | ok text => simp

end Program

namespace Simulator

/-! ## Loading -/

/-- An attempt to load what came out of reading: all of it is put at the start of memory, or there
is an error and the simulator stays as it is. -/
def LoadsOrKeeps (sim : Simulator κ) (attempt : Step κ (Except LoadError Nat)) :
    Except LoadError (List UInt8) → Prop
  | .error e => attempt.result = .error e ∧ attempt.simulator = sim
  | .ok bytes => (sim.machine.load bytes).result = .ok () ∧ attempt.result = .ok bytes.length ∧
      ∃ memory : Memory, memory.toList = bytes ++ sim.machine.memory.toList.drop bytes.length ∧
        attempt.simulator = { sim with machine := { sim.machine with memory } }

/-- The errors of such an attempt are those of reading. -/
theorem LoadsOrKeeps.error_iff {sim : Simulator κ} {attempt : Step κ (Except LoadError Nat)}
    {program : Except LoadError (List UInt8)} (h : LoadsOrKeeps sim attempt program)
    {e : LoadError} : attempt.result = .error e ↔ program = .error e := by
  cases program with
  | error reason => rw [h.1, Except.error.injEq, Except.error.injEq]
  | ok bytes =>
    rw [h.2.1]
    exact ⟨nofun, nofun⟩

/-- The second check of the size succeeds when the first one did. -/
theorem loadBytes_of_fits (sim : Simulator κ) {bytes : List UInt8}
    (h : bytes.length ≤ memorySize) :
    (sim.loadBytes bytes).result = .ok bytes.length ∧
      (sim.loadBytes bytes).simulator = { sim with machine := (sim.machine.load bytes).machine } := by
  unfold loadBytes
  dsimp only
  rw [sim.machine.load_of_fits h]
  exact ⟨rfl, rfl⟩

theorem loadBytes_loads (sim : Simulator κ) {bytes : List UInt8} (h : bytes.length ≤ memorySize) :
    LoadsOrKeeps sim (sim.loadBytes bytes) (.ok bytes) := by
  obtain ⟨hresult, hsim⟩ := sim.loadBytes_of_fits h
  refine ⟨sim.machine.load_of_fits h, hresult, _, Memory.toList_overlay _ h, ?_⟩
  rw [hsim, Machine.load_of_fits_machine _ h]

theorem loadText_loads (sim : Simulator κ) (text : String) :
    LoadsOrKeeps sim (sim.loadText text) (Program.parse text) := by
  unfold loadText
  cases h : Program.parse text with
  | error e => exact ⟨rfl, rfl⟩
  | ok bytes => exact sim.loadBytes_loads (Program.length_of_parse h)

theorem loadFile_loads (sim : Simulator κ) (files : FileReader) (path : String) :
    LoadsOrKeeps sim (sim.loadFile files path) (Program.read files path) := by
  unfold loadFile
  cases h : Program.read files path with
  | error e => exact ⟨rfl, rfl⟩
  | ok bytes => exact sim.loadBytes_loads (Program.length_of_read h)

/-- A file is accepted when it holds a program, which is then in memory. -/
theorem loadFile_of_ok (sim : Simulator κ) {files : FileReader} {path : String}
    {bytes : List UInt8} (h : Program.read files path = .ok bytes) :
    (sim.loadFile files path).result = .ok bytes.length ∧
      (sim.loadFile files path).simulator.machine = (sim.machine.load bytes).machine := by
  obtain ⟨hresult, hsim⟩ := sim.loadBytes_of_fits (Program.length_of_read h)
  unfold loadFile
  rw [h]
  exact ⟨hresult, congrArg Simulator.machine hsim⟩

theorem loadFile_of_error (sim : Simulator κ) {files : FileReader} {path : String}
    {e : LoadError} (h : Program.read files path = .error e) :
    (sim.loadFile files path).result = .error e :=
  (sim.loadFile_loads files path).error_iff.mpr h

/-- Loading a text or a file is all or nothing, in any state of the simulator. It answers the error
of reading and changes nothing, or all bytes of the program stand at the start of memory and the
rest of memory and of the machine is as it was. A program that is too large is refused by the
parser alone. -/
theorem load_all_or_nothing (sim : Simulator κ) :
    (∀ text, LoadsOrKeeps sim (sim.loadText text) (Program.parse text)) ∧
    (∀ (files : FileReader) path, LoadsOrKeeps sim (sim.loadFile files path)
      (((files.text path).mapError fun reason => LoadError.unreadable path reason.message) >>=
        Program.parse)) ∧
    (∀ text length capacity,
      (sim.loadText text).result = .error (.tooLarge length capacity) ↔
        Program.parse text = .error (.tooLarge length capacity)) ∧
    ∀ (files : FileReader) path length capacity,
      (sim.loadFile files path).result = .error (.tooLarge length capacity) ↔
        ∃ text, files.text path = .ok text ∧
          Program.parse text = .error (.tooLarge length capacity) := by
  refine ⟨sim.loadText_loads, fun files path => ?_, fun text _ _ => ?_,
    fun files path _ _ => ?_⟩
  · rw [← Program.read_eq]
    exact sim.loadFile_loads files path
  · exact (sim.loadText_loads text).error_iff
  · exact (sim.loadFile_loads files path).error_iff.trans Program.read_eq_tooLarge_iff

end Simulator

end ByteMachine
