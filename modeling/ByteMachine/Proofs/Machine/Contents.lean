import ByteMachine.Proofs.Machine.Effect
import ByteMachine.Proofs.Machine.Reset

/-! What memory holds after any accesses. An access is all or nothing: it puts every byte that it
carries into memory, or it is refused and nothing changes. So a cell holds the byte that was put
there last. Of all that can be done to a machine only loading and poking are such accesses, and
they touch nothing but memory. -/

namespace ByteMachine

namespace Memory

/-! ## Accesses -/

/-- An access to memory, at an address of any size. -/
inductive Access where
  | read (address : Nat)
  | write (address : Nat) (value : UInt8)
  | load (offset : Nat) (bytes : List UInt8)
  deriving DecidableEq, Repr

namespace Access

/-- The access stays inside memory. An empty image does so at the end of memory, but not past it. -/
def Fits : Access → Prop
  | read address | write address _ => address < memorySize
  | load offset bytes => offset + bytes.length ≤ memorySize

instance : DecidablePred Fits
  | read address | write address _ => inferInstanceAs (Decidable (address < memorySize))
  | load offset bytes => inferInstanceAs (Decidable (offset + bytes.length ≤ memorySize))

/-- The first address of the access. -/
def first : Access → Nat
  | read address | write address _ | load address _ => address

/-- The bytes that the access carries into memory. -/
def bytes : Access → List UInt8
  | read _ => []
  | write _ value => [value]
  | load _ bytes => bytes

/-- The byte that the access puts at an address. One that is refused puts none. -/
def put? (address : Nat) (access : Access) : Option UInt8 :=
  if access.Fits ∧ access.first ≤ address then access.bytes[address - access.first]? else none

theorem put?_write_of_ne {address place : Nat} (h : address ≠ place) (value : UInt8) :
    (write place value).put? address = none := by
  unfold put?
  split
  · next hput =>
    have hle : place ≤ address := hput.2
    have hpast : [value].length ≤ address - place := by
      rw [List.length_singleton]
      omega
    exact List.getElem?_eq_none hpast
  · rfl

end Access

/-- The memory after an access. One that is refused leaves it as it is. -/
def access (mem : Memory) : Access → Memory
  | .read _ => mem
  | .write address value =>
      match mem.write address value with
      | .ok written => written
      | .error _ => mem
  | .load offset bytes =>
      match mem.load offset bytes with
      | .ok loaded => loaded
      | .error _ => mem

theorem write_eq (mem : Memory) (address : Nat) (value : UInt8) :
    mem.write address value = if address < memorySize then
      .ok (mem.access (.write address value)) else .error (.outOfBounds address) := by
  by_cases h : address < memorySize
  · simp only [access, if_pos h, write, dif_pos (show address < 256 from h)]
  · exact (dif_neg h).trans (if_neg h).symm

theorem access_load_of_le (mem : Memory) {offset : Nat} {bytes : List UInt8}
    (h : offset + bytes.length ≤ memorySize) :
    mem.access (.load offset bytes) = mem.overlay offset bytes := by
  simp only [access, load_eq_ite, if_pos h]

theorem load_eq (mem : Memory) (offset : Nat) (bytes : List UInt8) :
    mem.load offset bytes = if offset + bytes.length ≤ memorySize then
      .ok (mem.access (.load offset bytes)) else .error (.outOfBounds (max offset memorySize)) := by
  rw [load_eq_ite]
  by_cases h : offset + bytes.length ≤ memorySize
  · rw [access_load_of_le mem h]
  · rw [if_neg h, if_neg h]

theorem access_of_not_fits (mem : Memory) {access : Access} (h : ¬ access.Fits) :
    mem.access access = mem := by
  cases access with
  | read address => rfl
  | write address value => rw [Memory.access, (mem.write_eq address value).trans (if_neg h)]
  | load offset bytes => rw [Memory.access, (mem.load_eq offset bytes).trans (if_neg h)]

/-- After an access a cell holds the byte that was put there, or else what it held before. -/
theorem byteAt_access (mem : Memory) (access : Access) {address : Nat} (h : address < memorySize) :
    (mem.access access).byteAt address = (access.put? address).getD (mem.byteAt address) := by
  by_cases hfits : access.Fits
  · cases access with
    | read place => simp [Memory.access, Access.put?, Access.bytes]
    | write place value =>
      have hwritten := (mem.write_eq place value).trans (if_pos hfits)
      rw [byteAt_of_write hwritten]
      by_cases heq : address = place
      · simp [heq, Access.put?, hfits, Access.first, Access.bytes]
      · rw [if_neg heq, Access.put?_write_of_ne heq, Option.getD_none]
    | load offset bytes =>
      rw [access_load_of_le mem hfits, byteAt_overlay _ _ _ _ h]
      by_cases hle : offset ≤ address
      · simp [Access.put?, hfits, Access.first, Access.bytes, hle]
      · simp [Access.put?, Access.first, hle]
  · rw [access_of_not_fits mem hfits, Access.put?, if_neg fun hput => hfits hput.1,
      Option.getD_none]

/-! ## Histories -/

/-- The memory after a history of accesses, oldest first. -/
def after (mem : Memory) (history : List Access) : Memory := history.foldl access mem

theorem after_concat (mem : Memory) (history : List Access) (access : Access) :
    mem.after (history ++ [access]) = (mem.after history).access access :=
  List.foldl_append

/-- The last byte that a history put at an address, or else the one that was there before it. -/
def latest (before : UInt8) (address : Nat) (history : List Access) : UInt8 :=
  (history.filterMap (·.put? address)).getLastD before

theorem latest_cons (before : UInt8) (address : Nat) (access : Access) (history : List Access) :
    latest before address (access :: history) =
      latest ((access.put? address).getD before) address history := by
  cases hput : access.put? address with
  | none => simp [latest, hput]
  | some value =>
    rw [latest, List.filterMap_cons_some hput, List.getLastD_cons]
    rfl

theorem byteAt_after (mem : Memory) (history : List Access) {address : Nat}
    (h : address < memorySize) :
    (mem.after history).byteAt address = latest (mem.byteAt address) address history := by
  induction history generalizing mem with
  | nil => rfl
  | cons access rest ih =>
    rw [latest_cons, ← byteAt_access mem access h]
    exact ih (mem.access access)

theorem read_after (mem : Memory) (history : List Access) (address : Nat) :
    (mem.after history).read address = if address < memorySize then
      .ok (latest (mem.byteAt address) address history) else .error (.outOfBounds address) := by
  by_cases h : address < memorySize
  · rw [if_pos h, ← byteAt_after mem history h]
    exact (read_eq _ _).trans (if_pos h)
  · rw [if_neg h]
    exact (read_eq _ _).trans (if_neg h)

/-- The second image does not fit, so it puts nothing over the byte that was written. -/
example : latest 7 254 [.load 250 [1, 2, 3, 4, 5, 6], .write 254 9, .load 253 [8, 8, 8, 8],
    .read 254] = 9 := by decide

end Memory

namespace Machine

open Memory (Access latest)

variable {κ : Type}

/-! ## Accesses to the memory of a machine -/

theorem poke_result (m : Machine κ) (address : Nat) (value : UInt8) :
    (m.poke address value).result =
      if address < memorySize then .ok () else .error (.outOfBounds address) := by
  rw [poke, Memory.write_eq]
  by_cases h : address < memorySize
  · rw [if_pos h, if_pos h]
  · rw [if_neg h, if_neg h]

theorem poke_access (m : Machine κ) (address : Nat) (value : UInt8) :
    (m.poke address value).machine =
      { m with memory := m.memory.access (.write address value) } := by
  rw [poke, Memory.access]
  cases m.memory.write address value <;> rfl

theorem load_result (m : Machine κ) (bytes : List UInt8) :
    (m.load bytes).result =
      if bytes.length ≤ memorySize then .ok () else .error (.outOfBounds memorySize) := by
  rw [load, Memory.load_eq, Nat.zero_add, Nat.zero_max]
  by_cases h : bytes.length ≤ memorySize
  · rw [if_pos h, if_pos h]
  · rw [if_neg h, if_neg h]

theorem load_access (m : Machine κ) (bytes : List UInt8) :
    (m.load bytes).machine = { m with memory := m.memory.access (.load 0 bytes) } := by
  rw [load, Memory.access]
  cases m.memory.load 0 bytes <;> rfl

variable [Console κ]

/-! ## What runs leave alone -/

omit [Console κ] in
theorem start_memory (m : Machine κ) : m.start.machine.memory = m.memory := by
  unfold start
  split <;> rfl

omit [Console κ] in
theorem advance_memory (m : Machine κ) (inst : Instruction) :
    (m.advance inst).machine.memory = m.memory := by
  unfold advance
  split <;> rfl

theorem execute_memory (m : Machine κ) (inst : Instruction) :
    (m.execute inst).machine.memory = m.memory := by
  unfold execute
  dsimp only
  split
  · exact (advance_memory _ inst).trans (apply_untouched m inst).memory
  · exact (apply_untouched m inst).memory

theorem drive_memory (m : Machine κ) : m.drive.machine.memory = m.memory := by
  fun_induction drive m with
  | case1 m _ _ _ => exact tick_memory m
  | case2 m _ _ _ ih => exact ih.trans (tick_memory m)
  | case3 m _ => rfl

theorem driveFor_memory (n : Nat) (m : Machine κ) :
    (driveFor n m).machine.memory = m.memory := by
  induction n generalizing m with
  | zero => rfl
  | succ n ih =>
    simp only [driveFor]
    split
    · split
      · exact tick_memory m
      · exact (ih _).trans (tick_memory m)
    · rfl

/-! ## Histories of a machine -/

/-- The access to memory from outside that an operation is. -/
def Operation.access? : Operation → Option Access
  | .command (.load bytes) => some (.load 0 bytes)
  | .command (.poke address value) => some (.write address value)
  | .command (.peek address) => some (.read address)
  | _ => none

/-- An access, whether it succeeds or not, touches nothing but memory. -/
theorem operate_of_access (m : Machine κ) {operation : Operation} {access : Access}
    (h : operation.access? = some access) :
    m.operate operation = { m with memory := m.memory.access access } := by
  unfold Operation.access? at h
  split at h <;> cases h
  · exact m.load_access _
  · exact m.poke_access _ _
  · rfl

/-- Nothing else touches memory. -/
theorem operate_memory_of_none (m : Machine κ) {operation : Operation}
    (h : operation.access? = none) : (m.operate operation).memory = m.memory := by
  cases operation with
  | execute inst => exact execute_memory m inst
  | command command =>
    cases command with
    | load _ | poke _ _ | peek _ => cases h
    | register _ | stop | reset => rfl
    | start => exact start_memory m
    | tick => exact tick_memory m
    | run => exact (drive_memory _).trans (start_memory m)
    | runUntil n => exact (driveFor_memory n _).trans (start_memory m)

theorem operateAll_memory (m : Machine κ) (operations : List Operation) :
    (m.operateAll operations).memory =
      m.memory.after (operations.filterMap Operation.access?) := by
  induction operations generalizing m with
  | nil => rfl
  | cons operation rest ih =>
    refine (ih (m.operate operation)).trans ?_
    cases h : operation.access? with
    | none => rw [operate_memory_of_none m h, List.filterMap_cons_none h]
    | some access =>
      rw [operate_of_access m h, List.filterMap_cons_some h]
      rfl

/-- Memory is a checked array. After any history of accesses to a new memory, a read answers the
byte that was put there last, a write and an image succeed exactly when they fit, and whatever is
refused names the place and changes nothing. The same holds of the memory of any machine, in any
state and whatever was done to it, and an access to it, refused or not, leaves all the rest of the
machine as it is. -/
theorem memory_last_byte_wins :
    (∀ history : List Access, let mem := Memory.zero.after history
      (∀ address, mem.read address = if address < memorySize
        then .ok (latest 0 address history) else .error (.outOfBounds address)) ∧
      (∀ address value, mem.write address value = if address < memorySize
        then .ok (Memory.zero.after (history ++ [.write address value]))
        else .error (.outOfBounds address)) ∧
      (∀ offset bytes, mem.load offset bytes = if offset + bytes.length ≤ memorySize
        then .ok (Memory.zero.after (history ++ [.load offset bytes]))
        else .error (.outOfBounds (max offset memorySize))) ∧
      ∀ access : Access, ¬ access.Fits → Memory.zero.after (history ++ [access]) = mem) ∧
    (∀ config (console : κ), (create config console).memory = Memory.zero) ∧
    ∀ (m : Machine κ) (operations : List Operation),
      let now := m.operateAll operations
      let history := operations.filterMap Operation.access?
      (∀ address, now.peek address = if address < memorySize
        then .ok (latest (m.memory.byteAt address) address history)
        else .error (.outOfBounds address)) ∧
      (∀ address value, (now.poke address value).result =
        if address < memorySize then .ok () else .error (.outOfBounds address)) ∧
      (∀ bytes, (now.load bytes).result =
        if bytes.length ≤ memorySize then .ok () else .error (.outOfBounds memorySize)) ∧
      ∀ operation access, operation.access? = some access →
        now.operate operation = { now with memory := now.memory.access access } ∧
        (¬ access.Fits → now.operate operation = now) := by
  refine ⟨fun history => ⟨fun address => ?_, fun address value => ?_, fun offset bytes => ?_,
    fun access h => ?_⟩, fun _ _ => rfl, fun m operations => ⟨fun address => ?_,
    fun address value => poke_result _ address value, fun bytes => load_result _ bytes,
    fun operation access h => ?_⟩⟩
  · rw [Memory.read_after, Memory.byteAt_zero]
  · rw [Memory.after_concat]
    exact Memory.write_eq _ address value
  · rw [Memory.after_concat]
    exact Memory.load_eq _ offset bytes
  · rw [Memory.after_concat]
    exact Memory.access_of_not_fits _ h
  · rw [peek, operateAll_memory, Memory.read_after]
  · have htouched := operate_of_access (m.operateAll operations) h
    refine ⟨htouched, fun hrefused => ?_⟩
    rw [htouched, Memory.access_of_not_fits _ hrefused]

end Machine

end ByteMachine
