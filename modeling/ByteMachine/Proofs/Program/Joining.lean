import ByteMachine.Proofs.Program.Rejection

/-! Texts put together. A text of two parts with a line feed between them has the lines of the one
above those of the other, so how it reads follows from how its parts read. -/

namespace ByteMachine

theorem Text.length_splitOn (text : List Char) :
    (text.splitOn '\n').length = text.count '\n' + 1 := by
  induction text with
  | nil => rfl
  | cons c rest ih =>
    rw [List.splitOn_cons_eq_if_modifyHead, List.count_cons]
    by_cases hc : c = '\n'
    · simp [hc, ih]
    · simp [hc, ih]

namespace Program

/-! ## Lines above other lines -/

section

variable {first second before : List (List Char)} {line : List Char}

theorem FirstInvalid.append (h : FirstInvalid first before line) :
    FirstInvalid (first ++ second) before line := by
  obtain ⟨⟨after, rfl⟩, hvalid, hinvalid⟩ := h
  exact ⟨⟨after ++ second, by simp⟩, hvalid, hinvalid⟩

theorem FirstInvalid.below (h : FirstInvalid second before line) (hfirst : ∀ l ∈ first, Valid l) :
    FirstInvalid (first ++ second) (first ++ before) line := by
  obtain ⟨⟨after, rfl⟩, hvalid, hinvalid⟩ := h
  exact ⟨⟨after, by simp⟩, List.forall_mem_append.mpr ⟨hfirst, hvalid⟩, hinvalid⟩

theorem readLines_append {bytes others : List UInt8} {number number' : Nat}
    (h : readLines number first = .ok bytes) (h' : readLines number' second = .ok others) :
    readLines number (first ++ second) = .ok (bytes ++ others) := by
  obtain ⟨values, hlines, rfl⟩ := lines_of_readLines h
  obtain ⟨values', hlines', rfl⟩ := lines_of_readLines h'
  rw [readLines_of_lines (List.rel_append hlines hlines'), List.reduceOption_append]

end

/-! ## Readings of texts -/

/-- How many bytes a text holds according to its reading, also when they are too many. -/
def byteCount : Except LoadError (List UInt8) → Nat
  | .ok bytes => bytes.length
  | .error (.tooLarge length _) => length
  | .error _ => 0

/-- The bytes that a reading gives. -/
def bytesOf : Except LoadError (List UInt8) → List UInt8
  | .ok bytes => bytes
  | .error _ => []

/-- The reading of two texts one above the other, from their own readings. The lines of the second
one are `shift` lines further down. -/
def joined (shift : Nat) (first second : Except LoadError (List UInt8)) :
    Except LoadError (List UInt8) :=
  match first, second with
  | .error (.invalidLiteral number text), _ => .error (.invalidLiteral number text)
  | _, .error (.invalidLiteral number text) => .error (.invalidLiteral (number + shift) text)
  | first, second =>
      let count := byteCount first + byteCount second
      if memorySize < count then .error (.tooLarge count memorySize)
      else .ok (bytesOf first ++ bytesOf second)

theorem fitted_of_le {bytes : List UInt8} (h : bytes.length ≤ memorySize) :
    fitted bytes = .ok bytes :=
  if_pos h

theorem fitted_of_lt {bytes : List UInt8} (h : memorySize < bytes.length) :
    fitted bytes = .error (.tooLarge bytes.length memorySize) :=
  if_neg (Nat.not_le.mpr h)

theorem byteCount_fitted (bytes : List UInt8) : byteCount (fitted bytes) = bytes.length := by
  unfold fitted
  split <;> rfl

section

variable (shift : Nat) (bytes others : List UInt8)

/-- The size of the part above does not matter when a line below is not valid. -/
theorem joined_invalidLiteral (number : Nat) (text : String) :
    joined shift (fitted bytes) (.error (.invalidLiteral number text)) =
      .error (.invalidLiteral (number + shift) text) := by
  unfold fitted
  split <;> rfl

theorem joined_fitted :
    joined shift (fitted bytes) (fitted others) = fitted (bytes ++ others) := by
  have hmeasured : joined shift (fitted bytes) (fitted others) =
      if memorySize < bytes.length + others.length then
        .error (.tooLarge (bytes.length + others.length) memorySize)
      else .ok (bytesOf (fitted bytes) ++ bytesOf (fitted others)) := by
    rw [← byteCount_fitted bytes, ← byteCount_fitted others]
    unfold fitted
    split <;> split <;> rfl
  rw [hmeasured]
  split
  · next hlarge =>
    rw [← List.length_append] at hlarge ⊢
    rw [fitted_of_lt hlarge]
  · next hfits =>
    have hboth : (bytes ++ others).length ≤ memorySize := by
      rw [List.length_append]
      exact Nat.not_lt.mp hfits
    rw [fitted_of_le hboth, fitted_of_le (by omega), fitted_of_le (by omega)]
    rfl

end

/-- How a text of two parts reads follows from how its parts read. An invalid literal of the first
part is reported as it is, one of the second part as many lines further down as the first part has,
even when the first part alone is too large; otherwise the bytes of the parts stand one behind the
other, and are too many when both counts together are. -/
theorem parse_join (first second : String) :
    parse (first ++ "\n" ++ second) =
      joined (first.toList.count '\n' + 1) (parse first) (parse second) := by
  have hlines : (first ++ "\n" ++ second).toList.splitOn '\n' =
      first.toList.splitOn '\n' ++ second.toList.splitOn '\n' := by
    rw [String.toList_append, String.toList_append, List.append_assoc]
    exact List.splitOn_append_cons_self _ _
  cases h : readLines 1 (first.toList.splitOn '\n') with
  | error e =>
    obtain ⟨before, line, hfirst, rfl⟩ := readLines_eq_error_iff.mp h
    rw [parse_of_readLines_error h, parse_of_readLines_error]
    · rfl
    · rw [hlines]
      exact readLines_eq_error_iff.mpr ⟨before, line, hfirst.append, rfl⟩
  | ok bytes =>
    rw [parse_of_readLines h]
    cases h' : readLines 1 (second.toList.splitOn '\n') with
    | error e =>
      have hvalid := exists_readLines_iff.mp ⟨bytes, h⟩
      obtain ⟨before, line, hsecond, rfl⟩ := readLines_eq_error_iff.mp h'
      rw [parse_of_readLines_error h', joined_invalidLiteral]
      apply parse_of_readLines_error
      rw [hlines, readLines_eq_error_iff]
      refine ⟨_, line, hsecond.below hvalid, ?_⟩
      rw [List.length_append, Text.length_splitOn, Nat.add_assoc, Nat.add_comm before.length]
    | ok others =>
      rw [parse_of_readLines h', joined_fitted]
      apply parse_of_readLines
      rw [hlines]
      exact readLines_append h h'

end Program

end ByteMachine
