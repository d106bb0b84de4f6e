import ByteMachine.Proofs.Program.Grammar

/-! Why a text is no program. The first line that the grammar does not have is reported with its
number and with what remains of it, wherever it stands. Only a text without such a line is measured,
so a program that is too large is one in every other respect. -/

namespace ByteMachine

theorem Text.not_mem_of_mem_splitOn {text line : List Char} (h : line ∈ text.splitOn '\n') :
    '\n' ∉ line := by
  induction text generalizing line with
  | nil =>
    obtain rfl : line = [] := by simpa using h
    exact List.not_mem_nil
  | cons c rest ih =>
    rw [List.splitOn_cons_eq_if_modifyHead] at h
    by_cases hc : c = '\n'
    · rw [if_pos (by simpa using hc)] at h
      obtain rfl | h := List.mem_cons.mp h
      · exact List.not_mem_nil
      · exact ih h
    · rw [if_neg (by simpa using hc)] at h
      cases hlines : rest.splitOn '\n' with
      | nil => simp [hlines] at h
      | cons first others =>
        rw [hlines] at h ih
        obtain rfl | h := List.mem_cons.mp h
        · intro hmem
          obtain rfl | hmem := List.mem_cons.mp hmem
          · exact hc rfl
          · exact ih List.mem_cons_self hmem
        · exact ih (List.mem_cons_of_mem _ h)

namespace Program

/-! ## Lines of either kind -/

/-- A line of the grammar, with a byte on it or without. -/
def Valid (line : List Char) : Prop := ∃ value, Line line value

/-- A line with a byte on it. -/
def Occupied (line : List Char) : Prop := ∃ byte, Line line (some byte)

theorem Content.eq_nil {text : List Char} (h : Content text none) : text = [] := by
  cases h
  rfl

theorem Content.literal_of_some {text : List Char} {byte : UInt8} (h : Content text (some byte)) :
    Literal text byte := by
  cases h with
  | literal h => exact h

theorem occupied_iff {line : List Char} : Occupied line ↔ (literal? (content line)).isSome := by
  simp only [Occupied, line_iff, Option.isSome_iff_exists, literal?_eq_some_iff]
  constructor
  · rintro ⟨byte, h⟩
    exact ⟨byte, h.literal_of_some⟩
  · rintro ⟨byte, h⟩
    exact ⟨byte, .literal h⟩

instance : DecidablePred Occupied := fun _ => decidable_of_iff _ occupied_iff.symm

theorem not_occupied_of_line {line : List Char} (h : Line line none) : ¬ Occupied line := by
  rintro ⟨byte, h'⟩
  exact (line_iff.mp h').literal_of_some.ne_nil (line_iff.mp h).eq_nil

section

variable {lines : List (List Char)} {values : List (Option UInt8)}

theorem valid_of_lines (h : List.Forall₂ Line lines values) : ∀ line ∈ lines, Valid line := by
  induction h with
  | nil => exact fun _ hmem => absurd hmem List.not_mem_nil
  | cons hline _ ih => exact List.forall_mem_cons.mpr ⟨⟨_, hline⟩, ih⟩

/-- There are as many bytes as lines with a byte on them. -/
theorem countP_occupied (h : List.Forall₂ Line lines values) :
    lines.countP (Occupied ·) = values.reduceOption.length := by
  induction h with
  | nil => rfl
  | @cons line value lines values hline _ ih =>
    rw [List.countP_cons, ih]
    cases value with
    | none => simp [not_occupied_of_line hline, List.reduceOption_cons_of_none]
    | some byte =>
      have hoccupied : Occupied line := ⟨byte, hline⟩
      simp [hoccupied, List.reduceOption_cons_of_some]

end

/-! ## The first line that is not valid -/

/-- The first of some lines that is not valid, with the lines above it. -/
structure FirstInvalid (lines before : List (List Char)) (line : List Char) : Prop where
  split : ∃ after, lines = before ++ line :: after
  valid : ∀ l ∈ before, Valid l
  invalid : ¬ Valid line

section

variable {lines before : List (List Char)} {first line : List Char}

theorem FirstInvalid.mem (h : FirstInvalid lines before line) : line ∈ lines := by
  obtain ⟨after, rfl⟩ := h.split
  exact List.mem_append_right _ List.mem_cons_self

theorem not_firstInvalid_nil : ¬ FirstInvalid [] before line := by
  rintro ⟨⟨after, h⟩, -, -⟩
  simp at h

theorem firstInvalid_cons_of_valid (h : Valid first) :
    FirstInvalid (first :: lines) before line ↔
      ∃ others, before = first :: others ∧ FirstInvalid lines others line := by
  constructor
  · rintro ⟨⟨after, hsplit⟩, hvalid, hinvalid⟩
    cases before with
    | nil =>
      obtain ⟨rfl, rfl⟩ := List.cons.inj hsplit
      exact absurd h hinvalid
    | cons top others =>
      obtain ⟨rfl, rfl⟩ := List.cons.inj hsplit
      exact ⟨others, rfl, ⟨after, rfl⟩, (List.forall_mem_cons.mp hvalid).2, hinvalid⟩
  · rintro ⟨others, rfl, ⟨after, rfl⟩, hvalid, hinvalid⟩
    exact ⟨⟨after, rfl⟩, List.forall_mem_cons.mpr ⟨h, hvalid⟩, hinvalid⟩

theorem firstInvalid_cons_of_not_valid (h : ¬ Valid first) :
    FirstInvalid (first :: lines) before line ↔ before = [] ∧ line = first := by
  constructor
  · rintro ⟨⟨after, hsplit⟩, hvalid, -⟩
    cases before with
    | nil => exact ⟨rfl, (List.cons.inj hsplit).1.symm⟩
    | cons top others =>
      obtain ⟨rfl, -⟩ := List.cons.inj hsplit
      exact absurd (hvalid _ List.mem_cons_self) h
  · rintro ⟨rfl, rfl⟩
    exact ⟨⟨lines, rfl⟩, fun _ hmem => absurd hmem List.not_mem_nil, h⟩

end

/-- Reading fails at the first line that is not valid. -/
theorem readLines_eq_error_iff {number : Nat} {lines : List (List Char)} {e : LoadError} :
    readLines number lines = .error e ↔
      ∃ before line, FirstInvalid lines before line ∧
        e = .invalidLiteral (number + before.length) (String.ofList (content line)) := by
  induction lines generalizing number with
  | nil => simp [readLines, not_firstInvalid_nil]
  | cons first rest ih =>
    by_cases hvalid : Valid first
    · obtain ⟨value, hline⟩ := id hvalid
      have hmap : readLines number (first :: rest) = .error e ↔
          readLines (number + 1) rest = .error e := by
        rw [readLines_cons_of_line hline]
        cases readLines (number + 1) rest <;> simp [Except.map]
      rw [hmap, ih]
      simp only [firstInvalid_cons_of_valid hvalid]
      constructor
      · rintro ⟨before, line, hfirst, rfl⟩
        refine ⟨first :: before, line, ⟨before, rfl, hfirst⟩, ?_⟩
        rw [List.length_cons, Nat.add_assoc, Nat.add_comm 1]
      · rintro ⟨_, line, ⟨before, rfl, hfirst⟩, rfl⟩
        refine ⟨before, line, hfirst, ?_⟩
        rw [List.length_cons, Nat.add_assoc, Nat.add_comm 1]
    · rw [readLines_cons_of_not_line (not_exists.mp hvalid)]
      simp only [firstInvalid_cons_of_not_valid hvalid]
      constructor
      · intro h
        exact ⟨[], first, ⟨rfl, rfl⟩, (Except.error.inj h).symm⟩
      · rintro ⟨_, _, ⟨rfl, rfl⟩, rfl⟩
        rfl

/-- Lines that are all valid can be read, and no others. -/
theorem exists_readLines_iff {number : Nat} {lines : List (List Char)} :
    (∃ bytes, readLines number lines = .ok bytes) ↔ ∀ line ∈ lines, Valid line := by
  constructor
  · rintro ⟨bytes, h⟩
    obtain ⟨values, hlines, -⟩ := lines_of_readLines h
    exact valid_of_lines hlines
  · intro hvalid
    cases h : readLines number lines with
    | ok bytes => exact ⟨bytes, rfl⟩
    | error e =>
      obtain ⟨before, line, hfirst, -⟩ := readLines_eq_error_iff.mp h
      exact absurd (hvalid line hfirst.mem) hfirst.invalid

/-! ## What remains of a line -/

theorem Remains.subset {line text : List Char} (h : Remains line text) : text ⊆ line := by
  cases h with
  | intro =>
    intro c hc
    simp [hc]

/-- Something remains of a line that is not valid. -/
theorem Remains.ne_nil {line text : List Char} (h : Remains line text) (hline : ¬ Valid line) :
    text ≠ [] := by
  rintro rfl
  apply hline
  exact ⟨none, line_iff.mpr (remains_iff.mp h ▸ .empty)⟩

/-! ## Texts -/

/-- Bytes as a program, which they are when they fit into memory. -/
def fitted (bytes : List UInt8) : Except LoadError (List UInt8) :=
  if bytes.length ≤ memorySize then .ok bytes else .error (.tooLarge bytes.length memorySize)

theorem fitted_eq_error_iff {bytes : List UInt8} {e : LoadError} :
    fitted bytes = .error e ↔ memorySize < bytes.length ∧ e = .tooLarge bytes.length memorySize := by
  unfold fitted
  split
  · next hfits => exact ⟨nofun, fun h => absurd h.1 (Nat.not_lt.mpr hfits)⟩
  · next hfits =>
    rw [Except.error.injEq, eq_comm]
    exact ⟨fun h => ⟨Nat.not_le.mp hfits, h⟩, And.right⟩

section

variable {text : String}

theorem parse_of_readLines {bytes : List UInt8}
    (h : readLines 1 (text.toList.splitOn '\n') = .ok bytes) : parse text = fitted bytes := by
  rw [parse, readLines_of_pieces (Text.pieces_splitOn _), h]
  rfl

theorem parse_of_readLines_error {e : LoadError}
    (h : readLines 1 (text.toList.splitOn '\n') = .error e) : parse text = .error e := by
  rw [parse, readLines_of_pieces (Text.pieces_splitOn _), h]
  rfl

theorem parse_eq_invalidLiteral_iff {number : Nat} {remainder : String} :
    parse text = .error (.invalidLiteral number remainder) ↔
      ∃ before line, FirstInvalid (text.toList.splitOn '\n') before line ∧
        number = before.length + 1 ∧ Remains line remainder.toList := by
  have hread : parse text = .error (.invalidLiteral number remainder) ↔
      readLines 1 (text.toList.splitOn '\n') = .error (.invalidLiteral number remainder) := by
    refine ⟨fun h => ?_, parse_of_readLines_error⟩
    cases hlines : readLines 1 (text.toList.splitOn '\n') with
    | ok bytes =>
      rw [parse_of_readLines hlines, fitted_eq_error_iff] at h
      exact absurd h.2 (by simp)
    | error e => rw [← h, parse_of_readLines_error hlines]
  rw [hread, readLines_eq_error_iff]
  simp only [LoadError.invalidLiteral.injEq, remains_iff, Nat.add_comm 1]
  constructor
  · rintro ⟨before, line, hfirst, hnumber, rfl⟩
    exact ⟨before, line, hfirst, hnumber, String.toList_ofList.symm⟩
  · rintro ⟨before, line, hfirst, hnumber, hremains⟩
    exact ⟨before, line, hfirst, hnumber, by rw [hremains, String.ofList_toList]⟩

theorem parse_eq_tooLarge_iff {length capacity : Nat} :
    parse text = .error (.tooLarge length capacity) ↔
      (∀ line ∈ text.toList.splitOn '\n', Valid line) ∧
        length = (text.toList.splitOn '\n').countP (Occupied ·) ∧
        memorySize < length ∧ capacity = memorySize := by
  have hreads := @exists_readLines_iff 1 (text.toList.splitOn '\n')
  rw [← hreads]
  cases h : readLines 1 (text.toList.splitOn '\n') with
  | ok bytes =>
    obtain ⟨values, hlines, rfl⟩ := lines_of_readLines h
    rw [parse_of_readLines h, fitted_eq_error_iff, countP_occupied hlines,
      LoadError.tooLarge.injEq]
    constructor
    · rintro ⟨hlarge, rfl, rfl⟩
      exact ⟨⟨_, rfl⟩, rfl, hlarge, rfl⟩
    · rintro ⟨-, rfl, hlarge, rfl⟩
      exact ⟨hlarge, rfl, rfl⟩
  | error e =>
    obtain ⟨before, line, -, rfl⟩ := readLines_eq_error_iff.mp h
    rw [parse_of_readLines_error h]
    constructor
    · intro h'
      simp at h'
    · rintro ⟨⟨bytes, h'⟩, -⟩
      cases h'

end

/-- A text is refused for an invalid literal exactly when one of its lines is neither without
content nor a literal. The report then has the number of the first such line, from 1 on, and what
remains of it without its comment and the white space around, which is neither empty nor more than
one line. A text is refused for its size exactly when it has no such line and more lines with a byte
than memory has cells. -/
theorem parse_rejects (text : String) :
    let lines := text.toList.splitOn '\n'
    ((∃ number remainder, parse text = .error (.invalidLiteral number remainder)) ↔
      ∃ line ∈ lines, ¬ Valid line) ∧
    (∀ number remainder, parse text = .error (.invalidLiteral number remainder) ↔
      ∃ before line, FirstInvalid lines before line ∧ number = before.length + 1 ∧
        Remains line remainder.toList ∧ remainder ≠ "" ∧ '\n' ∉ remainder.toList) ∧
    ∀ length capacity, parse text = .error (.tooLarge length capacity) ↔
      (∀ line ∈ lines, Valid line) ∧ length = lines.countP (Occupied ·) ∧
        256 < length ∧ capacity = 256 := by
  intro lines
  refine ⟨⟨?_, ?_⟩, fun number remainder => ?_, fun _ _ => parse_eq_tooLarge_iff⟩
  · rintro ⟨number, remainder, h⟩
    obtain ⟨before, line, hfirst, -⟩ := parse_eq_invalidLiteral_iff.mp h
    exact ⟨line, hfirst.mem, hfirst.invalid⟩
  · rintro ⟨line, hmem, hinvalid⟩
    cases h : readLines 1 lines with
    | ok bytes => exact absurd (exists_readLines_iff.mp ⟨bytes, h⟩ line hmem) hinvalid
    | error e =>
      obtain ⟨before, first, -, rfl⟩ := readLines_eq_error_iff.mp h
      exact ⟨_, _, parse_of_readLines_error h⟩
  · rw [parse_eq_invalidLiteral_iff]
    constructor
    · rintro ⟨before, line, hfirst, hnumber, hremains⟩
      have hne : remainder ≠ "" := by
        rintro rfl
        exact hremains.ne_nil hfirst.invalid rfl
      have hinline : '\n' ∉ remainder.toList := fun h =>
        Text.not_mem_of_mem_splitOn hfirst.mem (hremains.subset h)
      exact ⟨before, line, hfirst, hnumber, hremains, hne, hinline⟩
    · rintro ⟨before, line, hfirst, hnumber, hremains, -⟩
      exact ⟨before, line, hfirst, hnumber, hremains⟩

example : parse "1\n# two\n\n 12 # not binary\n3\n" = .error (.invalidLiteral 4 "12") := by
  decide +kernel

end Program

end ByteMachine
