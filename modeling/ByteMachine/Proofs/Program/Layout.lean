import ByteMachine.Proofs.Program.Grammar

/-! Listings of a program. A layout is a row of bytes together with everything a writer may choose
about its text: indentation, signs, leading zeros, comments, rows without a byte and the ends of
lines. The text of a layout is read back as its bytes. -/

namespace ByteMachine.Program

/-! ## Layouts -/

/-- White space within a line. -/
structure Spacing where
  chars : List Char
  blank : ∀ c ∈ chars, Text.isBlank c
  inLine : '\n' ∉ chars

/-- What follows the mark of a comment, up to the end of the line. -/
structure Remark where
  chars : List Char
  inLine : '\n' ∉ chars

/-- A byte in base 2, behind a `+` or not, with any number of zeros before its first digit. -/
structure Numeral where
  plus : Bool
  zeros : Nat
  byte : UInt8

/-- One line without its end: perhaps a numeral, perhaps a remark, and white space. -/
structure Row where
  indent : Spacing
  numeral : Option Numeral
  gap : Spacing
  remark : Option Remark

inductive LineEnd where
  | lf
  | crlf

/-- The rows of a text with their ends, and the row behind the last end, which may be empty. -/
structure Layout where
  rows : List (Row × LineEnd)
  last : Row

namespace Numeral

def digits (numeral : Numeral) : List Char :=
  List.replicate numeral.zeros '0' ++ Nat.toDigits 2 numeral.byte.toNat

def text (numeral : Numeral) : List Char :=
  if numeral.plus then '+' :: numeral.digits else numeral.digits

end Numeral

namespace Row

def value (row : Row) : Option UInt8 := row.numeral.map (·.byte)

def content (row : Row) : List Char := row.numeral.elim [] (·.text)

def comment (row : Row) : List Char := row.remark.elim [] ('#' :: ·.chars)

def text (row : Row) : List Char :=
  row.indent.chars ++ row.content ++ row.gap.chars ++ row.comment

end Row

/-- What stands before the line feed of a line's end. -/
def LineEnd.carriage : LineEnd → List Char
  | lf => []
  | crlf => ['\r']

namespace Layout

def text (layout : Layout) : List Char :=
  layout.rows.flatMap (fun (row, ending) => row.text ++ ending.carriage ++ ['\n']) ++
    layout.last.text

def bytes (layout : Layout) : List UInt8 :=
  (layout.rows.map (·.1.value) ++ [layout.last.value]).reduceOption

end Layout

/-! ## Numerals -/

theorem mem_toDigits_two {n : Nat} {c : Char} (hc : c ∈ Nat.toDigits 2 n) : c = '0' ∨ c = '1' := by
  have hdigit {d : Nat} (hd : d < 2) : d.digitChar = '0' ∨ d.digitChar = '1' := by
    obtain rfl | rfl : d = 0 ∨ d = 1 := by omega
    · exact .inl rfl
    · exact .inr rfl
  induction n using Nat.strong_induction_on with
  | h n ih =>
    by_cases hn : n < 2
    · rw [Nat.toDigits_of_lt_base hn, List.mem_singleton] at hc
      exact hc ▸ hdigit hn
    · rw [Nat.toDigits_of_base_le (by decide) (by omega), List.mem_append,
        List.mem_singleton] at hc
      obtain hc | rfl := hc
      · exact ih (n / 2) (by omega) hc
      · exact hdigit (Nat.mod_lt _ (by decide))

namespace Numeral

theorem digits_spec (numeral : Numeral) : Digits numeral.digits numeral.byte where
  nonempty := by simp [digits, Nat.toDigits_ne_nil]
  binary c hc := by
    obtain hc | hc := List.mem_append.mp hc
    · exact .inl (List.eq_of_mem_replicate hc)
    · exact mem_toDigits_two hc
  value := by
    rw [digits, Nat.ofDigitChars_append, Nat.ofDigitChars_replicate_zero, Nat.mul_zero]
    exact Nat.ofDigitChars_toDigits (by decide) (by decide)

theorem text_spec (numeral : Numeral) : Literal numeral.text numeral.byte := by
  unfold text
  split
  · exact .plus numeral.digits_spec
  · exact .unsigned numeral.digits_spec

end Numeral

/-! ## Rows -/

namespace Row

theorem content_spec (row : Row) : Content row.content row.value := by
  unfold content value
  cases row.numeral with
  | none => exact .empty
  | some numeral => exact .literal numeral.text_spec

/-- A row is a line of the grammar, also with the carriage return of its end: that is white space
or a part of the remark. -/
theorem text_spec (row : Row) (ending : LineEnd) :
    Line (row.text ++ ending.carriage) row.value := by
  have hreturn : ∀ c ∈ ending.carriage, Text.isBlank c := by
    cases ending with
    | lf => exact fun c hc => absurd hc List.not_mem_nil
    | crlf =>
      intro c hc
      obtain rfl := List.mem_singleton.mp hc
      decide
  unfold text comment
  cases row.remark with
  | none =>
    have hgap : ∀ c ∈ row.gap.chars ++ ending.carriage, Text.isBlank c := by
      intro c hc
      exact (List.mem_append.mp hc).elim (row.gap.blank c) (hreturn c)
    simpa using Line.intro row.indent.blank row.content_spec hgap .absent
  | some remark =>
    simpa using Line.intro row.indent.blank row.content_spec row.gap.blank
      (.present (remark.chars ++ ending.carriage))

theorem text_inLine (row : Row) (ending : LineEnd) : '\n' ∉ row.text ++ ending.carriage := by
  have hcontent : '\n' ∉ row.content := fun h => (row.content_spec.char h).1 (by decide)
  have hcomment : '\n' ∉ row.comment := by
    unfold comment
    cases row.remark with
    | none => exact List.not_mem_nil
    | some remark => simpa using remark.inLine
  have hreturn : '\n' ∉ ending.carriage := by cases ending <;> decide
  simp [text, row.indent.inLine, row.gap.inLine, hcontent, hcomment, hreturn]

end Row

/-! ## Texts -/

theorem splitOn_rows {lines : List (List Char)} {last : List Char} (h : ∀ line ∈ lines, '\n' ∉ line)
    (hlast : '\n' ∉ last) :
    (lines.flatMap (· ++ ['\n']) ++ last).splitOn '\n' = lines ++ [last] := by
  induction lines with
  | nil => exact List.splitOn_eq_singleton hlast
  | cons line rest ih =>
    rw [List.flatMap_cons, List.append_assoc, List.append_assoc, List.singleton_append,
      List.splitOn_append_cons_self_of_not_mem (h line List.mem_cons_self),
      ih fun line hline => h line (List.mem_cons_of_mem _ hline), List.cons_append]

theorem Layout.denotes (layout : Layout) : Denotes layout.text layout.bytes := by
  let lines := layout.rows.map fun (row, ending) => row.text ++ ending.carriage
  have htext : layout.text = lines.flatMap (· ++ ['\n']) ++ layout.last.text := by
    simp [text, lines, List.flatMap_map]
  have hlast : layout.last.text = layout.last.text ++ LineEnd.lf.carriage :=
    (List.append_nil _).symm
  have hcut : layout.text.splitOn '\n' = lines ++ [layout.last.text] := by
    rw [htext]
    refine splitOn_rows ?_ (hlast ▸ layout.last.text_inLine .lf)
    simp only [lines, List.forall_mem_map]
    exact fun row _ => row.1.text_inLine row.2
  refine ⟨_, ?_, rfl⟩
  rw [hcut]
  refine List.rel_append ?_ (.cons (hlast ▸ layout.last.text_spec .lf) .nil)
  rw [List.forall₂_map_left_iff, List.forall₂_map_right_iff, List.forall₂_same]
  exact fun row _ => row.1.text_spec row.2

/-- The reader takes exactly the texts of the grammar, with the bytes they denote, as long as
these fit into memory; in particular it gives back every row of bytes that fits, however it is
laid out. -/
theorem parse_accepts_grammar :
    (∀ (text : String) (bytes : List UInt8),
      parse text = .ok bytes ↔ bytes.length ≤ 256 ∧ Denotes text.toList bytes) ∧
    ∀ (bytes : List UInt8) (layout : Layout), bytes.length ≤ 256 → layout.bytes = bytes →
      parse (String.ofList layout.text) = .ok bytes := by
  refine ⟨fun text bytes => parse_eq_ok_iff, ?_⟩
  rintro bytes layout hfits rfl
  refine parse_eq_ok_iff.mpr ⟨hfits, ?_⟩
  rw [String.toList_ofList]
  exact layout.denotes

end ByteMachine.Program
