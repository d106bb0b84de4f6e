import ByteMachine.Program
import Mathlib.Data.List.Forall2
import Mathlib.Data.List.ReduceOption
import Mathlib.Data.List.TakeWhile

/-! The grammar of program text, written apart from its reader, and their agreement: line by line
the reader takes what the grammar derives, with the same value, and refuses the rest. -/

namespace ByteMachine

/-! ## Cutting and trimming -/

namespace Text

/-- The lines of a text against the pieces between its line feeds. A piece may end with the
carriage return that belongs to the end of its line, and behind the last line feed there is a piece
even where there is no line. -/
inductive Pieces : List (List Char) → List (List Char) → Prop where
  | none : Pieces [] [[]]
  | last (line : List Char) : Pieces [line] [line]
  | feed {line : List Char} {lines pieces : List (List Char)} (rest : Pieces lines pieces) :
      Pieces (line :: lines) (line :: pieces)
  | returnFeed {line : List Char} {lines pieces : List (List Char)} (rest : Pieces lines pieces) :
      Pieces (line :: lines) ((line ++ ['\r']) :: pieces)

theorem splitOn_cons_of_ne {c : Char} (h : c ≠ '\n') (rest : List Char) :
    (c :: rest).splitOn '\n' = (rest.splitOn '\n').modifyHead (c :: ·) := by
  rw [List.splitOn_cons_eq_if_modifyHead, if_neg (by simpa using h)]

theorem pieces_splitOn (text : List Char) : Pieces (lines text) (text.splitOn '\n') := by
  fun_induction lines text with
  | case1 => exact .none
  | case2 rest ih =>
    rw [List.splitOn_cons_eq_if_modifyHead, if_pos (by decide)]
    exact .feed ih
  | case3 rest ih =>
    rw [splitOn_cons_of_ne (by decide), List.splitOn_cons_eq_if_modifyHead, if_pos (by decide)]
    change Pieces _ (([] ++ ['\r']) :: rest.splitOn '\n')
    exact .returnFeed ih
  | case4 c rest hfeed _ hlines ih =>
    rw [splitOn_cons_of_ne hfeed]
    rw [hlines] at ih
    generalize rest.splitOn '\n' = pieces at ih ⊢
    cases ih
    exact .last [c]
  | case5 c rest hfeed _ line others hlines ih =>
    rw [splitOn_cons_of_ne hfeed]
    rw [hlines] at ih
    generalize rest.splitOn '\n' = pieces at ih ⊢
    cases ih with
    | last => exact .last (c :: line)
    | feed ih => exact .feed ih
    | returnFeed ih =>
      change Pieces _ (((c :: line) ++ ['\r']) :: _)
      exact .returnFeed ih

/-- A text that neither begins nor ends with white space. -/
def Tight (text : List Char) : Prop :=
  ∀ c, text.head? = some c ∨ text.getLast? = some c → ¬ isBlank c

theorem tight_of_not_blank {text : List Char} (h : ∀ c ∈ text, ¬ isBlank c) : Tight text := by
  rintro c (hc | hc)
  · exact h c (List.mem_of_head? hc)
  · exact h c (List.mem_of_getLast? hc)

theorem not_blank_of_head?_dropWhile {text : List Char} {c : Char}
    (h : (text.dropWhile isBlank).head? = some c) : ¬ isBlank c := by
  have hhead := List.head?_dropWhile_not isBlank text
  rw [h] at hhead
  simp [hhead]

theorem dropWhile_eq_self_of_head? {text : List Char}
    (h : ∀ c, text.head? = some c → ¬ isBlank c) : text.dropWhile isBlank = text := by
  cases text with
  | nil => rfl
  | cons c rest => exact List.dropWhile_cons_of_neg (h c rfl)

/-- At the end trimming takes off white space. -/
theorem dropWhile_eq_trim_append (text : List Char) :
    text.dropWhile isBlank =
      trim text ++ ((text.dropWhile isBlank).reverse.takeWhile isBlank).reverse := by
  rw [trim, ← List.reverse_append, List.takeWhile_append_dropWhile, List.reverse_reverse]

/-- A text is what trimming leaves, between white space. -/
theorem exists_eq_append_trim (text : List Char) :
    ∃ before after, (∀ c ∈ before, isBlank c) ∧ (∀ c ∈ after, isBlank c) ∧
      text = before ++ trim text ++ after := by
  refine ⟨text.takeWhile isBlank, ((text.dropWhile isBlank).reverse.takeWhile isBlank).reverse,
    fun _ => List.mem_takeWhile_imp, fun c hc => ?_, ?_⟩
  · exact List.mem_takeWhile_imp (List.mem_reverse.mp hc)
  · rw [List.append_assoc, ← dropWhile_eq_trim_append, List.takeWhile_append_dropWhile]

theorem trim_tight (text : List Char) : Tight (trim text) := by
  rintro c (hc | hc)
  · have hfirst : (text.dropWhile isBlank).head? = some c := by
      rw [dropWhile_eq_trim_append, List.head?_append, hc]
      rfl
    exact not_blank_of_head?_dropWhile hfirst
  · rw [trim, List.getLast?_reverse] at hc
    exact not_blank_of_head?_dropWhile hc

/-- Trimming finds a text again that white space was put around. -/
theorem trim_append {before body after : List Char} (hb : ∀ c ∈ before, isBlank c)
    (ha : ∀ c ∈ after, isBlank c) (h : Tight body) : trim (before ++ body ++ after) = body := by
  have hleft : (before ++ body ++ after).dropWhile isBlank = (body ++ after).dropWhile isBlank := by
    rw [List.append_assoc, List.dropWhile_append_of_pos hb]
  unfold trim
  rw [hleft]
  cases body with
  | nil => simp [List.dropWhile_eq_nil_iff.mpr ha]
  | cons c body =>
    have hlast : ∀ d, (c :: body).reverse.head? = some d → ¬ isBlank d := by
      intro d hd
      rw [List.head?_reverse] at hd
      exact h d (.inr hd)
    rw [List.cons_append, List.dropWhile_cons_of_neg (h c (.inl rfl)), ← List.cons_append,
      List.reverse_append,
      List.dropWhile_append_of_pos fun d hd => ha d (List.mem_reverse.mp hd),
      dropWhile_eq_self_of_head? hlast, List.reverse_reverse]

end Text

namespace Program

/-! ## The grammar -/

/-- One or more base-2 digits and the byte whose value they have. -/
structure Digits (text : List Char) (byte : UInt8) : Prop where
  nonempty : text ≠ []
  binary : ∀ c ∈ text, c = '0' ∨ c = '1'
  value : Nat.ofDigitChars 2 text 0 = byte.toNat

/-- Digits, which a single `+` may precede. -/
inductive Literal : List Char → UInt8 → Prop where
  | unsigned {text : List Char} {byte : UInt8} (digits : Digits text byte) : Literal text byte
  | plus {text : List Char} {byte : UInt8} (digits : Digits text byte) : Literal ('+' :: text) byte

/-- What may stand between the white space of a line: nothing or a literal. -/
inductive Content : List Char → Option UInt8 → Prop where
  | empty : Content [] none
  | literal {text : List Char} {byte : UInt8} (literal : Literal text byte) :
      Content text (some byte)

/-- What may end a line: nothing, or `#` and anything behind it. -/
inductive Comment : List Char → Prop where
  | absent : Comment []
  | present (text : List Char) : Comment ('#' :: text)

/-- What remains of a line without its comment and the white space around. -/
inductive Remains : List Char → List Char → Prop where
  | intro {before text after comment : List Char} (indented : ∀ c ∈ before, Text.isBlank c)
      (tight : Text.Tight text) (unmarked : '#' ∉ text) (spaced : ∀ c ∈ after, Text.isBlank c)
      (commented : Comment comment) : Remains (before ++ text ++ after ++ comment) text

/-- A line of a program and the byte that stands on it. -/
inductive Line : List Char → Option UInt8 → Prop where
  | intro {before text after comment : List Char} {value : Option UInt8}
      (indented : ∀ c ∈ before, Text.isBlank c) (content : Content text value)
      (spaced : ∀ c ∈ after, Text.isBlank c) (commented : Comment comment) :
      Line (before ++ text ++ after ++ comment) value

/-- The text is a row of lines, cut at the line feeds, and the bytes stand on them in this order. -/
def Denotes (text : List Char) (bytes : List UInt8) : Prop :=
  ∃ values, List.Forall₂ Line (text.splitOn '\n') values ∧ values.reduceOption = bytes

/-! ## Literals -/

theorem binaryValue_eq {text : List Char} (h : ∀ c ∈ text, c = '0' ∨ c = '1') :
    binaryValue text = Nat.ofDigitChars 2 text 0 := by
  rw [binaryValue, Nat.ofDigitChars_eq_foldl]
  refine List.foldl_ext _ _ _ fun value c hc => ?_
  obtain rfl | rfl := h c hc <;> rfl

theorem digits_iff {text : List Char} {byte : UInt8} :
    Digits text byte ↔
      text ≠ [] ∧ (∀ c ∈ text, isBinaryDigit c) ∧ binaryValue text = byte.toNat := by
  have hdigit (c : Char) : isBinaryDigit c ↔ c = '0' ∨ c = '1' := by simp [isBinaryDigit]
  simp only [hdigit]
  constructor
  · intro h
    exact ⟨h.nonempty, h.binary, (binaryValue_eq h.binary).trans h.value⟩
  · rintro ⟨hne, hbin, hval⟩
    exact ⟨hne, hbin, (binaryValue_eq hbin).symm.trans hval⟩

/-- No digit is a `+`, so a row of digits has no sign to lose. -/
theorem Digits.unsigned_eq {text : List Char} {byte : UInt8} (h : Digits text byte) :
    unsigned text = text := by
  unfold unsigned
  split
  · exact absurd (h.binary '+' List.mem_cons_self) (by decide)
  · rfl

theorem literal_iff {text : List Char} {byte : UInt8} :
    Literal text byte ↔ Digits (unsigned text) byte := by
  constructor
  · rintro (h | h)
    · rwa [h.unsigned_eq]
    · exact h
  · intro h
    unfold unsigned at h
    split at h
    · exact .plus h
    · exact .unsigned h

/-- The value of a byte is less than 256, and each such number is the value of one byte. -/
theorem value_eq_toNat_iff {value : Nat} {byte : UInt8} :
    value = byte.toNat ↔ value < 256 ∧ UInt8.ofNat value = byte := by
  constructor
  · rintro rfl
    exact ⟨byte.toNat_lt, UInt8.ofNat_toNat⟩
  · rintro ⟨hlt, rfl⟩
    exact (UInt8.toNat_ofNat_of_lt' hlt).symm

theorem literal?_eq_some_iff {text : List Char} {byte : UInt8} :
    literal? text = some byte ↔ Literal text byte := by
  rw [literal_iff, digits_iff, value_eq_toNat_iff]
  simp [literal?, and_assoc]

/-- The characters of a literal are neither white space nor the mark of a comment. -/
theorem Literal.char {text : List Char} {byte : UInt8} (h : Literal text byte) {c : Char}
    (hc : c ∈ text) : ¬ Text.isBlank c ∧ c ≠ '#' := by
  have hdigit {digits : List Char} (hd : Digits digits byte) (hmem : c ∈ digits) :
      ¬ Text.isBlank c ∧ c ≠ '#' := by
    obtain rfl | rfl := hd.binary c hmem <;> decide
  cases h with
  | unsigned hd => exact hdigit hd hc
  | plus hd =>
    obtain rfl | hmem := List.mem_cons.mp hc
    · decide
    · exact hdigit hd hmem

theorem Literal.ne_nil {text : List Char} {byte : UInt8} (h : Literal text byte) : text ≠ [] := by
  cases h with
  | unsigned hd => exact hd.nonempty
  | plus => exact List.cons_ne_nil _ _

/-! ## Lines -/

theorem Content.char {text : List Char} {value : Option UInt8} (h : Content text value) {c : Char}
    (hc : c ∈ text) : ¬ Text.isBlank c ∧ c ≠ '#' := by
  cases h with
  | empty => exact absurd hc List.not_mem_nil
  | literal h => exact h.char hc

theorem comment_dropWhile (line : List Char) : Comment (line.dropWhile (· != '#')) := by
  induction line with
  | nil => exact .absent
  | cons c rest ih =>
    by_cases hc : c = '#'
    · subst hc
      exact .present rest
    · rwa [List.dropWhile_cons_of_pos (by simpa using hc)]

theorem Comment.takeWhile {text : List Char} (h : Comment text) :
    text.takeWhile (· != '#') = [] := by
  cases h <;> rfl

/-- What the reader leaves of a line is what remains of it. -/
theorem remains_iff {line text : List Char} : Remains line text ↔ content line = text := by
  constructor
  · intro h
    cases h with
    | @intro before _ after comment hb ht hm ha hcom =>
      have hmark : ∀ c ∈ before ++ text ++ after, (c != '#') = true := by
        simp only [List.mem_append, bne_iff_ne]
        rintro c ((h | h) | h) rfl
        · exact absurd (hb _ h) (by decide)
        · exact hm h
        · exact absurd (ha _ h) (by decide)
      rw [content, List.takeWhile_append_of_pos hmark, hcom.takeWhile, List.append_nil,
        Text.trim_append hb ha ht]
  · rintro rfl
    obtain ⟨before, after, hb, ha, htext⟩ :=
      Text.exists_eq_append_trim (line.takeWhile (· != '#'))
    have hline : line = before ++ content line ++ after ++ line.dropWhile (· != '#') := by
      rw [content, ← htext, List.takeWhile_append_dropWhile]
    have hunmarked : '#' ∉ content line := by
      intro h
      have hmem : '#' ∈ line.takeWhile (· != '#') := by
        rw [htext]
        exact List.mem_append_left _ (List.mem_append_right _ h)
      exact absurd (List.mem_takeWhile_imp hmem) (by decide)
    have hremains : Remains (before ++ content line ++ after ++ line.dropWhile (· != '#'))
        (content line) :=
      .intro hb (Text.trim_tight _) hunmarked ha (comment_dropWhile line)
    rwa [← hline] at hremains

/-- A carriage return at the end of a line belongs to its white space or to its comment. -/
theorem content_concat_return (line : List Char) : content (line ++ ['\r']) = content line := by
  have hremains : Remains line (content line) := remains_iff.mpr rfl
  generalize content line = text at hremains
  refine remains_iff.mp ?_
  cases hremains with
  | @intro before _ after comment hb ht hm ha hcom =>
    cases hcom with
    | absent =>
      have hreturn : Text.isBlank '\r' = true :=
        (Text.isBlank_iff '\r').mpr ⟨0x9, 0xd, by decide, by decide, by decide⟩
      have hspaced : ∀ c ∈ after ++ ['\r'], Text.isBlank c :=
        List.forall_mem_append.mpr ⟨ha, List.forall_mem_singleton.mpr hreturn⟩
      simpa using Remains.intro hb ht hm hspaced .absent
    | present remark =>
      simpa using Remains.intro hb ht hm ha (.present (remark ++ ['\r']))

/-- A line is a line of the grammar when what its reader leaves of it is. -/
theorem line_iff {line : List Char} {value : Option UInt8} :
    Line line value ↔ Content (content line) value := by
  constructor
  · intro h
    cases h with
    | intro hb hc ha hcom =>
      have hremains := Remains.intro hb (Text.tight_of_not_blank fun c h => (hc.char h).1)
        (fun h => (hc.char h).2 rfl) ha hcom
      rwa [remains_iff.mp hremains]
  · intro h
    have hremains : Remains line (content line) := remains_iff.mpr rfl
    generalize content line = text at h hremains
    cases hremains with
    | intro hb _ _ ha hcom => exact .intro hb h ha hcom

theorem readLines_cons_of_line {line : List Char} {value : Option UInt8} (h : Line line value)
    (number : Nat) (rest : List (List Char)) :
    readLines number (line :: rest) = (readLines (number + 1) rest).map (value.toList ++ ·) := by
  have hc := line_iff.mp h
  rw [readLines]
  generalize content line = text at hc
  cases hc with
  | empty => cases readLines (number + 1) rest <;> rfl
  | literal hl =>
    simp only [literal?_eq_some_iff.mpr hl]
    exact if_neg (by simpa using hl.ne_nil)

theorem readLines_cons_of_not_line {line : List Char} (h : ∀ value, ¬ Line line value)
    (number : Nat) (rest : List (List Char)) :
    readLines number (line :: rest) =
      .error (.invalidLiteral number (String.ofList (content line))) := by
  simp only [line_iff] at h
  have hne : content line ≠ [] := fun he => h none (he ▸ .empty)
  have hnone : literal? (content line) = none :=
    Option.eq_none_iff_forall_ne_some.mpr fun byte hb =>
      h (some byte) (.literal (literal?_eq_some_iff.mp hb))
  unfold readLines
  simp only [hnone]
  exact if_neg (by simpa using hne)

theorem readLines_cons_of_content_eq {line line' : List Char} (h : content line' = content line)
    {rest rest' : List (List Char)} {number : Nat}
    (hrest : readLines (number + 1) rest' = readLines (number + 1) rest) :
    readLines number (line' :: rest') = readLines number (line :: rest) := by
  simp only [readLines, h, hrest]

/-- What the ends of lines leave behind reads as nothing. -/
theorem readLines_of_pieces {lines pieces : List (List Char)} (h : Text.Pieces lines pieces)
    (number : Nat) : readLines number lines = readLines number pieces := by
  induction h generalizing number with
  | none => rfl
  | last line => rfl
  | feed _ ih => exact readLines_cons_of_content_eq rfl (ih _)
  | @returnFeed line _ _ _ ih =>
    exact readLines_cons_of_content_eq (content_concat_return line).symm (ih _)

/-! ## Texts -/

theorem readLines_of_lines {lines : List (List Char)} {values : List (Option UInt8)}
    (h : List.Forall₂ Line lines values) (number : Nat) :
    readLines number lines = .ok values.reduceOption := by
  induction h generalizing number with
  | nil => rfl
  | @cons line value rest values hline _ ih =>
    rw [readLines_cons_of_line hline, ih]
    cases value <;> rfl

theorem lines_of_readLines {number : Nat} {lines : List (List Char)} {bytes : List UInt8}
    (h : readLines number lines = .ok bytes) :
    ∃ values, List.Forall₂ Line lines values ∧ values.reduceOption = bytes := by
  induction lines generalizing number bytes with
  | nil => exact ⟨[], .nil, Except.ok.inj h⟩
  | cons line rest ih =>
    by_cases hline : ∃ value, Line line value
    · obtain ⟨value, hline⟩ := hline
      rw [readLines_cons_of_line hline] at h
      cases htail : readLines (number + 1) rest with
      | error e => simp [htail, Except.map] at h
      | ok tail =>
        obtain ⟨values, hvalues, rfl⟩ := ih htail
        rw [htail] at h
        refine ⟨value :: values, .cons hline hvalues, ?_⟩
        rw [← Except.ok.inj h]
        cases value <;> rfl
    · rw [readLines_cons_of_not_line (not_exists.mp hline)] at h
      exact absurd h (by nofun)

theorem readLines_eq_ok_iff {text : String} {bytes : List UInt8} :
    readLines 1 (Text.lines text.toList) = .ok bytes ↔ Denotes text.toList bytes := by
  rw [readLines_of_pieces (Text.pieces_splitOn _)]
  constructor
  · exact lines_of_readLines
  · rintro ⟨values, h, rfl⟩
    exact readLines_of_lines h 1

/-- The reader accepts the texts of the grammar that fit into memory, with the bytes that the
grammar gives them. -/
theorem parse_eq_ok_iff {text : String} {bytes : List UInt8} :
    parse text = .ok bytes ↔ bytes.length ≤ memorySize ∧ Denotes text.toList bytes := by
  rw [← readLines_eq_ok_iff, parse]
  cases readLines 1 (Text.lines text.toList) with
  | error e => exact ⟨nofun, nofun⟩
  | ok read =>
    change (if read.length ≤ memorySize then _ else _) = _ ↔ _
    by_cases hfits : read.length ≤ memorySize
    · rw [if_pos hfits]
      exact ⟨fun h => ⟨Except.ok.inj h ▸ hfits, h⟩, And.right⟩
    · rw [if_neg hfits]
      exact ⟨nofun, fun ⟨hle, h⟩ => absurd (Except.ok.inj h ▸ hle) hfits⟩

example : parse "# print 6\n\t 1  # INIT\r\n\n+00110\r\n#\n00000000#HALT # 0\n  " = .ok [1, 6, 0] := by
  decide +kernel

end Program

end ByteMachine
