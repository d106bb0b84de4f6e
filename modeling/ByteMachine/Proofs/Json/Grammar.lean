import ByteMachine.Json.Skip
import Mathlib.Data.List.TakeWhile

/-! The grammar of JSON text, written apart from its readers, and the readers of its smallest parts:
blanks, strings and numbers are read up to where they end and not beyond. -/

namespace ByteMachine.Json

/-! ## The grammar -/

/-- The characters that may stand between tokens. -/
def blanks : List Char := [' ', '\t', '\n', '\r']

def Blanks (text : List Char) : Prop := ∀ c ∈ text, c ∈ blanks

/-- What may follow a value. -/
def Delimited (rest : List Char) : Prop :=
  ∀ c ∈ rest.head?, c ∈ blanks ∨ c ∈ [',', ']', '}']

def HexDigit (c : Char) (n : Nat) : Prop :=
  n < 16 ∧ (c = Nat.digitChar n ∨ c = (Nat.digitChar n).toUpper)

/-- Four hexadecimal digits and the number they stand for. -/
inductive HexUnit : List Char → Nat → Prop
  | digits {a b c d : Char} {i j k l : Nat} (ha : HexDigit a i) (hb : HexDigit b j)
      (hc : HexDigit c k) (hd : HexDigit d l) :
      HexUnit [a, b, c, d] (((i * 16 + j) * 16 + k) * 16 + l)

/-- The letters that may follow a backslash, and the characters they stand for. -/
def escapes : List (Char × Char) :=
  [('"', '"'), ('\\', '\\'), ('/', '/'), ('b', '\x08'), ('f', '\x0c'), ('n', '\n'), ('r', '\r'),
   ('t', '\t')]

/-- A character that may stand in a string as it is. -/
def IsPlain (c : Char) : Prop := 0x20 ≤ c.toNat ∧ c ≠ '"' ∧ c ≠ '\\'

/-- The texts that spell a string between its quotes. A character stands as it is, behind a
backslash, or as its one or two code units of UTF-16 in hexadecimal. -/
inductive Spells : List Char → List Char → Prop
  | nil : Spells [] []
  | plain {c : Char} {name text : List Char} (hc : IsPlain c) (h : Spells name text) :
      Spells (c :: name) (c :: text)
  | escape {letter c : Char} {name text : List Char} (hc : (letter, c) ∈ escapes)
      (h : Spells name text) : Spells (c :: name) ('\\' :: letter :: text)
  | unit {c : Char} {digits name text : List Char} (hc : HexUnit digits c.toNat)
      (h : Spells name text) : Spells (c :: name) ('\\' :: 'u' :: digits ++ text)
  | pair {c : Char} {leading trailing name text : List Char} (hc : 0x10000 ≤ c.toNat)
      (hl : HexUnit leading (0xd800 + (c.toNat - 0x10000) / 0x400))
      (ht : HexUnit trailing (0xdc00 + (c.toNat - 0x10000) % 0x400)) (h : Spells name text) :
      Spells (c :: name) ('\\' :: 'u' :: leading ++ '\\' :: 'u' :: trailing ++ text)

/-- The texts that may stand between quotes. Code units need not form characters. -/
inductive StringBody : List Char → Prop
  | nil : StringBody []
  | plain {c : Char} {text : List Char} (hc : IsPlain c) (h : StringBody text) :
      StringBody (c :: text)
  | escape {letter c : Char} {text : List Char} (hc : (letter, c) ∈ escapes)
      (h : StringBody text) : StringBody ('\\' :: letter :: text)
  | unit {digits text : List Char} {n : Nat} (hn : HexUnit digits n) (h : StringBody text) :
      StringBody ('\\' :: 'u' :: digits ++ text)

def Digits (text : List Char) : Prop := text ≠ [] ∧ ∀ c ∈ text, c.isDigit

/-- The digits before the point: no zero stands before others. -/
def Whole (text : List Char) : Prop := text = ['0'] ∨ Digits text ∧ text.head? ≠ some '0'

def Fraction (text : List Char) : Prop := text = [] ∨ ∃ digits, Digits digits ∧ text = '.' :: digits

def ExponentText (text : List Char) : Prop :=
  text = [] ∨ ∃ e sign digits, e ∈ ['e', 'E'] ∧ sign ∈ [[], ['+'], ['-']] ∧ Digits digits ∧
    text = e :: (sign ++ digits)

/-- The texts of numbers, of any size. -/
inductive NumberText : List Char → Prop
  | parts {sign whole fraction exponent : List Char} (hsign : sign ∈ [[], ['-']])
      (hwhole : Whole whole) (hfraction : Fraction fraction) (hexponent : ExponentText exponent) :
      NumberText (sign ++ whole ++ fraction ++ exponent)

/-- The two kinds of values that hold others. -/
inductive Container where
  | array
  | object

namespace Container

def opening : Container → Char
  | array => '['
  | object => '{'

def closing : Container → Char
  | array => ']'
  | object => '}'

end Container

/-- The parts of a text that are defined by one another. -/
inductive Part where
  | value
  /-- An element or a member, with the blanks around it. -/
  | item (container : Container)
  /-- One or more of them with commas between. -/
  | items (container : Container)

/-- The text of a value, or of a part of one, at any depth. -/
inductive WellFormed : Part → List Char → Prop
  | null : WellFormed .value "null".toList
  | true : WellFormed .value "true".toList
  | false : WellFormed .value "false".toList
  | string {body : List Char} (h : StringBody body) : WellFormed .value ('"' :: body ++ ['"'])
  | number {text : List Char} (h : NumberText text) : WellFormed .value text
  | empty {text : List Char} (container : Container) (h : Blanks text) :
      WellFormed .value (container.opening :: text ++ [container.closing])
  | filled {container : Container} {text : List Char} (h : WellFormed (.items container) text) :
      WellFormed .value (container.opening :: text ++ [container.closing])
  | element {before value after : List Char} (hb : Blanks before) (h : WellFormed .value value)
      (ha : Blanks after) : WellFormed (.item .array) (before ++ value ++ after)
  | member {before name middle gap value after : List Char} (hb : Blanks before)
      (hname : StringBody name) (hm : Blanks middle) (hg : Blanks gap)
      (h : WellFormed .value value) (ha : Blanks after) :
      WellFormed (.item .object)
        (before ++ '"' :: name ++ '"' :: middle ++ ':' :: gap ++ value ++ after)
  | last {container : Container} {text : List Char} (h : WellFormed (.item container) text) :
      WellFormed (.items container) text
  | more {container : Container} {text others : List Char}
      (h : WellFormed (.item container) text) (ho : WellFormed (.items container) others) :
      WellFormed (.items container) (text ++ ',' :: others)

/-! ## Blanks -/

theorem blanks_nil : Blanks [] := fun _ h => absurd h List.not_mem_nil

theorem isBlank_iff {c : Char} : isBlank c = true ↔ c ∈ blanks := by
  simp [isBlank, blanks, or_assoc]

theorem skipBlanks_append {before : List Char} (hb : Blanks before) (text : List Char) :
    skipBlanks (before ++ text) = skipBlanks text :=
  List.dropWhile_append_of_pos fun c hc => isBlank_iff.mpr (hb c hc)

theorem skipBlanks_cons {c : Char} (hc : c ∉ blanks) (text : List Char) :
    skipBlanks (c :: text) = c :: text :=
  List.dropWhile_cons_of_neg fun h => hc (isBlank_iff.mp h)

theorem skipBlanks_skipBlanks (text : List Char) :
    skipBlanks (skipBlanks text) = skipBlanks text := by
  induction text with
  | nil => rfl
  | cons c text ih =>
    by_cases hc : isBlank c
    · have hskip : skipBlanks (c :: text) = skipBlanks text := List.dropWhile_cons_of_pos hc
      rw [hskip, ih]
    · have hkeep : skipBlanks (c :: text) = c :: text := List.dropWhile_cons_of_neg hc
      rw [hkeep, hkeep]

theorem delimited_append {before rest : List Char} (hb : Blanks before) (h : Delimited rest) :
    Delimited (before ++ rest) := by
  cases before with
  | nil => exact h
  | cons c before =>
    intro d hd
    obtain rfl : c = d := by simpa using hd
    exact .inl (hb c List.mem_cons_self)

theorem delimited_cons {c : Char} (hc : c ∈ [',', ']', '}']) (rest : List Char) :
    Delimited (c :: rest) := by
  intro d hd
  obtain rfl : c = d := by simpa using hd
  exact .inr hc

theorem keyword_append (word rest : List Char) : keyword word (word ++ rest) = .ok rest := by
  induction word with
  | nil => rfl
  | cons c word ih => rw [List.cons_append, keyword, if_pos rfl, ih]

/-! ## Strings -/

theorem hexDigit?_of_hexDigit {c : Char} {n : Nat} (h : HexDigit c n) : hexDigit? c = some n := by
  obtain ⟨hn, hc⟩ := h
  have hlower : ∀ n < 16, hexDigit? (Nat.digitChar n) = some n := by decide
  have hupper : ∀ n < 16, hexDigit? (Nat.digitChar n).toUpper = some n := by decide
  rcases hc with rfl | rfl
  · exact hlower n hn
  · exact hupper n hn

theorem hexDigit_digitChar (n : Nat) (hn : n < 16) : HexDigit (Nat.digitChar n) n :=
  ⟨hn, .inl rfl⟩

theorem hexUnit_elim {digits : List Char} {n : Nat} (h : HexUnit digits n) :
    ∃ a b c d, digits = [a, b, c, d] ∧ codeUnit? a b c d = some n ∧ n < 0x10000 := by
  obtain @⟨a, b, c, d, i, j, k, l, ha, hb, hc, hd⟩ := h
  refine ⟨a, b, c, d, rfl, ?_, ?_⟩
  · rw [codeUnit?, hexDigit?_of_hexDigit ha, hexDigit?_of_hexDigit hb, hexDigit?_of_hexDigit hc,
      hexDigit?_of_hexDigit hd]
    rfl
  · have hi := ha.1
    have hj := hb.1
    have hk := hc.1
    have hl := hd.1
    omega

theorem plainEscape?_of_mem {letter c : Char} (h : (letter, c) ∈ escapes) :
    plainEscape? letter = some c ∧ letter ≠ 'u' := by
  simp only [escapes, List.mem_cons, Prod.mk.injEq, List.not_mem_nil, or_false] at h
  rcases h with h | h | h | h | h | h | h | h <;> obtain ⟨rfl, rfl⟩ := h <;> decide

/-- A string of plain characters spells itself. -/
theorem spells_self {name : List Char} (h : ∀ c ∈ name, IsPlain c) : Spells name name := by
  induction name with
  | nil => exact .nil
  | cons c name ih =>
    rw [List.forall_mem_cons] at h
    exact .plain h.1 (ih h.2)

theorem isControl_of_isPlain {c : Char} (h : IsPlain c) : isControl c = false :=
  decide_eq_false (Nat.not_lt.mpr h.1)

theorem readString_plain {c : Char} (hc : IsPlain c) (text : List Char) :
    readString none (c :: text) =
      (readString none text).map fun (name, rest) => (c :: name, rest) := by
  have hcontrol := isControl_of_isPlain hc
  obtain ⟨-, hq, hb⟩ := hc
  simp [readString, hb, hq, hcontrol]

theorem readString_escape {letter c : Char} (hc : (letter, c) ∈ escapes) (text : List Char) :
    readString none ('\\' :: letter :: text) =
      (readString none text).map fun (name, rest) => (c :: name, rest) := by
  obtain ⟨hplain, hu⟩ := plainEscape?_of_mem hc
  simp [readString, hplain]

/-- A code unit that is a character. It is no surrogate, since no character is. -/
theorem readString_unit {c : Char} {digits : List Char} (hc : HexUnit digits c.toNat)
    (text : List Char) :
    readString none ('\\' :: 'u' :: digits ++ text) =
      (readString none text).map fun (name, rest) => (c :: name, rest) := by
  obtain ⟨i, j, k, l, rfl, hunit, -⟩ := hexUnit_elim hc
  have hvalid : c.toNat < 0xd800 ∨ 0xdfff < c.toNat ∧ c.toNat < 0x110000 := c.valid
  have htrailing : isTrailing c.toNat = false := by
    simp only [isTrailing, Bool.and_eq_false_iff, decide_eq_false_iff_not]
    omega
  have hleading : isLeading c.toNat = false := by
    simp only [isLeading, Bool.and_eq_false_iff, decide_eq_false_iff_not]
    omega
  simp [readString, hunit, htrailing, hleading, Char.ofNat_toNat]

theorem readString_pair {c : Char} {leading trailing : List Char} (hc : 0x10000 ≤ c.toNat)
    (hl : HexUnit leading (0xd800 + (c.toNat - 0x10000) / 0x400))
    (ht : HexUnit trailing (0xdc00 + (c.toNat - 0x10000) % 0x400)) (text : List Char) :
    readString none ('\\' :: 'u' :: leading ++ '\\' :: 'u' :: trailing ++ text) =
      (readString none text).map fun (name, rest) => (c :: name, rest) := by
  obtain ⟨i, j, k, l, rfl, hlead, -⟩ := hexUnit_elim hl
  obtain ⟨i', j', k', l', rfl, htrail, -⟩ := hexUnit_elim ht
  have hvalid : c.toNat < 0xd800 ∨ 0xdfff < c.toNat ∧ c.toNat < 0x110000 := c.valid
  have hfirst : isTrailing (0xd800 + (c.toNat - 0x10000) / 0x400) = false := by
    simp only [isTrailing, Bool.and_eq_false_iff, decide_eq_false_iff_not]
    omega
  have hleading : isLeading (0xd800 + (c.toNat - 0x10000) / 0x400) = true := by
    simp only [isLeading, Bool.and_eq_true, decide_eq_true_eq]
    omega
  have htrailing : isTrailing (0xdc00 + (c.toNat - 0x10000) % 0x400) = true := by
    simp only [isTrailing, Bool.and_eq_true, decide_eq_true_eq]
    omega
  have hchar : pairChar (0xd800 + (c.toNat - 0x10000) / 0x400)
      (0xdc00 + (c.toNat - 0x10000) % 0x400) = c := by
    rw [pairChar, show 0x10000 + (0xd800 + (c.toNat - 0x10000) / 0x400 - 0xd800) * 0x400 +
      (0xdc00 + (c.toNat - 0x10000) % 0x400 - 0xdc00) = c.toNat by omega, Char.ofNat_toNat]
  simp [readString, hlead, htrail, hfirst, hleading, htrailing, hchar]

theorem readString_spells {name text : List Char} (h : Spells name text) (rest : List Char) :
    readString none (text ++ '"' :: rest) = .ok (name, rest) := by
  induction h with
  | nil => rfl
  | plain hc h ih =>
    rw [List.cons_append, readString_plain hc, ih]
    rfl
  | escape hc h ih =>
    rw [List.cons_append, List.cons_append, readString_escape hc, ih]
    rfl
  | unit hc h ih =>
    rw [List.append_assoc, readString_unit hc, ih]
    rfl
  | pair hc hl ht h ih =>
    rw [List.append_assoc, readString_pair hc hl ht, ih]
    rfl

theorem skipString_body {text : List Char} (h : StringBody text) (rest : List Char) :
    skipString (text ++ '"' :: rest) = .ok rest := by
  induction h with
  | nil => rfl
  | plain hc h ih =>
    have hcontrol := isControl_of_isPlain hc
    obtain ⟨-, hq, hb⟩ := hc
    simpa [skipString, hb, hq, hcontrol] using ih
  | escape hc h ih =>
    obtain ⟨hplain, hu⟩ := plainEscape?_of_mem hc
    simpa [skipString, hplain, hu] using ih
  | unit hn h ih =>
    obtain ⟨i, j, k, l, rfl, hunit, -⟩ := hexUnit_elim hn
    simpa [skipString, hunit] using ih

/-! ## Numbers -/

namespace Numeral

theorem isDigit_eq (c : Char) : isDigit c = c.isDigit := rfl

/-- What ends a run of digits: anything but another one. -/
def EndsDigits (rest : List Char) : Prop := ∀ c ∈ rest.head?, c.isDigit = false

/-- What ends a number, whichever parts it has. -/
def EndsNumber (rest : List Char) : Prop :=
  ∀ c ∈ rest.head?, c.isDigit = false ∧ c ≠ '.' ∧ c ≠ 'e' ∧ c ≠ 'E'

theorem endsNumber_of_delimited {rest : List Char} (h : Delimited rest) : EndsNumber rest := by
  have hall : ∀ c ∈ blanks ++ [',', ']', '}'],
      c.isDigit = false ∧ c ≠ '.' ∧ c ≠ 'e' ∧ c ≠ 'E' := by simp [blanks]
  intro c hc
  exact hall c (List.mem_append.mpr (h c hc))

theorem endsDigits_of_endsNumber {rest : List Char} (h : EndsNumber rest) : EndsDigits rest :=
  fun c hc => (h c hc).1

/-- Behind the fraction comes an exponent or the end. -/
theorem head_exponent {exponent rest : List Char} (h : ExponentText exponent)
    (hrest : EndsNumber rest) : ∀ c ∈ (exponent ++ rest).head?, c.isDigit = false ∧ c ≠ '.' := by
  rcases h with rfl | ⟨e, sign, digits, he, -, -, rfl⟩
  · exact fun c hc => ⟨(hrest c hc).1, (hrest c hc).2.1⟩
  · have hall : ∀ c ∈ ['e', 'E'], c.isDigit = false ∧ c ≠ '.' := by simp
    intro c hc
    obtain rfl : e = c := by simpa using hc
    exact hall e he

theorem endsDigits_fraction {fraction rest : List Char} (h : Fraction fraction)
    (hrest : EndsDigits rest) : EndsDigits (fraction ++ rest) := by
  rcases h with rfl | ⟨digits, -, rfl⟩
  · exact hrest
  · intro c hc
    obtain rfl : '.' = c := by simpa using hc
    decide

theorem digits_of_whole {whole : List Char} (h : Whole whole) : Digits whole := by
  rcases h with rfl | ⟨h, -⟩
  · exact ⟨by simp, by simp⟩
  · exact h

theorem exists_cons_of_digits {digits : List Char} (h : Digits digits) :
    ∃ c more, digits = c :: more ∧ c.isDigit ∧ c ≠ '+' ∧ c ≠ '-' := by
  obtain ⟨hne, hall⟩ := h
  cases digits with
  | nil => exact absurd rfl hne
  | cons c more =>
    have hc := hall c List.mem_cons_self
    refine ⟨c, more, rfl, hc, ?_, ?_⟩ <;> rintro rfl <;> exact absurd hc (by decide)

theorem readDigits_append (atEnd : Failure) {digits rest : List Char} (h : Digits digits)
    (hrest : EndsDigits rest) : readDigits atEnd (digits ++ rest) = .ok (digits, rest) := by
  obtain ⟨hne, hdigits⟩ := h
  have htake : rest.takeWhile isDigit = [] := by
    cases rest with
    | nil => rfl
    | cons c rest => exact List.takeWhile_cons_of_neg (by simp [isDigit_eq, hrest c rfl])
  have hdrop : rest.dropWhile isDigit = rest := by
    cases rest with
    | nil => rfl
    | cons c rest => exact List.dropWhile_cons_of_neg (by simp [isDigit_eq, hrest c rfl])
  cases digits with
  | nil => exact absurd rfl hne
  | cons c digits =>
    have hall : ∀ d ∈ c :: digits, isDigit d = true := hdigits
    rw [List.cons_append, readDigits, if_pos (hall c List.mem_cons_self), ← List.cons_append,
      List.takeWhile_append_of_pos hall, List.dropWhile_append_of_pos hall, htake, hdrop,
      List.append_nil]

theorem readWhole_append (atEnd : Failure) {whole rest : List Char} (h : Whole whole)
    (hrest : EndsDigits rest) : readWhole atEnd (whole ++ rest) = .ok (whole, rest) := by
  rw [readWhole, readDigits_append atEnd (digits_of_whole h) hrest]
  rcases h with rfl | ⟨-, hzero⟩
  · rfl
  · cases whole with
    | nil => rfl
    | cons c whole =>
      have hc : c ≠ '0' := fun hc => hzero (congrArg some hc)
      simp [bind, Except.bind, hc]

theorem readFraction_none (atEnd : Failure) {rest : List Char}
    (hrest : ∀ c ∈ rest.head?, c ≠ '.') : readFraction atEnd rest = .ok ([], rest) := by
  cases rest with
  | nil => rfl
  | cons c rest => simp [readFraction, hrest c rfl]

theorem readFraction_append (atEnd : Failure) {fraction rest : List Char} (h : Fraction fraction)
    (hrest : ∀ c ∈ rest.head?, c.isDigit = false ∧ c ≠ '.') :
    ∃ digits, readFraction atEnd (fraction ++ rest) = .ok (digits, rest) := by
  rcases h with rfl | ⟨digits, hdigits, rfl⟩
  · exact ⟨[], readFraction_none atEnd fun c hc => (hrest c hc).2⟩
  · exact ⟨digits, readDigits_append atEnd hdigits fun c hc => (hrest c hc).1⟩

theorem readExponentDigits_append (atEnd : Failure) (negative : Bool) {digits rest : List Char}
    (h : Digits digits) (hrest : EndsDigits rest) :
    readExponentDigits atEnd negative (digits ++ rest) =
      .ok (some ⟨negative, digits⟩, rest) := by
  rw [readExponentDigits, readDigits_append atEnd h hrest]
  rfl

theorem readExponent_none (atEnd : Failure) {rest : List Char} (hrest : EndsNumber rest) :
    readExponent atEnd rest = .ok (none, rest) := by
  cases rest with
  | nil => rfl
  | cons c rest =>
    obtain ⟨-, -, he, hE⟩ := hrest c rfl
    exact if_neg (not_or.mpr ⟨he, hE⟩)

theorem readExponent_append (atEnd : Failure) {exponent rest : List Char}
    (h : ExponentText exponent) (hrest : EndsNumber rest) :
    ∃ e, readExponent atEnd (exponent ++ rest) = .ok (e, rest) := by
  rcases h with rfl | ⟨e, sign, digits, he, hsign, hdigits, rfl⟩
  · exact ⟨none, readExponent_none atEnd hrest⟩
  · have he : e = 'e' ∨ e = 'E' := by simpa using he
    have hread (negative : Bool) := readExponentDigits_append atEnd negative hdigits
      (endsDigits_of_endsNumber hrest)
    have hsign : sign = [] ∨ sign = ['+'] ∨ sign = ['-'] := by simpa using hsign
    rcases hsign with rfl | rfl | rfl
    · refine ⟨some ⟨false, digits⟩, (if_pos he).trans ?_⟩
      obtain ⟨c, more, rfl, -, hplus, hminus⟩ := exists_cons_of_digits hdigits
      rw [← hread false]
      simp [hplus, hminus]
    · exact ⟨_, (if_pos he).trans (hread false)⟩
    · exact ⟨_, (if_pos he).trans (hread true)⟩

/-- A number is read up to where it ends. -/
theorem read_number (atEnd : Failure) {text rest : List Char} (h : NumberText text)
    (hrest : EndsNumber rest) : ∃ numeral, read atEnd (text ++ rest) = .ok (numeral, rest) := by
  obtain @⟨sign, whole, fraction, exponent, hsign, hwhole, hfraction, hexponent⟩ := h
  have hhead := head_exponent hexponent hrest
  obtain ⟨e, hexponentRead⟩ := readExponent_append atEnd hexponent hrest
  obtain ⟨f, hfractionRead⟩ := readFraction_append atEnd hfraction hhead
  have hwholeRead := readWhole_append atEnd hwhole
    (endsDigits_fraction hfraction fun c hc => (hhead c hc).1)
  have hsign : sign = [] ∨ sign = ['-'] := by simpa using hsign
  rcases hsign with rfl | rfl
  · refine ⟨⟨false, whole, f, e⟩, ?_⟩
    obtain ⟨c, more, rfl, -, -, hminus⟩ := exists_cons_of_digits (digits_of_whole hwhole)
    simp only [List.cons_append, List.nil_append, List.append_assoc] at hwholeRead ⊢
    simp [read, hminus, hwholeRead, hfractionRead, hexponentRead, bind, Except.bind, pure,
      Except.pure]
  · refine ⟨⟨true, whole, f, e⟩, ?_⟩
    simp [read, hwholeRead, hfractionRead, hexponentRead, bind, Except.bind, pure, Except.pure]

theorem exists_cons_of_number {text : List Char} (h : NumberText text) :
    ∃ c more, text = c :: more ∧ (c = '-' || isDigit c) = true := by
  obtain @⟨sign, whole, fraction, exponent, hsign, hwhole, -, -⟩ := h
  have hsign : sign = [] ∨ sign = ['-'] := by simpa using hsign
  rcases hsign with rfl | rfl
  · obtain ⟨c, more, rfl, hc, -, -⟩ := exists_cons_of_digits (digits_of_whole hwhole)
    exact ⟨c, _, rfl, Bool.or_eq_true_iff.mpr (.inr hc)⟩
  · exact ⟨'-', _, rfl, rfl⟩

end Numeral

/-- A number starts with no blank, and as no other kind of value does. -/
theorem not_mem_of_startsNumber {c : Char} (h : (c = '-' || isDigit c) = true) :
    c ∉ blanks ∧ c ∉ ['n', 't', 'f', '"', '[', '{'] := by
  have hall : ∀ c ∈ blanks ++ ['n', 't', 'f', '"', '[', '{'],
      (decide (c = '-') || isDigit c) = false := by simp [blanks, isDigit]
  constructor
  · intro hc
    rw [hall c (List.mem_append_left _ hc)] at h
    cases h
  · intro hc
    rw [hall c (List.mem_append_right _ hc)] at h
    cases h

end ByteMachine.Json
