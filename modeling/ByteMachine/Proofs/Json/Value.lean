import ByteMachine.Proofs.Json.Numeral

/-! Single values as they are written, and their readers: every reader stops where its value ends,
and it finds the value behind any blanks. -/

namespace ByteMachine.Json

/-- A reader that passes over blanks, refuses what ends an array, and reads values from their
texts. -/
structure Reads {α : Type} (read : Reader α) (Writes : α → List Char → Prop) : Prop where
  pastBlanks : ∀ text, read (skipBlanks text) = read text
  nil : ∀ result, read [] ≠ .ok result
  closing : ∀ rest result, read (']' :: rest) ≠ .ok result
  written : ∀ {value text rest}, Writes value text → Delimited rest →
    read (text ++ rest) = .ok (value, rest)

def WritesBool (b : Bool) (text : List Char) : Prop :=
  text = (if b then "true" else "false").toList

/-- The decimal digits of a number. -/
def WritesNatural (n : UInt64) (text : List Char) : Prop := text = Nat.toDigits 10 n.toNat

/-- A value, or `null` for none. -/
def WritesOptional {α : Type} (Writes : α → List Char → Prop) : Option α → List Char → Prop
  | none, text => text = "null".toList
  | some value, text => Writes value text

theorem reads_bool : Reads readBool WritesBool where
  pastBlanks text := by
    unfold readBool
    rw [skipBlanks_skipBlanks]
  nil result := by simp [readBool, skipBlanks]
  closing rest result := by simp [readBool, skipBlanks_cons, blanks]
  written {b text rest} htext _ := by
    cases b with
    | true =>
      have hword : keyword ['r', 'u', 'e'] ('r' :: 'u' :: 'e' :: rest) = .ok rest :=
        keyword_append ['r', 'u', 'e'] rest
      rw [htext]
      simp [readBool, skipBlanks_cons, blanks, hword, Except.map]
    | false =>
      have hword : keyword ['a', 'l', 's', 'e'] ('a' :: 'l' :: 's' :: 'e' :: rest) = .ok rest :=
        keyword_append ['a', 'l', 's', 'e'] rest
      rw [htext]
      simp [readBool, skipBlanks_cons, blanks, hword, Except.map]

theorem readNatural_cons {c : Char} (hc : (c = '-' || isDigit c) = true) (text : List Char) :
    readNatural (c :: text) = (do
      let (numeral, rest) ← readNumeral (c :: text)
      match numeral.natural? with
      | some n => .ok (n, rest)
      | none => .error .mismatch) := by
  rw [readNatural, skipBlanks_cons (not_mem_of_startsNumber hc).1]
  exact if_pos hc

theorem reads_natural : Reads readNatural WritesNatural where
  pastBlanks text := by
    unfold readNatural
    rw [skipBlanks_skipBlanks]
  nil result := by simp [readNatural, skipBlanks]
  closing rest result := by simp [readNatural, skipBlanks_cons, blanks, isDigit]
  written {n text rest} htext hrest := by
    have hread := readNumeral_decimal n hrest
    obtain ⟨c, more, hdigits, hc, -, -⟩ :=
      Numeral.exists_cons_of_digits (Numeral.digits_toDigits n.toNat)
    rw [htext]
    rw [hdigits, List.cons_append] at hread ⊢
    rw [readNatural_cons (Bool.or_eq_true_iff.mpr (.inr hc)), hread]
    simp only [bind, Except.bind, Numeral.natural?_decimal]

theorem readNatural_null (rest : List Char) (result : UInt64 × List Char) :
    readNatural ('n' :: rest) ≠ .ok result := by
  simp [readNatural, skipBlanks_cons, blanks, isDigit]

section Optional

variable {α : Type} {read : Reader α} {Writes : α → List Char → Prop}

/-- Where a value stands, `null` does not. -/
theorem readOptional_some (h : Reads read Writes)
    (hnull : ∀ rest result, read ('n' :: rest) ≠ .ok result) {value : α} {text rest : List Char}
    (hread : read text = .ok (value, rest)) :
    readOptional read text = .ok (some value, rest) := by
  rw [← h.pastBlanks] at hread
  unfold readOptional
  split
  · rename_i others hothers
    rw [hothers] at hread
    exact absurd hread (hnull others _)
  · rw [hread]
    rfl

theorem readOptional_error (h : Reads read Writes) {text : List Char}
    (hn : ∀ rest, skipBlanks text ≠ 'n' :: rest) (hread : ∀ result, read text ≠ .ok result)
    (result : Option α × List Char) : readOptional read text ≠ .ok result := by
  intro hok
  unfold readOptional at hok
  split at hok
  · rename_i rest hrest
    exact hn rest hrest
  · rw [h.pastBlanks] at hok
    cases hvalue : read text with
    | error failure =>
      rw [hvalue] at hok
      cases hok
    | ok value => exact hread value hvalue

theorem reads_optional (h : Reads read Writes)
    (hnull : ∀ rest result, read ('n' :: rest) ≠ .ok result) :
    Reads (readOptional read) (WritesOptional Writes) where
  pastBlanks text := by
    unfold readOptional
    rw [skipBlanks_skipBlanks]
  nil := readOptional_error h (by simp [skipBlanks]) h.nil
  closing rest := readOptional_error h (by simp [skipBlanks_cons, blanks]) (h.closing rest)
  written {value text rest} htext hrest := by
    cases value with
    | none =>
      have hword : keyword ['u', 'l', 'l'] ('u' :: 'l' :: 'l' :: rest) = .ok rest :=
        keyword_append ['u', 'l', 'l'] rest
      rw [htext]
      simp [readOptional, skipBlanks_cons, blanks, hword, Except.map]
    | some value => exact readOptional_some h hnull (h.written htext hrest)

end Optional

end ByteMachine.Json
