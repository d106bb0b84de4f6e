import ByteMachine.Proofs.Number.Notation
import ByteMachine.Proofs.Text.Numeral
import Mathlib.Data.List.TakeWhile

/-! A reader of decimal numerals, which gives the exact number that a text stands for. It takes the
text apart at the exponent and at the point (`ofText?_whole`, `ofText?_point`), and it reads every
layout of digits as the number that the digits and the place of the point stand for
(`ofText?_layout`). -/

namespace ByteMachine.Number

open Text (natural? natural?_eq_some_iff natural?_toDigits)

/-! ## The reader -/

/-- What stands behind the mantissa: nothing, or an exponent with its sign. -/
def exponent? : List Char → Option ℤ
  | [] => some 0
  | 'e' :: '+' :: digits => (natural? digits).map fun n : ℕ => (n : ℤ)
  | 'e' :: '-' :: digits => (natural? digits).map fun n : ℕ => -(n : ℤ)
  | _ => none

/-- Digits, a point with further digits if there are any, and an exponent if there is one. -/
def Decimal.ofText? (text : List Char) : Option Decimal := do
  let mantissa := text.takeWhile (· ≠ 'e')
  let exponent ← exponent? (text.dropWhile (· ≠ 'e'))
  let whole ← natural? (mantissa.takeWhile (· ≠ '.'))
  match mantissa.dropWhile (· ≠ '.') with
  | [] => return ⟨whole, exponent⟩
  | _ :: places =>
      let fraction ← natural? places
      return ⟨whole * 10 ^ places.length + fraction, exponent - places.length⟩

/-- A decimal behind an optional sign. -/
def Numeral.ofText? : List Char → Option Numeral
  | '-' :: text => (Decimal.ofText? text).map (⟨true, ·⟩)
  | text => (Decimal.ofText? text).map (⟨false, ·⟩)

theorem ne_of_isDigit {c : Char} (h : c.isDigit) : c ≠ 'e' ∧ c ≠ '.' ∧ c ≠ '-' := by
  refine ⟨?_, ?_, ?_⟩ <;> rintro rfl <;> exact absurd h (by decide)

theorem exponent?_head {tail : List Char} {e : ℤ} (h : exponent? tail = some e) :
    tail = [] ∨ ∃ rest, tail = 'e' :: rest := by
  unfold exponent? at h
  split at h <;> simp_all

/-- The text up to where the exponent begins. -/
theorem span_exponent {mantissa tail : List Char} {e : ℤ} (hm : ∀ c ∈ mantissa, c ≠ 'e')
    (h : exponent? tail = some e) :
    (mantissa ++ tail).takeWhile (· ≠ 'e') = mantissa ∧
      (mantissa ++ tail).dropWhile (· ≠ 'e') = tail := by
  have hall : ∀ c ∈ mantissa, decide (c ≠ 'e') = true := fun c hc => decide_eq_true (hm c hc)
  rw [List.takeWhile_append_of_pos hall, List.dropWhile_append_of_pos hall]
  rcases exponent?_head h with rfl | ⟨rest, rfl⟩ <;> simp

theorem ofText?_whole {whole tail : List Char} {n : ℕ} {e : ℤ} (hw : natural? whole = some n)
    (ht : exponent? tail = some e) : Decimal.ofText? (whole ++ tail) = some ⟨n, e⟩ := by
  have hdigits := (natural?_eq_some_iff.mp hw).2.1
  obtain ⟨htake, hdrop⟩ := span_exponent (fun c hc => (ne_of_isDigit (hdigits c hc)).1) ht
  have hpoint : ∀ c ∈ whole, decide (c ≠ '.') = true :=
    fun c hc => decide_eq_true (ne_of_isDigit (hdigits c hc)).2.1
  have htake' : whole.takeWhile (· ≠ '.') = whole := List.takeWhile_eq_self_iff.mpr hpoint
  have hdrop' : whole.dropWhile (· ≠ '.') = [] := List.dropWhile_eq_nil_iff.mpr hpoint
  simp only [Decimal.ofText?, htake, hdrop, htake', hdrop', hw, ht]
  rfl

theorem ofText?_point {whole places tail : List Char} {n m : ℕ} {e : ℤ}
    (hw : natural? whole = some n) (hp : natural? places = some m) (ht : exponent? tail = some e) :
    Decimal.ofText? (whole ++ '.' :: places ++ tail) =
      some ⟨n * 10 ^ places.length + m, e - places.length⟩ := by
  have hdigits := (natural?_eq_some_iff.mp hw).2.1
  have hplaces := (natural?_eq_some_iff.mp hp).2.1
  have hmantissa : ∀ c ∈ whole ++ '.' :: places, c ≠ 'e' := by
    intro c hc
    rcases List.mem_append.mp hc with hc | hc
    · exact (ne_of_isDigit (hdigits c hc)).1
    · rcases List.mem_cons.mp hc with rfl | hc
      · decide
      · exact (ne_of_isDigit (hplaces c hc)).1
  obtain ⟨htake, hdrop⟩ := span_exponent hmantissa ht
  have hpoint : ∀ c ∈ whole, decide (c ≠ '.') = true :=
    fun c hc => decide_eq_true (ne_of_isDigit (hdigits c hc)).2.1
  have htake' : (whole ++ '.' :: places).takeWhile (· ≠ '.') = whole := by
    rw [List.takeWhile_append_of_pos hpoint]
    simp
  have hdrop' : (whole ++ '.' :: places).dropWhile (· ≠ '.') = '.' :: places := by
    rw [List.dropWhile_append_of_pos hpoint]
    simp
  simp only [Decimal.ofText?, htake, hdrop, htake', hdrop', hw, hp, ht]
  rfl

theorem ofText?_whole_point {whole places : List Char} {n m : ℕ} (hw : natural? whole = some n)
    (hp : natural? places = some m) :
    Decimal.ofText? (whole ++ '.' :: places) =
      some ⟨n * 10 ^ places.length + m, -(places.length : ℤ)⟩ := by
  have hread := ofText?_point hw hp (show exponent? [] = some 0 from rfl)
  rwa [List.append_nil, zero_sub] at hread

/-! ## Reading a layout -/

section

variable {digits : List Char} {c : ℕ}

theorem natural?_append_zeros (h : natural? digits = some c) (k : ℕ) :
    natural? (digits ++ List.replicate k '0') = some (10 ^ k * c) := by
  obtain ⟨hne, hdigits, hc⟩ := natural?_eq_some_iff.mp h
  refine natural?_eq_some_iff.mpr ⟨by simp [hne], fun d hd => ?_, ?_⟩
  · rcases List.mem_append.mp hd with hd | hd
    · exact hdigits d hd
    · obtain ⟨-, rfl⟩ := List.mem_replicate.mp hd
      decide
  · rw [Nat.ofDigitChars_append, Nat.ofDigitChars_replicate_zero, hc]

theorem natural?_zeros_append (h : natural? digits = some c) (k : ℕ) :
    natural? (List.replicate k '0' ++ digits) = some c := by
  obtain ⟨hne, hdigits, hc⟩ := natural?_eq_some_iff.mp h
  refine natural?_eq_some_iff.mpr ⟨by simp [hne], fun d hd => ?_, ?_⟩
  · rcases List.mem_append.mp hd with hd | hd
    · obtain ⟨-, rfl⟩ := List.mem_replicate.mp hd
      decide
    · exact hdigits d hd
  · rw [Nat.ofDigitChars_append, Nat.ofDigitChars_replicate_zero, mul_zero, hc]

/-- Digits cut in two are the digits before and behind a point. -/
theorem natural?_split (h : natural? digits = some c) {i : ℕ} (hi : 0 < i)
    (hlt : i < digits.length) :
    ∃ n m, natural? (digits.take i) = some n ∧ natural? (digits.drop i) = some m ∧
      n * 10 ^ (digits.drop i).length + m = c := by
  obtain ⟨hne, hdigits, hc⟩ := natural?_eq_some_iff.mp h
  have htake : digits.take i ≠ [] := by
    rw [ne_eq, List.take_eq_nil_iff, not_or]
    exact ⟨hi.ne', hne⟩
  have hdrop : digits.drop i ≠ [] := by
    rw [ne_eq, List.drop_eq_nil_iff]
    exact not_le.mpr hlt
  have hfront : ∀ d ∈ digits.take i, d.isDigit := fun d hd => hdigits d (List.mem_of_mem_take hd)
  have hback : ∀ d ∈ digits.drop i, d.isDigit := fun d hd => hdigits d (List.mem_of_mem_drop hd)
  refine ⟨_, _, natural?_eq_some_iff.mpr ⟨htake, hfront, rfl⟩,
    natural?_eq_some_iff.mpr ⟨hdrop, hback, rfl⟩, ?_⟩
  rw [mul_comm, ← Nat.ofDigitChars_eq_ofDigitChars_zero, ← Nat.ofDigitChars_append,
    List.take_append_drop, hc]

theorem exponent?_toDigits (n : ℤ) :
    exponent? ('e' :: (if n < 0 then '-' else '+') :: Nat.toDigits 10 n.natAbs) = some n := by
  split
  next hneg =>
    rw [exponent?, natural?_toDigits, Option.map_some]
    congr 1
    omega
  next hpos =>
    rw [exponent?, natural?_toDigits, Option.map_some]
    congr 1
    omega

/-- A layout is read as the digits, moved so that the point stands where it should. -/
theorem ofText?_layout (h : natural? digits = some c) (n : ℤ) :
    ∃ d, Decimal.ofText? (layout digits n) = some d ∧
      d.value = c * 10 ^ (n - digits.length) := by
  have hlength : 0 < digits.length := List.length_pos_iff.mpr (natural?_eq_some_iff.mp h).1
  unfold layout
  dsimp only
  by_cases hwhole : digits.length ≤ n ∧ n ≤ 21
  · have hzeros := natural?_append_zeros h (n - digits.length).toNat
    have hread := ofText?_whole hzeros (show exponent? [] = some 0 from rfl)
    rw [List.append_nil] at hread
    rw [if_pos hwhole]
    refine ⟨_, hread, ?_⟩
    obtain ⟨k, hk⟩ := Int.eq_ofNat_of_zero_le (show 0 ≤ n - digits.length by omega)
    rw [Decimal.value, hk]
    simp [mul_comm]
  rw [if_neg hwhole]
  by_cases hinside : 0 < n ∧ n ≤ 21
  · have hlt : n.toNat < digits.length := by omega
    obtain ⟨whole, fraction, hw, hp, hsum⟩ := natural?_split h (by omega) hlt
    have hread := ofText?_whole_point hw hp
    rw [hsum] at hread
    rw [if_pos hinside]
    refine ⟨_, hread, ?_⟩
    rw [Decimal.value, List.length_drop]
    dsimp only
    congr 2
    omega
  rw [if_neg hinside]
  by_cases hsmall : -6 < n ∧ n ≤ 0
  · have hplaces := natural?_zeros_append h (-n).toNat
    have hread := ofText?_whole_point (show natural? ['0'] = some 0 by decide) hplaces
    rw [zero_mul, zero_add] at hread
    rw [if_pos hsmall]
    refine ⟨_, hread, ?_⟩
    rw [Decimal.value, List.length_append, List.length_replicate]
    dsimp only
    congr 2
    omega
  rw [if_neg hsmall]
  have hexponent := exponent?_toDigits (n - 1)
  by_cases hmany : (1 : ℤ) < digits.length
  · obtain ⟨whole, fraction, hw, hp, hsum⟩ := natural?_split h one_pos (by omega)
    have hread := ofText?_point hw hp hexponent
    rw [hsum] at hread
    rw [if_pos hmany]
    refine ⟨_, hread, ?_⟩
    rw [Decimal.value, List.length_drop]
    dsimp only
    congr 2
    omega
  · have hsingle : digits.length = 1 := by omega
    have hread := ofText?_whole h hexponent
    rw [if_neg hmany, List.append_nil, List.take_of_length_le hsingle.le]
    refine ⟨_, hread, ?_⟩
    rw [Decimal.value, hsingle]
    rfl

end

/-- A sign in front is read as such. -/
theorem ofText?_sign (negative : Bool) {text : List Char} {d : Decimal}
    (h : Decimal.ofText? text = some d) :
    Numeral.ofText? ((if negative then ['-'] else []) ++ text) = some ⟨negative, d⟩ := by
  cases negative
  · unfold Numeral.ofText?
    split
    next rest heq =>
      obtain rfl : text = '-' :: rest := heq
      have hnone : natural? (List.takeWhile (· ≠ '.') (List.takeWhile (· ≠ 'e') ('-' :: rest))) =
          none := by
        simp [natural?]
      rw [Decimal.ofText?, hnone] at h
      cases exponent? (List.dropWhile (· ≠ 'e') ('-' :: rest)) <;> simp at h
    next => simp [h]
  · simp [Numeral.ofText?, h]

end ByteMachine.Number
