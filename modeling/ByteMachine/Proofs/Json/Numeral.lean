import ByteMachine.Proofs.Json.Grammar
import ByteMachine.Proofs.Number.Finite
import ByteMachine.Json.Record

/-! Natural numbers of a machine word in decimal: their significand is taken whole, so they are in
range, and they are read as themselves. -/

namespace ByteMachine.Json

namespace Numeral

/-- One more digit behind a number. -/
def appendDigit (n : Nat) (c : Char) : Nat := n * 10 + digitValue c

theorem le_foldl_appendDigit (n : Nat) (digits : List Char) : n ≤ digits.foldl appendDigit n := by
  induction digits generalizing n with
  | nil => exact Nat.le_refl n
  | cons c digits ih =>
    have hstep : n ≤ appendDigit n c := by
      rw [appendDigit]
      omega
    exact Nat.le_trans hstep (ih _)

/-- Digits whose value stays within the limit are all taken. -/
theorem absorb_eq {n : Nat} {digits : List Char}
    (h : digits.foldl appendDigit n ≤ significandLimit) :
    absorb n digits = (digits.foldl appendDigit n, 0) := by
  induction digits generalizing n with
  | nil => rfl
  | cons c digits ih =>
    have hnext : appendDigit n c ≤ significandLimit :=
      Nat.le_trans (le_foldl_appendDigit _ digits) h
    exact (if_pos hnext).trans (ih h)

theorem value_toDigits (n : Nat) : value (Nat.toDigits 10 n) = n := by
  have hstep : (fun (n : Nat) (c : Char) => n * 10 + digitValue c) =
      fun n c => 10 * n + (c.toNat - '0'.toNat) := by
    funext n c
    rw [Nat.mul_comm, digitValue]
  rw [value, hstep]
  exact Nat.ofDigitChars_ten_toDigits

theorem overflows_unscaled (significand : Nat) : overflows significand 0 = false := by
  rw [overflows, if_pos (by decide)]
  exact Number.isInf_toFloat_mul_one _

/-- A natural number as it is written: its decimal digits and nothing else. -/
def decimal (n : Nat) : Numeral := ⟨false, Nat.toDigits 10 n, [], none⟩

theorem inRange_decimal {n : Nat} (h : n ≤ significandLimit) : (decimal n).inRange = true := by
  have hvalue : (Nat.toDigits 10 n).foldl appendDigit 0 = n := value_toDigits n
  have habsorb : absorb 0 (Nat.toDigits 10 n) = (n, 0) := by
    rw [absorb_eq (by rwa [hvalue]), hvalue]
  unfold inRange decimal
  dsimp only
  rw [habsorb]
  change (decide ((0 : Int) < 0) || !overflows n 0) = true
  rw [overflows_unscaled]
  rfl

theorem natural?_decimal (n : UInt64) : (decimal n.toNat).natural? = some n := by
  have hn : n.toNat ≤ significandLimit := Nat.le_of_lt_succ n.toNat_lt
  unfold natural? decimal
  dsimp only
  rw [if_neg (by decide), value_toDigits, if_pos hn, UInt64.ofNat_toNat]

theorem digits_toDigits (n : Nat) : Digits (Nat.toDigits 10 n) :=
  ⟨Nat.toDigits_ne_nil, fun _ hc => Nat.isDigit_of_mem_toDigits (by decide) (by decide) hc⟩

theorem head_toDigits {n : Nat} (hn : 0 < n) : (Nat.toDigits 10 n).head? ≠ some '0' := by
  induction n using Nat.strongRecOn with
  | _ n ih =>
    rw [Nat.toDigits_eq_if (by decide)]
    split
    · rename_i hlt
      have hall : ∀ n < 10, 0 < n → [Nat.digitChar n].head? ≠ some '0' := by decide
      exact hall n hlt hn
    · rename_i hge
      have hpos : 0 < n / 10 := Nat.div_pos (Nat.not_lt.mp hge) (by decide)
      rw [List.head?_append, Option.or_of_isSome (by simp)]
      exact ih (n / 10) (Nat.div_lt_self hn (by decide)) hpos

theorem whole_toDigits (n : Nat) : Whole (Nat.toDigits 10 n) := by
  rcases Nat.eq_zero_or_pos n with rfl | hn
  · exact .inl rfl
  · exact .inr ⟨digits_toDigits n, head_toDigits hn⟩

theorem read_decimal (n : Nat) {rest : List Char} (hrest : EndsNumber rest) :
    read .truncated (Nat.toDigits 10 n ++ rest) = .ok (decimal n, rest) := by
  have hwhole := readWhole_append .truncated (whole_toDigits n) (endsDigits_of_endsNumber hrest)
  have hfraction := readFraction_none .truncated fun c hc => (hrest c hc).2.1
  have hexponent := readExponent_none .truncated hrest
  unfold decimal
  obtain ⟨c, more, hdigits, -, -, hminus⟩ := exists_cons_of_digits (digits_toDigits n)
  rw [hdigits, List.cons_append] at hwhole ⊢
  simp [read, hminus, hwhole, hfraction, hexponent, bind, Except.bind, pure, Except.pure]

end Numeral

/-- The decimal digits of a number of 64 bits are read as that number. -/
theorem readNumeral_decimal (n : UInt64) {rest : List Char} (hrest : Delimited rest) :
    readNumeral (Nat.toDigits 10 n.toNat ++ rest) = .ok (.decimal n.toNat, rest) := by
  have hn : n.toNat ≤ Numeral.significandLimit := Nat.le_of_lt_succ n.toNat_lt
  rw [readNumeral, Numeral.read_decimal _ (Numeral.endsNumber_of_delimited hrest)]
  exact if_pos (Numeral.inRange_decimal hn)

end ByteMachine.Json
