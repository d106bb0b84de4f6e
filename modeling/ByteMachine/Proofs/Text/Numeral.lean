import ByteMachine.Text.Numeral

/-! Readers of numerals: runs of decimal digits, and bytes in decimal and in binary. -/

namespace ByteMachine.Text

/-- A run of decimal digits. -/
def natural? (text : List Char) : Option Nat :=
  if text ≠ [] ∧ text.all Char.isDigit then some (Nat.ofDigitChars 10 text 0) else none

theorem natural?_eq_some_iff {text : List Char} {n : Nat} :
    natural? text = some n ↔
      text ≠ [] ∧ (∀ c ∈ text, c.isDigit) ∧ Nat.ofDigitChars 10 text 0 = n := by
  simp only [natural?, Option.ite_none_right_eq_some, List.all_eq_true, Option.some.injEq,
    and_assoc]

theorem isDigit_of_mem_toDigits {n : Nat} {c : Char} (h : c ∈ Nat.toDigits 10 n) : c.isDigit :=
  Nat.isDigit_of_mem_toDigits (by decide) (by decide) h

theorem natural?_toDigits (n : Nat) : natural? (Nat.toDigits 10 n) = some n := by
  apply natural?_eq_some_iff.mpr
  exact ⟨Nat.toDigits_ne_nil, fun _ h => isDigit_of_mem_toDigits h, Nat.ofDigitChars_ten_toDigits⟩

theorem not_mem_toDigits {c : Char} (hc : c.isDigit = false) (n : Nat) :
    c ∉ Nat.toDigits 10 n := by
  intro h
  rw [isDigit_of_mem_toDigits h] at hc
  cases hc

/-! ## Bytes -/

def decimalByte? (text : List Char) : Option UInt8 :=
  (natural? text).bind fun n => if n < 256 then some (UInt8.ofNat n) else none

theorem decimalByte?_toDigits (b : UInt8) : decimalByte? (Nat.toDigits 10 b.toNat) = some b := by
  simp [decimalByte?, natural?_toDigits, b.toNat_lt]

/-- Eight binary digits. -/
def binaryByte? (text : List Char) : Option UInt8 :=
  if text.length = 8 ∧ text.all fun c => c == '0' || c == '1' then
    some (UInt8.ofNat (Nat.ofDigitChars 2 text 0))
  else none

/-- The lowest bits of a number as digits, the highest of them first, stand for what is left of
the number. All digits but the last are those of half the number. -/
theorem ofDigitChars_testBit (width n : Nat) :
    Nat.ofDigitChars 2 ((List.range width).map fun i =>
      if n.testBit (width - 1 - i) then '1' else '0') 0 = n % Nat.pow 2 width := by
  induction width generalizing n with
  | zero =>
    show 0 = n % 1
    omega
  | succ width ih =>
    have hhalf : (List.range width).map (fun i =>
        if n.testBit (width + 1 - 1 - i) then '1' else '0') =
          (List.range width).map fun i =>
            if (n / 2).testBit (width - 1 - i) then '1' else '0' := by
      apply List.map_congr_left
      intro i hi
      have hlt := List.mem_range.mp hi
      rw [show width + 1 - 1 - i = width - 1 - i + 1 by omega, Nat.testBit_succ]
    have hlast (init : Nat) : Nat.ofDigitChars 2 [if n.testBit 0 then '1' else '0'] init =
        2 * init + n % 2 := by
      rw [Nat.testBit_zero]
      rcases Nat.mod_two_eq_zero_or_one n with h | h
      · simp only [h]
        rfl
      · simp only [h]
        rfl
    rw [List.range_succ, List.map_append, List.map_singleton, Nat.ofDigitChars_append, hhalf, ih,
      show width + 1 - 1 - width = 0 by omega, hlast]
    show _ = n % (Nat.pow 2 width * 2)
    rw [Nat.mul_comm (Nat.pow 2 width), Nat.mod_mul, Nat.add_comm]

theorem binaryByte?_binary (b : UInt8) : binaryByte? (binary b).toList = some b := by
  have hdigits : (binary b).toList.all (fun c => c == '0' || c == '1') = true := by
    rw [binary, String.toList_ofList, List.all_eq_true]
    intro c hc
    obtain ⟨i, -, rfl⟩ := List.mem_map.mp hc
    split
    · rfl
    · rfl
  have hlength : (binary b).toList.length = 8 := by
    rw [binary, String.toList_ofList, List.length_map, List.length_range]
  have hvalue : Nat.ofDigitChars 2 (binary b).toList 0 = b.toNat := by
    rw [binary, String.toList_ofList]
    exact (ofDigitChars_testBit 8 b.toNat).trans (Nat.mod_eq_of_lt b.toNat_lt)
  rw [binaryByte?, if_pos ⟨hlength, hdigits⟩, hvalue, UInt8.ofNat_toNat]

end ByteMachine.Text
