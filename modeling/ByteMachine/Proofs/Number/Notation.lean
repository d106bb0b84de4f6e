import ByteMachine.Proofs.Number.Numeral
import ByteMachine.Proofs.Text.Numeral

/-! The notation of printed values. The code chooses it by comparing the size with two doubles, the
usual description by where the decimal point stands among the shortest digits. These agree:

* `lt_point_shortest_iff`: along the row of sizes the point moves over a power of ten exactly at
  the double that is written as this power, because larger sizes have larger shortest decimals;
* `usesExponent_iff`: the two doubles are written `1e-6` and `1e21`, so the exponent is used when
  the point stands six places before the first digit or more than 21 after it;
* `text_of_finite`: so the text of a finite double is the layout of its shortest digits. -/

namespace ByteMachine.Number

/-! ## The layout -/

/-- Digits with the decimal point after the first `n` of them, which may lie outside of the digits:
zeros fill places up to 21 after the first digit or six before it; further away an exponent is
written instead. -/
def layout (digits : List Char) (n : ℤ) : List Char :=
  let k : ℤ := digits.length
  if k ≤ n ∧ n ≤ 21 then digits ++ List.replicate (n - k).toNat '0'
  else if 0 < n ∧ n ≤ 21 then digits.take n.toNat ++ '.' :: digits.drop n.toNat
  else if -6 < n ∧ n ≤ 0 then '0' :: '.' :: (List.replicate (-n).toNat '0' ++ digits)
  else
    digits.take 1 ++ (if 1 < k then '.' :: digits.drop 1 else []) ++
      'e' :: (if n - 1 < 0 then '-' else '+') :: Nat.toDigits 10 (n - 1).natAbs

theorem positional_eq_layout {d : Decimal} (hlow : -6 < d.point) (hhigh : d.point ≤ 21) :
    d.positional = layout d.digits d.point := by
  have hexponent : d.point - d.digits.length = d.exponent := by
    unfold Decimal.point
    omega
  have hpos : (0 : ℤ) < d.digits.length := by
    have : 0 < d.digits.length := Nat.length_toDigits_pos
    omega
  unfold Decimal.positional layout
  dsimp only
  rw [hexponent]
  by_cases hzero : d.point ≤ 0
  · have h1 : ¬ ((d.digits.length : ℤ) ≤ d.point ∧ d.point ≤ 21) := by omega
    have h2 : ¬ (0 < d.point ∧ d.point ≤ 21) := by omega
    rw [if_pos hzero, if_neg h1, if_neg h2, if_pos ⟨hlow, hzero⟩]
  · rw [if_neg hzero]
    by_cases hinside : d.point < d.digits.length
    · have h1 : ¬ ((d.digits.length : ℤ) ≤ d.point ∧ d.point ≤ 21) := by omega
      rw [if_pos hinside, if_neg h1, if_pos ⟨by omega, hhigh⟩]
    · rw [if_neg hinside, if_pos ⟨by omega, hhigh⟩]

/-- The exponent of a text is what follows the only `e` in it. -/
theorem signExponent_append {mantissa : List Char} (h : 'e' ∉ mantissa) (exponent : List Char) :
    signExponent (mantissa ++ 'e' :: exponent) = mantissa ++ 'e' ::
      if exponent.head? = some '-' then exponent else '+' :: exponent := by
  have hfront : ∀ c ∈ mantissa, (c != 'e') = true := by
    rintro c hc
    exact bne_iff_ne.mpr fun he => h (he ▸ hc)
  have hsplit : splitExponent? (mantissa ++ 'e' :: exponent) = some (mantissa, exponent) := by
    rw [splitExponent?, List.dropWhile_append_of_pos hfront, List.takeWhile_append_of_pos hfront]
    simp
  rw [signExponent, hsplit]
  dsimp only
  split <;> rfl

theorem mantissa_eq (d : Decimal) : d.mantissa =
    d.digits.take 1 ++ if 1 < (d.digits.length : ℤ) then '.' :: d.digits.drop 1 else [] := by
  unfold Decimal.mantissa
  match d.digits with
  | [] => rfl
  | [first] => rfl
  | first :: second :: rest => simp

theorem not_mem_mantissa (d : Decimal) : 'e' ∉ d.mantissa := by
  have hdigits : 'e' ∉ d.digits := Text.not_mem_toDigits (by decide) _
  rw [mantissa_eq, List.mem_append, not_or]
  refine ⟨fun h => hdigits (List.mem_of_mem_take h), ?_⟩
  split
  · rw [List.mem_cons, not_or]
    exact ⟨by decide, fun h => hdigits (List.mem_of_mem_drop h)⟩
  · exact List.not_mem_nil

/-- In front of the exponent stands a minus or, once it is signed, a plus. -/
theorem signExponent_exponential (negative : Bool) (d : Decimal) :
    signExponent (withSign negative d.exponential) = withSign negative (d.mantissa ++ 'e' ::
      (if d.point - 1 < 0 then '-' else '+') :: Nat.toDigits 10 (d.point - 1).natAbs) := by
  have hfront : 'e' ∉ withSign negative d.mantissa := by
    have hmantissa := not_mem_mantissa d
    cases negative <;> simpa [withSign] using hmantissa
  have hassoc (rest : List Char) :
      withSign negative (d.mantissa ++ rest) = withSign negative d.mantissa ++ rest := by
    cases negative <;> rfl
  rw [Decimal.exponential, hassoc, hassoc, signExponent_append hfront]
  congr 2
  split
  · rfl
  · have hdigits : (Nat.toDigits 10 (d.point - 1).natAbs).head? ≠ some '-' := fun hminus =>
      Text.not_mem_toDigits (by decide) _ (List.mem_of_head? hminus)
    exact if_neg hdigits

/-- The notation with an exponent is the layout of numbers whose point stands far away. -/
theorem exponent_eq_layout {d : Decimal} (h : d.point ≤ -6 ∨ 21 < d.point) :
    d.mantissa ++ 'e' :: (if d.point - 1 < 0 then '-' else '+') ::
      Nat.toDigits 10 (d.point - 1).natAbs = layout d.digits d.point := by
  have hpos : (0 : ℤ) < d.digits.length := by
    have : 0 < d.digits.length := Nat.length_toDigits_pos
    omega
  have h1 : ¬ ((d.digits.length : ℤ) ≤ d.point ∧ d.point ≤ 21) := by omega
  have h2 : ¬ (0 < d.point ∧ d.point ≤ 21) := by omega
  have h3 : ¬ (-6 < d.point ∧ d.point ≤ 0) := by omega
  rw [layout, if_neg h1, if_neg h2, if_neg h3, mantissa_eq]

/-! ## The thresholds -/

/-- The point of a decimal tells its power of ten. -/
theorem Decimal.lt_point_iff {d : Decimal} (hd : 0 < d.coefficient) (e : ℤ) :
    e < d.point ↔ 10 ^ e ≤ d.value := by
  obtain ⟨before, hlength⟩ : ∃ before, d.digits.length = before + 1 :=
    Nat.exists_eq_succ_of_ne_zero Nat.length_toDigits_pos.ne'
  have hdigits (k : ℕ) := digitCount_le_iff d.coefficient k
  rw [← length_digits hd, hlength] at hdigits
  simp only [Nat.pow_eq] at hdigits
  have hpoint : d.point = (before : ℤ) + 1 + d.exponent := by
    rw [Decimal.point, hlength]
    push_cast
    ring
  have hten : (10 : ℚ) ≠ 0 := by norm_num
  have hlow : (10 : ℚ) ^ (d.point - 1) ≤ d.value := by
    have hle : (10 : ℚ) ^ before ≤ d.coefficient := by
      exact_mod_cast not_lt.mp ((hdigits before).not.mp (by omega))
    rw [show d.point - 1 = before + d.exponent by omega, zpow_add₀ hten, zpow_natCast]
    exact mul_le_mul_of_nonneg_right hle (ten_zpow_pos _).le
  have hhigh : d.value < 10 ^ d.point := by
    have hlt : (d.coefficient : ℚ) < 10 ^ (before + 1) := by
      exact_mod_cast (hdigits (before + 1)).mp le_rfl
    rw [hpoint, zpow_add₀ hten, ← Nat.cast_succ, zpow_natCast]
    exact mul_lt_mul_of_pos_right hlt (ten_zpow_pos _)
  constructor
  · intro h
    exact (zpow_le_zpow_right₀ (by norm_num) (by omega)).trans hlow
  · intro h
    exact (zpow_lt_zpow_iff_right₀ (by norm_num)).mp (h.trans_lt hhigh)

theorem Dyadic.lt_iff (x y : Dyadic) : x.lt y = true ↔ x.value < y.value := by
  have hbelow (z : Dyadic) : (0 : ℚ) < z.below := by
    exact_mod_cast (Nat.pow_pos two_pos : 0 < z.below)
  have hx := x.value_mul_below
  have hy := y.value_mul_below
  calc x.lt y = true
      ↔ (x.significand : ℚ) * x.above * y.below < y.significand * y.above * x.below := by
        rw [Dyadic.lt, decide_eq_true_iff]
        exact_mod_cast Iff.rfl
    _ ↔ x.value * (x.below * y.below) < y.value * (x.below * y.below) := by
        rw [← hx, ← hy, mul_assoc, mul_assoc, mul_comm (y.below : ℚ)]
    _ ↔ x.value < y.value := mul_lt_mul_iff_of_pos_right (mul_pos (hbelow x) (hbelow y))

/-- The size of a place behind the first one is not zero. -/
theorem significand_sizeAt_pos {place : ℕ} (h : 0 < place) : 0 < (sizeAt place).significand := by
  have hvalue := value_sizeAt_lt h
  rw [value_sizeAt_zero] at hvalue
  by_contra hnone
  simp [Dyadic.value, Nat.eq_zero_of_not_pos hnone] at hvalue

/-- The points of the shortest decimals pass a power of ten at the size that is written as this
power. -/
theorem lt_point_shortest_iff {place boundary : ℕ} (hplace : 0 < place) (hboundary : 0 < boundary)
    {e : ℤ} (h : (sizeAt boundary).shortest = ⟨1, e⟩) :
    e < (sizeAt place).shortest.point ↔ (sizeAt boundary).value ≤ (sizeAt place).value := by
  have hspec := Dyadic.shortest_spec (significand_sizeAt_pos hplace)
  have hspec' := Dyadic.shortest_spec (significand_sizeAt_pos hboundary)
  have hpower : (sizeAt boundary).shortest.value = 10 ^ e := by simp [h, Decimal.value]
  have hcoefficient : 0 < (sizeAt place).shortest.coefficient :=
    Dyadic.coefficient_pos (significand_sizeAt_pos hplace) hspec.covers
  rw [Decimal.lt_point_iff hcoefficient, value_sizeAt_strictMono.le_iff_le, ← hpower]
  constructor
  · exact hspec'.covers.le hspec.covers
  · intro hle
    rcases hle.lt_or_eq with hlt | rfl
    · exact (hspec'.covers.lt hspec.covers hlt).le
    · exact le_rfl

theorem exponentBelow_eq : exponentBelow = sizeAt 0x3EB0C6F7A0B5ED8D := by decide

theorem exponentFrom_eq : exponentFrom = sizeAt 0x444B1AE4D6E2EF50 := by decide

/-- The two comparisons choose the exponent as the point of the shortest decimal does. -/
theorem usesExponent_iff {place : ℕ} (hplace : 0 < place) :
    (sizeAt place).usesExponent = true ↔
      (sizeAt place).shortest.point ≤ -6 ∨ 21 < (sizeAt place).shortest.point := by
  have hbelow : (sizeAt 0x3EB0C6F7A0B5ED8D).shortest = ⟨1, -6⟩ := by decide +kernel
  have hfrom : (sizeAt 0x444B1AE4D6E2EF50).shortest = ⟨1, 21⟩ := by decide +kernel
  rw [← not_lt, lt_point_shortest_iff hplace (by decide) hbelow,
    lt_point_shortest_iff hplace (by decide) hfrom, not_le, ← exponentBelow_eq, ← exponentFrom_eq,
    ← not_lt, ← Dyadic.lt_iff, ← Dyadic.lt_iff]
  simp [Dyadic.usesExponent]

/-! ## The text -/

theorem Dyadic.text_eq_layout (negative : Bool) {place : ℕ} (hplace : 0 < place) :
    (sizeAt place).text negative = withSign negative
      (layout (sizeAt place).shortest.digits (sizeAt place).shortest.point) := by
  have hiff := usesExponent_iff hplace
  unfold Dyadic.text
  split
  next h => rw [signExponent_exponential, exponent_eq_layout (hiff.mp h)]
  next h =>
    rw [hiff, not_or, not_le, not_lt] at h
    rw [positional_eq_layout h.1 h.2]

theorem text_of_finite {v : Float} {negative : Bool} {size : Dyadic}
    (h : Reading.ofFloat v = .finite negative size) :
    text v = String.ofList
      ((if negative then ['-'] else []) ++ layout size.shortest.digits size.shortest.point) := by
  rw [text, h]
  obtain ⟨hpos, -, -, rfl⟩ := ofFloat_finite_iff.mp h
  dsimp only
  rw [Dyadic.text_eq_layout negative hpos, withSign]
  split <;> rfl

/-- The values with texts of their own, told by the tests of doubles. -/
theorem text_special (v : Float) :
    if v.isNaN then text v = "NaN"
    else if v.isInf then text v = if 0 < v then "Infinity" else "-Infinity"
    else if v == 0 then text v = "0"
    else ∃ negative size, Reading.ofFloat v = .finite negative size := by
  have hnan := isNaN_iff v
  have hinf := isInf_iff v
  have hzero := beq_zero_iff v
  cases hreading : Reading.ofFloat v with
  | notANumber => rw [if_pos (hnan.mpr hreading), text, hreading]
  | infinite negative =>
    rw [hreading] at hnan
    rw [if_neg (mt hnan.mp nofun), if_pos (hinf.mpr ⟨negative, hreading⟩), text, hreading]
    have hsign := pos_of_infinite hreading
    cases negative <;> simp [hsign]
  | zero negative =>
    rw [hreading] at hnan hinf
    rw [if_neg (mt hnan.mp nofun), if_neg (mt hinf.mp nofun),
      if_pos (hzero.mpr ⟨negative, hreading⟩), text, hreading]
  | finite negative size =>
    rw [hreading] at hnan hinf hzero
    rw [if_neg (mt hnan.mp nofun), if_neg (mt hinf.mp nofun), if_neg (mt hzero.mp nofun)]
    exact ⟨negative, size, rfl⟩

/-- Values that are no numbers, infinities and zeros have texts of their own. Any other double is
written with the digits of its shortest numeral, laid out by where the point stands among them;
the comparisons with `10 ^ -6` and `10 ^ 21`, of which the first is not a double, choose the
notation with an exponent just where the layout does. -/
theorem text_layout (v : Float) :
    (if v.isNaN then text v = "NaN"
      else if v.isInf then text v = if 0 < v then "Infinity" else "-Infinity"
      else if v == 0 then text v = "0"
      else ∃ negative size, Reading.ofFloat v = .finite negative size) ∧
    match Reading.ofFloat v with
    | .notANumber => text v = "NaN"
    | .infinite negative => text v = if negative then "-Infinity" else "Infinity"
    | .zero _ => text v = "0"
    | .finite negative size => ∃ (exact low high : ℚ) (n : Numeral),
        n.Shortest v exact ∧ (∀ other : Numeral, other.Shortest v exact → other = n) ∧
        n.negative = negative ∧
        text v = String.ofList
          ((if negative then ['-'] else []) ++ layout n.size.digits n.size.point) ∧
        value? 1e-6 = some low ∧ value? 1e21 = some high ∧
        (size.usesExponent = true ↔ |exact| < low ∨ high ≤ |exact|) ∧
        (size.usesExponent = true ↔ n.size.point ≤ -6 ∨ 21 < n.size.point) := by
  refine ⟨text_special v, ?_⟩
  cases hreading : Reading.ofFloat v with
  | notANumber => rw [text, hreading]
  | infinite negative => rw [text, hreading]
  | zero negative => rw [text, hreading]
  | finite negative size =>
    have hlow : value? 1e-6 = some exponentBelow.value := by
      rw [value?, show Reading.ofFloat 1e-6 = .finite false exponentBelow by decide]
      rfl
    have hhigh : value? 1e21 = some exponentFrom.value := by
      rw [value?, show Reading.ofFloat 1e21 = .finite false exponentFrom by decide]
      rfl
    have hunique := Numeral.shortest_iff_eq hreading
    have htext := text_of_finite hreading
    obtain ⟨hpos, -, rfl, rfl⟩ := ofFloat_finite_iff.mp hreading
    refine ⟨_, _, _, _, (hunique _).mpr rfl, fun other => (hunique other).mp, rfl, htext, hlow,
      hhigh, ?_, usesExponent_iff hpos⟩
    rw [abs_signed, abs_of_nonneg (value_sizeAt_nonneg _), ← not_lt, ← Dyadic.lt_iff,
      ← Dyadic.lt_iff]
    simp [Dyadic.usesExponent]

end ByteMachine.Number
