import LoopLang.Number.Style
import LoopLang.Proofs.Doubles
import LoopLang.Proofs.Numerals

/-!
# Decimals

The digits of a decimal can be spread around a point without changing the number that they
stand for. Every decimal that is tried for a double lies between the same two powers of ten
as the double, so it has the point in the same place.
-/
namespace LoopLang.Number

open Float.Model

theorem digitsValue_append (left right : List Char) :
    digitsValue (left ++ right) = 10 ^ right.length * digitsValue left + digitsValue right := by
  change Nat.ofDigitChars 10 (left ++ right) 0 = _
  rw [Nat.ofDigitChars_append, Nat.ofDigitChars_eq_ofDigitChars_zero]
  rfl

@[simp] theorem digitsValue_zeros (n : ℕ) : digitsValue (zeros n) = 0 := by
  change Nat.ofDigitChars 10 (List.replicate n '0') 0 = 0
  rw [Nat.ofDigitChars_replicate_zero, Nat.mul_zero]

@[simp] theorem length_zeros (n : ℕ) : (zeros n).length = n :=
  List.length_replicate

theorem isDigit_of_mem_zeros {n : ℕ} {c : Char} (member : c ∈ zeros n) : c.isDigit = true := by
  rw [List.eq_of_mem_replicate member]
  rfl

@[simp] theorem digitsValue_toDigits (n : ℕ) : digitsValue (Nat.toDigits 10 n) = n :=
  Nat.ofDigitChars_ten_toDigits

namespace Ratio

theorem digitCount_pos (n : ℕ) : 0 < digitCount n :=
  Nat.length_toDigits_pos

theorem lt_pow_digitCount (n : ℕ) : n < 10 ^ digitCount n :=
  (Nat.length_toDigits_le_iff (by decide) (digitCount_pos n)).mp (Nat.le_refl _)

theorem pow_digitCount_le {n : ℕ} (pos : 0 < n) : 10 ^ (digitCount n - 1) ≤ n := by
  by_cases one : digitCount n = 1
  · rw [one]
    exact pos
  · have some_ := digitCount_pos n
    have more : ¬ digitCount n ≤ digitCount n - 1 := by omega
    rw [digitCount, Nat.length_toDigits_le_iff (by decide) (by rw [← digitCount]; omega)] at more
    exact Nat.le_of_not_lt more

end Ratio

def Decimal.value (d : Decimal) : ℚ :=
  d.digits * 10 ^ d.exponent

theorem Decimal.digits_pos {d : Decimal} (pos : 0 < d.value) : 0 < d.digits := by
  apply Nat.pos_of_ne_zero
  intro zero
  rw [Decimal.value, zero, Nat.cast_zero, zero_mul] at pos
  exact lt_irrefl 0 pos

/-- Digits with a point among them stand for a number that begins just after the point. -/
structure Digits.StandFor (s : Digits) (q : ℚ) : Prop where
  digits : ∀ c ∈ s.digits, c.isDigit = true
  some_ : s.digits ≠ []
  value : (digitsValue s.digits : ℚ) * 10 ^ (s.point - s.digits.length) = q
  lower : 10 ^ (s.point - 1) ≤ q
  upper : q < 10 ^ s.point

theorem exists_zeros (digits : List Char) :
    ∃ n, digits = (digits.reverse.dropWhile (· == '0')).reverse ++ zeros n := by
  have parts := List.takeWhile_append_dropWhile (p := (· == '0')) (l := digits.reverse)
  have all : digits.reverse.takeWhile (· == '0') =
      zeros (digits.reverse.takeWhile (· == '0')).length := by
    apply List.eq_replicate_of_mem
    intro c member
    simpa using List.mem_takeWhile_imp member
  refine ⟨(digits.reverse.takeWhile (· == '0')).length, ?_⟩
  have reversed := congrArg List.reverse parts
  rw [List.reverse_append, List.reverse_reverse, all, zeros, List.reverse_replicate] at reversed
  exact reversed.symm

theorem Decimal.spread_standFor {d : Decimal} (pos : 0 < d.digits) : d.spread.StandFor d.value := by
  obtain ⟨n, parts⟩ := exists_zeros (Nat.toDigits 10 d.digits)
  let kept := ((Nat.toDigits 10 d.digits).reverse.dropWhile (· == '0')).reverse
  change Nat.toDigits 10 d.digits = kept ++ zeros n at parts
  have count : Ratio.digitCount d.digits = kept.length + n := by
    rw [Ratio.digitCount, parts, List.length_append, length_zeros]
  have digits : d.digits = 10 ^ n * digitsValue kept := by
    have value := digitsValue_toDigits d.digits
    rw [parts, digitsValue_append, digitsValue_zeros, length_zeros] at value
    exact value.symm
  have point : d.spread.point = Ratio.digitCount d.digits + d.exponent := rfl
  refine ⟨?_, ?_, ?_, ?_, ?_⟩
  · intro c member
    apply Nat.isDigit_of_mem_toDigits (b := 10) (n := d.digits) (by decide) (by decide)
    rw [parts]
    exact List.mem_append_left _ member
  · intro none_
    have empty : kept = [] := none_
    have zero : digitsValue [] = 0 := rfl
    rw [empty, zero, Nat.mul_zero] at digits
    omega
  · rw [point, count, Decimal.value, digits]
    have exponent : ((kept.length + n : ℕ) : ℤ) + d.exponent - kept.length = n + d.exponent := by
      push_cast
      ring
    change (digitsValue kept : ℚ) *
      10 ^ (((kept.length + n : ℕ) : ℤ) + d.exponent - kept.length) = _
    rw [exponent, zpow_add₀ (by norm_num), zpow_natCast]
    push_cast
    ring
  · have some_ := Ratio.digitCount_pos d.digits
    have exponent : (Ratio.digitCount d.digits : ℤ) + d.exponent - 1 =
        (Ratio.digitCount d.digits - 1 : ℕ) + d.exponent := by omega
    rw [point, exponent, zpow_add₀ (by norm_num), zpow_natCast]
    apply mul_le_mul_of_nonneg_right _ (by positivity)
    exact_mod_cast Ratio.pow_digitCount_le pos
  · rw [point, zpow_add₀ (by norm_num), zpow_natCast]
    apply mul_lt_mul_of_pos_right _ (by positivity)
    exact_mod_cast Ratio.lt_pow_digitCount d.digits

/-- A number written with digits on both sides of a point. -/
structure Positional (text : List Char) (q : ℚ) (whole fraction : List Char) : Prop where
  text : text = whole ++ '.' :: fraction
  wholeDigits : ∀ c ∈ whole, c.isDigit = true
  fractionDigits : ∀ c ∈ fraction, c.isDigit = true
  some_ : whole ≠ []
  further : fraction ≠ []
  value : (digitsValue (whole ++ fraction) : ℚ) * 10 ^ (-fraction.length : ℤ) = q

namespace Digits.StandFor

variable {s : Digits} {q : ℚ} (stands : s.StandFor q)
include stands

theorem positional_after (after : s.point ≤ 0) :
    Positional ('0' :: '.' :: (zeros (-s.point).toNat ++ s.digits)) q ['0']
      (zeros (-s.point).toNat ++ s.digits) := by
  refine ⟨rfl, ?_, ?_, ?_, ?_, ?_⟩
  · simp
  · intro c member
    rcases List.mem_append.mp member with zero | digit
    · exact isDigit_of_mem_zeros zero
    · exact stands.digits c digit
  · exact List.cons_ne_nil _ _
  · exact List.append_ne_nil_of_right_ne_nil _ stands.some_
  · have digits : digitsValue (['0'] ++ (zeros (-s.point).toNat ++ s.digits)) =
        digitsValue s.digits := by
      rw [digitsValue_append, digitsValue_append, digitsValue_zeros]
      simp [digitsValue]
    rw [← stands.value, digits, List.length_append, length_zeros]
    congr 2
    push_cast
    omega

theorem positional_before (before : (s.digits.length : ℤ) ≤ s.point) :
    Positional (s.digits ++ zeros (s.point.toNat - s.digits.length) ++ ['.', '0']) q
      (s.digits ++ zeros (s.point.toNat - s.digits.length)) ['0'] := by
  refine ⟨rfl, ?_, ?_, ?_, ?_, ?_⟩
  · intro c member
    rcases List.mem_append.mp member with digit | zero
    · exact stands.digits c digit
    · exact isDigit_of_mem_zeros zero
  · simp
  · exact List.append_ne_nil_of_left_ne_nil stands.some_ _
  · exact List.cons_ne_nil _ _
  · have digits : digitsValue (s.digits ++ zeros (s.point.toNat - s.digits.length) ++ ['0']) =
        10 * (10 ^ (s.point.toNat - s.digits.length) * digitsValue s.digits) := by
      rw [digitsValue_append, digitsValue_append, digitsValue_zeros, length_zeros]
      simp [digitsValue]
    have exponent : (s.point - s.digits.length : ℤ) =
        (s.point.toNat - s.digits.length : ℕ) := by omega
    have tenth : (10 : ℚ) ^ (-['0'].length : ℤ) = 1 / 10 := by norm_num
    rw [← stands.value, digits, exponent, zpow_natCast, tenth]
    push_cast
    ring

theorem positional_among (some_ : 0 < s.point) (many : s.point < s.digits.length) :
    Positional (s.digits.take s.point.toNat ++ '.' :: s.digits.drop s.point.toNat) q
      (s.digits.take s.point.toNat) (s.digits.drop s.point.toNat) := by
  refine ⟨rfl, ?_, ?_, ?_, ?_, ?_⟩
  · intro c member
    exact stands.digits c (List.mem_of_mem_take member)
  · intro c member
    exact stands.digits c (List.mem_of_mem_drop member)
  · rw [ne_eq, List.take_eq_nil_iff]
    rintro (none_ | none_)
    · omega
    · exact stands.some_ none_
  · rw [ne_eq, List.drop_eq_nil_iff]
    omega
  · rw [List.take_append_drop, List.length_drop, ← stands.value]
    congr 2
    omega

theorem positional : ∃ whole fraction, Positional s.positional q whole fraction := by
  unfold Digits.positional
  split
  · rename_i after
    exact ⟨_, _, stands.positional_after after⟩
  · rename_i some_
    split
    · rename_i before
      exact ⟨_, _, stands.positional_before before⟩
    · rename_i many
      exact ⟨_, _, stands.positional_among (Int.not_le.mp some_) (Int.not_le.mp many)⟩

end Digits.StandFor

namespace Ratio

def value (r : Ratio) : ℚ :=
  r.numerator / r.denominator

theorem zpow_eq_div {b : ℚ} (some_ : b ≠ 0) (k : ℤ) : b ^ k = b ^ k.toNat / b ^ (-k).toNat := by
  rw [← zpow_natCast, ← zpow_natCast, ← zpow_sub₀ some_]
  congr 1
  omega

theorem scale_value (r : Ratio) (k : ℤ) : (r.scale k).value = r.value / 10 ^ k := by
  rw [value, value, scale, zpow_eq_div (by norm_num)]
  simp only [Nat.pow_eq, Nat.cast_mul, Nat.cast_pow, Nat.cast_ofNat]
  field_simp

theorem quotient_bounds {a b : ℕ} (pos : 0 < b) (large : b ≤ a) :
    10 ^ (digitCount (a / b) - 1) * b ≤ a ∧ a < 10 ^ digitCount (a / b) * b := by
  constructor
  · calc 10 ^ (digitCount (a / b) - 1) * b ≤ a / b * b :=
          Nat.mul_le_mul_right _ (pow_digitCount_le (Nat.div_pos large pos))
      _ ≤ a := Nat.div_mul_le_self _ _
  · calc a < b * (a / b + 1) := Nat.lt_mul_div_succ _ pos
      _ = (a / b + 1) * b := Nat.mul_comm _ _
      _ ≤ 10 ^ digitCount (a / b) * b := Nat.mul_le_mul_right _ (lt_pow_digitCount _)

section Bounds

variable {r : Ratio} (num : 0 < r.numerator) (den : 0 < r.denominator)
include num den

/-- The leading exponent tells the powers of ten that a ratio lies between. -/
theorem leadingExponent_bounds :
    10 ^ r.leadingExponent ≤ r.value ∧ r.value < 10 ^ (r.leadingExponent + 1) := by
  have den' : (0 : ℚ) < r.denominator := by exact_mod_cast den
  rw [value, le_div_iff₀ den', div_lt_iff₀ den', leadingExponent]
  split
  · rename_i large
    obtain ⟨lower, upper⟩ := quotient_bounds den large
    have some_ := digitCount_pos (r.numerator / r.denominator)
    have exponent : (digitCount (r.numerator / r.denominator) : ℤ) - 1 =
        (digitCount (r.numerator / r.denominator) - 1 : ℕ) := by omega
    constructor
    · rw [exponent, zpow_natCast]
      exact_mod_cast lower
    · rw [sub_add_cancel, zpow_natCast]
      exact_mod_cast upper
  · rename_i small
    have less : r.numerator ≤ r.denominator - 1 := by omega
    obtain ⟨lower, upper⟩ := quotient_bounds num less
    have some_ := digitCount_pos ((r.denominator - 1) / r.numerator)
    have exponent : -(digitCount ((r.denominator - 1) / r.numerator) : ℤ) + 1 =
        -(digitCount ((r.denominator - 1) / r.numerator) - 1 : ℕ) := by omega
    constructor
    · have above : r.denominator ≤
          10 ^ digitCount ((r.denominator - 1) / r.numerator) * r.numerator := by omega
      rw [zpow_neg, zpow_natCast, inv_mul_le_iff₀ (by positivity)]
      exact_mod_cast above
    · have below : 10 ^ (digitCount ((r.denominator - 1) / r.numerator) - 1) * r.numerator <
          r.denominator := by omega
      rw [exponent, zpow_neg, zpow_natCast, lt_inv_mul_iff₀ (by positivity)]
      exact_mod_cast below

theorem scale_bounds {k : ℤ} {j : ℕ} (far : r.leadingExponent = k + j) :
    10 ^ j ≤ (r.scale k).numerator / (r.scale k).denominator ∧
      (r.scale k).numerator / (r.scale k).denominator < 10 ^ (j + 1) := by
  obtain ⟨lower, upper⟩ := leadingExponent_bounds num den
  have pos : 0 < (r.scale k).denominator := Nat.mul_pos den (Nat.pow_pos (by decide))
  have pos' : (0 : ℚ) < (r.scale k).denominator := by exact_mod_cast pos
  have power : (0 : ℚ) < 10 ^ k := by positivity
  have value : ((r.scale k).numerator : ℚ) / (r.scale k).denominator = r.value / 10 ^ k :=
    scale_value r k
  constructor
  · have bound : (10 : ℚ) ^ j ≤ (r.scale k).numerator / (r.scale k).denominator := by
      rw [value, le_div_iff₀ power, ← zpow_natCast, ← zpow_add₀ (by norm_num), add_comm, ← far]
      exact lower
    rw [le_div_iff₀ pos'] at bound
    rw [Nat.le_div_iff_mul_le pos]
    exact_mod_cast bound
  · have bound : ((r.scale k).numerator : ℚ) / (r.scale k).denominator < 10 ^ (j + 1) := by
      have exponent : ((j + 1 : ℕ) : ℤ) + k = k + j + 1 := by push_cast; ring
      rw [value, div_lt_iff₀ power, ← zpow_natCast, ← zpow_add₀ (by norm_num), exponent, ← far]
      exact upper
    rw [div_lt_iff₀ pos'] at bound
    rw [Nat.div_lt_iff_lt_mul pos]
    exact_mod_cast bound

omit num den in
theorem mem_neighbours {k : ℤ} {d : Decimal} (member : d ∈ r.neighbours k) :
    d = ⟨(r.scale k).numerator / (r.scale k).denominator, k⟩ ∨
      d = ⟨(r.scale k).numerator / (r.scale k).denominator + 1, k⟩ := by
  unfold neighbours at member
  dsimp only at member
  split at member
  · simpa using member
  · simpa [or_comm] using member

/-- The multiples of a power of ten next to a ratio lie between the powers of ten that the
ratio lies between, if these are multiples too. -/
theorem neighbours_bounds {k : ℤ} (fine : k ≤ r.leadingExponent) {d : Decimal}
    (member : d ∈ r.neighbours k) :
    d.exponent = k ∧ 10 ^ r.leadingExponent ≤ d.value ∧ d.value ≤ 10 ^ (r.leadingExponent + 1) := by
  obtain ⟨j, far⟩ : ∃ j : ℕ, r.leadingExponent = k + j :=
    ⟨(r.leadingExponent - k).toNat, by omega⟩
  obtain ⟨least, most⟩ := scale_bounds num den far
  let below := (r.scale k).numerator / (r.scale k).denominator
  have power : (0 : ℚ) ≤ 10 ^ k := by positivity
  have lowest : (10 : ℚ) ^ r.leadingExponent ≤ below * 10 ^ k := by
    rw [far, add_comm, zpow_add₀ (by norm_num), zpow_natCast]
    apply mul_le_mul_of_nonneg_right _ power
    exact_mod_cast least
  have highest : ((below + 1 : ℕ) : ℚ) * 10 ^ k ≤ 10 ^ (r.leadingExponent + 1) := by
    have exponent : k + j + 1 = (j + 1 : ℕ) + k := by push_cast; ring
    rw [far, exponent, zpow_add₀ (by norm_num), zpow_natCast]
    apply mul_le_mul_of_nonneg_right _ power
    exact_mod_cast most
  have next : (below : ℚ) * 10 ^ k ≤ (below + 1 : ℕ) * 10 ^ k := by
    apply mul_le_mul_of_nonneg_right _ power
    exact_mod_cast Nat.le_succ below
  rcases mem_neighbours member with rfl | rfl
  · exact ⟨rfl, lowest, next.trans highest⟩
  · exact ⟨rfl, lowest.trans next, highest⟩

theorem candidates_bounds {d : Decimal} (member : d ∈ r.candidates) :
    d.exponent ≤ r.leadingExponent ∧ 10 ^ r.leadingExponent ≤ d.value ∧
      d.value ≤ 10 ^ (r.leadingExponent + 1) := by
  obtain ⟨n, -, near⟩ := List.mem_flatMap.mp member
  have fine : r.leadingExponent - n ≤ r.leadingExponent := by omega
  obtain ⟨exponent, bounds⟩ := neighbours_bounds num den fine near
  exact ⟨exponent.trans_le fine, bounds⟩

end Bounds

theorem ofBinary_pos {m : ℕ} (e : ℤ) (pos : 0 < m) :
    0 < (ofBinary m e).numerator ∧ 0 < (ofBinary m e).denominator :=
  ⟨Nat.mul_pos pos (Nat.pow_pos (by decide)), Nat.pow_pos (by decide)⟩

theorem ofBinary_value (m : ℕ) (e : ℤ) : (ofBinary m e).value = m * 2 ^ e := by
  rw [value, ofBinary, zpow_eq_div two_ne_zero]
  simp only [Nat.pow_eq, Nat.cast_mul, Nat.cast_pow, Nat.cast_ofNat]
  ring

end Ratio

theorem exactDecimal_value (m : ℕ) (e : ℤ) : (exactDecimal m e).value = m * 2 ^ e := by
  rw [Decimal.value, exactDecimal]
  simp only [Nat.pow_eq, Nat.cast_mul, Nat.cast_pow, Nat.cast_ofNat]
  rcases Int.le_total 0 e with whole | fraction
  · have none_ : (-e).toNat = 0 := by omega
    rw [none_, min_eq_right whole, ← zpow_natCast, Int.toNat_of_nonneg whole]
    simp
  · have none_ : e.toNat = 0 := by omega
    have ten : (10 : ℚ) ^ e = 2 ^ e * 5 ^ e := by
      rw [← mul_zpow]
      norm_num
    have five : (5 : ℚ) ^ (-e).toNat * 5 ^ e = 1 := by
      rw [← zpow_natCast, Int.toNat_of_nonneg (by omega), ← zpow_add₀ (by norm_num), neg_add_cancel,
        zpow_zero]
    rw [none_, min_eq_left fraction, ten]
    calc (m : ℚ) * 2 ^ 0 * 5 ^ (-e).toNat * (2 ^ e * 5 ^ e)
        = m * 2 ^ e * (5 ^ (-e).toNat * 5 ^ e) := by ring
      _ = m * 2 ^ e := by rw [five, mul_one]

section Shortest

variable {x : Float} {m : ℕ} {e : ℤ} {pos : 0 < m}
  (finite : x.toModel.unpack = .finite .positive m e pos)
include finite

theorem exactDecimal_toFloat : (exactDecimal m e).toFloat = x := by
  have canonical := canonical_of_unpack finite
  have value := exactDecimal_value m e
  have least : (2 : ℚ) ^ (-1074 : ℤ) ≤ (exactDecimal m e).value := value ▸ canonical.least_le
  have positive : 0 < (exactDecimal m e).value := lt_of_lt_of_le (by positivity) least
  have some_ : (exactDecimal m e).digits ≠ 0 := (Decimal.digits_pos positive).ne'
  have small : (exactDecimal m e).exponent ≤ 2048 := (min_le_right e 0).trans (by decide)
  have rounded : UnpackedFloat.ofScientific Format.binary64 (exactDecimal m e).digits
      (exactDecimal m e).exponent = .finite .positive m e pos := by
    rw [ofScientific_eq some_ least small, ← Decimal.value, value, canonical.nearest]
  rw [Decimal.toFloat, ofDecimal, Float.Model.ofScientific, rounded, ← finite, pack_unpack]

/-- The shortest decimal of a double is read as that double. -/
theorem shortest_toFloat : (shortest x m e).toFloat = x := by
  rw [shortest]
  cases found : (Ratio.ofBinary m e).candidates.find? fun d => d.toFloat = x with
  | none => exact exactDecimal_toFloat finite
  | some d => simpa using List.find?_some found

end Shortest

theorem shortest_bounds (x : Float) {m : ℕ} (e : ℤ) (pos : 0 < m) :
    (shortest x m e).exponent ≤ max (Ratio.ofBinary m e).leadingExponent 0 ∧
    10 ^ (Ratio.ofBinary m e).leadingExponent ≤ (shortest x m e).value ∧
      (shortest x m e).value ≤ 10 ^ ((Ratio.ofBinary m e).leadingExponent + 1) := by
  obtain ⟨num, den⟩ := Ratio.ofBinary_pos e pos
  rw [shortest]
  cases found : (Ratio.ofBinary m e).candidates.find? fun d => d.toFloat = x with
  | none =>
    have bounds := Ratio.leadingExponent_bounds num den
    rw [Ratio.ofBinary_value, ← exactDecimal_value] at bounds
    exact ⟨(min_le_right e 0).trans (le_max_right _ _), bounds.1, bounds.2.le⟩
  | some d =>
    have bounds := Ratio.candidates_bounds num den (List.mem_of_find?_eq_some found)
    exact ⟨bounds.1.trans (le_max_left _ _), bounds.2⟩

end LoopLang.Number
