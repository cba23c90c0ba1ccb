import LoopLang.Number.Shortest
import Mathlib

/-!
# Rounding to a double

A double is computed from a decimal by one product or quotient, which keeps two bits for
what it cuts off, and those bits are all that rounding needs. So the double depends on the
number that the decimal stands for only, however its digits and its exponent are chosen.
-/
namespace LoopLang.Number

open Float.Model Float.Model.UnpackedFloat

/-- A number cut to an integer, with the two bits that are kept of the rest. -/
def extended (y : ℚ) : ExtendedMantissa :=
  ⟨⌊y⌋₊, decide (1 / 2 ≤ y - ⌊y⌋₊), decide (y - ⌊y⌋₊ ≠ 0 ∧ y - ⌊y⌋₊ ≠ 1 / 2)⟩

theorem extended_add (m : ℕ) {f : ℚ} (lower : 0 ≤ f) (upper : f < 1) {half rest : Bool}
    (isHalf : 1 / 2 ≤ f ↔ half = true) (isRest : (f ≠ 0 ∧ f ≠ 1 / 2) ↔ rest = true) :
    extended (m + f) = ⟨m, half, rest⟩ := by
  have floor : ⌊(m : ℚ) + f⌋₊ = m := by
    rw [Nat.floor_eq_iff (by positivity)]
    constructor <;> linarith
  have left : (m : ℚ) + f - m = f := by ring
  rw [extended, floor, left]
  simp only [isHalf, isRest, Bool.decide_eq_true]

theorem extended_natCast (m : ℕ) : extended m = .ofMantissaAndAccuracy m .exact := by
  rw [← add_zero (m : ℚ)]
  apply extended_add m (le_refl 0) one_pos <;> norm_num

theorem ofMantissaAndAccuracy_fraction (m : ℕ) {num den : ℕ} (less : num < den) :
    ExtendedMantissa.ofMantissaAndAccuracy m (accuracyOfFraction num den) =
      ⟨m, decide (den ≤ 2 * num), decide (num ≠ 0 ∧ 2 * num ≠ den)⟩ := by
  rw [accuracyOfFraction]
  by_cases zero : num = 0
  · simp [zero, ExtendedMantissa.ofMantissaAndAccuracy]
    omega
  · rw [if_neg zero]
    rcases Nat.lt_trichotomy (2 * num) den with lt | eq | gt
    · simp [Nat.compare_eq_lt.mpr lt, ExtendedMantissa.ofMantissaAndAccuracy, zero, lt, lt.ne]
    · simp [ExtendedMantissa.ofMantissaAndAccuracy, eq]
    · simp [Nat.compare_eq_gt.mpr gt, ExtendedMantissa.ofMantissaAndAccuracy, zero, gt.le, gt.ne']

theorem extended_quotient (m : ℕ) {num den : ℕ} (less : num < den) :
    extended (m + num / den) = .ofMantissaAndAccuracy m (accuracyOfFraction num den) := by
  have pos : (0 : ℚ) < den := by exact_mod_cast Nat.zero_lt_of_lt less
  have upper : (num : ℚ) / den < 1 := by
    rw [div_lt_one pos]
    exact_mod_cast less
  have half : (1 : ℚ) / 2 ≤ num / den ↔ den ≤ 2 * num := by
    rw [div_le_div_iff₀ two_pos pos]
    norm_cast
    omega
  have middle : (num : ℚ) / den = 1 / 2 ↔ 2 * num = den := by
    rw [div_eq_div_iff pos.ne' two_ne_zero]
    norm_cast
    omega
  have none_ : (num : ℚ) / den = 0 ↔ num = 0 := by
    rw [div_eq_zero_iff, or_iff_left pos.ne', Nat.cast_eq_zero]
  rw [ofMantissaAndAccuracy_fraction m less]
  apply extended_add m (by positivity) upper
  · rw [half, decide_eq_true_iff]
  · rw [ne_eq, ne_eq, none_, middle, decide_eq_true_iff]

theorem exists_floor {y : ℚ} (nonneg : 0 ≤ y) : ∃ (m : ℕ) (f : ℚ), 0 ≤ f ∧ f < 1 ∧ y = m + f := by
  refine ⟨⌊y⌋₊, y - ⌊y⌋₊, ?_, ?_, by ring⟩
  · linarith [Nat.floor_le nonneg]
  · linarith [Nat.lt_floor_add_one y]

theorem extended_half {y : ℚ} (nonneg : 0 ≤ y) : (extended y).shiftRightOne = extended (y / 2) := by
  obtain ⟨m, f, lower, upper, rfl⟩ := exists_floor nonneg
  have whole : extended (m + f) = ⟨m, decide (1 / 2 ≤ f), decide (f ≠ 0 ∧ f ≠ 1 / 2)⟩ := by
    apply extended_add m lower upper <;> simp
  have sticky : f ≠ 0 ↔ (decide (1 / 2 ≤ f) || decide (f ≠ 0 ∧ f ≠ 1 / 2)) = true := by
    simp only [Bool.or_eq_true, decide_eq_true_eq]
    constructor
    · intro some_
      by_cases middle : f = 1 / 2
      · exact .inl middle.ge
      · exact .inr ⟨some_, middle⟩
    · rintro (half | ⟨some_, -⟩)
      · linarith
      · exact some_
  rw [whole, ExtendedMantissa.shiftRightOne]
  symm
  rcases Nat.even_or_odd' m with ⟨k, rfl | rfl⟩
  · have cut : ((2 * k : ℕ) + f) / 2 = k + f / 2 := by push_cast; ring
    have floor : 2 * k / 2 = k := by omega
    rw [cut, floor]
    apply extended_add k (by linarith) (by linarith)
    · simp
      linarith
    · rw [← sticky]
      constructor
      · rintro ⟨some_, -⟩
        simpa using some_
      · intro some_
        exact ⟨by simpa using some_, by linarith⟩
  · have cut : ((2 * k + 1 : ℕ) + f) / 2 = k + (1 + f) / 2 := by push_cast; ring
    have floor : (2 * k + 1) / 2 = k := by omega
    rw [cut, floor]
    apply extended_add k (by linarith) (by linarith)
    · have odd : (2 * k + 1) % 2 = 1 := by omega
      simp [odd]
      linarith
    · rw [← sticky]
      constructor
      · rintro ⟨-, other⟩ rfl
        apply other
        norm_num
      · intro some_
        exact ⟨by linarith, fun same => some_ (by linarith)⟩

theorem extended_shift {y : ℚ} (nonneg : 0 ≤ y) (n : ℕ) :
    extended y >>> n = extended (y / 2 ^ n) := by
  change n.repeat ExtendedMantissa.shiftRightOne (extended y) = _
  induction n with
  | zero => rw [Nat.repeat, pow_zero, div_one]
  | succ n ih => rw [Nat.repeat, ih, extended_half (by positivity), div_div, ← pow_succ]

/-- The exponent of the unit that a number is rounded to. -/
def unit (q : ℚ) : ℤ :=
  Format.binary64.targetExponent (Int.log 2 q + 1)

theorem unit_eq (q : ℚ) : unit q = max (Int.log 2 q - 52) (-1074) := by
  change max (Int.log 2 q + 1 - 53) (-1074) = _
  congr 1
  ring

/-- The double nearest to a positive number, a tie going to the even significand. -/
def nearest (sign : Sign) (q : ℚ) : UnpackedFloat :=
  let rounded := (extended (q / 2 ^ unit q)).roundedMantissa
  let shifted := shiftToTargetExponent Format.binary64 rounded (unit q) .exact
  if h : shifted.1.mantissa = 0 then .zero sign
  else .finite sign shifted.1.mantissa shifted.2 (Nat.pos_of_ne_zero h)

theorem log_eq {q : ℚ} (pos : 0 < q) {k : ℤ} (lower : (2 : ℚ) ^ k ≤ q) (upper : q < 2 ^ (k + 1)) :
    Int.log 2 q = k := by
  apply le_antisymm
  · have below := (Int.lt_zpow_iff_log_lt one_lt_two pos).mp (by exact_mod_cast upper)
    omega
  · exact (Int.zpow_le_iff_le_log one_lt_two pos).mp (by exact_mod_cast lower)

theorem zpow_log2_le {m : ℕ} (some_ : m ≠ 0) : (2 : ℚ) ^ (m.log2 : ℤ) ≤ m := by
  rw [zpow_natCast]
  exact_mod_cast Nat.log2_self_le some_

theorem lt_zpow_log2 (m : ℕ) : (m : ℚ) + 1 ≤ 2 ^ ((m.log2 : ℤ) + 1) := by
  have below : m + 1 ≤ 2 ^ (m.log2 + 1) := Nat.lt_log2_self
  have exponent : (m.log2 : ℤ) + 1 = (m.log2 + 1 : ℕ) := by push_cast; rfl
  rw [exponent, zpow_natCast]
  exact_mod_cast below

theorem log_of_floor {q : ℚ} {e : ℤ} (large : 2 ^ e ≤ q) :
    totalExponent ⌊q / 2 ^ e⌋₊ e = Int.log 2 q + 1 := by
  have unit_pos : (0 : ℚ) < 2 ^ e := by positivity
  have pos : 0 < q := lt_of_lt_of_le unit_pos large
  have some_ : ⌊q / 2 ^ e⌋₊ ≠ 0 := by
    rw [← Nat.pos_iff_ne_zero, Nat.floor_pos]
    exact (one_le_div unit_pos).mpr large
  have floor := Nat.floor_le (show 0 ≤ q / 2 ^ e by positivity)
  have next := Nat.lt_floor_add_one (q / 2 ^ e)
  have log : Int.log 2 q = ⌊q / 2 ^ e⌋₊.log2 + e := by
    apply log_eq pos
    · rw [zpow_add₀ two_ne_zero, ← le_div_iff₀ unit_pos]
      exact (zpow_log2_le some_).trans floor
    · rw [add_right_comm, zpow_add₀ two_ne_zero, ← div_lt_iff₀ unit_pos]
      exact next.trans_le (lt_zpow_log2 _)
  rw [log, totalExponent]
  ring

theorem zpow_unit_le {q : ℚ} (least : 2 ^ (-1074 : ℤ) ≤ q) : 2 ^ unit q ≤ q := by
  have pos : 0 < q := lt_of_lt_of_le (by positivity) least
  rcases max_cases (Int.log 2 q - 52) (-1074) with ⟨isMax, -⟩ | ⟨isMax, -⟩
  · rw [unit_eq, isMax]
    calc (2 : ℚ) ^ (Int.log 2 q - 52) ≤ 2 ^ Int.log 2 q :=
          zpow_le_zpow_right₀ one_le_two (by omega)
      _ ≤ q := Int.zpow_log_le_self one_lt_two pos
  · rw [unit_eq, isMax]
    exact least

section Shifted

variable {q : ℚ} {m : ℕ} {e : ℤ} {accuracy : Accuracy}
  (cut : ExtendedMantissa.ofMantissaAndAccuracy m accuracy = extended (q / 2 ^ e))
  (least : 2 ^ (-1074 : ℤ) ≤ q) (fine : e ≤ unit q)
include cut least fine

theorem shiftToTargetExponent_eq :
    shiftToTargetExponent Format.binary64 m e accuracy = (extended (q / 2 ^ unit q), unit q) := by
  have mantissa : m = ⌊q / 2 ^ e⌋₊ := by
    have same := congrArg ExtendedMantissa.mantissa cut
    cases accuracy with
    | exact => exact same
    | inexact order => cases order <;> exact same
  have large : 2 ^ e ≤ q := (zpow_le_zpow_right₀ one_le_two fine).trans (zpow_unit_le least)
  have target : Format.binary64.targetExponent (totalExponent m e) = unit q := by
    rw [mantissa, log_of_floor large, unit]
  have amount : e + (unit q - e).toNat = unit q := by omega
  have pos : 0 < q := lt_of_lt_of_le (by positivity) least
  rw [shiftToTargetExponent, target, shiftToExponent, cut]
  simp only [amount]
  rw [extended_shift (by positivity), div_div, ← zpow_natCast, ← zpow_add₀ two_ne_zero, amount]

/-- Rounding goes by the number that was cut, not by where it was cut. -/
theorem roundWithAccuracy_eq (sign : Sign) :
    roundWithAccuracy Format.binary64 sign m e accuracy = nearest sign q := by
  rw [roundWithAccuracy, shiftToTargetExponent_eq cut least fine]
  rfl

end Shifted

section Operations

variable {m₁ m₂ : ℕ} {e₁ e₂ : ℤ} (pos₁ : 0 < m₁) (pos₂ : 0 < m₂)

theorem mul_eq (least : (2 : ℚ) ^ (-1074 : ℤ) ≤ (m₁ * 2 ^ e₁) * (m₂ * 2 ^ e₂))
    (fine : e₁ + e₂ ≤ unit ((m₁ * 2 ^ e₁) * (m₂ * 2 ^ e₂))) :
    UnpackedFloat.mul Format.binary64 (.finite .positive m₁ e₁ pos₁)
      (.finite .positive m₂ e₂ pos₂) =
      nearest .positive ((m₁ * 2 ^ e₁) * (m₂ * 2 ^ e₂)) := by
  have product : ((m₁ : ℚ) * 2 ^ e₁) * (m₂ * 2 ^ e₂) = (m₁ * m₂ : ℕ) * 2 ^ (e₁ + e₂) := by
    rw [zpow_add₀ two_ne_zero]
    push_cast
    ring
  rw [product] at least fine ⊢
  apply roundWithAccuracy_eq _ least fine
  rw [mul_div_assoc, div_self (by positivity), mul_one, extended_natCast]

include pos₁ pos₂ in
theorem log_quotient : totalExponent m₁ e₁ - totalExponent m₂ e₂ - 1 ≤
    Int.log 2 (((m₁ : ℚ) * 2 ^ e₁) / (m₂ * 2 ^ e₂)) := by
  have num : (2 : ℚ) ^ (m₁.log2 + e₁ : ℤ) ≤ m₁ * 2 ^ e₁ := by
    rw [zpow_add₀ two_ne_zero]
    exact mul_le_mul_of_nonneg_right (zpow_log2_le pos₁.ne') (by positivity)
  have den : (m₂ : ℚ) * 2 ^ e₂ ≤ 2 ^ (m₂.log2 + 1 + e₂ : ℤ) := by
    rw [zpow_add₀ two_ne_zero]
    exact mul_le_mul_of_nonneg_right (by linarith [lt_zpow_log2 m₂]) (by positivity)
  have pos : (0 : ℚ) < m₂ * 2 ^ e₂ := by positivity
  have bound : (2 : ℚ) ^ (totalExponent m₁ e₁ - totalExponent m₂ e₂ - 1) ≤
      (m₁ * 2 ^ e₁) / (m₂ * 2 ^ e₂) := by
    rw [le_div_iff₀ pos]
    calc (2 : ℚ) ^ (totalExponent m₁ e₁ - totalExponent m₂ e₂ - 1) * (m₂ * 2 ^ e₂)
        ≤ 2 ^ (totalExponent m₁ e₁ - totalExponent m₂ e₂ - 1) * 2 ^ (m₂.log2 + 1 + e₂ : ℤ) :=
          mul_le_mul_of_nonneg_left den (by positivity)
      _ = 2 ^ (m₁.log2 + e₁ : ℤ) := by
        rw [← zpow_add₀ two_ne_zero, totalExponent, totalExponent]
        congr 1
        ring
      _ ≤ m₁ * 2 ^ e₁ := num
  exact (Int.zpow_le_iff_le_log one_lt_two (by positivity)).mp (by exact_mod_cast bound)

theorem div_eq (least : (2 : ℚ) ^ (-1074 : ℤ) ≤ (m₁ * 2 ^ e₁) / (m₂ * 2 ^ e₂)) :
    UnpackedFloat.div Format.binary64 (.finite .positive m₁ e₁ pos₁)
      (.finite .positive m₂ e₂ pos₂) =
      nearest .positive ((m₁ * 2 ^ e₁) / (m₂ * 2 ^ e₂)) := by
  have log : totalExponent m₁ e₁ - totalExponent m₂ e₂ - 1 ≤
      Int.log 2 (((m₁ : ℚ) * 2 ^ e₁) / (m₂ * 2 ^ e₂)) := log_quotient pos₁ pos₂
  let target := min (e₁ - e₂) (Format.binary64.targetExponent
    (totalExponent m₁ e₁ - totalExponent m₂ e₂))
  let whole := m₁ <<< (e₁ - e₂ - target).toNat
  change roundWithAccuracy Format.binary64 .positive (whole / m₂) target
    (accuracyOfFraction (whole % m₂) m₂) = _
  have scaled : (m₁ * 2 ^ e₁) / (m₂ * 2 ^ e₂) / 2 ^ target =
      ((whole / m₂ : ℕ) : ℚ) + (whole % m₂ : ℕ) / m₂ := by
    have below : target ≤ e₁ - e₂ := min_le_left _ _
    have amount : ((e₁ - e₂ - target).toNat : ℤ) = e₁ - e₂ - target :=
      Int.toNat_of_nonneg (by omega)
    have value : (whole : ℚ) = m₁ * 2 ^ (e₁ - e₂ - target) := by
      rw [← amount, zpow_natCast]
      simp only [whole, Nat.shiftLeft_eq, Nat.cast_mul, Nat.cast_pow, Nat.cast_ofNat]
    have parts : (whole : ℚ) = m₂ * (whole / m₂ : ℕ) + (whole % m₂ : ℕ) := by
      exact_mod_cast (Nat.div_add_mod whole m₂).symm
    have some_ : (m₂ : ℚ) ≠ 0 := by positivity
    calc ((m₁ : ℚ) * 2 ^ e₁) / (m₂ * 2 ^ e₂) / 2 ^ target = whole / m₂ := by
          rw [value, zpow_sub₀ two_ne_zero, zpow_sub₀ two_ne_zero]
          field_simp
      _ = (m₂ * (whole / m₂ : ℕ) + (whole % m₂ : ℕ)) / m₂ := by rw [← parts]
      _ = (whole / m₂ : ℕ) + (whole % m₂ : ℕ) / m₂ := by field_simp
  apply roundWithAccuracy_eq _ least
  · rw [unit_eq]
    have fine : target ≤ max (totalExponent m₁ e₁ - totalExponent m₂ e₂ - 53) (-1074) :=
      min_le_right _ _
    omega
  · rw [scaled, extended_quotient _ (Nat.mod_lt _ pos₂)]

end Operations

theorem ten_pow_le {k : ℤ} (neg : k ≤ 0) : (10 : ℚ) ^ k ≤ 2 ^ (3 * k) := by
  obtain ⟨j, rfl⟩ : ∃ j : ℕ, k = -j := ⟨(-k).toNat, by omega⟩
  have eight : (2 : ℚ) ^ (3 * (-j : ℤ)) = ((8 : ℚ) ^ j)⁻¹ := by
    rw [zpow_mul, zpow_neg, zpow_natCast]
    norm_num
  rw [eight, zpow_neg, zpow_natCast]
  exact inv_anti₀ (by positivity) (pow_le_pow_left₀ (by norm_num) (by norm_num) j)

theorem exponent_large {n : ℕ} {k : ℤ} (least : (2 : ℚ) ^ (-1074 : ℤ) ≤ n * 10 ^ k) :
    -(2048 + n.log2 : ℤ) ≤ k := by
  by_contra small
  have bound : (n : ℚ) * 10 ^ k ≤ 2 ^ ((n.log2 : ℤ) + 1 + 3 * k) := by
    rw [zpow_add₀ two_ne_zero]
    apply mul_le_mul _ (ten_pow_le (by omega)) (by positivity) (by positivity)
    linarith [lt_zpow_log2 n]
  have powers := (zpow_le_zpow_iff_right₀ one_lt_two).mp (least.trans bound)
  omega

section Decimal

variable {n : ℕ}

theorem whole_product (n j : ℕ) : (n : ℚ) * 10 ^ (j : ℤ) =
    ((n <<< Format.binary64.mantissaBits : ℕ) * 2 ^ (-53 : ℤ)) * ((10 ^ j : ℕ) * 2 ^ (0 : ℤ)) := by
  rw [Nat.shiftLeft_eq, zpow_natCast]
  simp only [Format.mantissaBits]
  push_cast
  norm_num
  ring

theorem part_quotient (n j : ℕ) : (n : ℚ) * 10 ^ (-j : ℤ) =
    (n * 2 ^ (0 : ℤ)) / ((10 ^ j : ℕ) * 2 ^ (0 : ℤ)) := by
  rw [zpow_neg, zpow_natCast]
  push_cast
  ring

theorem neg_le_unit {q : ℚ} (one : 1 ≤ q) : -53 ≤ unit q := by
  have log : 0 ≤ Int.log 2 q := by
    apply (Int.zpow_le_iff_le_log one_lt_two (lt_of_lt_of_le one_pos one)).mp
    simpa using one
  rw [unit_eq]
  omega

/-- A decimal within the range of doubles is rounded to the nearest one. -/
theorem ofScientific_eq {k : ℤ} (some_ : n ≠ 0)
    (least : (2 : ℚ) ^ (-1074 : ℤ) ≤ n * 10 ^ k) (bounded : k ≤ 2048) :
    UnpackedFloat.ofScientific Format.binary64 n k = nearest .positive (n * 10 ^ k) := by
  have small : ¬ k < -((2 ^ Format.binary64.exponentBits : ℤ) + n.log2) := by
    have large := exponent_large least
    norm_num
    omega
  rw [UnpackedFloat.ofScientific, dif_neg some_, if_neg (by simpa using bounded), if_neg small]
  by_cases nonneg : 0 ≤ k
  · obtain ⟨j, rfl⟩ := Int.eq_ofNat_of_zero_le nonneg
    have one : (1 : ℚ) ≤ n * 10 ^ (j : ℤ) := by
      rw [zpow_natCast]
      exact_mod_cast Nat.mul_pos (Nat.pos_of_ne_zero some_) (by positivity : 0 < 10 ^ j)
    have fine : -53 + 0 ≤ unit (n * 10 ^ (j : ℤ)) := neg_le_unit one
    rw [if_pos nonneg]
    rw [whole_product] at least fine ⊢
    exact mul_eq _ _ least fine
  · obtain ⟨j, rfl⟩ : ∃ j : ℕ, k = -j := ⟨(-k).toNat, by omega⟩
    rw [if_neg nonneg]
    rw [part_quotient] at least ⊢
    have exponent : (- -(j : ℤ)).toNat = j := by omega
    simp only [exponent]
    exact div_eq _ _ least

end Decimal

theorem ofDecimal_eq {n n' : ℕ} {k k' : ℤ} (same : (n : ℚ) * 10 ^ k = n' * 10 ^ k')
    (least : (2 : ℚ) ^ (-1074 : ℤ) ≤ n * 10 ^ k) (bounded : k ≤ 2048) (bounded' : k' ≤ 2048) :
    ofDecimal n k = ofDecimal n' k' := by
  have pos : (0 : ℚ) < n * 10 ^ k := lt_of_lt_of_le (by positivity) least
  have some_ : n ≠ 0 := by
    rintro rfl
    simp at pos
  have some_' : n' ≠ 0 := by
    rintro rfl
    simp [same] at pos
  rw [ofDecimal, ofDecimal, Float.Model.ofScientific, Float.Model.ofScientific,
    ofScientific_eq some_ least bounded, ofScientific_eq some_' (same ▸ least) bounded', same]

end LoopLang.Number
