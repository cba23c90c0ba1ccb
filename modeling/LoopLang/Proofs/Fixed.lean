import LoopLang.Proofs.Decimals

/-!
# Numbers without an exponent

A double that is zero, or at least a ten thousandth and below ten to the sixteenth, is
written with digits on both sides of a point, and read back from them.
-/
namespace LoopLang.Number

open Float.Model Float.Model.UnpackedFloat

/-- Whether a number is zero or in the range that is written without an exponent. -/
def Fixed (x : Float) : Prop :=
  (x == 0) = true ∨ ofDecimal 1 (-4) ≤ x ∧ x < ofDecimal 1 16

/-- The double nearest to a ten thousandth is a little above it. -/
theorem unpack_least : ∃ pos, (ofDecimal 1 (-4)).toModel.unpack =
    .finite .positive 7378697629483821 (-66) pos :=
  ⟨by decide, rfl⟩

theorem unpack_limit : ∃ pos, (ofDecimal 1 16).toModel.unpack =
    .finite .positive 5000000000000000 1 pos :=
  ⟨by decide, rfl⟩

theorem canonical_least : Canonical 7378697629483821 (-66) := by
  obtain ⟨_, unpack⟩ := unpack_least
  exact canonical_of_unpack unpack

theorem canonical_limit : Canonical 5000000000000000 1 := by
  obtain ⟨_, unpack⟩ := unpack_limit
  exact canonical_of_unpack unpack

theorem le_iff (x y : Float) : x ≤ y ↔ x.toModel.unpack.le y.toModel.unpack = true :=
  decide_eq_true_iff

theorem lt_iff (x y : Float) : x < y ↔ x.toModel.unpack.lt y.toModel.unpack = true :=
  decide_eq_true_iff

theorem ofDecimal_nonneg (n : ℕ) (k : ℤ) : 0 ≤ ofDecimal n k :=
  (le_iff _ _).mpr (unpack_ofDecimal_unsigned n k).zero_le

theorem least_le_of_range {q : ℚ} (lower : 10 ^ (-4 : ℤ) ≤ q) : 2 ^ (-1074 : ℤ) ≤ q := by
  have power : (2 : ℚ) ^ (-1074 : ℤ) ≤ 2 ^ (-14 : ℤ) :=
    zpow_le_zpow_right₀ one_le_two (by norm_num)
  have close : (2 : ℚ) ^ (-14 : ℤ) ≤ 10 ^ (-4 : ℤ) := by norm_num
  exact (power.trans close).trans lower

section Range

variable {x : Float} {sign : Sign} {m : ℕ} {e : ℤ} {pos : 0 < m}

theorem unpack_of_zero (zero : (x == 0) = true) : ∃ sign, x.toModel.unpack = .zero sign := by
  have same : UnpackedFloat.beq x.toModel.unpack (.zero .positive) = true := zero
  rw [beq_iff_ne_notANumber_and_eq] at same
  rcases same with ⟨-, -, plus | ⟨plus, -⟩ | ⟨minus, -⟩⟩
  · exact ⟨_, plus⟩
  · exact ⟨_, plus⟩
  · exact ⟨_, minus⟩

theorem unpack_of_range (lower : ofDecimal 1 (-4) ≤ x) (upper : x < ofDecimal 1 16) :
    ∃ m e pos, x.toModel.unpack = .finite .positive m e pos := by
  obtain ⟨_, least⟩ := unpack_least
  obtain ⟨_, limit⟩ := unpack_limit
  have below := (le_iff _ _).mp lower
  have above := (lt_iff _ _).mp upper
  rw [least, UnpackedFloat.le] at below
  rw [limit, UnpackedFloat.lt] at above
  cases unpack : x.toModel.unpack with
  | notANumber =>
    rw [unpack] at below
    cases below
  | zero sign =>
    rw [unpack] at below
    cases below
  | infinity sign =>
    rw [unpack] at below above
    cases sign
    · cases below
    · cases above
  | finite sign m e pos =>
    rw [unpack] at below
    cases sign
    · cases below
    · exact ⟨m, e, pos, rfl⟩

theorem value_of_range (finite : x.toModel.unpack = .finite .positive m e pos)
    (lower : ofDecimal 1 (-4) ≤ x) (upper : x < ofDecimal 1 16) :
    10 ^ (-4 : ℤ) ≤ (m : ℚ) * 2 ^ e ∧ (m : ℚ) * 2 ^ e < 10 ^ (16 : ℤ) := by
  obtain ⟨_, least⟩ := unpack_least
  obtain ⟨_, limit⟩ := unpack_limit
  have canonical := canonical_of_unpack finite
  have below := (le_iff _ _).mp lower
  have above := (lt_iff _ _).mp upper
  rw [least, finite] at below
  rw [limit, finite] at above
  have order : ((compare (-66) e).then (compare 7378697629483821 m)).isLE = true := below
  have order' : (compare e 1).then (compare m 5000000000000000) = .lt := by
    simpa [UnpackedFloat.lt, UnpackedFloat.compare] using above
  constructor
  · refine le_trans ?_ (canonical_least.le_of_compare canonical order)
    norm_num
  · refine lt_of_lt_of_eq (canonical.lt_of_compare canonical_limit order') ?_
    norm_num

theorem abs_of_finite (finite : x.toModel.unpack = .finite .positive m e pos) : x.abs = x := by
  have same : x.toModel.abs = x.toModel := by
    rw [Float.Model.abs, finite, UnpackedFloat.abs, ← finite, pack_unpack]
  rw [Float.abs, same]

theorem ofDecimal_of_power (finite : x.toModel.unpack = .finite .positive m e pos) {k : ℤ}
    (same : (shortest x m e).value = 10 ^ k) (large : (2 : ℚ) ^ (-1074 : ℤ) ≤ 10 ^ k)
    (bounded : (shortest x m e).exponent ≤ 2048) (bounded' : k ≤ 2048) : ofDecimal 1 k = x := by
  rw [← shortest_toFloat finite, Decimal.toFloat]
  apply ofDecimal_eq _ _ bounded' bounded
  · rw [← Decimal.value, same, Nat.cast_one, one_mul]
  · rwa [Nat.cast_one, one_mul]

theorem point_of_range (finite : x.toModel.unpack = .finite .positive m e pos)
    (least : 10 ^ (-4 : ℤ) ≤ (m : ℚ) * 2 ^ e) (limit : (m : ℚ) * 2 ^ e < 10 ^ (16 : ℤ)) :
    (shortest x m e).exponent ≤ 15 ∧ 10 ^ (-4 : ℤ) ≤ (shortest x m e).value ∧
      (shortest x m e).value < 10 ^ (16 : ℤ) := by
  obtain ⟨num, den⟩ := Ratio.ofBinary_pos e pos
  obtain ⟨lower, upper⟩ := Ratio.leadingExponent_bounds num den
  rw [Ratio.ofBinary_value] at lower upper
  obtain ⟨bounded, above, below⟩ := shortest_bounds x e pos
  have ten : (1 : ℚ) < 10 := by norm_num
  have small : (Ratio.ofBinary m e).leadingExponent < 16 :=
    (zpow_lt_zpow_iff_right₀ ten).mp (lower.trans_lt limit)
  have large : -4 < (Ratio.ofBinary m e).leadingExponent + 1 :=
    (zpow_lt_zpow_iff_right₀ ten).mp (least.trans_lt upper)
  refine ⟨by omega, ?_, lt_of_le_of_ne ?_ ?_⟩
  · exact (zpow_le_zpow_right₀ ten.le (by omega)).trans above
  · exact below.trans (zpow_le_zpow_right₀ ten.le (by omega))
  · intro same
    -- The limit is a double of its own, so no decimal for it is read as a smaller one.
    have large : (2 : ℚ) ^ (-1074 : ℤ) ≤ 10 ^ (16 : ℤ) := least_le_of_range (by norm_num)
    have read := ofDecimal_of_power finite same large (by omega) (by decide)
    obtain ⟨_, unpack⟩ := unpack_limit
    rw [read, finite] at unpack
    cases unpack
    norm_num at limit

theorem positional_of_range (finite : x.toModel.unpack = .finite .positive m e pos)
    (least : 10 ^ (-4 : ℤ) ≤ (m : ℚ) * 2 ^ e) (limit : (m : ℚ) * 2 ^ e < 10 ^ (16 : ℤ)) :
    ∃ whole fraction q, Positional ((shortest x m e).spread.layOut standard) q whole fraction ∧
      ofDecimal (digitsValue (whole ++ fraction)) (-fraction.length) = x := by
  obtain ⟨bounded, above, below⟩ := point_of_range finite least limit
  have positive : 0 < (shortest x m e).value := lt_of_lt_of_le (by positivity) above
  have stands := Decimal.spread_standFor (Decimal.digits_pos positive)
  have ten : (1 : ℚ) < 10 := by norm_num
  have first : -4 < (shortest x m e).spread.point :=
    (zpow_lt_zpow_iff_right₀ ten).mp (above.trans_lt stands.upper)
  have last : (shortest x m e).spread.point - 1 < 16 :=
    (zpow_lt_zpow_iff_right₀ ten).mp (stands.lower.trans_lt below)
  have laidOut : (shortest x m e).spread.layOut standard = (shortest x m e).spread.positional := by
    rw [Digits.layOut, if_pos]
    change -4 ≤ _ ∧ _ < (16 : ℤ)
    omega
  obtain ⟨whole, fraction, positional⟩ := stands.positional
  refine ⟨whole, fraction, _, laidOut ▸ positional, ?_⟩
  rw [← shortest_toFloat finite, Decimal.toFloat]
  apply ofDecimal_eq positional.value _ (by omega) (by omega)
  rw [positional.value]
  exact least_le_of_range above

theorem writeChars_of_range (lower : ofDecimal 1 (-4) ≤ x) (upper : x < ofDecimal 1 16) :
    ∃ whole fraction q, Positional (writeChars standard x) q whole fraction ∧
      ofDecimal (digitsValue (whole ++ fraction)) (-fraction.length) = x := by
  obtain ⟨m, e, pos, finite⟩ := unpack_of_range lower upper
  obtain ⟨least, limit⟩ := value_of_range finite lower upper
  have written : writeChars standard x = (shortest x m e).spread.layOut standard := by
    rw [writeChars, finite, abs_of_finite finite]
    rfl
  rw [written]
  exact positional_of_range finite least limit

theorem writeChars_of_zero (zero : x.toModel.unpack = .zero .positive) :
    ∃ whole fraction q, Positional (writeChars standard x) q whole fraction ∧
      ofDecimal (digitsValue (whole ++ fraction)) (-fraction.length) = x := by
  have written : writeChars standard x = ['0', '.', '0'] := by
    rw [writeChars, zero]
    rfl
  refine ⟨['0'], ['0'], 0, ⟨written, ?_, ?_, List.cons_ne_nil _ _, List.cons_ne_nil _ _, ?_⟩, ?_⟩
  · simp
  · simp
  · have none_ : digitsValue (['0'] ++ ['0']) = 0 := rfl
    rw [none_, Nat.cast_zero, zero_mul]
  · change Float.ofModel (Float.Model.pack (.zero .positive)) = x
    rw [← zero, pack_unpack]

end Range

/-- What is read of a numeral without a sign is written with digits around a point, if it is
in the range, and is read back from them. -/
theorem Fixed.read?_writeChars {n : ℕ} {k : ℤ} (fixed : Fixed (ofDecimal n k)) :
    ∃ whole fraction q, Positional (writeChars standard (ofDecimal n k)) q whole fraction ∧
      read? (writeChars standard (ofDecimal n k)) = some (ofDecimal n k) := by
  have written : ∃ whole fraction q,
      Positional (writeChars standard (ofDecimal n k)) q whole fraction ∧
        ofDecimal (digitsValue (whole ++ fraction)) (-fraction.length) = ofDecimal n k := by
    rcases fixed with zero | ⟨lower, upper⟩
    · obtain ⟨sign, unpack⟩ := unpack_of_zero zero
      have positive := unpack_ofDecimal_zero unpack
      rw [positive] at unpack
      exact writeChars_of_zero unpack
    · exact writeChars_of_range lower upper
  obtain ⟨whole, fraction, q, positional, same⟩ := written
  refine ⟨whole, fraction, q, positional, ?_⟩
  rw [positional.text, ← same]
  exact read?_point positional.wholeDigits positional.some_ positional.fractionDigits

end LoopLang.Number
