import LoopLang.Proofs.Rounding

/-!
# Doubles

The significand and the exponent that a double is taken apart into are the only ones for
its value, and they put it together again. So a decimal for exactly its value is read as
that double, and doubles are in the order of their values.
-/
namespace LoopLang.Number

open Float.Model Float.Model.UnpackedFloat

/-- A significand and an exponent of a double: the significand fills its bits unless the
exponent is the least. -/
structure Canonical (m : ℕ) (e : ℤ) : Prop where
  pos : 0 < m
  small : m < 2 ^ 53
  least : -1074 ≤ e
  bounded : e ≤ 971
  full : e = -1074 ∨ 2 ^ 52 ≤ m

section Bits

variable {b : BitVec Format.binary64.numBits} {sign : Sign} {m : ℕ} {e : ℤ}

/-- The bits of a finite double, below the normal range or in it. -/
inductive Parts (b : BitVec Format.binary64.numBits) : ℕ → ℤ → Prop where
  | subnormal (none_ : unpackExponent b = 0#_) (some_ : unpackMantissa b ≠ 0#_) :
      Parts b (unpackMantissa b).toNat (-1074)
  | normal (some_ : unpackExponent b ≠ 0#_) (finite : unpackExponent b ≠ -1#_) :
      Parts b (2 ^ 52 + (unpackMantissa b).toNat) ((unpackExponent b).toNat - 1075)

theorem parts_of_unpack {pos : 0 < m}
    (finite : UnpackedFloat.unpack Format.binary64 b = .finite sign m e pos) : Parts b m e := by
  rw [UnpackedFloat.unpack] at finite
  dsimp only at finite
  split at finite
  · split at finite <;> cases finite
  · rename_i notAll
    split at finite
    · rename_i none_
      split at finite
      · cases finite
      · rename_i some_
        cases finite
        rw [none_]
        exact .subnormal none_ some_
    · rename_i some_
      cases finite
      have joined : (1#1 ++ unpackMantissa b).toNat = 2 ^ 52 + (unpackMantissa b).toNat := by
        have small : (unpackMantissa b).toNat < 2 ^ 52 := (unpackMantissa b).isLt
        rw [BitVec.toNat_append, Nat.shiftLeft_eq, Nat.mul_comm,
          ← Nat.two_pow_add_eq_or_of_lt small, BitVec.toNat_ofNat]
        omega
      rw [joined]
      exact .normal some_ notAll

theorem Parts.canonical (parts : Parts b m e) : Canonical m e := by
  have mantissa : (unpackMantissa b).toNat < 2 ^ 52 := (unpackMantissa b).isLt
  have exponent : (unpackExponent b).toNat < 2 ^ 11 := (unpackExponent b).isLt
  cases parts with
  | subnormal none_ some_ =>
    have pos : (unpackMantissa b).toNat ≠ 0 := by
      intro zero
      exact some_ (BitVec.eq_of_toNat_eq zero)
    constructor <;> omega
  | normal some_ finite =>
    have pos : (unpackExponent b).toNat ≠ 0 := by
      intro zero
      exact some_ (BitVec.eq_of_toNat_eq zero)
    have below : (unpackExponent b).toNat ≠ 2047 := by
      intro all
      exact finite (BitVec.eq_of_toNat_eq all)
    constructor <;> omega

inductive Unsigned : UnpackedFloat → Prop where
  | infinity : Unsigned (.infinity .positive)
  | zero : Unsigned (.zero .positive)
  | finite {m e pos} : Unsigned (.finite .positive m e pos)

theorem unpackSign_pack {f : UnpackedFloat} (unsigned : Unsigned f) :
    unpackSign (UnpackedFloat.pack Format.binary64 f) = 0#1 := by
  cases unsigned with
  | infinity => exact unpackSign_packComponents .positive _ _
  | zero => exact unpackSign_packComponents .positive _ _
  | finite =>
    rw [UnpackedFloat.pack]
    dsimp only
    split
    · exact unpackSign_packComponents .positive _ _
    · split
      · exact unpackSign_packComponents .positive _ _
      · exact unpackSign_packComponents .positive _ _

theorem roundWithAccuracy_unsigned (m : ℕ) (e : ℤ) (accuracy : Accuracy) :
    Unsigned (roundWithAccuracy Format.binary64 .positive m e accuracy) := by
  rw [roundWithAccuracy]
  dsimp only
  split
  · exact .zero
  · exact .finite

theorem ofScientific_unsigned (n : ℕ) (k : ℤ) :
    Unsigned (UnpackedFloat.ofScientific Format.binary64 n k) := by
  rw [UnpackedFloat.ofScientific]
  split
  · exact .zero
  · split
    · exact .infinity
    · split
      · exact .zero
      · split
        · exact roundWithAccuracy_unsigned _ _ _
        · exact roundWithAccuracy_unsigned _ _ _

theorem isNaNBits_pack {f : UnpackedFloat} (unsigned : Unsigned f) :
    isNaNBits (UnpackedFloat.pack Format.binary64 f) = false := by
  cases unsigned with
  | infinity => simp [UnpackedFloat.pack, packedInfinity, isNaNBits]
  | zero => simp [UnpackedFloat.pack, packedZero, isNaNBits]
  | @finite m e pos =>
    rw [UnpackedFloat.pack]
    dsimp only
    split
    · simp [packedInfinity, isNaNBits]
    · rename_i small
      split
      · have below : BitVec.ofNat Format.binary64.exponentBits (e + Format.binary64.exponentBias +
            Format.binary64.mantissaBitsWithoutImplicit).toNat ≠ -1#_ := by
          intro all
          have same := congrArg BitVec.toNat all
          simp at same small
          omega
        rw [isNaNBits, unpackExponent_packComponents]
        exact decide_eq_false fun both => below both.1
      · simp [isNaNBits]

theorem unpack_unsigned (plus : unpackSign b = 0#1) (number : isNaNBits b = false) :
    Unsigned (UnpackedFloat.unpack Format.binary64 b) := by
  have positive : Sign.ofBitVec (unpackSign b) = .positive := by
    rw [plus]
    rfl
  rw [UnpackedFloat.unpack]
  dsimp only
  rw [positive]
  split
  · rename_i all
    split
    · exact .infinity
    · rename_i some_
      simp [isNaNBits, all, some_] at number
  · split
    · split
      · exact .zero
      · exact .finite
    · exact .finite

theorem Unsigned.zero_le {f : UnpackedFloat} (unsigned : Unsigned f) :
    (UnpackedFloat.zero .positive).le f = true := by
  cases unsigned <;> rfl

theorem Unsigned.isNaN {f : UnpackedFloat} (unsigned : Unsigned f) : f.isNaN = false := by
  cases unsigned <;> rfl

end Bits

section Values

variable {x : Float.Model} {sign : Sign} {m m' : ℕ} {e e' : ℤ}

theorem canonical_of_unpack {pos : 0 < m} (finite : x.unpack = .finite sign m e pos) :
    Canonical m e :=
  (parts_of_unpack finite).canonical

/-- A double is put together again from what it is taken apart into. -/
theorem pack_unpack (x : Float.Model) : Float.Model.pack x.unpack = x := by
  have bits : UnpackedFloat.pack Format.binary64 x.unpack = x.toBits.toBitVec :=
    pack_unpack_of_valid x.valid
  rw [Float.Model.pack, Float.Model.mk.injEq, bits]

theorem Canonical.log (canonical : Canonical m e) :
    Int.log 2 ((m : ℚ) * 2 ^ e) = m.log2 + e := by
  have pos : (0 : ℚ) < m := by exact_mod_cast canonical.pos
  apply log_eq (by positivity)
  · rw [zpow_add₀ two_ne_zero]
    exact mul_le_mul_of_nonneg_right (zpow_log2_le canonical.pos.ne') (by positivity)
  · rw [add_right_comm, zpow_add₀ two_ne_zero]
    apply mul_lt_mul_of_pos_right _ (by positivity)
    linarith [lt_zpow_log2 m]

theorem Canonical.unit (canonical : Canonical m e) : unit ((m : ℚ) * 2 ^ e) = e := by
  have small := (Nat.log2_lt canonical.pos.ne').mpr canonical.small
  rw [unit_eq, canonical.log]
  rcases canonical.full with least | full
  · omega
  · have large := (Nat.le_log2 canonical.pos.ne').mpr full
    have least := canonical.least
    omega

theorem Canonical.least_le (canonical : Canonical m e) : (2 : ℚ) ^ (-1074 : ℤ) ≤ m * 2 ^ e := by
  have one : (1 : ℚ) ≤ m := by exact_mod_cast canonical.pos
  calc (2 : ℚ) ^ (-1074 : ℤ) ≤ 2 ^ e := zpow_le_zpow_right₀ one_le_two canonical.least
    _ ≤ m * 2 ^ e := le_mul_of_one_le_left (by positivity) one

/-- A number that a double stands for is rounded to that double. -/
theorem Canonical.nearest (canonical : Canonical m e) :
    nearest sign (m * 2 ^ e) = .finite sign m e canonical.pos := by
  have power : (0 : ℚ) < 2 ^ e := by positivity
  have value : (m : ℚ) * 2 ^ e / 2 ^ e = m := by field_simp
  have cut : ExtendedMantissa.ofMantissaAndAccuracy m .exact = extended ((m * 2 ^ e) / 2 ^ e) := by
    rw [value, extended_natCast]
  have shifted : shiftToTargetExponent Format.binary64 m e .exact =
      (.ofMantissaAndAccuracy m .exact, e) := by
    rw [shiftToTargetExponent_eq cut canonical.least_le canonical.unit.ge, canonical.unit, cut]
  have rounded : (extended ((m * 2 ^ e) / 2 ^ e)).roundedMantissa = m := by
    rw [← cut]
    rfl
  rw [Number.nearest]
  simp only [canonical.unit, rounded, shifted]
  exact dif_neg canonical.pos.ne'

theorem Canonical.lt (canonical : Canonical m e) (canonical' : Canonical m' e')
    (less : e < e' ∨ e = e' ∧ m < m') : (m : ℚ) * 2 ^ e < m' * 2 ^ e' := by
  rcases less with less | ⟨rfl, less⟩
  · have full : 2 ^ 52 ≤ m' := by
      have least := canonical.least
      rcases canonical'.full with same | full
      · omega
      · exact full
    calc (m : ℚ) * 2 ^ e < 2 ^ 53 * 2 ^ e := by
          apply mul_lt_mul_of_pos_right _ (by positivity)
          exact_mod_cast canonical.small
      _ = 2 ^ 52 * 2 ^ (e + 1) := by
        rw [zpow_add_one₀ two_ne_zero]
        ring
      _ ≤ m' * 2 ^ e' := by
        apply mul_le_mul _ _ (by positivity) (by positivity)
        · exact_mod_cast full
        · exact zpow_le_zpow_right₀ one_le_two less
  · apply mul_lt_mul_of_pos_right _ (by positivity)
    exact_mod_cast less

theorem Canonical.le_of_compare (canonical : Canonical m e) (canonical' : Canonical m' e')
    (order : ((compare e e').then (compare m m')).isLE = true) :
    (m : ℚ) * 2 ^ e ≤ m' * 2 ^ e' := by
  rcases lt_trichotomy e e' with less | rfl | more
  · exact (canonical.lt canonical' (.inl less)).le
  · rw [compare_eq_iff_eq.mpr rfl] at order
    apply mul_le_mul_of_nonneg_right _ (by positivity)
    exact_mod_cast Nat.isLE_compare.mp order
  · rw [compare_gt_iff_gt.mpr more] at order
    cases order

theorem Canonical.lt_of_compare (canonical : Canonical m e) (canonical' : Canonical m' e')
    (order : (compare e e').then (compare m m') = .lt) : (m : ℚ) * 2 ^ e < m' * 2 ^ e' := by
  apply canonical.lt canonical'
  rcases lt_trichotomy e e' with less | rfl | more
  · exact .inl less
  · rw [compare_eq_iff_eq.mpr rfl] at order
    exact .inr ⟨rfl, Nat.compare_eq_lt.mp order⟩
  · rw [compare_gt_iff_gt.mpr more] at order
    cases order

theorem unpack_ofDecimal_unsigned (n : ℕ) (k : ℤ) : Unsigned (ofDecimal n k).toModel.unpack := by
  have unsigned := ofScientific_unsigned n k
  exact unpack_unsigned (unpackSign_pack unsigned) (isNaNBits_pack unsigned)

theorem unpack_ofDecimal_zero {n : ℕ} {k : ℤ} (zero : (ofDecimal n k).toModel.unpack = .zero sign) :
    sign = .positive := by
  have unsigned := unpack_ofDecimal_unsigned n k
  rw [zero] at unsigned
  cases unsigned
  rfl

theorem isNaN_ofDecimal (n : ℕ) (k : ℤ) : (ofDecimal n k).isNaN = false :=
  (unpack_ofDecimal_unsigned n k).isNaN

end Values

end LoopLang.Number
