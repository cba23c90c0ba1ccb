import LoopLang.Proofs.Answers
import LoopLang.Proofs.Fixed

/-!
# Printed numbers

A whole number is printed to its last digit, and is read from these digits as itself, however many
they are. Any other number is far too small for an exponent to be needed because of its size, so
only one below a ten thousandth is printed with an exponent. What is printed with an exponent, or
as a word, is refused when it is given as an answer; all else is read as the number again, but for
zero with a sign, which is printed without it.
-/
namespace LoopLang.Number

open Float.Model Float.Model.UnpackedFloat

section Magnitudes

variable {x : Float} {sign : Sign} {m : ℕ} {e : ℤ}

theorem unpack_normal {exponent : BitVec Format.binary64.exponentBits}
    {mantissa : BitVec Format.binary64.mantissaBitsWithoutImplicit}
    (finite : exponent ≠ -1#_) (some_ : exponent ≠ 0#_) (pos : 0 < m)
    (significand : m = 2 ^ 52 + mantissa.toNat) (scale : e = exponent.toNat - 1075) :
    UnpackedFloat.unpack Format.binary64 (packComponents Format.binary64 sign exponent mantissa) =
      .finite sign m e pos := by
  have joined : (1#1 ++ mantissa).toNat = m := by
    have small : mantissa.toNat < 2 ^ 52 := mantissa.isLt
    rw [BitVec.toNat_append, Nat.shiftLeft_eq, Nat.mul_comm,
      ← Nat.two_pow_add_eq_or_of_lt small, BitVec.toNat_ofNat, significand]
    omega
  subst scale
  simp only [UnpackedFloat.unpack, unpackExponent_packComponents, unpackMantissa_packComponents,
    unpackSign_packComponents, Sign.ofBitVec_toBitVec, if_neg finite, if_neg some_, joined]
  rfl

theorem unpack_subnormal {mantissa : BitVec Format.binary64.mantissaBitsWithoutImplicit}
    (pos : 0 < m) (significand : m = mantissa.toNat) :
    UnpackedFloat.unpack Format.binary64 (packComponents Format.binary64 sign 0#_ mantissa) =
      .finite sign m (-1074) pos := by
  have some_ : mantissa ≠ 0#_ := by
    rintro rfl
    rw [BitVec.toNat_zero] at significand
    omega
  subst significand
  simp only [UnpackedFloat.unpack, unpackExponent_packComponents, unpackMantissa_packComponents,
    unpackSign_packComponents, Sign.ofBitVec_toBitVec]
  rw [if_neg (by decide), if_pos trivial, dif_neg some_]
  rfl

/-- What a significand and an exponent of a double are packed into is taken apart into them. -/
theorem Canonical.unpack_pack (canonical : Canonical m e) (sign : Sign) :
    (Float.Model.pack (.finite sign m e canonical.pos)).unpack =
      .finite sign m e canonical.pos := by
  obtain ⟨pos, small, least, bounded, full⟩ := canonical
  change UnpackedFloat.unpack Format.binary64
    (UnpackedFloat.pack Format.binary64 (.finite sign m e pos)) = _
  have biased : e + Format.binary64.exponentBias + Format.binary64.mantissaBitsWithoutImplicit =
      e + 1075 := by
    change e + 1023 + 52 = _
    ring
  have within : ¬ 2 ^ Format.binary64.exponentBits ≤ (e + 1075).toNat + 1 := by
    change ¬ 2 ^ 11 ≤ _
    omega
  rw [UnpackedFloat.pack]
  simp only [biased]
  rw [if_neg within]
  by_cases normal : 2 ^ 52 ≤ m
  · have log : m.log2 + 1 = Format.binary64.mantissaBits := by
      change m.log2 + 1 = 53
      rw [(Nat.log2_eq_iff pos.ne').mpr ⟨normal, small⟩]
    have exponent : (BitVec.ofNat Format.binary64.exponentBits (e + 1075).toNat).toNat =
        (e + 1075).toNat := by
      change _ % 2 ^ 11 = _
      omega
    rw [if_pos log]
    apply unpack_normal
    · intro all
      have same := congrArg BitVec.toNat all
      rw [exponent] at same
      change _ = 2047 at same
      omega
    · intro none_
      have same := congrArg BitVec.toNat none_
      rw [exponent] at same
      change _ = 0 at same
      omega
    · change m = 2 ^ 52 + m % 2 ^ 52
      omega
    · rw [exponent]
      omega
  · have log : ¬ m.log2 + 1 = Format.binary64.mantissaBits := by
      change ¬ m.log2 + 1 = 53
      have below := (Nat.log2_lt pos.ne').mpr (Nat.lt_of_not_le normal)
      omega
    obtain rfl : e = -1074 := full.resolve_right normal
    rw [if_neg log]
    apply unpack_subnormal
    change m = m % 2 ^ 52
    omega

variable {pos : 0 < m} (finite : x.toModel.unpack = .finite sign m e pos)
include finite

theorem unpack_abs : x.abs.toModel.unpack = .finite .positive m e pos := by
  have same : x.abs.toModel = Float.Model.pack (.finite .positive m e pos) := by
    rw [Float.abs, Float.Model.abs, finite]
    rfl
  rw [same]
  exact (canonical_of_unpack finite).unpack_pack .positive

end Magnitudes

theorem neg_abs {x : Float} {m : ℕ} {e : ℤ} {pos : 0 < m}
    (finite : x.toModel.unpack = .finite .negative m e pos) : -x.abs = x := by
  have same : x.abs.toModel.neg = x.toModel := by
    rw [Float.Model.neg, unpack_abs finite, UnpackedFloat.neg, ← pack_unpack x.toModel, finite]
    rfl
  change Float.ofModel x.abs.toModel.neg = x
  rw [same]

section Finite

variable {x : Float} {sign : Sign} {m n : ℕ} {e : ℤ} {pos : 0 < m}

theorem read?_signed (finite : x.toModel.unpack = .finite sign m e pos) {c : Char}
    {rest : List Char} (digit : c.isDigit = true) (read : read? (c :: rest) = some x.abs) :
    read? (signed sign (c :: rest)) = some x := by
  cases sign with
  | positive => rwa [abs_of_finite finite] at read
  | negative =>
    rw [signed, read?_minus digit read, neg_abs finite]

theorem wholeMagnitude?_eq_some : wholeMagnitude? m e = some n ↔ (n : ℚ) = m * 2 ^ e := by
  have parts : (n : ℚ) = m * 2 ^ e ↔ n * 2 ^ (-e).toNat = m * 2 ^ e.toNat := by
    rw [← Ratio.ofBinary_value, Ratio.value, Ratio.ofBinary, eq_div_iff (by simp)]
    simp only [Nat.pow_eq]
    exact_mod_cast Iff.rfl
  rw [parts, wholeMagnitude?]
  simp only [Nat.pow_eq]
  constructor
  · intro whole
    split at whole
    · rename_i divides
      cases whole
      exact Nat.div_mul_cancel (Nat.dvd_of_mod_eq_zero divides)
    · cases whole
  · intro whole
    have pos : 0 < 2 ^ (-e).toNat := by positivity
    rw [← whole, if_pos (Nat.mul_mod_left _ _), Nat.mul_div_cancel _ pos]

/-- What is not whole has a part below the point, so it is less than any significand. -/
theorem lt_of_not_whole (canonical : Canonical m e) (part : wholeMagnitude? m e = none) :
    (m : ℚ) * 2 ^ e < 10 ^ (16 : ℤ) := by
  have below : e ≤ 0 := by
    by_contra above
    have whole : wholeMagnitude? m e = some (m * 2 ^ e.toNat) := by
      rw [wholeMagnitude?_eq_some]
      push_cast
      rw [← zpow_natCast, Int.toNat_of_nonneg (by omega)]
    rw [part] at whole
    cases whole
  calc (m : ℚ) * 2 ^ e ≤ m * 2 ^ (0 : ℤ) := by
        gcongr
        · exact one_le_two
    _ < 2 ^ 53 := by
        rw [zpow_zero, mul_one]
        exact_mod_cast canonical.small
    _ ≤ 10 ^ (16 : ℤ) := by norm_num

variable (finite : x.toModel.unpack = .finite sign m e pos)
include finite

theorem read?_whole (whole : (n : ℚ) = m * 2 ^ e) :
    read? (Nat.toDigits 10 n) = some x.abs := by
  have digits : ∀ c ∈ Nat.toDigits 10 n, c.isDigit = true :=
    fun c member => Nat.isDigit_of_mem_toDigits (by decide) (by decide) member
  have some_ : Nat.toDigits 10 n ≠ [] := List.ne_nil_of_length_pos (Ratio.digitCount_pos n)
  rw [read?_digits digits some_, digitsValue_toDigits,
    ← exactDecimal_toFloat (unpack_abs finite), Decimal.toFloat, Option.some.injEq]
  apply ofDecimal_eq _ _ (by decide) ((min_le_right e 0).trans (by decide))
  · change _ = (exactDecimal m e).value
    rw [exactDecimal_value, zpow_zero, mul_one, whole]
  · rw [zpow_zero, mul_one, whole]
    exact (canonical_of_unpack finite).least_le

theorem read?_printedChars_whole (whole : (n : ℚ) = m * 2 ^ e) :
    read? (printedChars x) = some x := by
  have printed : printedChars x = signed sign (Nat.toDigits 10 n) := by
    rw [printedChars, finite]
    simp only [wholeMagnitude?_eq_some.mpr whole]
  have read := read?_whole finite whole
  obtain ⟨c, rest, same⟩ : ∃ c rest, Nat.toDigits 10 n = c :: rest :=
    List.exists_cons_of_ne_nil (List.ne_nil_of_length_pos (Ratio.digitCount_pos n))
  have digit : c.isDigit = true := by
    apply Nat.isDigit_of_mem_toDigits (b := 10) (n := n) (by decide) (by decide)
    rw [same]
    exact List.mem_cons_self
  rw [same] at printed read
  rw [printed]
  exact read?_signed finite digit read

theorem printedChars_part (part : wholeMagnitude? m e = none) :
    printedChars x = signed sign ((shortest x.abs m e).spread.layOut standard) := by
  rw [printedChars, finite]
  simp only [part]
  rw [writeChars, finite]

theorem read?_printedChars_part (part : wholeMagnitude? m e = none)
    (least : 10 ^ (-4 : ℤ) ≤ (m : ℚ) * 2 ^ e) : read? (printedChars x) = some x := by
  have limit := lt_of_not_whole (canonical_of_unpack finite) part
  obtain ⟨whole, fraction, q, positional, same⟩ :=
    positional_of_range (unpack_abs finite) least limit
  have read := read?_point positional.wholeDigits positional.some_ positional.fractionDigits
  rw [same, ← positional.text] at read
  obtain ⟨c, rest, first⟩ := List.exists_cons_of_ne_nil positional.some_
  have digit : c.isDigit = true := positional.wholeDigits c (first ▸ List.mem_cons_self)
  have head := positional.text
  rw [first, List.cons_append] at head
  rw [printedChars_part finite part]
  rw [head] at read ⊢
  exact read?_signed finite digit read

theorem exponent_of_small (part : wholeMagnitude? m e = none)
    (small : (m : ℚ) * 2 ^ e < 10 ^ (-4 : ℤ)) : 'e' ∈ printedChars x := by
  have magnitude := unpack_abs finite
  obtain ⟨num, den⟩ := Ratio.ofBinary_pos e pos
  have lower := (Ratio.leadingExponent_bounds num den).1
  rw [Ratio.ofBinary_value] at lower
  obtain ⟨bounded, above, below⟩ := shortest_bounds x.abs e pos
  have ten : (1 : ℚ) < 10 := by norm_num
  have leading : (Ratio.ofBinary m e).leadingExponent < -4 :=
    (zpow_lt_zpow_iff_right₀ ten).mp (lower.trans_lt small)
  have less : (shortest x.abs m e).value < 10 ^ (-4 : ℤ) := by
    apply lt_of_le_of_ne (below.trans (zpow_le_zpow_right₀ ten.le (by omega)))
    intro same
    -- A ten thousandth is read as a double that is not less, so it is no decimal of this one.
    have read := ofDecimal_of_power magnitude same (least_le_of_range le_rfl) (by omega) (by decide)
    obtain ⟨_, least⟩ := unpack_least
    rw [read, magnitude] at least
    cases least
    norm_num at small
  have positive : 0 < (shortest x.abs m e).value := lt_of_lt_of_le (by positivity) above
  have stands := Decimal.spread_standFor (Decimal.digits_pos positive)
  have first : (shortest x.abs m e).spread.point - 1 < -4 :=
    (zpow_lt_zpow_iff_right₀ ten).mp (stands.lower.trans_lt less)
  have laidOut : (shortest x.abs m e).spread.layOut standard =
      (shortest x.abs m e).spread.scientific 2 := by
    rw [Digits.layOut, if_neg]
    · rfl
    · change ¬ (-4 ≤ _ ∧ _)
      omega
  have marked : 'e' ∈ (shortest x.abs m e).spread.scientific 2 := by
    simp [Digits.scientific, Digits.exponentText]
  rw [printedChars_part finite part, laidOut]
  cases sign with
  | positive => exact marked
  | negative => exact List.mem_cons_of_mem _ marked

end Finite

/-- The number that a finite double stands for. -/
def value? (x : Float) : Option ℚ :=
  match x.toModel.unpack with
  | .zero _ => some 0
  | .finite .positive m e _ => some (m * 2 ^ e)
  | .finite .negative m e _ => some (-(m * 2 ^ e))
  | .infinity _ | .notANumber => none

/-- Whether a double is finite, and whole or no less than a ten thousandth but for its sign. -/
def Plain (x : Float) : Prop :=
  ∃ q, value? x = some q ∧ ((∃ n : ℤ, q = n) ∨ 10 ^ (-4 : ℤ) ≤ |q|)

section Plain

variable {x : Float} {sign : Sign} {m : ℕ} {e : ℤ} {pos : 0 < m}

theorem plain_finite (finite : x.toModel.unpack = .finite sign m e pos) :
    Plain x ↔ (∃ n : ℕ, (n : ℚ) = m * 2 ^ e) ∨ 10 ^ (-4 : ℤ) ≤ (m : ℚ) * 2 ^ e := by
  have magnitude : (0 : ℚ) ≤ m * 2 ^ e := by positivity
  have value : ∃ q, value? x = some q ∧ |q| = m * 2 ^ e ∧
      ((∃ n : ℤ, q = n) ↔ ∃ n : ℤ, (m : ℚ) * 2 ^ e = n) := by
    rw [value?, finite]
    cases sign with
    | positive => exact ⟨_, rfl, abs_of_nonneg magnitude, Iff.rfl⟩
    | negative =>
      refine ⟨_, rfl, by rw [abs_neg, abs_of_nonneg magnitude], ?_⟩
      constructor
      · rintro ⟨n, same⟩
        exact ⟨-n, by rw [Int.cast_neg, ← same, neg_neg]⟩
      · rintro ⟨n, same⟩
        exact ⟨-n, by rw [Int.cast_neg, ← same]⟩
  obtain ⟨q, isValue, size, whole⟩ := value
  have natural : (∃ n : ℤ, (m : ℚ) * 2 ^ e = n) ↔ ∃ n : ℕ, (n : ℚ) = m * 2 ^ e := by
    constructor
    · rintro ⟨n, same⟩
      rw [same] at magnitude
      obtain ⟨k, rfl⟩ := Int.eq_ofNat_of_zero_le (Int.cast_nonneg_iff.mp magnitude)
      exact ⟨k, by rw [same]; rfl⟩
    · rintro ⟨n, same⟩
      exact ⟨n, by rw [← same]; rfl⟩
  simp only [Plain, isValue, Option.some.injEq, exists_eq_left', size, whole, natural]

theorem beq_self (finite : x.toModel.unpack = .finite sign m e pos) : (x == x) = true := by
  change UnpackedFloat.beq x.toModel.unpack x.toModel.unpack = true
  rw [beq_iff_ne_notANumber_and_eq, finite]
  exact ⟨nofun, nofun, .inl rfl⟩

/-- What is printed of a plain number is read as an equal number, and as the same one unless it is
zero with a sign. -/
theorem Plain.read?_printedChars (plain : Plain x) :
    ∃ y, read? (printedChars x) = some y ∧ (y == x) = true ∧ (x ≠ -0 → y = x) := by
  cases unpack : x.toModel.unpack with
  | notANumber | infinity =>
    obtain ⟨q, value, -⟩ := plain
    rw [value?, unpack] at value
    cases value
  | zero sign =>
    have printed : printedChars x = ['0'] := by rw [printedChars, unpack]
    have packed := pack_unpack x.toModel
    rw [unpack] at packed
    refine ⟨0, by rw [printed]; rfl, ?_, fun unsigned => ?_⟩
    · change UnpackedFloat.beq (.zero .positive) x.toModel.unpack = true
      rw [unpack]
      cases sign <;> rfl
    · cases sign with
      | positive => exact congrArg Float.ofModel packed
      | negative => exact absurd (congrArg Float.ofModel packed.symm) unsigned
  | finite sign m e pos =>
    refine ⟨x, ?_, beq_self unpack, fun _ => rfl⟩
    rcases (plain_finite unpack).mp plain with ⟨n, whole⟩ | least
    · exact read?_printedChars_whole unpack whole
    · cases part : wholeMagnitude? m e with
      | some n => exact read?_printedChars_whole unpack (wholeMagnitude?_eq_some.mp part)
      | none => exact read?_printedChars_part unpack part least

theorem letter_of_not_plain (other : ¬ Plain x) : 'e' ∈ printedChars x ∨ 'n' ∈ printedChars x := by
  cases unpack : x.toModel.unpack with
  | notANumber =>
    right
    rw [printedChars, unpack]
    simp only [writeChars, unpack]
    decide
  | infinity sign =>
    right
    rw [printedChars, unpack]
    simp only [writeChars, unpack]
    cases sign <;> decide
  | zero sign => exact absurd ⟨0, by rw [value?, unpack], .inl ⟨0, rfl⟩⟩ other
  | finite sign m e pos =>
    rw [plain_finite unpack, not_or, not_le] at other
    left
    apply exponent_of_small unpack _ other.2
    rw [Option.eq_none_iff_forall_ne_some]
    intro n whole
    exact other.1 ⟨n, wholeMagnitude?_eq_some.mp whole⟩

end Plain

end LoopLang.Number

namespace LoopLang.Machine

open Number Text

/-- A number that was printed is an answer to a prompt. If the number is plain, then what is
printed of it has the shape of a numeral, and a variable that is given this answer holds an equal
number, the same one unless that is zero with a sign. If it is not, then the answer is refused,
and the state is as it was. -/
theorem printed_answer_kept (x : Float) (world : World) (running : world.state.signal = .running)
    (prompt : world.settings.prompt = "IN (\x7bname\x7d) <== : ") (name : String)
    (console : Console) (taken : world.console.readLine ("IN (" ++ name ++ ") <== : ") =
      .ok (some (printed x), console)) (steps depth : Nat) (span : Option Span) :
    let outcome := execute steps (depth + 1) (.read (.ofNames [name]) span) world
    (Plain x → Shaped (printed x).toList ∧ ∃ y, (y == x) = true ∧ (x ≠ -0 → y = x) ∧ outcome =
      .ok () { world with state := world.state.assign (some name) y, console }) ∧
    (¬ Plain x → outcome =
      .error (.fault (.invalidInput name (some (printed x)))) { world with console }) := by
  intro outcome
  have executed : outcome = _ := execute_readOne running prompt taken steps depth span
  have chars : (printed x).toList = printedChars x := String.toList_ofList
  rw [executed, chars]
  constructor
  · intro plain
    obtain ⟨y, read, equal, same⟩ := plain.read?_printedChars
    have shaped : Shaped (printedChars x) := (shaped_iff _).mpr ⟨y, read⟩
    have whole : trim isBlank (printed x).toList = printedChars x := by
      rw [chars]
      exact trim_eq_self fun _ member => shaped.not_isBlank member
    rw [← whole] at shaped
    obtain ⟨y', read', number⟩ := readNumber_of_shaped (.text name) shaped (by
      rw [chars, ← whole]
      exact fun _ member => shaped.not_isInformationSeparator member)
    rw [whole, read] at read'
    cases read'
    refine ⟨whole ▸ shaped, y, equal, same, ?_⟩
    rw [number]
  · intro other
    have unshaped : ¬ Shaped (trim isBlank (printed x).toList) := by
      intro shaped
      rw [chars] at shaped
      rcases letter_of_not_plain other with letter | letter
      all_goals
        rcases shaped.mem (mem_trim letter rfl) with digit | sign
        · cases digit
        · simp at sign
    rw [readNumber_of_not_shaped _ unshaped]
    rfl

/-- Ten to the twenty-second is printed to its last digit and kept; a hundred thousandth is printed
with an exponent and refused. -/
theorem large_kept_small_refused :
    (Plain (ofDecimal 1 22) ∧ ∃ y, (y == ofDecimal 1 22) = true ∧
      execute 0 1 (.read (.ofNames ["B"]) none)
        ⟨.initial, .ofLines [printed (ofDecimal 1 22)], {}, []⟩ =
        .ok () ⟨State.initial.assign (some "B") y, .queue [] [] ["IN (B) <== : "], {}, []⟩) ∧
    ¬ Plain (ofDecimal 1 (-5)) ∧
      execute 0 1 (.read (.ofNames ["B"]) none)
        ⟨.initial, .ofLines [printed (ofDecimal 1 (-5))], {}, []⟩ =
        .error (.fault (.invalidInput "B" (some (printed (ofDecimal 1 (-5))))))
          ⟨.initial, .queue [] [] ["IN (B) <== : "], {}, []⟩ := by
  obtain ⟨_, large⟩ : ∃ pos, (ofDecimal 1 22).toModel.unpack =
      .finite .positive 4768371582031250 21 pos := ⟨by decide, rfl⟩
  obtain ⟨_, small⟩ : ∃ pos, (ofDecimal 1 (-5)).toModel.unpack =
      .finite .positive 5902958103587057 (-69) pos := ⟨by decide, rfl⟩
  have plain : Plain (ofDecimal 1 22) := (plain_finite large).mpr (.inl ⟨10 ^ 22, by norm_num⟩)
  have other : ¬ Plain (ofDecimal 1 (-5)) := by
    rw [plain_finite small]
    rintro (⟨n, whole⟩ | least)
    · have below : (n : ℚ) < 1 := by
        rw [whole]
        norm_num
      have zero : n = 0 := by
        have less : n < 1 := by exact_mod_cast below
        omega
      rw [zero] at whole
      norm_num at whole
    · norm_num at least
  have kept := (printed_answer_kept (ofDecimal 1 22)
    ⟨.initial, .ofLines [printed (ofDecimal 1 22)], {}, []⟩ rfl rfl "B"
    (.queue [] [] ["IN (B) <== : "]) rfl 0 0 none).1 plain
  have refused := (printed_answer_kept (ofDecimal 1 (-5))
    ⟨.initial, .ofLines [printed (ofDecimal 1 (-5))], {}, []⟩ rfl rfl "B"
    (.queue [] [] ["IN (B) <== : "]) rfl 0 0 none).2 other
  obtain ⟨-, y, equal, -, executed⟩ := kept
  exact ⟨⟨plain, y, equal, executed⟩, other, refused⟩

end LoopLang.Machine
