import LoopLang.Number.Numeral
import Mathlib.Data.List.TakeWhile

/-!
# Numerals without a sign

Digits, and digits with a point and digits after them, are numerals, and their parts are
the digits on the two sides of the point; they are read as the decimal without it.
-/
namespace LoopLang.Number

theorem splitSign_of_isDigit {c : Char} {rest : List Char} (digit : c.isDigit = true) :
    splitSign (c :: rest) = (false, c :: rest) := by
  unfold splitSign
  split
  · rename_i heq
    cases heq
    cases digit
  · rename_i heq
    cases heq
    cases digit
  · rfl

theorem splitSign_digits {whole rest : List Char} (digits : ∀ c ∈ whole, c.isDigit = true)
    (some_ : whole ≠ []) : splitSign (whole ++ rest) = (false, whole ++ rest) := by
  obtain ⟨c, others, rfl⟩ := List.exists_cons_of_ne_nil some_
  exact splitSign_of_isDigit (digits c List.mem_cons_self)

theorem parse?_digits {whole : List Char} (digits : ∀ c ∈ whole, c.isDigit = true)
    (some_ : whole ≠ []) : Numeral.parse? whole = some ⟨false, whole, []⟩ := by
  have unsigned : splitSign (whole ++ []) = (false, whole ++ []) :=
    splitSign_digits digits some_
  rw [List.append_nil] at unsigned
  have taken := List.takeWhile_eq_self_iff.mpr digits
  have left := List.dropWhile_eq_nil_iff.mpr digits
  simp [Numeral.parse?, unsigned, taken, left, some_]

theorem parse?_point {whole fraction : List Char} (digits : ∀ c ∈ whole, c.isDigit = true)
    (some_ : whole ≠ []) (further : ∀ c ∈ fraction, c.isDigit = true) :
    Numeral.parse? (whole ++ '.' :: fraction) = some ⟨false, whole, fraction⟩ := by
  have unsigned : splitSign (whole ++ '.' :: fraction) = (false, whole ++ '.' :: fraction) :=
    splitSign_digits digits some_
  have noDigit : Char.isDigit '.' = false := rfl
  have taken : (whole ++ '.' :: fraction).takeWhile Char.isDigit = whole := by
    rw [List.takeWhile_append_of_pos digits]
    simp [noDigit]
  have left : (whole ++ '.' :: fraction).dropWhile Char.isDigit = '.' :: fraction := by
    rw [List.dropWhile_append_of_pos digits]
    simp [noDigit]
  have all : fraction.all Char.isDigit = true := List.all_eq_true.mpr further
  simp [Numeral.parse?, unsigned, taken, left, some_, all]

theorem read?_digits {whole : List Char} (digits : ∀ c ∈ whole, c.isDigit = true)
    (some_ : whole ≠ []) : read? whole = some (ofDecimal (digitsValue whole) 0) := by
  rw [read?, parse?_digits digits some_, Option.map_some, Numeral.value, List.append_nil]
  rfl

theorem read?_point {whole fraction : List Char} (digits : ∀ c ∈ whole, c.isDigit = true)
    (some_ : whole ≠ []) (further : ∀ c ∈ fraction, c.isDigit = true) :
    read? (whole ++ '.' :: fraction) =
      some (ofDecimal (digitsValue (whole ++ fraction)) (-fraction.length)) := by
  rw [read?, parse?_point digits some_ further, Option.map_some, Numeral.value]
  rfl

end LoopLang.Number
