import LoopLang.Proofs.Numerals
import LoopLang.Text.Blank

/-!
# The shape of a numeral

A text is read as a number if it has the shape of a numeral from its first character to its last:
a sign or none, digits, and perhaps a point and further digits. A sign changes nothing but the
sign of what is read.
-/
namespace LoopLang.Number

/-- A sign or none, at least one digit, a point or none, and any further digits. -/
inductive Shaped : List Char → Prop where
  | shape {sign whole point fraction : List Char} (signed : sign ∈ [[], ['+'], ['-']])
      (some_ : whole ≠ []) (digits : ∀ c ∈ whole, c.isDigit = true)
      (pointed : point ∈ [[], ['.']]) (further : ∀ c ∈ fraction, c.isDigit = true) :
      Shaped (sign ++ (whole ++ (point ++ fraction)))

section Signs

variable {text unsigned : List Char} {negative : Bool} {value : Float}

theorem parse?_signed (split : splitSign text = (negative, unsigned))
    (plain : splitSign unsigned = (false, unsigned)) :
    Numeral.parse? text = (Numeral.parse? unsigned).map ({ · with negative }) := by
  rw [Numeral.parse?, Numeral.parse?, split, plain]
  dsimp only
  split
  · rfl
  · split
    · rfl
    · split <;> rfl
    · rfl

theorem read?_minus {c : Char} {rest : List Char} (digit : c.isDigit = true)
    (read : read? (c :: rest) = some value) : read? ('-' :: c :: rest) = some (-value) := by
  have plain : splitSign (c :: rest) = (false, c :: rest) := splitSign_of_isDigit digit
  have split : splitSign ('-' :: c :: rest) = (true, c :: rest) := rfl
  rw [read?, Option.map_eq_some_iff] at read
  obtain ⟨numeral, parsed, rfl⟩ := read
  have unsigned : numeral.negative = false := by
    have same := parse?_signed plain plain
    rw [parsed, Option.map_some, Option.some.injEq] at same
    rw [same]
  rw [read?, parse?_signed split plain, parsed]
  simp [Numeral.value, unsigned]

end Signs

theorem exists_splitSign (text : List Char) : ∃ sign ∈ [[], ['+'], ['-']], ∃ negative unsigned,
    splitSign text = (negative, unsigned) ∧ text = sign ++ unsigned := by
  unfold splitSign
  split
  · exact ⟨['-'], by simp, _, _, rfl, rfl⟩
  · exact ⟨['+'], by simp, _, _, rfl, rfl⟩
  · exact ⟨[], by simp, _, _, rfl, rfl⟩

theorem Shaped.parses {text : List Char} (shaped : Shaped text) :
    (Numeral.parse? text).isSome = true := by
  cases shaped with
  | @shape sign whole point fraction signed some_ digits pointed further =>
    have plain : splitSign (whole ++ (point ++ fraction)) = (false, whole ++ (point ++ fraction)) :=
      splitSign_digits digits some_
    have unsigned : (Numeral.parse? (whole ++ (point ++ fraction))).isSome = true := by
      simp only [List.mem_cons, List.not_mem_nil, or_false] at pointed
      rcases pointed with rfl | rfl
      · have all : ∀ c ∈ whole ++ fraction, c.isDigit = true :=
          List.forall_mem_append.mpr ⟨digits, further⟩
        rw [List.nil_append, parse?_digits all (by simp [some_])]
        rfl
      · rw [List.singleton_append, parse?_point digits some_ further]
        rfl
    have split : ∃ negative, splitSign (sign ++ (whole ++ (point ++ fraction))) =
        (negative, whole ++ (point ++ fraction)) := by
      simp only [List.mem_cons, List.not_mem_nil, or_false] at signed
      rcases signed with rfl | rfl | rfl
      · exact ⟨false, plain⟩
      · exact ⟨false, rfl⟩
      · exact ⟨true, rfl⟩
    obtain ⟨negative, split⟩ := split
    rw [parse?_signed split plain, Option.isSome_map, unsigned]

theorem shaped_of_parses {text : List Char} (parses : (Numeral.parse? text).isSome = true) :
    Shaped text := by
  obtain ⟨sign, signed, negative, unsigned, split, rfl⟩ := exists_splitSign text
  have parts := List.takeWhile_append_dropWhile (p := Char.isDigit) (l := unsigned)
  have digits : ∀ c ∈ unsigned.takeWhile Char.isDigit, c.isDigit = true :=
    fun c member => List.mem_takeWhile_imp member
  rw [Numeral.parse?, split] at parses
  dsimp only at parses
  split at parses
  · cases parses
  · rename_i some_
    rw [List.isEmpty_iff] at some_
    split at parses
    · rename_i rest
      have shape : Shaped (sign ++ (unsigned.takeWhile Char.isDigit ++ ([] ++ []))) :=
        .shape signed some_ digits (by simp) (by simp)
      rwa [List.append_nil, ← rest, parts] at shape
    · rename_i fraction rest
      split at parses
      · rename_i further
        have shape : Shaped (sign ++ (unsigned.takeWhile Char.isDigit ++ (['.'] ++ fraction))) :=
          .shape signed some_ digits (by simp) (List.all_eq_true.mp further)
        rwa [List.singleton_append, ← rest, parts] at shape
      · cases parses
    · cases parses

/-- What has the shape of a numeral is what can be read. -/
theorem shaped_iff (text : List Char) : Shaped text ↔ ∃ value, read? text = some value := by
  have parses : (Numeral.parse? text).isSome = true ↔ ∃ value, read? text = some value := by
    rw [← Option.isSome_iff_exists, read?, Option.isSome_map]
  exact ⟨fun shaped => parses.mp shaped.parses, fun read => shaped_of_parses (parses.mpr read)⟩

theorem Shaped.mem {text : List Char} (shaped : Shaped text) {c : Char} (member : c ∈ text) :
    c.isDigit = true ∨ c ∈ ['+', '-', '.'] := by
  cases shaped with
  | shape signed _ digits pointed further =>
    simp only [List.mem_cons, List.not_mem_nil, or_false] at signed pointed
    rcases List.mem_append.mp member with sign | member
    · right
      rcases signed with rfl | rfl | rfl <;> simp_all
    · rcases List.mem_append.mp member with digit | member
      · exact .inl (digits c digit)
      · rcases List.mem_append.mp member with point | digit
        · right
          rcases pointed with rfl | rfl <;> simp_all
        · exact .inl (further c digit)

end LoopLang.Number
