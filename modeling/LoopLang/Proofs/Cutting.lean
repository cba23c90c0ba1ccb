import LoopLang.Proofs.Fixed
import LoopLang.Proofs.Flattening

/-!
# Cutting written text

A word, a name or a number that is followed by a blank or by punctuation is cut off the
text as it was written. So a text that is put together with such separators is cut into
the symbols that were written.
-/
namespace LoopLang

namespace Lexeme

/-- Nothing that a word, a name or a number could go on with. -/
def Loose (rest : List Char) : Prop :=
  ∀ c, rest.head? = some c → c ∈ [' ', ';', ',', ':', ')']

theorem loose_nil : Loose [] := by
  intro c head
  cases head

theorem loose_cons {c : Char} (separates : c ∈ [' ', ';', ',', ':', ')']) (rest : List Char) :
    Loose (c :: rest) := by
  intro d head
  cases head
  exact separates

theorem not_isNamePart_of_separates {c : Char} (separates : c ∈ [' ', ';', ',', ':', ')']) :
    isNamePart c = false := by
  have none_ : [' ', ';', ',', ':', ')'].all (!isNamePart ·) = true := by decide
  exact (Bool.not_eq_true' _).mp (List.all_eq_true.mp none_ c separates)

theorem first_word {kind : Kind} {chars rest : List Char} (spelled : kind.spelling? = some chars)
    (loose : Loose rest) : first (chars ++ rest) = ⟨kind, chars⟩ := by
  cases rest with
  | nil => cases kind <;> cases spelled <;> rfl
  | cons c rest =>
    have separates := loose c rfl
    simp only [List.mem_cons, List.not_mem_nil, or_false] at separates
    rcases separates with rfl | rfl | rfl | rfl | rfl <;> cases kind <;> cases spelled <;> rfl

theorem first_prefix_sign {kind : Kind} {c : Char} (spelled : kind.spelling? = some [c])
    (sign : kind ∈ [.opening, .minus]) (rest : List Char) : first (c :: rest) = ⟨kind, [c]⟩ := by
  simp only [List.mem_cons, List.not_mem_nil, or_false] at sign
  rcases sign with rfl | rfl <;> cases spelled <;> rfl

/-- A character that begins no word and no symbol, no blank, line break or string. -/
theorem ofCons_plain {c : Char} {rest : List Char}
    (free : ∀ kind spelling, Kind.spelling? kind = some spelling → ¬ spelling <+: c :: rest)
    (plain : c ∉ [' ', '\t', '\r', '\n', '"']) :
    ofCons c rest = if c.isDigit then numeric (c :: rest)
      else if isNameStart c then ⟨.identifier, (c :: rest).takeWhile isNamePart⟩
      else ⟨.unknownCharacter, [c]⟩ := by
  have none_ : ∀ kinds, spelled? kinds (c :: rest) = none := by
    intro kinds
    apply List.findSome?_eq_none_iff.mpr
    intro kind _
    split
    · rename_i spelling spelled
      rw [if_neg]
      intro begins
      exact free kind spelling spelled (List.isPrefixOf_iff_prefix.mp begins)
    · rfl
  simp only [List.mem_cons, List.not_mem_nil, or_false, not_or] at plain
  have noBreak : lineBreaks.find? (·.isPrefixOf (c :: rest)) = none := by
    apply List.find?_eq_none.mpr
    intro chars member begins
    rw [List.isPrefixOf_iff_prefix] at begins
    simp only [lineBreaks, List.mem_cons, List.not_mem_nil, or_false] at member
    rcases member with rfl | rfl | rfl | rfl <;>
      have same := (List.cons_prefix_cons.mp begins).1 <;> simp [← same] at plain
  rw [ofCons_eq, none_, none_, noBreak]
  simp [plain]

theorem takeWhile_parts {p : Char → Bool} {chars rest : List Char}
    (all : ∀ c ∈ chars, p c = true) (ends : ∀ c, rest.head? = some c → p c = false) :
    (chars ++ rest).takeWhile p = chars := by
  rw [List.takeWhile_append_of_pos all]
  cases rest with
  | nil => rw [List.takeWhile_nil, List.append_nil]
  | cons c rest => rw [List.takeWhile_cons_of_neg (by simp [ends c rfl]), List.append_nil]

theorem dropWhile_parts {p : Char → Bool} {chars rest : List Char}
    (all : ∀ c ∈ chars, p c = true) (ends : ∀ c, rest.head? = some c → p c = false) :
    (chars ++ rest).dropWhile p = rest := by
  rw [List.dropWhile_append_of_pos all]
  cases rest with
  | nil => rfl
  | cons c rest => rw [List.dropWhile_cons_of_neg (by simp [ends c rfl])]

theorem exists_digits (text : List Char) : ∃ whole rest, text = whole ++ rest ∧
    (∀ c ∈ whole, c.isDigit = true) ∧ ∀ c, rest.head? = some c → c.isDigit = false := by
  refine ⟨_, _, (List.takeWhile_append_dropWhile (p := Char.isDigit)).symm,
    fun c => List.all_eq_true.mp List.all_takeWhile c, fun c head => ?_⟩
  have stops := List.head?_dropWhile_not Char.isDigit text
  rw [head] at stops
  simpa using stops

theorem numeric_whole {whole rest : List Char} (digits : ∀ c ∈ whole, c.isDigit = true)
    (ends : ∀ c, rest.head? = some c → c.isDigit = false ∧ c ≠ '.') :
    numeric (whole ++ rest) = ⟨.number, whole⟩ := by
  unfold numeric
  rw [takeWhile_parts digits fun c head => (ends c head).1,
    dropWhile_parts digits fun c head => (ends c head).1]
  dsimp only
  split
  · exact absurd rfl (ends '.' rfl).2
  · rfl

theorem numeric_point {whole : List Char} (digits : ∀ c ∈ whole, c.isDigit = true)
    (rest : List Char) : numeric (whole ++ '.' :: rest) =
      if (rest.takeWhile Char.isDigit).isEmpty then ⟨.number, whole⟩
      else ⟨.number, whole ++ '.' :: rest.takeWhile Char.isDigit⟩ := by
  have point : ∀ c, ('.' :: rest).head? = some c → c.isDigit = false := by
    rintro c ⟨⟩
    rfl
  unfold numeric
  rw [takeWhile_parts digits point, dropWhile_parts digits point]
  rfl

theorem isNamePart_of_spelling? {kind : Kind} {c : Char} {spelling : List Char}
    (spelled : kind.spelling? = some (c :: spelling)) (start : isNameStart c = true) :
    ∀ d ∈ c :: spelling, isNamePart d = true := by
  cases kind <;> cases spelled <;> first | cases start; done | exact List.all_eq_true.mp rfl

theorem plain_of_isNameStart {c : Char} (start : isNameStart c = true) :
    c ∉ [' ', '\t', '\r', '\n', '"'] ∧ c.isDigit = false := by
  constructor
  · intro member
    simp only [List.mem_cons, List.not_mem_nil, or_false] at member
    rcases member with rfl | rfl | rfl | rfl | rfl <;> cases start
  · rw [Bool.eq_false_iff]
    intro digit
    simp only [isNameStart, Char.isAlpha, Char.isUpper, Char.isLower, Char.isDigit, Bool.or_eq_true,
      Bool.and_eq_true, decide_eq_true_eq, beq_iff_eq, UInt32.le_iff_toNat_le] at start digit
    rcases start with (upper | lower) | rfl
    · have bounds : 65 ≤ c.val.toNat := upper.1
      have bounds' : c.val.toNat ≤ 57 := digit.2
      omega
    · have bounds : 97 ≤ c.val.toNat := lower.1
      have bounds' : c.val.toNat ≤ 57 := digit.2
      omega
    · exact absurd digit.2 (by decide)

theorem IsName.free_append {chars rest : List Char} (name : IsName chars) (loose : Loose rest)
    (kind : Kind) (spelling : List Char) (spelled : kind.spelling? = some spelling) :
    ¬ spelling <+: chars ++ rest := by
  intro begins
  by_cases shorter : spelling.length ≤ chars.length
  · exact name.free kind spelling spelled
      (List.prefix_of_prefix_length_le begins (List.prefix_append _ _) shorter)
  · -- A longer word would go on with the character that separates.
    have longer := List.prefix_of_prefix_length_le (List.prefix_append chars rest) begins
      (Nat.le_of_not_le shorter)
    obtain ⟨tail, rfl⟩ := longer
    obtain ⟨c, others, rfl, start⟩ := name.start
    cases tail with
    | nil => exact shorter (by simp)
    | cons d tail =>
      obtain ⟨after, rfl⟩ := (List.prefix_append_right_inj _).mp begins
      have part := isNamePart_of_spelling? spelled start d (by simp)
      rw [not_isNamePart_of_separates (loose d rfl)] at part
      cases part

/-- A name is cut off again, whatever separates it from what follows. -/
theorem first_name {chars rest : List Char} (name : IsName chars) (loose : Loose rest) :
    first (chars ++ rest) = ⟨.identifier, chars⟩ := by
  have taken := takeWhile_parts name.parts
    fun c head => not_isNamePart_of_separates (loose c head)
  have free := name.free_append loose
  obtain ⟨c, others, rfl, start⟩ := name.start
  obtain ⟨plain, notDigit⟩ := plain_of_isNameStart start
  rw [List.cons_append] at free taken ⊢
  rw [first, ofCons_plain free plain, notDigit, start, taken]
  rfl

theorem plain_of_isDigit {c : Char} (digit : c.isDigit = true) :
    c ∉ [' ', '\t', '\r', '\n', '"'] := by
  intro member
  simp only [List.mem_cons, List.not_mem_nil, or_false] at member
  rcases member with rfl | rfl | rfl | rfl | rfl <;> cases digit

theorem free_of_isDigit {c : Char} {rest : List Char} (digit : c.isDigit = true) (kind : Kind)
    (spelling : List Char) (spelled : kind.spelling? = some spelling) :
    ¬ spelling <+: c :: rest := by
  intro begins
  cases spelling with
  | nil => exact Kind.spelling?_ne_nil spelled rfl
  | cons d spelling =>
    have same := (List.cons_prefix_cons.mp begins).1
    subst same
    cases kind <;> cases spelled <;> cases digit

theorem not_isDigit_of_loose {rest : List Char} (loose : Loose rest) :
    ∀ c, rest.head? = some c → c.isDigit = false := by
  intro c head
  have notPart := not_isNamePart_of_separates (loose c head)
  rw [isNamePart, Char.isAlphanum] at notPart
  simp only [Bool.or_eq_false_iff] at notPart
  exact notPart.1.2

theorem first_of_digits {whole rest : List Char} (digits : ∀ c ∈ whole, c.isDigit = true)
    (some_ : whole ≠ []) : first (whole ++ rest) = numeric (whole ++ rest) := by
  obtain ⟨c, others, rfl⟩ := List.exists_cons_of_ne_nil some_
  have digit := digits c List.mem_cons_self
  rw [List.cons_append, first, ofCons_plain (free_of_isDigit digit) (plain_of_isDigit digit), digit,
    if_pos rfl]

theorem first_whole {whole rest : List Char} (digits : ∀ c ∈ whole, c.isDigit = true)
    (some_ : whole ≠ []) (loose : Loose rest) : first (whole ++ rest) = ⟨.number, whole⟩ := by
  rw [first_of_digits digits some_]
  apply numeric_whole digits
  intro c head
  refine ⟨not_isDigit_of_loose loose c head, ?_⟩
  rintro rfl
  exact absurd (loose '.' head) (by decide)

theorem first_number {whole fraction rest : List Char} (digits : ∀ c ∈ whole, c.isDigit = true)
    (some_ : whole ≠ []) (further : ∀ c ∈ fraction, c.isDigit = true) (some_' : fraction ≠ [])
    (loose : Loose rest) :
    first (whole ++ '.' :: fraction ++ rest) = ⟨.number, whole ++ '.' :: fraction⟩ := by
  have taken := takeWhile_parts further (not_isDigit_of_loose loose)
  rw [List.append_assoc, List.cons_append, first_of_digits digits some_, numeric_point digits,
    taken]
  simp only [List.isEmpty_iff, some_', if_false]

/-- A text that is a number from its first character to its last. -/
inductive IsNumber : List Char → Prop where
  | whole {whole} (digits : ∀ c ∈ whole, c.isDigit = true) (some_ : whole ≠ []) : IsNumber whole
  | point {whole fraction} (digits : ∀ c ∈ whole, c.isDigit = true) (some_ : whole ≠ [])
      (further : ∀ c ∈ fraction, c.isDigit = true) (some_' : fraction ≠ []) :
      IsNumber (whole ++ '.' :: fraction)

theorem isNumber_of_first {chars : List Char} (taken : first chars = ⟨.number, chars⟩) :
    IsNumber chars := by
  cases chars with
  | nil => cases taken
  | cons c rest =>
    have way := taken_ofCons c rest
    change ofCons c rest = _ at taken
    generalize ofCons c rest = lexeme at way taken
    cases way with
    | spelled spelling =>
      cases taken
      cases spelling
    | quoted =>
      rcases quoted_cases rest with heq | heq | ⟨heq, -⟩ <;> rw [heq] at taken <;> cases taken
    | numeric digit =>
      have digits : ∀ text : List Char, ∀ d ∈ text.takeWhile Char.isDigit, d.isDigit = true :=
        fun text => List.all_eq_true.mp (List.all_takeWhile (l := text))
      have some_ : (c :: rest).takeWhile Char.isDigit ≠ [] := by simp [digit]
      rcases numeric_cases (c :: rest) with heq | ⟨after, further, -, heq⟩
      all_goals rw [heq, Lexeme.mk.injEq] at taken
      · rw [← taken.2]
        exact .whole (digits _) some_
      · rw [← taken.2]
        exact .point (digits _) some_ (digits _) further
    | space | lineBreak | identifier | unknown => cases taken

theorem IsNumber.first {chars rest : List Char} (number : IsNumber chars) (loose : Loose rest) :
    first (chars ++ rest) = ⟨.number, chars⟩ := by
  cases number with
  | whole digits some_ => exact first_whole digits some_ loose
  | point digits some_ further some_' => exact first_number digits some_ further some_' loose

end Lexeme

/-- A text is cut into symbols, with blanks between them. -/
inductive Cuts : List Char → List Symbol → Prop where
  | done : Cuts [] []
  | blank {text symbols} (cuts : Cuts text symbols) : Cuts (' ' :: text) symbols
  | word {kind chars text symbols} (taken : Lexeme.first (chars ++ text) = ⟨kind, chars⟩)
      (valid : kind.isValid = true) (real : kind.isWhitespace = false) (cuts : Cuts text symbols) :
      Cuts (chars ++ text) (Lexeme.symbol ⟨kind, chars⟩ :: symbols)

namespace Cuts

variable {text rest : List Char} {symbols : List Symbol}

theorem tokensFrom (cuts : Cuts text symbols) (source : Source) (steps offset : Nat)
    (enough : text.length ≤ steps) :
    ((source.tokensFrom steps offset text).1.filter (!·.isWhitespace)).map (·.symbol) =
      symbols := by
  induction cuts generalizing steps offset with
  | done => cases steps <;> rfl
  | @blank text symbols _ ih =>
    cases steps with
    | zero => cases enough
    | succ steps =>
      have space : Lexeme.first (' ' :: text) = ⟨.space, [' ']⟩ := rfl
      rw [Source.tokensFrom, space]
      exact ih steps _ (Nat.le_of_succ_le_succ enough)
  | @word kind chars text symbols taken valid real _ ih =>
    have some_ : 0 < chars.length := by
      have pos : (Lexeme.first (chars ++ text)).isValid = true → _ := Lexeme.length_first_pos
      rw [taken] at pos
      exact pos valid
    rw [List.length_append] at enough
    cases steps with
    | zero => omega
    | succ steps =>
      have valid' : Lexeme.isValid ⟨kind, chars⟩ = true := valid
      have left : (chars ++ text).drop (Lexeme.length ⟨kind, chars⟩) = text := List.drop_left
      have kept : (!(source.place offset ⟨kind, chars⟩).isWhitespace) = true := by
        change (!kind.isWhitespace) = true
        rw [real]
        rfl
      rw [Source.tokensFrom, taken]
      dsimp only
      rw [if_pos valid', left]
      dsimp only
      rw [List.filter_cons, if_pos kept, List.map_cons, ih steps _ (by omega)]
      rfl

theorem spelled {kind : Kind} {chars : List Char} (spelled : kind.spelling? = some chars)
    (taken : Lexeme.first (chars ++ rest) = ⟨kind, chars⟩) (cuts : Cuts rest symbols) :
    Cuts (chars ++ rest) (.word kind :: symbols) := by
  have symbol : Lexeme.symbol ⟨kind, chars⟩ = .word kind := by
    cases kind <;> first | cases spelled; done | rfl
  have real : kind.isWhitespace = false := by
    cases kind <;> first | cases spelled; done | rfl
  rw [← symbol]
  exact .word taken (Kind.isValid_of_spelling? spelled) real cuts

theorem name {chars : List Char} (isName : Lexeme.IsName chars) (loose : Lexeme.Loose rest)
    (cuts : Cuts rest symbols) : Cuts (chars ++ rest) (.name (.ofList chars) :: symbols) := by
  have cut := Cuts.word (Lexeme.first_name isName loose) rfl rfl cuts
  exact cut

theorem number {n : ℕ} {k : ℤ} (fixed : Number.Fixed (Number.ofDecimal n k))
    (loose : Lexeme.Loose rest) (cuts : Cuts rest symbols) :
    Cuts (Number.writeChars Number.standard (Number.ofDecimal n k) ++ rest)
      (.number (some (Number.ofDecimal n k)) :: symbols) := by
  obtain ⟨whole, fraction, q, written, read⟩ := fixed.read?_writeChars
  have taken := Lexeme.first_number written.wholeDigits written.some_ written.fractionDigits
    written.further loose
  rw [← written.text] at taken
  rw [← read]
  have cut := Cuts.word taken rfl rfl cuts
  exact cut

end Cuts

end LoopLang
