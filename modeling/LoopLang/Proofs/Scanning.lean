import LoopLang.Proofs.Numerals
import LoopLang.Token.Source

/-!
# What a scan yields

The first lexeme of a text is a beginning of that text. If it is valid it takes at least
one character, so the tokens of a source are all valid, the one that stops the scan is
not, and none of them needs the bound on the steps. A word or symbol has the characters
of its kind, a name is begun by none of them, and a number can always be read.
-/
namespace LoopLang

namespace Kind

theorem isValid_of_spelling? {kind : Kind} {chars : List Char}
    (spelled : kind.spelling? = some chars) : kind.isValid = true := by
  cases kind <;> first | rfl | cases spelled

theorem spelling?_ne_nil {kind : Kind} {chars : List Char}
    (spelled : kind.spelling? = some chars) : chars ≠ [] := by
  rintro rfl
  cases kind <;> simp [spelling?] at spelled

theorem mem_of_spelling? {kind : Kind} {chars : List Char} (spelled : kind.spelling? = some chars) :
    kind ∈ table ∨ kind ∈ [endWord, colon] := by
  cases kind <;> first | cases spelled; done | decide

end Kind

namespace Lexeme

/-! ## Numbers -/

/-- Digits, with a point between them if digits follow it. -/
def numeric (text : List Char) : Lexeme :=
  let whole := text.takeWhile Char.isDigit
  match text.dropWhile Char.isDigit with
  | '.' :: rest =>
    let fraction := rest.takeWhile Char.isDigit
    if fraction.isEmpty then ⟨.number, whole⟩ else ⟨.number, whole ++ '.' :: fraction⟩
  | _ => ⟨.number, whole⟩

theorem withoutSuffixes_of_getLast? {chars : List Char} {d : Char}
    (last : chars.getLast? = some d) (digit : d.isDigit = true) :
    withoutSuffixes chars = chars := by
  have kept : ∀ suffix ∈ numberSuffixes, chars.getLast? ≠ some suffix := by
    rintro suffix member again
    obtain rfl : d = suffix := Option.some.inj (last.symm.trans again)
    revert member digit
    simp only [numberSuffixes, List.mem_cons, List.not_mem_nil, or_false]
    rintro digit (rfl | rfl | rfl | rfl | rfl | rfl) <;> cases digit
  have fold : ∀ suffixes : List Char, (∀ suffix ∈ suffixes, chars.getLast? ≠ some suffix) →
      suffixes.foldl (fun chars suffix =>
        if chars.getLast? = some suffix then chars.dropLast else chars) chars = chars := by
    intro suffixes none_
    induction suffixes with
    | nil => rfl
    | cons suffix suffixes ih =>
      rw [List.foldl_cons, if_neg (none_ suffix List.mem_cons_self)]
      exact ih fun later member => none_ later (List.mem_cons_of_mem _ member)
  exact fold _ kept

theorem withoutSuffixes_point (chars : List Char) :
    withoutSuffixes (chars ++ ['.']) = chars := by
  simp [withoutSuffixes, numberSuffixes]

theorem getLast?_takeWhile_isDigit {text : List Char} (some_ : text.takeWhile Char.isDigit ≠ []) :
    ∃ d, (text.takeWhile Char.isDigit).getLast? = some d ∧ d.isDigit = true :=
  ⟨_, List.getLast?_eq_some_getLast some_,
    List.all_eq_true.mp (List.all_takeWhile (l := text)) _ (List.getLast_mem some_)⟩

section Point

variable {text rest : List Char}

theorem unsignedMatch?_point (some_ : text.takeWhile Char.isDigit ≠ [])
    (left : text.dropWhile Char.isDigit = '.' :: rest) :
    unsignedMatch? text =
      some (text.takeWhile Char.isDigit ++ '.' :: rest.takeWhile Char.isDigit) := by
  simp only [unsignedMatch?, left, List.isEmpty_iff, if_neg some_]

theorem unsignedMatch?_whole (some_ : text.takeWhile Char.isDigit ≠ [])
    (other : ∀ rest, text.dropWhile Char.isDigit ≠ '.' :: rest) :
    unsignedMatch? text = some (text.takeWhile Char.isDigit) := by
  unfold unsignedMatch?
  dsimp only
  rw [if_neg (by simpa using some_)]
  split
  · exact absurd ‹_› (other _)
  · rfl

theorem numeric_ofPoint (left : text.dropWhile Char.isDigit = '.' :: rest) :
    numeric text =
      if (rest.takeWhile Char.isDigit).isEmpty then ⟨.number, text.takeWhile Char.isDigit⟩
      else ⟨.number, text.takeWhile Char.isDigit ++ '.' :: rest.takeWhile Char.isDigit⟩ := by
  simp only [numeric, left]

theorem numeric_ofWhole (other : ∀ rest, text.dropWhile Char.isDigit ≠ '.' :: rest) :
    numeric text = ⟨.number, text.takeWhile Char.isDigit⟩ := by
  unfold numeric
  dsimp only
  split
  · exact absurd ‹_› (other _)
  · rfl

end Point

/-- What the match of a number holds too much is what a number may not end with. -/
theorem withoutSuffixes_unsignedMatch? {text : List Char}
    (some_ : text.takeWhile Char.isDigit ≠ []) :
    (unsignedMatch? text).map (fun chars => ⟨.number, withoutSuffixes chars⟩) =
      some (numeric text) := by
  obtain ⟨d, last, digit⟩ := getLast?_takeWhile_isDigit some_
  by_cases point : ∃ rest, text.dropWhile Char.isDigit = '.' :: rest
  · obtain ⟨rest, left⟩ := point
    rw [unsignedMatch?_point some_ left, numeric_ofPoint left, Option.map_some]
    by_cases fraction : rest.takeWhile Char.isDigit = []
    · rw [fraction, withoutSuffixes_point, List.isEmpty_nil, if_pos rfl]
    · obtain ⟨e, last', digit'⟩ := getLast?_takeWhile_isDigit fraction
      have ending : (text.takeWhile Char.isDigit ++ '.' :: rest.takeWhile Char.isDigit).getLast? =
          some e := by
        rw [List.getLast?_append, List.getLast?_cons, last']
        rfl
      rw [withoutSuffixes_of_getLast? ending digit', if_neg (by simpa using fraction)]
  · have other : ∀ rest, text.dropWhile Char.isDigit ≠ '.' :: rest := not_exists.mp point
    rw [unsignedMatch?_whole some_ other, numeric_ofWhole other, Option.map_some,
      withoutSuffixes_of_getLast? last digit]

theorem numberMatch?_of_isDigit {c : Char} (digit : c.isDigit = true) (rest : List Char) :
    numberMatch? (c :: rest) = unsignedMatch? (c :: rest) := by
  unfold numberMatch?
  split
  · rename_i heq
    cases heq
    cases digit
  · rename_i heq
    cases heq
    cases digit
  · rfl

theorem numberMatch?_of_not_isDigit {c : Char} (other : ¬ c.isDigit = true) (plus : c ≠ '+')
    (minus : c ≠ '-') (rest : List Char) : numberMatch? (c :: rest) = none := by
  unfold numberMatch?
  split
  · rename_i heq
    exact absurd (List.cons.inj heq).1 plus
  · rename_i heq
    exact absurd (List.cons.inj heq).1 minus
  · simp [unsignedMatch?, other]

/-! ## The ways of taking a lexeme -/

/-- The ways in which a lexeme is taken from the beginning of a text. -/
inductive Taken (c : Char) (rest : List Char) : Lexeme → Prop where
  | spelled {kind chars} (spelling : kind.spelling? = some chars)
      (begins : chars <+: c :: rest) : Taken c rest ⟨kind, chars⟩
  | space : Taken c rest ⟨.space, [c]⟩
  | lineBreak {chars} (isBreak : chars ∈ lineBreaks) (begins : chars <+: c :: rest) :
      Taken c rest ⟨.lineBreak, chars⟩
  | quoted (quote : c = '"') : Taken c rest (.quoted rest)
  | numeric (digit : c.isDigit = true) : Taken c rest (.numeric (c :: rest))
  | identifier (start : isNameStart c = true)
      (free : ∀ kind spelling, Kind.spelling? kind = some spelling → ¬ spelling <+: c :: rest) :
      Taken c rest ⟨.identifier, (c :: rest).takeWhile isNamePart⟩
  | unknown : Taken c rest ⟨.unknownCharacter, [c]⟩

theorem isNamePart_of_isNameStart {c : Char} (start : isNameStart c = true) :
    isNamePart c = true := by
  simp only [isNameStart, isNamePart, Char.isAlphanum, Bool.or_eq_true] at *
  rcases start with alpha | underscore
  · exact .inl (.inl alpha)
  · exact .inr underscore

theorem taken_of_spelled? {kinds : List Kind} {c : Char} {rest : List Char} {lexeme : Lexeme}
    (found : spelled? kinds (c :: rest) = some lexeme) : Taken c rest lexeme := by
  obtain ⟨kind, -, found⟩ := List.exists_of_findSome?_eq_some found
  split at found
  · rename_i spelling spelled
    split at found
    · rename_i begins
      cases found
      exact .spelled spelled (List.isPrefixOf_iff_prefix.mp begins)
    · cases found
  · cases found

theorem not_prefix_of_spelled? {kinds : List Kind} {text : List Char}
    (none_ : spelled? kinds text = none) {kind : Kind} (member : kind ∈ kinds)
    {spelling : List Char} (spelled : kind.spelling? = some spelling) : ¬ spelling <+: text := by
  have tried := List.findSome?_eq_none_iff.mp none_ kind member
  intro begins
  rw [spelled] at tried
  simp only [List.isPrefixOf_iff_prefix.mpr begins, if_true] at tried
  cases tried

/-- A sign is a symbol, so where no symbol begins the text a number begins with a digit. -/
theorem ofCons_eq (c : Char) (rest : List Char) :
    ofCons c rest =
      match spelled? Kind.table (c :: rest) with
      | some lexeme => lexeme
      | none =>
        if c == ' ' || c == '\t' then ⟨.space, [c]⟩
        else
          match lineBreaks.find? (·.isPrefixOf (c :: rest)) with
          | some chars => ⟨.lineBreak, chars⟩
          | none =>
            match spelled? [.endWord, .colon] (c :: rest) with
            | some lexeme => lexeme
            | none =>
              if c == '"' then quoted rest
              else if c.isDigit then numeric (c :: rest)
              else if isNameStart c then ⟨.identifier, (c :: rest).takeWhile isNamePart⟩
              else ⟨.unknownCharacter, [c]⟩ := by
  unfold ofCons
  dsimp only
  cases noWord : spelled? Kind.table (c :: rest) with
  | some lexeme => rfl
  | none =>
    have plus : c ≠ '+' := by
      rintro rfl
      exact not_prefix_of_spelled? noWord (by decide : Kind.plus ∈ Kind.table) rfl ⟨rest, rfl⟩
    have minus : c ≠ '-' := by
      rintro rfl
      exact not_prefix_of_spelled? noWord (by decide : Kind.minus ∈ Kind.table) rfl ⟨rest, rfl⟩
    cases lineBreaks.find? (·.isPrefixOf (c :: rest)) with
    | some chars => rfl
    | none =>
      cases spelled? [.endWord, .colon] (c :: rest) with
      | some lexeme => rfl
      | none =>
        dsimp only
        by_cases digit : c.isDigit = true
        · have matched := @withoutSuffixes_unsignedMatch? (c :: rest) (by simp [digit])
          obtain ⟨chars, found, number⟩ := Option.map_eq_some_iff.mp matched
          rw [numberMatch?_of_isDigit digit, found, if_pos digit, ← number]
        · rw [numberMatch?_of_not_isDigit digit plus minus, if_neg digit]

theorem taken_ofCons (c : Char) (rest : List Char) : Taken c rest (ofCons c rest) := by
  rw [ofCons_eq]
  split
  · rename_i found
    exact taken_of_spelled? found
  · rename_i noWord
    split
    · exact .space
    · split
      · rename_i chars found
        have begins := List.find?_some found
        exact .lineBreak (List.mem_of_find?_eq_some found) (List.isPrefixOf_iff_prefix.mp begins)
      · split
        · rename_i found
          exact taken_of_spelled? found
        · rename_i noOther
          split
          · rename_i quote
            exact .quoted (by simpa using quote)
          · split
            · rename_i digit
              exact .numeric digit
            · split
              · rename_i start
                refine .identifier start fun kind spelling spelled => ?_
                rcases Kind.mem_of_spelling? spelled with tabled | other
                · exact not_prefix_of_spelled? noWord tabled spelled
                · exact not_prefix_of_spelled? noOther other spelled
              · exact .unknown

theorem numeric_cases (text : List Char) :
    numeric text = ⟨.number, text.takeWhile Char.isDigit⟩ ∨
      ∃ rest, rest.takeWhile Char.isDigit ≠ [] ∧
        text = text.takeWhile Char.isDigit ++ '.' :: rest ∧
        numeric text = ⟨.number,
          text.takeWhile Char.isDigit ++ '.' :: rest.takeWhile Char.isDigit⟩ := by
  unfold numeric
  dsimp only
  split
  · rename_i rest left
    split
    · exact .inl rfl
    · rename_i further
      have whole := List.takeWhile_append_dropWhile (p := Char.isDigit) (l := text)
      rw [left] at whole
      exact .inr ⟨rest, by simpa using further, whole.symm, rfl⟩
  · exact .inl rfl

theorem quoted_cases (rest : List Char) :
    quoted rest = ⟨.openQuote, ['"']⟩ ∨ quoted rest = ⟨.brokenString, ['"']⟩ ∨
      quoted rest = ⟨.string, '"' :: rest.takeWhile (· != '"') ++ ['"']⟩ ∧
        rest.takeWhile (· != '"') ++ ['"'] <+: rest := by
  unfold quoted
  dsimp only
  split
  · exact .inl rfl
  · rename_i closed
    split
    · exact .inr (.inl rfl)
    · refine .inr (.inr ⟨rfl, ?_⟩)
      have whole := List.takeWhile_append_dropWhile (p := (· != '"')) (l := rest)
      cases left : rest.dropWhile (· != '"') with
      | nil =>
        rw [left, List.append_nil] at whole
        exact absurd (congrArg List.length whole) closed
      | cons c after =>
        have quote := List.head?_dropWhile_not (· != '"') rest
        rw [left] at quote whole
        have isQuote : c = '"' := by simpa using quote
        subst isQuote
        exact ⟨after, by simpa using whole⟩

theorem spelled?_congr {kinds : List Kind} {text text' : List Char}
    (same : ∀ kind spelling, Kind.spelling? kind = some spelling →
      spelling.isPrefixOf text' = spelling.isPrefixOf text) :
    spelled? kinds text' = spelled? kinds text := by
  unfold spelled?
  congr 1
  funext kind
  cases spelled : kind.spelling? with
  | none => rfl
  | some spelling => simp only [same kind spelling spelled]

theorem ofCons_congr {c : Char} {rest rest' : List Char}
    (spellings : ∀ kind spelling, Kind.spelling? kind = some spelling →
      spelling.isPrefixOf (c :: rest') = spelling.isPrefixOf (c :: rest))
    (breaks : ∀ chars ∈ lineBreaks, chars.isPrefixOf (c :: rest') = chars.isPrefixOf (c :: rest))
    (strings : c = '"' → quoted rest' = quoted rest)
    (numbers : c.isDigit = true → numeric (c :: rest') = numeric (c :: rest))
    (names : (c :: rest').takeWhile isNamePart = (c :: rest).takeWhile isNamePart) :
    ofCons c rest' = ofCons c rest := by
  have breaks' : lineBreaks.find? (·.isPrefixOf (c :: rest')) =
      lineBreaks.find? (·.isPrefixOf (c :: rest)) := by
    rw [← List.head?_filter, ← List.head?_filter, List.filter_congr breaks]
  rw [ofCons_eq, ofCons_eq, spelled?_congr spellings, spelled?_congr spellings, breaks', names]
  by_cases quote : c = '"'
  · rw [strings quote]
    simp [quote]
  · by_cases digit : c.isDigit = true
    · rw [numbers digit]
      simp [quote]
    · simp [quote, digit]

theorem quoted_closed {inside : List Char} (open_ : '"' ∉ inside) (rest : List Char) :
    quoted (inside ++ '"' :: rest) =
      if inside.any fun c => c == '\n' || c == '\r' then ⟨.brokenString, ['"']⟩
      else ⟨.string, '"' :: inside ++ ['"']⟩ := by
  have taken : (inside ++ '"' :: rest).takeWhile (· != '"') = inside := by
    rw [List.takeWhile_append_of_pos]
    · simp
    · intro c member
      rw [bne_iff_ne]
      rintro rfl
      exact open_ member
  have shorter : inside.length ≠ (inside ++ '"' :: rest).length := by simp
  rw [quoted, taken, if_neg shorter]

theorem quoted_open {rest : List Char} (open_ : '"' ∉ rest) :
    quoted rest = ⟨.openQuote, ['"']⟩ := by
  have taken : rest.takeWhile (· != '"') = rest := by
    rw [List.takeWhile_eq_self_iff]
    intro c member
    rw [bne_iff_ne]
    rintro rfl
    exact open_ member
  simp [quoted, taken]

/-- The characters of a name, which no word or symbol begins. -/
structure IsName (chars : List Char) : Prop where
  start : ∃ c rest, chars = c :: rest ∧ isNameStart c = true
  parts : ∀ c ∈ chars, isNamePart c = true
  free : ∀ kind spelling, Kind.spelling? kind = some spelling → ¬ spelling <+: chars

/-- Words and symbols have the characters of their kind, names are names, and numbers are
read without a sign. -/
structure Proper (lexeme : Lexeme) : Prop where
  spelled : ∀ chars, lexeme.kind.spelling? = some chars → lexeme.chars = chars
  named : lexeme.kind = .identifier → IsName lexeme.chars
  readable : lexeme.kind = .number →
    ∃ digits exponent, Number.read? lexeme.chars = some (Number.ofDecimal digits exponent)

namespace Taken

variable {c : Char} {rest : List Char} {lexeme : Lexeme}

theorem begins (taken : Taken c rest lexeme) : lexeme.chars <+: c :: rest := by
  cases taken with
  | spelled _ begins => exact begins
  | space => exact ⟨rest, rfl⟩
  | lineBreak _ begins => exact begins
  | quoted quote =>
    rcases quoted_cases rest with heq | heq | ⟨heq, closed⟩
    · rw [heq, quote]
      exact ⟨rest, rfl⟩
    · rw [heq, quote]
      exact ⟨rest, rfl⟩
    · rw [heq, quote]
      exact (List.prefix_cons_inj _).mpr closed
  | numeric =>
    rcases numeric_cases (c :: rest) with heq | ⟨after, -, text, heq⟩
    · rw [heq]
      exact List.takeWhile_prefix _
    · have longer := (List.prefix_append_right_inj ((c :: rest).takeWhile Char.isDigit)).mpr
        ((List.prefix_cons_inj '.').mpr (List.takeWhile_prefix (l := after) Char.isDigit))
      rw [← text] at longer
      rw [heq]
      exact longer
  | identifier => exact List.takeWhile_prefix _
  | unknown => exact ⟨rest, rfl⟩

theorem ne_nil (taken : Taken c rest lexeme) : lexeme.chars ≠ [] := by
  cases taken with
  | spelled spelling => exact Kind.spelling?_ne_nil spelling
  | space => simp
  | lineBreak isBreak => rintro rfl; simp [lineBreaks] at isBreak
  | quoted =>
    rcases quoted_cases rest with heq | heq | ⟨heq, -⟩ <;> simp [heq]
  | numeric digit =>
    rcases numeric_cases (c :: rest) with heq | ⟨after, -, -, heq⟩ <;> simp [heq, digit]
  | identifier start => simp [isNamePart_of_isNameStart start]
  | unknown => simp

theorem proper (taken : Taken c rest lexeme) : lexeme.Proper := by
  cases taken with
  | spelled spelling =>
    refine ⟨fun chars again => Option.some.inj (spelling.symm.trans again), ?_, ?_⟩
    · rintro rfl
      cases spelling
    · rintro rfl
      cases spelling
  | space => exact ⟨nofun, nofun, nofun⟩
  | lineBreak => exact ⟨nofun, nofun, nofun⟩
  | quoted =>
    rcases quoted_cases rest with heq | heq | ⟨heq, -⟩ <;> rw [heq] <;>
      exact ⟨nofun, nofun, nofun⟩
  | numeric digit =>
    have digits : ∀ text : List Char, ∀ d ∈ text.takeWhile Char.isDigit, d.isDigit = true :=
      fun text => List.all_eq_true.mp (List.all_takeWhile (l := text))
    have some_ : (c :: rest).takeWhile Char.isDigit ≠ [] := by simp [digit]
    rcases numeric_cases (c :: rest) with heq | ⟨after, -, -, heq⟩
    · rw [heq]
      exact ⟨nofun, nofun, fun _ => ⟨_, _, Number.read?_digits (digits _) some_⟩⟩
    · rw [heq]
      exact ⟨nofun, nofun, fun _ => ⟨_, _, Number.read?_point (digits _) some_ (digits _)⟩⟩
  | identifier start free =>
    refine ⟨nofun, fun _ => ⟨⟨c, rest.takeWhile isNamePart, ?_, start⟩, ?_, ?_⟩, nofun⟩
    · simp [isNamePart_of_isNameStart start]
    · exact List.all_eq_true.mp (List.all_takeWhile (l := c :: rest))
    · exact fun kind spelling spelled begins =>
        free kind spelling spelled (begins.trans (List.takeWhile_prefix isNamePart))
  | unknown => exact ⟨nofun, nofun, nofun⟩

end Taken

theorem proper_first (text : List Char) : (first text).Proper := by
  cases text with
  | nil => exact ⟨nofun, nofun, nofun⟩
  | cons c rest => exact (taken_ofCons c rest).proper

theorem first_prefix (text : List Char) : (first text).chars <+: text := by
  cases text with
  | nil => exact List.prefix_rfl
  | cons c rest => exact (taken_ofCons c rest).begins

theorem length_first_pos {text : List Char} (valid : (first text).isValid = true) :
    0 < (first text).length := by
  cases text with
  | nil => cases valid
  | cons c rest => exact List.length_pos_iff.mpr (taken_ofCons c rest).ne_nil

end Lexeme

namespace Source

/-- With a step for each character, every token is valid and proper, and the one that
stops the scan is not valid. -/
theorem tokensFrom_valid (source : Source) (steps offset : Nat) (rest : List Char)
    (enough : rest.length ≤ steps) :
    (∀ token ∈ (source.tokensFrom steps offset rest).1,
      token.isValid = true ∧ token.Proper) ∧
      (source.tokensFrom steps offset rest).2.isValid = false := by
  induction steps generalizing offset rest with
  | zero =>
    have empty : rest = [] := List.eq_nil_of_length_eq_zero (Nat.le_zero.mp enough)
    subst empty
    exact ⟨nofun, rfl⟩
  | succ steps ih =>
    unfold tokensFrom
    dsimp only
    split
    · rename_i valid
      have taken := Lexeme.length_first_pos valid
      have shorter : (rest.drop (Lexeme.first rest).length).length ≤ steps := by
        rw [List.length_drop]
        omega
      obtain ⟨tokens, stop⟩ := ih (offset + (Lexeme.first rest).length) _ shorter
      refine ⟨fun token member => ?_, stop⟩
      rcases List.mem_cons.mp member with rfl | later
      · exact ⟨valid, Lexeme.proper_first rest⟩
      · exact tokens token later
    · rename_i invalid
      exact ⟨nofun, Bool.eq_false_iff.mpr invalid⟩

theorem tokens_valid (source : Source) :
    (∀ token ∈ source.tokens.1, token.isValid = true ∧ token.Proper) ∧
      source.tokens.2.isValid = false :=
  source.tokensFrom_valid _ 0 _ (Nat.le_refl _)

end Source

end LoopLang
