import LoopLang.Proofs.Cutting

/-!
# The lexical grammar

What a text begins with is settled by six forms of character sequences: words and symbols,
blanks, line breaks, a quote, numerals, and names. The first form of which something begins the
text decides, and of what has that form the longest is taken; a quote takes all up to the next
one. No order within a form is needed: where the scan tries one candidate after another, none
stands before a longer one that it begins, so that the first to be found is the longest.
-/
namespace LoopLang

namespace Kind

def keywords : List Kind :=
  [ifWord, thenWord, elseWord, fiWord, loopWord, breakWord, readWord, printWord, andWord, orWord,
    repeatWord, endWord]

/-- All words and symbols, in the order in which the scan tries them. -/
def spelled : List Kind :=
  table ++ [endWord, colon]

theorem mem_spelled {kind : Kind} {chars : List Char} (spelling : kind.spelling? = some chars) :
    kind ∈ spelled :=
  List.mem_append.mpr (mem_of_spelling? spelling)

theorem spelling?_inj {kind kind' : Kind} {chars : List Char}
    (spelling : kind.spelling? = some chars) (spelling' : kind'.spelling? = some chars) :
    kind = kind' := by
  have apart : ∀ kind ∈ spelled, ∀ kind' ∈ spelled, kind.spelling? = kind'.spelling? →
      kind = kind' := by
    decide +kernel
  exact apart kind (mem_spelled spelling) kind' (mem_spelled spelling')
    (spelling.trans spelling'.symm)

/-- None of them begins one that is tried after it. -/
theorem spelled_ordered :
    (spelled.filterMap spelling?).Pairwise fun chars later => ¬ chars <+: later := by
  decide +kernel

end Kind

namespace Lexeme

/-- Digits, or digits on both sides of a point. -/
inductive IsNumeral : List Char → Prop where
  | whole {digits} (some_ : digits ≠ []) (all : ∀ c ∈ digits, c.isDigit = true) : IsNumeral digits
  | point {digits fraction} (some_ : digits ≠ []) (all : ∀ c ∈ digits, c.isDigit = true)
      (someFraction : fraction ≠ []) (allFraction : ∀ c ∈ fraction, c.isDigit = true) :
      IsNumeral (digits ++ '.' :: fraction)

/-- A letter or an underscore, and letters, digits and underscores after it. -/
structure IsWord (chars : List Char) : Prop where
  start : ∃ c rest, chars = c :: rest ∧ isNameStart c = true
  parts : ∀ c ∈ chars, isNamePart c = true

/-- The forms that the beginning of a text may have. -/
inductive Form where
  | spelling | blank | lineBreak | quote | numeral | word

namespace Form

def Holds : Form → List Char → Prop
  | spelling => fun chars => ∃ kind, Kind.spelling? kind = some chars
  | blank => fun chars => chars ∈ [[' '], ['\t']]
  | lineBreak => fun chars => chars ∈ [['\r', '\n'], ['\n', '\r'], ['\n'], ['\r']]
  | quote => fun chars => chars = ['"']
  | numeral => IsNumeral
  | word => IsWord

/-- The forms that decide before another one. -/
def earlier : Form → List Form
  | spelling => []
  | blank => [spelling]
  | lineBreak => [spelling, blank]
  | quote => [spelling, blank, lineBreak]
  | numeral => [spelling, blank, lineBreak, quote]
  | word => [spelling, blank, lineBreak, quote, numeral]

/-- Whether something of a form begins a text. -/
def Begins (form : Form) (text : List Char) : Prop :=
  ∃ chars, form.Holds chars ∧ chars <+: text

/-- The longest beginning of a text that has a form. -/
structure Longest (form : Form) (text chars : List Char) : Prop where
  holds : form.Holds chars
  begins : chars <+: text
  longest : ∀ other, form.Holds other → other <+: text → other.length ≤ chars.length

theorem Holds.ne_nil {form : Form} {chars : List Char} (holds : form.Holds chars) :
    chars ≠ [] := by
  rintro rfl
  cases form with
  | spelling =>
    obtain ⟨kind, spelled⟩ := holds
    exact Kind.spelling?_ne_nil spelled rfl
  | blank | lineBreak | quote => simp [Holds] at holds
  | numeral =>
    generalize empty : ([] : List Char) = chars at holds
    cases holds with
    | whole some_ => exact some_ empty.symm
    | point some_ => simp at empty
  | word =>
    obtain ⟨c, rest, empty, -⟩ := holds.start
    cases empty

theorem earlier_or_same (form form' : Form) :
    form = form' ∨ form ∈ form'.earlier ∨ form' ∈ form.earlier := by
  cases form <;> cases form' <;> simp [earlier]

variable {form : Form} {text chars chars' : List Char}

theorem Longest.unique (longest : form.Longest text chars) (longest' : form.Longest text chars') :
    chars = chars' := by
  have shorter := longest'.longest chars longest.holds longest.begins
  have longer := longest.longest chars' longest'.holds longest'.begins
  exact (List.prefix_of_prefix_length_le longest.begins longest'.begins shorter).eq_of_length_le
    longer

end Form

/-- What is taken from a text by a form that begins it. -/
inductive Takes (text : List Char) : Form → Lexeme → Prop where
  | spelling {kind chars} (spelled : Kind.spelling? kind = some chars)
      (longest : Form.spelling.Longest text chars) : Takes text .spelling ⟨kind, chars⟩
  | blank {chars} (longest : Form.blank.Longest text chars) : Takes text .blank ⟨.space, chars⟩
  | lineBreak {chars} (longest : Form.lineBreak.Longest text chars) :
      Takes text .lineBreak ⟨.lineBreak, chars⟩
  | openQuote {rest} (begins : text = '"' :: rest) (open_ : '"' ∉ rest) :
      Takes text .quote ⟨.openQuote, ['"']⟩
  | brokenString {inside rest} (begins : text = '"' :: (inside ++ '"' :: rest))
      (next : '"' ∉ inside) (broken : ∃ c ∈ inside, c = '\n' ∨ c = '\r') :
      Takes text .quote ⟨.brokenString, ['"']⟩
  | string {inside rest} (begins : text = '"' :: (inside ++ '"' :: rest)) (next : '"' ∉ inside)
      (unbroken : ∀ c ∈ inside, c ≠ '\n' ∧ c ≠ '\r') :
      Takes text .quote ⟨.string, '"' :: inside ++ ['"']⟩
  | numeral {chars} (longest : Form.numeral.Longest text chars) :
      Takes text .numeral ⟨.number, chars⟩
  | word {chars} (longest : Form.word.Longest text chars) : Takes text .word ⟨.identifier, chars⟩

/-- What is cut off the beginning of a text: what the first form takes that begins it, else
one character that nothing can begin with, else nothing. -/
inductive Cut (text : List Char) : Lexeme → Prop where
  | taken {form lexeme} (takes : Takes text form lexeme)
      (otherwise : ∀ earlier ∈ form.earlier, ¬ earlier.Begins text) : Cut text lexeme
  | unknown {c rest} (begins : text = c :: rest) (otherwise : ∀ form, ¬ Form.Begins form text) :
      Cut text ⟨.unknownCharacter, [c]⟩
  | nothing (ends : text = []) : Cut text ⟨.endOfInput, []⟩

section Unique

variable {text : List Char} {form : Form} {lexeme lexeme' : Lexeme}

theorem Takes.begins (takes : Takes text form lexeme) : form.Begins text := by
  cases takes with
  | openQuote begins | brokenString begins | string begins =>
    subst begins
    exact ⟨['"'], rfl, List.prefix_append ..⟩
  | _ => rename_i longest; exact ⟨_, longest.holds, longest.begins⟩

theorem Takes.quoted {rest : List Char} (takes : Takes ('"' :: rest) .quote lexeme) :
    lexeme = .quoted rest := by
  cases takes with
  | openQuote begins open_ =>
    obtain rfl := (List.cons.inj begins).2
    exact (quoted_open open_).symm
  | brokenString begins next broken =>
    obtain rfl := (List.cons.inj begins).2
    rw [quoted_closed next, if_pos (by simpa using broken)]
  | string begins next unbroken =>
    obtain rfl := (List.cons.inj begins).2
    rw [quoted_closed next, if_neg (by simpa using unbroken)]

theorem Takes.unique (takes : Takes text form lexeme) (takes' : Takes text form lexeme') :
    lexeme = lexeme' := by
  cases form with
  | spelling =>
    cases takes with
    | @spelling kind _ spelled longest =>
      cases takes' with
      | @spelling kind' _ spelled' longest' =>
        obtain rfl := longest.unique longest'
        rw [Kind.spelling?_inj spelled spelled']
  | quote =>
    obtain ⟨_, rfl, rest, rfl⟩ := takes.begins
    rw [takes.quoted, takes'.quoted]
  | _ =>
    cases takes
    cases takes'
    rename_i longest _ longest'
    rw [longest.unique longest']

theorem Cut.unique (cut : Cut text lexeme) (cut' : Cut text lexeme') : lexeme = lexeme' := by
  cases cut with
  | @taken form _ takes otherwise =>
    cases cut' with
    | @taken form' _ takes' otherwise' =>
      rcases form.earlier_or_same form' with rfl | before | before
      · exact takes.unique takes'
      · exact absurd takes.begins (otherwise' form before)
      · exact absurd takes'.begins (otherwise form' before)
    | unknown _ free => exact absurd takes.begins (free form)
    | nothing ends =>
      obtain ⟨chars, holds, begins⟩ := takes.begins
      subst ends
      exact absurd (List.prefix_nil.mp begins) holds.ne_nil
  | unknown begins free =>
    subst begins
    cases cut' with
    | taken takes => exact absurd takes.begins (free _)
    | unknown begins' => rw [(List.cons.inj begins').1]
    | nothing ends => cases ends
  | nothing ends =>
    subst ends
    cases cut' with
    | taken takes =>
      obtain ⟨chars, holds, begins⟩ := takes.begins
      exact absurd (List.prefix_nil.mp begins) holds.ne_nil
    | unknown begins => cases begins
    | nothing => rfl

end Unique

section Begins

variable {c : Char} {rest text chars : List Char}

theorem not_begins_spelling (member : c ∈ [' ', '\t', '\r', '\n', '"']) :
    ¬ Form.spelling.Begins (c :: rest) := by
  rintro ⟨chars, ⟨kind, spelled⟩, begins⟩
  cases kind <;> cases spelled <;> obtain rfl := (List.cons_prefix_cons.mp begins).1 <;>
    simp at member

theorem begins_blank : Form.blank.Begins (c :: rest) ↔ c = ' ' ∨ c = '\t' := by
  simp [Form.Begins, Form.Holds, List.cons_prefix_cons, eq_comm]

theorem begins_lineBreak : Form.lineBreak.Begins (c :: rest) ↔ c = '\r' ∨ c = '\n' := by
  simp [Form.Begins, Form.Holds, List.cons_prefix_cons, eq_comm]
  tauto

theorem begins_quote : Form.quote.Begins (c :: rest) ↔ c = '"' := by
  simp [Form.Begins, Form.Holds, List.cons_prefix_cons, eq_comm]

theorem IsNumeral.head {digit : Char} (numeral : IsNumeral (digit :: chars)) :
    digit.isDigit = true := by
  generalize whole : digit :: chars = all at numeral
  cases numeral with
  | whole _ digits =>
    subst whole
    exact digits digit List.mem_cons_self
  | point some_ digits =>
    obtain ⟨first, others, rfl⟩ := List.exists_cons_of_ne_nil some_
    obtain rfl := (List.cons.inj whole).1
    exact digits digit List.mem_cons_self

theorem begins_numeral : Form.numeral.Begins (c :: rest) ↔ c.isDigit = true := by
  constructor
  · rintro ⟨chars, holds, begins⟩
    obtain ⟨digit, others, rfl⟩ := List.exists_cons_of_ne_nil holds.ne_nil
    rw [← (List.cons_prefix_cons.mp begins).1]
    exact IsNumeral.head holds
  · intro digit
    exact ⟨[c], .whole (by simp) (by simpa using digit), List.prefix_append [c] rest⟩

theorem begins_word : Form.word.Begins (c :: rest) ↔ isNameStart c = true := by
  constructor
  · rintro ⟨chars, holds, begins⟩
    obtain ⟨d, others, rfl, start⟩ := IsWord.start holds
    rwa [← (List.cons_prefix_cons.mp begins).1]
  · intro start
    have word : IsWord [c] := ⟨⟨c, [], rfl, start⟩, by simpa using isNamePart_of_isNameStart start⟩
    exact ⟨[c], word, List.prefix_append [c] rest⟩

end Begins

section Longest

variable {c : Char} {rest text chars other : List Char} {lexeme : Lexeme}

/-- Where no candidate begins a later one, the first that begins a text is the longest. -/
theorem length_le_of_find? {candidates : List (List Char)}
    (ordered : candidates.Pairwise fun chars later => ¬ chars <+: later)
    (found : candidates.find? (·.isPrefixOf text) = some chars) (member : other ∈ candidates)
    (begins : other <+: text) : other.length ≤ chars.length := by
  obtain ⟨tried, before, after, rfl, failed⟩ := List.find?_eq_some_iff_append.mp found
  rw [List.isPrefixOf_iff_prefix] at tried
  rw [List.mem_append, List.mem_cons] at member
  rcases member with sooner | rfl | later
  · have fails := failed other sooner
    simp [List.isPrefixOf_iff_prefix.mpr begins] at fails
  · exact Nat.le_refl _
  · rw [List.pairwise_append, List.pairwise_cons] at ordered
    by_contra longer
    exact ordered.2.1.1 other later
      (List.prefix_of_prefix_length_le tried begins (Nat.le_of_not_le longer))

theorem find?_of_spelled? {kinds : List Kind} (found : spelled? kinds text = some lexeme) :
    lexeme.kind.spelling? = some lexeme.chars ∧
      (kinds.filterMap Kind.spelling?).find? (·.isPrefixOf text) = some lexeme.chars := by
  induction kinds with
  | nil => cases found
  | cons kind kinds ih =>
    rw [spelled?, List.findSome?_cons] at found
    cases spelled : kind.spelling? with
    | none =>
      rw [List.filterMap_cons_none spelled]
      simp only [spelled] at found
      exact ih found
    | some chars =>
      rw [List.filterMap_cons_some spelled]
      simp only [spelled] at found
      by_cases begins : chars.isPrefixOf text = true
      · rw [if_pos begins] at found
        cases found
        exact ⟨spelled, List.find?_cons_of_pos begins⟩
      · rw [if_neg begins] at found
        rw [List.find?_cons, Bool.eq_false_iff.mpr begins]
        exact ih found

theorem takes_of_spelled? (found : spelled? Kind.spelled text = some lexeme) :
    Takes text .spelling lexeme := by
  obtain ⟨spelling, tried⟩ := find?_of_spelled? found
  have begins := List.find?_some tried
  refine .spelling spelling ⟨⟨_, spelling⟩, List.isPrefixOf_iff_prefix.mp begins, ?_⟩
  rintro other ⟨kind, spelled⟩ begins'
  exact length_le_of_find? Kind.spelled_ordered tried
    (List.mem_filterMap.mpr ⟨kind, Kind.mem_spelled spelled, spelled⟩) begins'

theorem takes_of_lineBreaks (found : lineBreaks.find? (·.isPrefixOf text) = some chars) :
    Takes text .lineBreak ⟨.lineBreak, chars⟩ := by
  have ordered : lineBreaks.Pairwise fun chars later => ¬ chars <+: later := by decide
  have begins := List.find?_some found
  exact .lineBreak ⟨List.mem_of_find?_eq_some found, List.isPrefixOf_iff_prefix.mp begins,
    fun _ member => length_le_of_find? ordered found member⟩

theorem takes_quoted (rest : List Char) : Takes ('"' :: rest) .quote (quoted rest) := by
  by_cases closed : '"' ∈ rest
  · obtain ⟨inside, after, rfl, next⟩ := List.eq_append_cons_of_mem closed
    rw [quoted_closed next]
    split
    · rename_i broken
      exact .brokenString rfl next (by simpa using broken)
    · rename_i unbroken
      exact .string rfl next (by simpa using unbroken)
  · rw [quoted_open closed]
    exact .openQuote rfl closed

theorem length_le_takeWhile {p : Char → Bool} (all : ∀ c ∈ other, p c = true)
    (begins : other <+: text) : other.length ≤ (text.takeWhile p).length := by
  obtain ⟨after, rfl⟩ := begins
  rw [List.takeWhile_append_of_pos all, List.length_append]
  exact Nat.le_add_right ..

/-- A numeral that begins a text has no more than the digits there, or it has a point after all
of them. -/
theorem IsNumeral.begins_digits {whole after : List Char} (numeral : IsNumeral other)
    (digits : ∀ c ∈ whole, c.isDigit = true)
    (ends : ∀ c, after.head? = some c → c.isDigit = false) (begins : other <+: whole ++ after) :
    other.length ≤ whole.length ∨ ∃ fraction more, fraction ≠ [] ∧
      (∀ c ∈ fraction, c.isDigit = true) ∧ other = whole ++ '.' :: fraction ∧
      after = '.' :: (fraction ++ more) := by
  cases numeral with
  | whole _ all =>
    have within := length_le_takeWhile all begins
    rw [takeWhile_parts digits ends] at within
    exact .inl within
  | @point digits' fraction _ all some_ allFraction =>
    obtain ⟨more, text⟩ := begins
    rw [List.append_assoc, List.cons_append] at text
    have point : ∀ c, ('.' :: (fraction ++ more)).head? = some c → c.isDigit = false := by
      rintro _ ⟨⟩
      rfl
    have same := congrArg (List.takeWhile Char.isDigit) text
    have left := congrArg (List.dropWhile Char.isDigit) text
    rw [takeWhile_parts all point, takeWhile_parts digits ends] at same
    rw [dropWhile_parts all point, dropWhile_parts digits ends] at left
    subst same
    exact .inr ⟨fraction, more, some_, allFraction, rfl, left.symm⟩

theorem takes_numeric (digit : c.isDigit = true) :
    Takes (c :: rest) .numeral (numeric (c :: rest)) := by
  obtain ⟨whole, after, text, digits, ends⟩ := exists_digits (c :: rest)
  have some_ : whole ≠ [] := by
    rintro rfl
    rw [List.nil_append] at text
    subst text
    simp [digit] at ends
  have alone (numeral : numeric (whole ++ after) = ⟨.number, whole⟩)
      (none_ : ∀ fraction more, after = '.' :: (fraction ++ more) → fraction ≠ [] →
        ¬ ∀ c ∈ fraction, c.isDigit = true) :
      Takes (whole ++ after) .numeral (numeric (whole ++ after)) := by
    rw [numeral]
    refine .numeral ⟨.whole some_ digits, List.prefix_append .., fun other holds begins => ?_⟩
    rcases IsNumeral.begins_digits holds digits ends begins with
      within | ⟨fraction, more, someFraction, all, -, point⟩
    · exact within
    · exact absurd all (none_ fraction more point someFraction)
  rw [text]
  by_cases point : after.head? = some '.'
  · obtain ⟨after, rfl⟩ := List.head?_eq_some_iff.mp point
    have cut := numeric_point digits after
    split at cut
    · rename_i noDigit
      refine alone cut fun fraction more same someFraction all => someFraction ?_
      rw [(List.cons.inj same).2, List.takeWhile_append_of_pos all] at noDigit
      exact (List.append_eq_nil_iff.mp (List.isEmpty_iff.mp noDigit)).1
    · rename_i someDigit
      rw [cut]
      refine .numeral ⟨.point some_ digits (by simpa using someDigit)
        (List.all_eq_true.mp List.all_takeWhile), ?_, fun other holds begins => ?_⟩
      · exact (List.prefix_append_right_inj whole).mpr
          (List.cons_prefix_cons.mpr ⟨rfl, List.takeWhile_prefix _⟩)
      · rcases IsNumeral.begins_digits holds digits ends begins with
          within | ⟨fraction, more, -, all, rfl, same⟩
        · rw [List.length_append]
          omega
        · have within := length_le_takeWhile all (List.prefix_append fraction more)
          rw [(List.cons.inj same).2]
          simpa using within
  · refine alone (numeric_whole digits fun c head => ⟨ends c head, ?_⟩) ?_
    · rintro rfl
      exact point head
    · rintro fraction more rfl
      exact absurd rfl point

theorem takes_name (start : isNameStart c = true) :
    Takes (c :: rest) .word ⟨.identifier, (c :: rest).takeWhile isNamePart⟩ := by
  have some_ : (c :: rest).takeWhile isNamePart = c :: rest.takeWhile isNamePart := by
    simp [isNamePart_of_isNameStart start]
  exact .word ⟨⟨⟨c, _, some_, start⟩, List.all_eq_true.mp List.all_takeWhile⟩,
    List.takeWhile_prefix _, fun _ word begins => length_le_takeWhile word.parts begins⟩

theorem takes_blank (blank : c = ' ' ∨ c = '\t') : Takes (c :: rest) .blank ⟨.space, [c]⟩ := by
  refine .blank ⟨by simpa [Form.Holds] using blank, List.prefix_append [c] rest, ?_⟩
  intro other holds _
  simp only [Form.Holds, List.mem_cons, List.not_mem_nil, or_false] at holds
  rcases holds with rfl | rfl <;> exact Nat.le_refl 1

end Longest

theorem cut_ofCons (c : Char) (rest : List Char) : Cut (c :: rest) (ofCons c rest) := by
  have tables : spelled? Kind.spelled (c :: rest) =
      (spelled? Kind.table (c :: rest)).or (spelled? [.endWord, .colon] (c :: rest)) :=
    List.findSome?_append
  rw [ofCons_eq]
  split
  · rename_i found
    exact .taken (takes_of_spelled? (by rw [tables, found, Option.some_or])) nofun
  · rename_i noWord
    rw [noWord, Option.none_or] at tables
    split
    · rename_i isBlank
      have blank : c = ' ' ∨ c = '\t' := by simpa using isBlank
      have noSpelling : ¬ Form.spelling.Begins (c :: rest) := by
        rcases blank with rfl | rfl <;> exact not_begins_spelling (by simp)
      exact .taken (takes_blank blank) (by simpa [Form.earlier] using noSpelling)
    · rename_i noBlank
      replace noBlank : ¬ Form.blank.Begins (c :: rest) := by simpa [begins_blank] using noBlank
      split
      · rename_i chars found
        have takes := takes_of_lineBreaks found
        have noSpelling : ¬ Form.spelling.Begins (c :: rest) := by
          rcases begins_lineBreak.mp takes.begins with rfl | rfl <;>
            exact not_begins_spelling (by simp)
        exact .taken takes (by simpa [Form.earlier] using ⟨noSpelling, noBlank⟩)
      · rename_i noBreak
        replace noBreak : ¬ Form.lineBreak.Begins (c :: rest) := by
          rintro ⟨chars, isBreak, begins⟩
          exact List.find?_eq_none.mp noBreak chars isBreak (List.isPrefixOf_iff_prefix.mpr begins)
        split
        · rename_i found
          exact .taken (takes_of_spelled? (by rw [tables, found])) nofun
        · rename_i noOther
          rw [noOther] at tables
          have noSpelling : ¬ Form.spelling.Begins (c :: rest) := by
            rintro ⟨chars, ⟨kind, spelled⟩, begins⟩
            exact not_prefix_of_spelled? tables (Kind.mem_spelled spelled) spelled begins
          split
          · rename_i isQuote
            obtain rfl : c = '"' := by simpa using isQuote
            exact .taken (takes_quoted rest)
              (by simpa [Form.earlier] using ⟨noSpelling, noBlank, noBreak⟩)
          · rename_i noQuote
            replace noQuote : ¬ Form.quote.Begins (c :: rest) := by
              simpa [begins_quote] using noQuote
            split
            · rename_i digit
              exact .taken (takes_numeric digit)
                (by simpa [Form.earlier] using ⟨noSpelling, noBlank, noBreak, noQuote⟩)
            · rename_i noDigit
              rw [← @begins_numeral c rest] at noDigit
              split
              · rename_i start
                exact .taken (takes_name start)
                  (by simpa [Form.earlier] using ⟨noSpelling, noBlank, noBreak, noQuote, noDigit⟩)
              · rename_i noStart
                rw [← @begins_word c rest] at noStart
                refine .unknown rfl fun form => ?_
                cases form <;> assumption

/-- The scan cuts off what the grammar says, and nothing else. -/
theorem first_eq_iff {text : List Char} {lexeme : Lexeme} :
    first text = lexeme ↔ Cut text lexeme := by
  have cut : Cut text (first text) := by
    cases text with
    | nil => exact .nothing rfl
    | cons c rest => exact cut_ofCons c rest
  constructor
  · rintro rfl
    exact cut
  · exact fun cut' => cut.unique cut'

theorem Cut.longest {text : List Char} {lexeme : Lexeme} {form : Form} (cut : Cut text lexeme)
    (own : (lexeme.kind, form) ∈ [(Kind.space, Form.blank), (.lineBreak, .lineBreak),
      (.number, .numeral), (.identifier, .word)]) : form.Longest text lexeme.chars := by
  simp only [List.mem_cons, List.not_mem_nil, or_false, Prod.mk.injEq] at own
  cases cut with
  | taken takes =>
    cases takes with
    | spelling spelled =>
      dsimp only at own
      rcases own with ⟨rfl, -⟩ | ⟨rfl, -⟩ | ⟨rfl, -⟩ | ⟨rfl, -⟩ <;> cases spelled
    | blank longest | lineBreak longest | numeral longest | word longest =>
      obtain rfl := by simpa using own
      exact longest
    | _ => simp at own
  | _ => simp at own

section Word

variable {word rest : List Char}

theorem mem_keywords {kind : Kind} {c : Char} {spelling : List Char}
    (spelled : kind.spelling? = some (c :: spelling)) (start : isNameStart c = true) :
    kind ∈ Kind.keywords := by
  cases kind <;> cases spelled <;> first | cases start; done | decide

theorem begins_spelling_iff (isWord : IsWord word)
    (ends : ∀ c, rest.head? = some c → isNamePart c = false) :
    Form.spelling.Begins (word ++ rest) ↔
      ∃ kind ∈ Kind.keywords, ∃ spelling, kind.spelling? = some spelling ∧ spelling <+: word := by
  constructor
  · rintro ⟨spelling, ⟨kind, spelled⟩, begins⟩
    obtain ⟨c, others, rfl, start⟩ := isWord.start
    obtain ⟨d, letters, rfl⟩ := List.exists_cons_of_ne_nil (Kind.spelling?_ne_nil spelled)
    obtain ⟨rfl, -⟩ := List.cons_prefix_cons.mp begins
    have shorter := length_le_takeWhile (isNamePart_of_spelling? spelled start) begins
    rw [takeWhile_parts isWord.parts ends] at shorter
    exact ⟨kind, mem_keywords spelled start, _, spelled,
      List.prefix_of_prefix_length_le begins (List.prefix_append ..) shorter⟩
  · rintro ⟨kind, -, spelling, spelled, begins⟩
    exact ⟨spelling, ⟨kind, spelled⟩, begins.trans (List.prefix_append ..)⟩

/-- A name is cut off as one exactly if no word of the language begins it. -/
theorem first_eq_identifier_iff (isWord : IsWord word)
    (ends : ∀ c, rest.head? = some c → isNamePart c = false) :
    first (word ++ rest) = ⟨.identifier, word⟩ ↔
      ∀ kind ∈ Kind.keywords, ∀ spelling, kind.spelling? = some spelling → ¬ spelling <+: word := by
  have free : ¬ Form.spelling.Begins (word ++ rest) ↔
      ∀ kind ∈ Kind.keywords, ∀ spelling, kind.spelling? = some spelling →
        ¬ spelling <+: word := by
    rw [begins_spelling_iff isWord ends]
    simp only [not_exists, not_and]
  rw [first_eq_iff, ← free]
  constructor
  · intro cut
    cases cut with
    | taken takes otherwise =>
      cases takes with
      | spelling spelled => cases spelled
      | word => exact otherwise .spelling (by simp [Form.earlier])
  · intro noSpelling
    have longest : Form.word.Longest (word ++ rest) word := by
      refine ⟨isWord, List.prefix_append .., fun other holds begins => ?_⟩
      have shorter := length_le_takeWhile (IsWord.parts holds) begins
      rwa [takeWhile_parts isWord.parts ends] at shorter
    refine .taken (.word longest) ?_
    obtain ⟨c, others, rfl, start⟩ := isWord.start
    obtain ⟨plain, noDigit⟩ := plain_of_isNameStart start
    simp only [List.mem_cons, List.not_mem_nil, or_false, not_or] at plain
    rw [List.cons_append] at noSpelling ⊢
    simp [Form.earlier, begins_blank, begins_lineBreak, begins_quote, begins_numeral, noSpelling,
      plain, noDigit]

end Word

end Lexeme

open Lexeme in
/-- A scan at any offset yields what the grammar says of the rest of the text, and nothing else
is what the grammar says. So a name in the text, up to where it cannot go on, is yielded whole
exactly if no word of the language begins it, and a number is never empty. -/
theorem Source.scan_eq_iff (upcase : Bool) (text : String) :
    let source := Source.ofText upcase text
    (∀ offset lexeme,
      (source.scan offset).toLexeme = lexeme ↔ Cut (source.text.drop offset) lexeme) ∧
    (∀ offset word rest, source.text.drop offset = word ++ rest → IsWord word →
      (∀ c, rest.head? = some c → isNamePart c = false) →
      ((source.scan offset).toLexeme = ⟨.identifier, word⟩ ↔
        ∀ kind ∈ Kind.keywords, ∀ spelling, kind.spelling? = some spelling →
          ¬ spelling <+: word)) ∧
    ∀ offset, (source.scan offset).kind = .number → (source.scan offset).text ≠ "" := by
  intro source
  refine ⟨fun offset lexeme => first_eq_iff, ?_, ?_⟩
  · intro offset word rest split_ isWord ends
    have scanned : (source.scan offset).toLexeme = first (word ++ rest) := by
      rw [← split_]
      rfl
    rw [scanned]
    exact first_eq_identifier_iff isWord ends
  · intro offset isNumber
    have cut : Cut (source.text.drop offset) (source.scan offset).toLexeme := first_eq_iff.mp rfl
    have longest : Form.numeral.Longest (source.text.drop offset) (source.scan offset).chars :=
      cut.longest (by simp [isNumber])
    have some_ := longest.holds.ne_nil
    have text : (source.scan offset).text = .ofList (source.scan offset).chars := by
      simp [Lexeme.text, isNumber, Kind.complaint?]
    rw [text]
    exact fun empty => some_ (String.ofList_eq_empty_iff.mp empty)

end LoopLang
