import LoopLang.Machine.Console
import LoopLang.Proofs.Cutting
import LoopLang.Proofs.Parsing
import LoopLang.Proofs.Tiling
import LoopLang.Text.Newline

/-!
# Words and line ends

A word of a text holds no line end, and line ends between words are whitespace. So the words
stay the same when each run of line ends becomes a single line feed. That is what files and
strings with other conventions come to alike.
-/
namespace LoopLang

namespace Text
open Console (isLineEnd)

/-- A text in which each run of line ends is a single line feed; `after` tells whether a line
end stands before it. -/
def gather : Bool → List Char → List Char
  | _, [] => []
  | after, c :: rest =>
    if isLineEnd c then (if after then gather true rest else '\n' :: gather true rest)
    else c :: gather false rest

theorem ne_of_isLineEnd {c d : Char} (inLine : isLineEnd c = false) (ends : isLineEnd d = true) :
    c ≠ d := by
  rintro rfl
  rw [ends] at inLine
  cases inLine

theorem gather_cons {c : Char} (inLine : isLineEnd c = false) (after : Bool) (rest : List Char) :
    gather after (c :: rest) = c :: gather false rest := by
  simp [gather, inLine]

theorem gather_append {chars : List Char} (inLine : ∀ c ∈ chars, isLineEnd c = false)
    (rest : List Char) : gather false (chars ++ rest) = chars ++ gather false rest := by
  induction chars with
  | nil => rfl
  | cons c chars ih =>
    rw [List.forall_mem_cons] at inLine
    rw [List.cons_append, gather_cons inLine.1, ih inLine.2, List.cons_append]

theorem gather_append_of_ne_nil {chars : List Char} (some_ : chars ≠ [])
    (inLine : ∀ c ∈ chars, isLineEnd c = false) (after : Bool) (rest : List Char) :
    gather after (chars ++ rest) = chars ++ gather false rest := by
  obtain ⟨c, others, rfl⟩ := List.exists_cons_of_ne_nil some_
  rw [List.forall_mem_cons] at inLine
  rw [List.cons_append, gather_cons inLine.1, gather_append inLine.2, List.cons_append]

theorem gather_lineEnds {chars : List Char} (ends : ∀ c ∈ chars, isLineEnd c = true)
    (rest : List Char) : gather true (chars ++ rest) = gather true rest := by
  induction chars with
  | nil => rfl
  | cons c chars ih =>
    rw [List.forall_mem_cons] at ends
    rw [List.cons_append, gather, if_pos ends.1, if_pos rfl, ih ends.2]

theorem gather_lineEnd {c : Char} (ends : isLineEnd c = true) {chars : List Char}
    (others : ∀ c ∈ chars, isLineEnd c = true) (rest : List Char) :
    gather false (c :: chars ++ rest) = '\n' :: gather true rest := by
  rw [List.cons_append, gather, if_pos ends, gather_lineEnds others]
  rfl

theorem inLine_head_gather {text : List Char} {c : Char}
    (head : (gather true text).head? = some c) : isLineEnd c = false := by
  induction text with
  | nil => cases head
  | cons d rest ih =>
    by_cases ends : isLineEnd d = true
    · rw [gather, if_pos ends, if_pos rfl] at head
      exact ih head
    · rw [Bool.not_eq_true] at ends
      rw [gather_cons ends] at head
      cases head
      exact ends

theorem gather_append_cons {c : Char} (inLine : isLineEnd c = false) (after : Bool)
    (chars rest : List Char) :
    gather after (chars ++ c :: rest) = gather after chars ++ c :: gather false rest := by
  induction chars generalizing after with
  | nil => exact gather_cons inLine after rest
  | cons d chars ih =>
    by_cases ends : isLineEnd d = true <;> cases after <;> simp [gather, ends, ih]

theorem mem_gather {c : Char} (inLine : isLineEnd c = false) (after : Bool) (text : List Char) :
    c ∈ gather after text ↔ c ∈ text := by
  induction text generalizing after with
  | nil => rfl
  | cons d rest ih =>
    by_cases ends : isLineEnd d = true
    · have differs := ne_of_isLineEnd inLine ends
      have notFeed : c ≠ '\n' := ne_of_isLineEnd inLine rfl
      cases after <;> simp [gather, ends, ih, differs, notFeed]
    · simp [gather, ends, ih]

theorem any_gather (text : List Char) :
    (gather false text).any isLineEnd = text.any isLineEnd := by
  induction text with
  | nil => rfl
  | cons c rest ih =>
    by_cases ends : isLineEnd c = true
    · have feed : isLineEnd '\n' = true := rfl
      simp [gather, ends, feed]
    · simp [gather, ends, ih]

theorem takeWhile_gather {p : Char → Bool} (within : ∀ c, p c = true → isLineEnd c = false)
    (text : List Char) : (gather false text).takeWhile p = text.takeWhile p := by
  induction text with
  | nil => rfl
  | cons c rest ih =>
    by_cases ends : isLineEnd c = true
    · have feed : p '\n' = false := by
        rw [Bool.eq_false_iff]
        intro holds
        cases within _ holds
      have stops : p c = false := by
        rw [Bool.eq_false_iff]
        intro holds
        rw [within _ holds] at ends
        cases ends
      simp [gather, ends, feed, stops]
    · simp [gather, ends, List.takeWhile_cons, ih]

theorem isPrefixOf_gather {chars : List Char} (inLine : ∀ c ∈ chars, isLineEnd c = false)
    (text : List Char) : chars.isPrefixOf (gather false text) = chars.isPrefixOf text := by
  induction chars generalizing text with
  | nil => simp
  | cons c chars ih =>
    rw [List.forall_mem_cons] at inLine
    cases text with
    | nil => rfl
    | cons d rest =>
      by_cases ends : isLineEnd d = true
      · have differs := beq_eq_false_iff_ne.mpr (ne_of_isLineEnd inLine.1 ends)
        have notFeed : (c == '\n') = false := beq_eq_false_iff_ne.mpr (ne_of_isLineEnd inLine.1 rfl)
        simp [gather, ends, List.isPrefixOf_cons_cons, differs, notFeed]
      · simp [gather, ends, List.isPrefixOf_cons_cons, ih inLine.2]

/-- A text and the text of a file with its contents have the same runs of line ends. -/
theorem gather_unifyNewlines (after : Bool) (text : List Char) :
    gather after (unifyNewlines text) = gather after text := by
  fun_induction unifyNewlines text generalizing after with
  | case1 rest ih => cases after <;> simp [gather, isLineEnd, ih]
  | case2 rest _ ih => cases after <;> simp [gather, isLineEnd, ih]
  | case3 c rest _ _ ih => simp [gather, ih]
  | case4 => rfl

theorem isLineEnd_ofNat {code : Nat} (above : 13 < code) :
    isLineEnd (Char.ofNat code) = false := by
  have value : (Char.ofNat code).toNat = code ∨ (Char.ofNat code).toNat = 0 := by
    unfold Char.ofNat
    split
    · exact .inl rfl
    · exact .inr rfl
  rw [isLineEnd, Bool.or_eq_false_iff, beq_eq_false_iff_ne, beq_eq_false_iff_ne]
  constructor
  all_goals
    intro same
    rw [same] at value
    rcases value with code' | absurd_
    · rw [← code'] at above
      exact absurd above (by decide)
    · cases absurd_

theorem above_caseRuns : ∀ run ∈ caseRuns, 13 < run.first + run.shift := by
  decide +kernel

theorem above_caseExpansions : ∀ entry ∈ caseExpansions,
    entry.2 ≠ [] ∧ ∀ code ∈ entry.2, 13 < code := by
  decide +kernel

theorem upcaseChar_of_isLineEnd {c : Char} (ends : isLineEnd c = true) : upcaseChar c = [c] := by
  simp only [isLineEnd, Bool.or_eq_true, beq_iff_eq] at ends
  rcases ends with rfl | rfl <;> rfl

theorem inLine_upcaseChar {c : Char} (inLine : isLineEnd c = false) :
    upcaseChar c ≠ [] ∧ ∀ d ∈ upcaseChar c, isLineEnd d = false := by
  unfold upcaseChar
  split
  · rename_i run found
    have covers := List.find?_some found
    have above := above_caseRuns run (List.mem_of_find?_eq_some found)
    simp only [CaseRun.covers, Bool.and_eq_true, decide_eq_true_eq] at covers
    refine ⟨List.cons_ne_nil _ _, fun d member => ?_⟩
    rw [List.mem_singleton.mp member]
    exact isLineEnd_ofNat (by omega)
  · split
    · rename_i codes found
      obtain ⟨some_, above⟩ := above_caseExpansions _ (List.mem_of_find?_eq_some found)
      refine ⟨by simpa using some_, fun d member => ?_⟩
      obtain ⟨code, isCode, rfl⟩ := List.mem_map.mp member
      exact isLineEnd_ofNat (above code isCode)
    · refine ⟨List.cons_ne_nil _ _, fun d member => ?_⟩
      rw [List.mem_singleton.mp member]
      exact inLine

theorem gather_upcase (after : Bool) (text : List Char) :
    gather after (upcase text) = upcase (gather after text) := by
  induction text generalizing after with
  | nil => rfl
  | cons c rest ih =>
    unfold upcase at ih ⊢
    by_cases ends : isLineEnd c = true
    · have feed : upcaseChar '\n' = ['\n'] := rfl
      cases after <;> simp [gather, ends, upcaseChar_of_isLineEnd ends, ih, feed]
    · rw [Bool.not_eq_true] at ends
      obtain ⟨some_, inLine⟩ := inLine_upcaseChar ends
      obtain ⟨d, others, upper⟩ := List.exists_cons_of_ne_nil some_
      rw [upper, List.forall_mem_cons] at inLine
      rw [gather_cons ends, List.flatMap_cons, List.flatMap_cons, upper, List.cons_append,
        gather_cons inLine.1, gather_append inLine.2, ih, List.cons_append]

end Text

namespace Lexeme
open Text
open Console (isLineEnd)

theorem quoted_gather (rest : List Char) : quoted (gather false rest) = quoted rest := by
  by_cases closed : '"' ∈ rest
  · obtain ⟨inside, after, rfl, open_⟩ := List.eq_append_cons_of_mem closed
    have open' : '"' ∉ gather false inside := by rwa [mem_gather rfl]
    have broken : ((gather false inside).any fun c => c == '\n' || c == '\r') =
        inside.any fun c => c == '\n' || c == '\r' := any_gather inside
    rw [gather_append_cons rfl, quoted_closed open', quoted_closed open_, broken]
    split
    · rfl
    · rename_i inLine
      rw [Bool.not_eq_true, List.any_eq_false] at inLine
      have same := gather_append (fun c member => Bool.eq_false_iff.mpr (inLine c member)) []
      rw [List.append_nil] at same
      rw [same]
      simp [gather]
  · rw [quoted_open closed, quoted_open (by rwa [mem_gather rfl])]

theorem not_isLineEnd_of_isNamePart (c : Char) (part : isNamePart c = true) :
    isLineEnd c = false := by
  rw [Bool.eq_false_iff]
  intro ends
  simp only [isLineEnd, Bool.or_eq_true, beq_iff_eq] at ends
  rcases ends with rfl | rfl <;> cases part

theorem not_isLineEnd_of_isDigit (c : Char) (digit : c.isDigit = true) : isLineEnd c = false :=
  not_isLineEnd_of_isNamePart c (by simp [isNamePart, Char.isAlphanum, digit])

theorem numeric_gather (text : List Char) : numeric (gather false text) = numeric text := by
  obtain ⟨whole, rest, rfl, digits, ends⟩ := exists_digits text
  have inLine : ∀ c ∈ whole, isLineEnd c = false := fun c member =>
    not_isLineEnd_of_isDigit c (digits c member)
  rw [gather_append inLine]
  cases rest with
  | nil => rfl
  | cons c rest =>
    by_cases point : c = '.'
    · subst point
      rw [gather_cons rfl, numeric_point digits, numeric_point digits,
        takeWhile_gather not_isLineEnd_of_isDigit]
    · rw [numeric_whole digits, numeric_whole digits]
      · rintro _ ⟨⟩
        exact ⟨ends c rfl, point⟩
      · intro d head
        by_cases lineEnd : isLineEnd c = true
        · simp only [gather, lineEnd, if_true, Bool.false_eq_true, if_false, List.head?_cons,
            Option.some.injEq] at head
          subst head
          exact ⟨rfl, nofun⟩
        · rw [gather_cons (Bool.not_eq_true _ ▸ lineEnd)] at head
          cases head
          exact ⟨ends c rfl, point⟩

theorem inLine_of_spelling? {kind : Kind} {spelling : List Char}
    (spelled : kind.spelling? = some spelling) : ∀ c ∈ spelling, isLineEnd c = false := by
  have none_ : spelling.any isLineEnd = false := by cases kind <;> cases spelled <;> rfl
  exact fun c member => Bool.eq_false_iff.mpr (List.any_eq_false.mp none_ c member)

theorem ofCons_gather {c : Char} (inLine : isLineEnd c = false) (rest : List Char) :
    ofCons c (gather false rest) = ofCons c rest := by
  have same := gather_cons inLine false rest
  refine ofCons_congr ?_ ?_ ?_ ?_ ?_
  · intro kind spelling spelled
    rw [← same, isPrefixOf_gather (inLine_of_spelling? spelled)]
  · intro chars isBreak
    have none_ (text : List Char) : chars.isPrefixOf (c :: text) = false := by
      have notFeed : ('\n' == c) = false :=
        beq_eq_false_iff_ne.mpr (ne_of_isLineEnd inLine rfl).symm
      have notReturn : ('\r' == c) = false :=
        beq_eq_false_iff_ne.mpr (ne_of_isLineEnd inLine rfl).symm
      simp only [lineBreaks, List.mem_cons, List.not_mem_nil, or_false] at isBreak
      rcases isBreak with rfl | rfl | rfl | rfl <;>
        simp [List.isPrefixOf_cons_cons, notFeed, notReturn]
    rw [none_, none_]
  · intro _
    exact quoted_gather rest
  · intro _
    rw [← same, numeric_gather]
  · rw [← same, takeWhile_gather not_isLineEnd_of_isNamePart]

theorem inLine_ofCons {c : Char} {rest : List Char} (inLine : isLineEnd c = false)
    (valid : (ofCons c rest).isValid = true) :
    ∀ d ∈ (ofCons c rest).chars, isLineEnd d = false := by
  have taken := taken_ofCons c rest
  generalize ofCons c rest = lexeme at taken valid
  have ofTakeWhile {p : Char → Bool} (within : ∀ d, p d = true → isLineEnd d = false)
      (text : List Char) : ∀ d ∈ text.takeWhile p, isLineEnd d = false := fun d member =>
    within d (List.all_eq_true.mp List.all_takeWhile d member)
  have ofDigits := ofTakeWhile not_isLineEnd_of_isDigit
  cases taken with
  | spelled spelling => exact inLine_of_spelling? spelling
  | space => simpa using inLine
  | lineBreak isBreak begins =>
    exfalso
    simp only [lineBreaks, List.mem_cons, List.not_mem_nil, or_false] at isBreak
    rcases isBreak with rfl | rfl | rfl | rfl <;>
      obtain ⟨rfl, -⟩ := List.cons_prefix_cons.mp begins <;> cases inLine
  | quoted quote =>
    by_cases closed : '"' ∈ rest
    · obtain ⟨inside, after, rfl, open_⟩ := List.eq_append_cons_of_mem closed
      rw [quoted_closed open_] at valid ⊢
      split at valid
      · cases valid
      · rename_i inLine
        rw [Bool.not_eq_true, List.any_eq_false] at inLine
        rw [if_neg (by simpa using inLine), List.forall_mem_append, List.forall_mem_cons,
          List.forall_mem_singleton]
        exact ⟨⟨rfl, fun d member => Bool.eq_false_iff.mpr (inLine d member)⟩, rfl⟩
    · rw [quoted_open closed] at valid
      cases valid
  | numeric digit =>
    rcases numeric_cases (c :: rest) with heq | ⟨after, -, -, heq⟩ <;> rw [heq]
    · exact ofDigits _
    · rw [List.forall_mem_append, List.forall_mem_cons]
      exact ⟨ofDigits _, rfl, ofDigits _⟩
  | identifier => exact ofTakeWhile not_isLineEnd_of_isNamePart _
  | unknown => cases valid

theorem first_gather {c : Char} (inLine : isLineEnd c = false) (after : Bool)
    (rest : List Char) : first (gather after (c :: rest)) = first (c :: rest) := by
  rw [gather_cons inLine]
  exact ofCons_gather inLine rest

theorem drop_gather {c : Char} {rest : List Char} (inLine : isLineEnd c = false) (after : Bool)
    (valid : (first (c :: rest)).isValid = true) :
    (gather after (c :: rest)).drop (first (c :: rest)).length =
      gather false ((c :: rest).drop (first (c :: rest)).length) := by
  have within := inLine_ofCons inLine valid
  have some_ := (taken_ofCons c rest).ne_nil
  obtain ⟨later, whole⟩ := first_prefix (c :: rest)
  change (ofCons c rest).chars ++ later = _ at whole
  change (gather after (c :: rest)).drop (ofCons c rest).chars.length =
    gather false ((c :: rest).drop (ofCons c rest).chars.length)
  generalize (ofCons c rest).chars = chars at within some_ whole
  rw [← whole, gather_append_of_ne_nil some_ within, List.drop_left, List.drop_left]

theorem ofCons_lineEnd {c : Char} (ends : isLineEnd c = true) (rest : List Char) :
    ∃ others later, ofCons c rest = ⟨.lineBreak, c :: others⟩ ∧ rest = others ++ later ∧
      ∀ d ∈ others, isLineEnd d = true := by
  have single : [c] ∈ lineBreaks := by
    simp only [isLineEnd, Bool.or_eq_true, beq_iff_eq] at ends
    rcases ends with rfl | rfl <;> decide
  cases found : lineBreaks.find? (·.isPrefixOf (c :: rest)) with
  | none => exact absurd (by simp) (List.find?_eq_none.mp found [c] single)
  | some chars =>
    have isBreak := List.mem_of_find?_eq_some found
    have tried := List.find?_some found
    have begins := List.isPrefixOf_iff_prefix.mp tried
    have first : ofCons c rest = ⟨.lineBreak, chars⟩ := by
      rw [ofCons_eq, found]
      simp only [isLineEnd, Bool.or_eq_true, beq_iff_eq] at ends
      rcases ends with rfl | rfl <;> rfl
    simp only [lineBreaks, List.mem_cons, List.not_mem_nil, or_false] at isBreak
    rcases isBreak with rfl | rfl | rfl | rfl
    all_goals
      obtain ⟨rfl, later, rfl⟩ := List.cons_prefix_cons.mp begins
      exact ⟨_, later, first, rfl, List.all_eq_true.mp rfl⟩

theorem ofCons_feed {rest : List Char} (next : ∀ c, rest.head? = some c → isLineEnd c = false) :
    ofCons '\n' rest = ⟨.lineBreak, ['\n']⟩ := by
  have feed : isLineEnd '\n' = true := rfl
  obtain ⟨others, later, first, rfl, ends⟩ := ofCons_lineEnd feed rest
  cases others with
  | nil => exact first
  | cons d others =>
    have inLine := next d rfl
    rw [ends d List.mem_cons_self] at inLine
    cases inLine

/-- The words of a text, cut off one after another, and the lexeme that stops the scan. -/
inductive Scans : List Char → List Lexeme → Lexeme → Prop where
  | stop {text} (stops : (first text).isValid = false) : Scans text [] (first text)
  | blank {text words stop} (valid : (first text).isValid = true)
      (blank : (first text).isWhitespace = true)
      (later : Scans (text.drop (first text).length) words stop) : Scans text words stop
  | word {text words stop} (valid : (first text).isValid = true)
      (real : (first text).isWhitespace = false)
      (later : Scans (text.drop (first text).length) words stop) :
      Scans text (first text :: words) stop

namespace Scans

variable {text : List Char} {words words' : List Lexeme} {stop stop' : Lexeme}

theorem unique (scans : Scans text words stop) (scans' : Scans text words' stop') :
    words' = words ∧ stop' = stop := by
  induction scans generalizing words' stop' with
  | stop stops =>
    cases scans' with
    | stop => exact ⟨rfl, rfl⟩
    | blank valid | word valid => simp [stops] at valid
  | blank valid blank later ih =>
    cases scans' with
    | stop stops => simp [valid] at stops
    | blank _ _ later' => exact ih later'
    | word _ real => simp [blank] at real
  | word valid real later ih =>
    cases scans' with
    | stop stops => simp [valid] at stops
    | blank _ blank => simp [real] at blank
    | word _ _ later' =>
      obtain ⟨rfl, rfl⟩ := ih later'
      exact ⟨rfl, rfl⟩

theorem gather (scans : Scans text words stop) (after : Bool) :
    Scans (Text.gather after text) words stop := by
  induction scans generalizing after with
  | @stop text stops =>
    cases text with
    | nil => exact .stop stops
    | cons c rest =>
      have inLine : isLineEnd c = false := by
        rw [Bool.eq_false_iff]
        intro ends
        obtain ⟨_, _, taken, -⟩ := ofCons_lineEnd ends rest
        rw [first, taken] at stops
        cases stops
      rw [← first_gather inLine after rest] at stops ⊢
      exact .stop stops
  | @blank text words stop valid blank later ih =>
    cases text with
    | nil => cases valid
    | cons c rest =>
      by_cases ends : isLineEnd c = true
      · obtain ⟨others, left, taken, rfl, ends'⟩ := ofCons_lineEnd ends rest
        rw [first, taken, length, ← List.cons_append, List.drop_left] at ih
        cases after with
        | true =>
          rw [Text.gather, if_pos ends, if_pos rfl, gather_lineEnds ends']
          exact ih true
        | false =>
          have feed := ofCons_feed fun c => @inLine_head_gather left c
          rw [← List.cons_append, gather_lineEnd ends ends']
          refine .blank ?_ ?_ ?_
          all_goals rw [first, feed]
          · rfl
          · rfl
          · exact ih true
      · rw [Bool.not_eq_true] at ends
        have same := first_gather ends after rest
        rw [← same] at valid blank
        refine .blank valid blank ?_
        rw [same, drop_gather ends after (same ▸ valid)]
        exact ih false
  | @word text words stop valid real later ih =>
    cases text with
    | nil => cases valid
    | cons c rest =>
      have inLine : isLineEnd c = false := by
        rw [Bool.eq_false_iff]
        intro ends
        obtain ⟨_, _, taken, -⟩ := ofCons_lineEnd ends rest
        rw [first, taken] at real
        cases real
      have same := first_gather inLine after rest
      rw [← same] at valid real ⊢
      refine .word valid real ?_
      rw [same, drop_gather inLine after (same ▸ valid)]
      exact ih false

end Scans

end Lexeme

namespace Source

theorem Tiles.scans {source : Source} {offset stop : Nat} {tokens : List Token}
    (tiles : Tiles source offset tokens stop) (stops : (source.scan stop).isValid = false) :
    Lexeme.Scans (source.text.drop offset)
      ((tokens.filter (!·.isWhitespace)).map (·.toLexeme)) (source.scan stop).toLexeme := by
  induction tiles with
  | nil => exact .stop stops
  | @cons offset rest stop valid _ ih =>
    have later := ih stops
    rw [← List.drop_drop] at later
    cases real : (source.scan offset).isWhitespace with
    | true =>
      rw [List.filter_cons_of_neg (by simp [real])]
      exact .blank valid real later
    | false =>
      rw [List.filter_cons_of_pos (by simp [real])]
      exact .word valid real later

theorem scans (source : Source) :
    Lexeme.Scans source.text (source.words.map (·.toLexeme)) source.tokens.2.toLexeme := by
  obtain ⟨stop, tiles, stops⟩ := source.tokens_tiles
  have invalid := source.tokens_valid.2
  rw [stops] at invalid ⊢
  exact tiles.scans invalid

/-- Two texts whose runs of line ends are the same but for how they are written have the same
words. -/
theorem words_of_gather {source source' : Source}
    (same : Text.gather false source'.text = Text.gather false source.text) :
    source'.words.map (·.toLexeme) = source.words.map (·.toLexeme) ∧
      source'.tokens.2.toLexeme = source.tokens.2.toLexeme := by
  have scans := source.scans.gather false
  have scans' := source'.scans.gather false
  rw [same] at scans'
  exact scans.unique scans'

theorem words_unified (upcase : Bool) (text : String) :
    let source := ofText upcase text
    let unified := ofText upcase (.ofList (Text.unifyNewlines text.toList))
    unified.words.map (·.toLexeme) = source.words.map (·.toLexeme) ∧
      unified.tokens.2.toLexeme = source.tokens.2.toLexeme := by
  intro source unified
  apply words_of_gather
  cases upcase with
  | true =>
    change Text.gather false (Text.upcase (String.ofList _).toList) =
      Text.gather false (Text.upcase text.toList)
    rw [Text.gather_upcase, Text.gather_upcase, String.toList_ofList, Text.gather_unifyNewlines]
  | false =>
    change Text.gather false (String.ofList _).toList = Text.gather false text.toList
    rw [String.toList_ofList, Text.gather_unifyNewlines]

end Source

end LoopLang
