import LoopLang.Proofs.Cutting
import LoopLang.Proofs.Parsing
import LoopLang.Proofs.Spans
import LoopLang.Proofs.Tiling

/-!
# What follows a program

A program ends at its point. What a token is can depend on characters after it, and where a
line starts is found for the whole text in advance, but a point stands between: nothing before
it, and no place up to it, depends on what follows it, except that a number right before the
point would go on with digits.
-/
namespace LoopLang

namespace Lexeme

theorem spelling_of_point {kind : Kind} {spelling : List Char}
    (spelled : kind.spelling? = some spelling) (point : '.' ∈ spelling) : spelling = ['.'] := by
  cases kind <;> cases spelled <;> first | rfl | exact absurd point (by decide)

theorem isPrefixOf_before {chars : List Char} (free : '.' ∉ chars) (before after : List Char) :
    chars.isPrefixOf (before ++ '.' :: after) = chars.isPrefixOf before := by
  induction chars generalizing before with
  | nil => simp
  | cons c chars ih =>
    rw [List.mem_cons, not_or] at free
    cases before with
    | nil =>
      have differs : (c == '.') = false := beq_eq_false_iff_ne.mpr (Ne.symm free.1)
      simp [List.isPrefixOf_cons_cons, differs]
    | cons d before => simp [List.isPrefixOf_cons_cons, ih free.2]

theorem takeWhile_before {p : Char → Bool} (stops : p '.' = false) (before after : List Char) :
    (before ++ '.' :: after).takeWhile p = before.takeWhile p := by
  induction before with
  | nil => simp [stops]
  | cons c before ih => simp [List.takeWhile_cons, ih]

section Before

variable {before after after' : List Char}

theorem quoted_before (valid : (quoted (before ++ '.' :: after)).isValid = true)
    (within : (quoted (before ++ '.' :: after)).length ≤ before.length + 1) :
    quoted (before ++ '.' :: after') = quoted (before ++ '.' :: after) := by
  by_cases closed : '"' ∈ before
  · obtain ⟨inside, rest, rfl, open_⟩ := List.eq_append_cons_of_mem closed
    rw [List.append_assoc, List.append_assoc, List.cons_append, List.cons_append,
      quoted_closed open_, quoted_closed open_]
  · -- The quote that closes the string would stand after the point.
    exfalso
    have inside : (before ++ '.' :: after).takeWhile (· != '"') =
        before ++ '.' :: after.takeWhile (· != '"') := by
      rw [List.takeWhile_append_of_pos]
      · rfl
      · intro c member
        rw [bne_iff_ne]
        rintro rfl
        exact closed member
    rcases quoted_cases (before ++ '.' :: after) with heq | heq | ⟨heq, -⟩
    · rw [heq] at valid
      cases valid
    · rw [heq] at valid
      cases valid
    · rw [heq, inside, length] at within
      simp only [List.cons_append, List.length_cons, List.length_append] at within
      omega

theorem numeric_before (within : (numeric (before ++ '.' :: after)).length ≤ before.length)
    (noDigit : ∀ c, after'.head? = some c → c.isDigit = false) :
    numeric (before ++ '.' :: after') = numeric (before ++ '.' :: after) := by
  obtain ⟨whole, rest, rfl, digits, ends⟩ := exists_digits before
  cases rest with
  | nil =>
    have none_ : after'.takeWhile Char.isDigit = [] :=
      @takeWhile_parts Char.isDigit [] after' nofun noDigit
    rw [List.append_nil] at within ⊢
    rw [numeric_point digits] at within ⊢
    rw [numeric_point digits, none_]
    split at within
    · rename_i empty
      rw [if_pos empty]
      rfl
    · simp only [length, List.length_append, List.length_cons] at within
      omega
  | cons d more =>
    rw [List.append_assoc, List.append_assoc]
    by_cases point : d = '.'
    · subst point
      rw [List.cons_append, List.cons_append, numeric_point digits, numeric_point digits,
        takeWhile_before rfl, takeWhile_before rfl]
    · have stops : ∀ (after : List Char) (c : Char), (d :: more ++ '.' :: after).head? = some c →
          c.isDigit = false ∧ c ≠ '.' := by
        rintro after _ ⟨⟩
        exact ⟨ends d rfl, point⟩
      rw [numeric_whole digits (stops after'), numeric_whole digits (stops after)]

/-- A token that ends before a point is the same whatever follows the point, but for digits. -/
theorem first_before (some_ : before ≠ [])
    (valid : (first (before ++ '.' :: after)).isValid = true)
    (within : (first (before ++ '.' :: after)).length ≤ before.length)
    (noDigit : ∀ c, after'.head? = some c → c.isDigit = false) :
    first (before ++ '.' :: after') = first (before ++ '.' :: after) := by
  obtain ⟨c, rest, rfl⟩ := List.exists_cons_of_ne_nil some_
  change ofCons c (rest ++ '.' :: after') = ofCons c (rest ++ '.' :: after)
  refine ofCons_congr ?_ ?_ ?_ ?_ ?_
  · intro kind spelling spelled
    by_cases point : '.' ∈ spelling
    · simp [spelling_of_point spelled point, List.isPrefixOf_cons_cons]
    · rw [← List.cons_append, ← List.cons_append, isPrefixOf_before point, isPrefixOf_before point]
  · intro chars isBreak
    have free : '.' ∉ chars := by
      simp only [lineBreaks, List.mem_cons, List.not_mem_nil, or_false] at isBreak
      rcases isBreak with rfl | rfl | rfl | rfl <;> decide
    rw [← List.cons_append, ← List.cons_append, isPrefixOf_before free, isPrefixOf_before free]
  · rintro rfl
    have string : first ('"' :: rest ++ '.' :: after) = quoted (rest ++ '.' :: after) := rfl
    rw [string] at valid within
    exact quoted_before valid within
  · intro digit
    have number : first (c :: rest ++ '.' :: after) = numeric (c :: rest ++ '.' :: after) := by
      rw [List.cons_append, first, ofCons_plain (free_of_isDigit digit) (plain_of_isDigit digit),
        if_pos digit]
    rw [number] at within
    exact numeric_before within noDigit
  · rw [← List.cons_append, ← List.cons_append, takeWhile_before rfl, takeWhile_before rfl]

end Before

end Lexeme

theorem not_begins_before {c : Char} (differs : c ≠ '.') {before : List Char}
    (other : ∀ later, before = c :: later → False) (after later : List Char) :
    before ++ '.' :: after = c :: later → False := by
  intro begins
  cases before with
  | nil => exact differs (List.cons.inj begins).1.symm
  | cons d before =>
    obtain ⟨rfl, -⟩ := List.cons.inj begins
    exact other before rfl

theorem laterLineStarts_before (offset : Nat) (before after : List Char) :
    laterLineStarts offset (before ++ '.' :: after) =
      laterLineStarts offset before ++ laterLineStarts (offset + before.length + 1) after := by
  fun_induction laterLineStarts offset before with
  | case1 offset rest ih | case2 offset rest ih =>
    simp only [List.cons_append, laterLineStarts, ih, List.length_cons]
    congr 3
    omega
  | case3 offset rest alone ih =>
    have alone' := not_begins_before (by decide) alone after
    rw [List.cons_append, laterLineStarts.eq_3 _ _ alone', ih, List.length_cons]
    congr 3
    omega
  | case4 offset rest alone ih =>
    have alone' := not_begins_before (by decide) alone after
    rw [List.cons_append, laterLineStarts.eq_4 _ _ alone', ih, List.length_cons]
    congr 3
    omega
  | case5 offset c rest _ _ notFeed notReturn ih =>
    rw [List.cons_append, laterLineStarts.eq_5 _ _ _ (fun _ isReturn => (notReturn isReturn).elim)
      (fun _ isFeed => (notFeed isFeed).elim) notFeed notReturn, ih, List.length_cons]
    congr 2
    omega
  | case6 => rfl

theorem lt_of_mem_laterLineStarts {offset start : Nat} {text : List Char}
    (member : start ∈ laterLineStarts offset text) : offset < start := by
  fun_induction laterLineStarts offset text with
  | case1 _ _ ih | case2 _ _ ih | case3 _ _ _ ih | case4 _ _ _ ih =>
    rcases List.mem_cons.mp member with rfl | later
    · omega
    · have further := ih later
      omega
  | case5 _ _ _ _ _ _ _ ih =>
    have further := ih member
    omega
  | case6 => cases member

theorem lineAt_append {offset : Nat} {starts later : List Nat}
    (beyond : ∀ start ∈ later, offset < start) (line start : Nat) :
    lineAt offset line start (starts ++ later) = lineAt offset line start starts := by
  induction starts generalizing line start with
  | nil =>
    cases later with
    | nil => rfl
    | cons next later =>
      have further := beyond next List.mem_cons_self
      simp [lineAt, Nat.not_le.mpr further]
  | cons next starts ih => simp [lineAt, ih]

namespace Source

section Before

variable {source source' : Source} {before after after' : List Char}
  (text : source.text = before ++ '.' :: after) (text' : source'.text = before ++ '.' :: after')

include text in
theorem lineAt_before {offset : Nat} (within : offset ≤ before.length + 1) :
    lineAt offset 1 0 source.laterLines = lineAt offset 1 0 (laterLineStarts 0 before) := by
  rw [source.laterLines_eq, text, laterLineStarts_before]
  apply lineAt_append
  intro start member
  have further := lt_of_mem_laterLineStarts member
  omega

include text text'

theorem location_before {offset : Nat} (within : offset ≤ before.length + 1) :
    source'.location offset = source.location offset := by
  rw [location, location, lineAt_before text within, lineAt_before text' within]

theorem drop_before {offset : Nat} (inside : offset ≤ before.length) :
    source.text.drop offset = before.drop offset ++ '.' :: after ∧
      source'.text.drop offset = before.drop offset ++ '.' :: after' := by
  rw [text, text', List.drop_append_of_le_length inside, List.drop_append_of_le_length inside]
  exact ⟨rfl, rfl⟩

theorem scan_eq {offset : Nat} (within : offset + (source.scan offset).length ≤ before.length + 1)
    (same : Lexeme.first (source'.text.drop offset) = Lexeme.first (source.text.drop offset)) :
    source'.scan offset = source.scan offset := by
  rw [length_scan] at within
  rw [scan, scan, same, place, place, location_before text text' (by omega),
    location_before text text' within]

theorem scan_before {offset : Nat} (valid : (source.scan offset).isValid = true)
    (within : offset + (source.scan offset).length ≤ before.length)
    (noDigit : ∀ c, after'.head? = some c → c.isDigit = false) :
    source'.scan offset = source.scan offset := by
  obtain ⟨left, left'⟩ := drop_before text text' (Nat.le_of_add_right_le within)
  apply scan_eq text text' (by omega)
  have valid' : (Lexeme.first (source.text.drop offset)).isValid = true := valid
  have taken := Lexeme.length_first_pos valid'
  rw [length_scan] at within
  rw [left] at valid' taken within
  rw [left, left']
  refine Lexeme.first_before ?_ valid' ?_ noDigit
  · rw [ne_eq, List.drop_eq_nil_iff]
    omega
  · rw [List.length_drop]
    omega

theorem scan_point : source'.scan before.length = source.scan before.length ∧
    source.scan before.length = source.place before.length ⟨.point, ['.']⟩ := by
  obtain ⟨left, left'⟩ := drop_before text text' (Nat.le_refl before.length)
  rw [List.drop_length, List.nil_append] at left left'
  have point : Lexeme.first (source.text.drop before.length) = ⟨.point, ['.']⟩ := by
    rw [left]
    rfl
  have point' : Lexeme.first (source'.text.drop before.length) = ⟨.point, ['.']⟩ := by
    rw [left']
    rfl
  refine ⟨scan_eq text text' ?_ (by rw [point, point']), by rw [scan, point]⟩
  rw [length_scan, point]
  rfl

theorem tiles_before {offset stop : Nat} {tokens : List Token}
    (tiles : Tiles source offset tokens stop) (within : stop ≤ before.length)
    (noDigit : ∀ c, after'.head? = some c → c.isDigit = false) :
    Tiles source' offset tokens stop := by
  induction tiles with
  | nil => exact .nil
  | @cons offset rest stop valid others ih =>
    have ends := others.length_le
    have same := scan_before text text' valid (by omega) noDigit
    have tile : Tiles source' offset (source'.scan offset :: rest) stop :=
      .cons (by rw [same]; exact valid) (by rw [same]; exact ih within)
    rwa [same] at tile

end Before

variable {source : Source} {offset stop stop' : Nat} {tokens tokens' : List Token} {token : Token}

theorem Tiles.append_singleton (tiles : Tiles source offset tokens stop)
    (valid : (source.scan stop).isValid = true) :
    Tiles source offset (tokens ++ [source.scan stop]) (stop + (source.scan stop).length) := by
  induction tiles with
  | nil => exact .cons valid .nil
  | cons valid' _ ih => exact .cons valid' (ih valid)

theorem Tiles.of_append (tiles : Tiles source offset (tokens ++ token :: tokens') stop) :
    Tiles source offset tokens token.start.offset ∧ token = source.scan token.start.offset := by
  induction tokens generalizing offset with
  | nil =>
    cases tiles with
    | cons valid others => exact ⟨.nil, rfl⟩
  | cons first tokens ih =>
    cases tiles with
    | cons valid others =>
      obtain ⟨before, scanned⟩ := ih others
      exact ⟨.cons valid before, scanned⟩

theorem Tiles.begins (tiles : Tiles source offset tokens stop)
    (whole : Tiles source offset tokens' stop') (stops : (source.scan stop').isValid = false) :
    tokens <+: tokens' := by
  induction tiles generalizing tokens' with
  | nil => exact List.nil_prefix
  | cons valid _ ih =>
    cases whole with
    | nil =>
      rw [valid] at stops
      cases stops
    | cons _ others => exact (List.prefix_cons_inj _).mpr (ih others)

theorem split_of_point {offset : Nat} (isPoint : (source.scan offset).kind = .point) :
    ∃ before after, source.text = before ++ '.' :: after ∧ before.length = offset ∧
      (source.scan offset).stop.offset = offset + 1 := by
  have proper := Lexeme.proper_first (source.text.drop offset)
  have chars : (Lexeme.first (source.text.drop offset)).chars = ['.'] := by
    apply proper.spelled
    change (Lexeme.first (source.text.drop offset)).kind = .point at isPoint
    rw [isPoint]
    rfl
  obtain ⟨after, left⟩ := Lexeme.first_prefix (source.text.drop offset)
  rw [chars] at left
  refine ⟨source.text.take offset, after, ?_, ?_, ?_⟩
  · rw [← List.singleton_append, left, List.take_append_drop]
  · have inside := congrArg List.length left
    rw [List.length_append, List.length_singleton, List.length_drop] at inside
    rw [List.length_take]
    omega
  · change offset + (Lexeme.first (source.text.drop offset)).chars.length = offset + 1
    rw [chars]
    rfl

/-- The words up to a point are the first words of each text that begins like this one up to
there, and does not go on with a digit. -/
theorem words_before {source' : Source} {own : List Token} {point : Token} {rest : List Char}
    (begins : own ++ [point] <+: source.words) (isPoint : point.kind = .point)
    (text' : source'.text = source.text.take point.stop.offset ++ rest)
    (noDigit : ∀ c, rest.head? = some c → c.isDigit = false) :
    own ++ [point] <+: source'.words := by
  -- The raw tokens up to the point, of which the words before it are those that are no whitespace.
  obtain ⟨raw, later, tokens, words⟩ : ∃ raw later, source.tokens.1 = raw ++ point :: later ∧
      (raw ++ [point]).filter (!·.isWhitespace) = own ++ [point] := by
    obtain ⟨left, whole⟩ := begins
    obtain ⟨first, last, tokens, firsts, -⟩ := List.filter_eq_append_iff.mp whole.symm
    obtain ⟨raw, atPoint, rfl, raws, points⟩ := List.filter_eq_append_iff.mp firsts
    obtain ⟨blanks, others, rfl, blank, real, -⟩ := List.filter_eq_cons_iff.mp points
    have only : [point].filter (!·.isWhitespace) = [point] := by simp [real]
    refine ⟨raw ++ blanks, others ++ last, by simp [tokens], ?_⟩
    rw [List.filter_append, List.filter_append, raws, List.filter_eq_nil_iff.mpr blank,
      List.append_nil, only]
  obtain ⟨stop, tiles, -⟩ := source.tokens_tiles
  rw [tokens] at tiles
  obtain ⟨tiles, scanned⟩ := tiles.of_append
  rw [scanned] at isPoint
  obtain ⟨before, after, text, length, stops⟩ := split_of_point isPoint
  have text' : source'.text = before ++ '.' :: rest := by
    rw [text', scanned, stops, text, ← length]
    rw [List.take_length_add_append, List.append_assoc]
    rfl
  rw [← length] at tiles scanned
  obtain ⟨same, isPlaced⟩ := scan_point text text'
  have tiles' := tiles_before text text' tiles (Nat.le_refl _) noDigit
  have valid : (source'.scan before.length).isValid = true := by
    rw [same, isPlaced]
    rfl
  have tiles'' := tiles'.append_singleton valid
  rw [same, ← scanned] at tiles''
  obtain ⟨stop', whole, stops'⟩ := source'.tokens_tiles
  have invalid := source'.tokens_valid.2
  rw [stops'] at invalid
  have first := (tiles''.begins whole invalid).filter (!·.isWhitespace)
  rwa [words] at first

end Source

namespace Reading

/-- What follows the point of a program makes no difference, whatever it is. The text up to the
place where the program stops is read as the same program, in the same places, before anything
that does not begin with a digit, by every reader that goes as deep. -/
theorem program_before_rest {limits : Limits} {tracing upcase : Bool} {text : String} {node : Node}
    {reader : Reader}
    (parsed : program limits (.ofSource tracing (.ofText upcase text)) = .ok node reader) :
    ∃ span, node.span? = some span ∧
      ∀ (limits' : Limits) (tracing' : Bool) (rest : String),
        limits.depth tracing ≤ limits'.depth tracing' →
        (∀ c, rest.toList.head? = some c → c.isDigit = false) →
        ∃ reader, program limits' (.ofSource tracing' (.ofText false
          (.ofList ((Source.ofText upcase text).text.take span.stop.offset) ++ rest))) =
            .ok node reader := by
  obtain ⟨own, begins, -, derived⟩ := derives_of_program parsed
  obtain ⟨u, _, body, rfl, statements, point, ⟨rfl, isPoint⟩, rfl⟩ := program_parts.mpr derived
  obtain ⟨span, covers⟩ := Span.exists_covering (List.append_ne_nil_of_right_ne_nil u
    (List.cons_ne_nil point []))
  have stops : span.stop = point.stop := by
    simpa using (Span.ends_of_covering covers).2.symm
  refine ⟨span, covers, fun limits' tracing' rest noLess noDigit =>
    program_of_derives tracing' ?_ (derived.deepen noLess)⟩
  refine Source.words_before begins isPoint ?_ noDigit
  rw [stops]
  exact (String.toList_append ..).trans (by rw [String.toList_ofList])

/-- A program before a quote that is never closed, in place of a number. -/
theorem program_before_quote :
    ∃ node reader reader',
      program .standard (.ofSource false (.ofText false "A := 1. 2")) = .ok node reader ∧
      (∀ c, "\"?".toList.head? = some c → c.isDigit = false) ∧
      program .standard (.ofSource false (.ofText false "A := 1.\"?")) = .ok node reader' := by
  obtain ⟨node, reader, span, parsed, spans, stops⟩ : ∃ node reader span,
      program .standard (.ofSource false (.ofText false "A := 1. 2")) = .ok node reader ∧
        node.span? = some span ∧ span.stop.offset = 7 :=
    ⟨_, _, _, rfl, rfl, rfl⟩
  have noDigit : ∀ c, "\"?".toList.head? = some c → c.isDigit = false := by
    rintro _ ⟨⟩
    rfl
  obtain ⟨span', spans', again⟩ := program_before_rest parsed
  obtain rfl : span = span' := Option.some.inj (spans.symm.trans spans')
  obtain ⟨reader', parsed'⟩ := again .standard false "\"?" (Nat.le_refl _) noDigit
  rw [stops] at parsed'
  exact ⟨node, reader, reader', parsed, noDigit, parsed'⟩

-- A digit makes the point a part of the number, and none is left to end the program.
example : ∃ expected place reader,
    program .standard (.ofSource false (.ofText false "A := 1.2")) =
      .error (.unexpectedEnd expected place) reader :=
  ⟨_, _, _, rfl⟩

end Reading

end LoopLang
