import LoopLang.Proofs.Lexicon
import LoopLang.Proofs.LineEnds
import LoopLang.Proofs.Remainder

/-!
# Lines and tokens

The lines of a text are found in one pass over it, without regard to its tokens, and yet they
start where its line breaks end: two characters that end one line together are never taken apart
by tokens, and no other token has such a character in it. The place of an offset is counted from
the last line that starts at or before it, so places are ordered as their offsets are.
-/
namespace LoopLang
open Console (isLineEnd)

section LineStarts

variable {offset : Nat} {chars text : List Char}

theorem laterLineStarts_inLine (inLine : ∀ c ∈ chars, isLineEnd c = false) (offset : Nat)
    (rest : List Char) :
    laterLineStarts offset (chars ++ rest) = laterLineStarts (offset + chars.length) rest := by
  induction chars generalizing offset with
  | nil => rfl
  | cons c chars ih =>
    rw [List.forall_mem_cons] at inLine
    have notFeed : c ≠ '\n' := by
      rintro rfl
      cases inLine.1
    have notReturn : c ≠ '\r' := by
      rintro rfl
      cases inLine.1
    rw [List.cons_append, laterLineStarts.eq_5 _ _ _ (fun _ isReturn => (notReturn isReturn).elim)
      (fun _ isFeed => (notFeed isFeed).elim) notFeed notReturn, ih inLine.2, List.length_cons]
    congr 1
    omega

/-- The longest line break that begins a text is the one that its first line ends with. -/
theorem laterLineStarts_lineBreak (longest : Lexeme.Form.lineBreak.Longest text chars)
    (offset : Nat) :
    laterLineStarts offset text = (offset + chars.length) ::
      laterLineStarts (offset + chars.length) (text.drop chars.length) := by
  obtain ⟨rest, rfl⟩ := longest.begins
  have holds := longest.holds
  have pair (c d : Char) (isPair : [c, d] ∈ [['\r', '\n'], ['\n', '\r']]) :
      chars = [c] → ∀ rest', rest ≠ d :: rest' := by
    rintro rfl rest' rfl
    have shorter := longest.longest [c, d] (by
      simp only [List.mem_cons, List.not_mem_nil, or_false] at isPair
      rcases isPair with pair | pair <;> simp [Lexeme.Form.Holds, pair]) ⟨rest', rfl⟩
    simp at shorter
  simp only [Lexeme.Form.Holds, List.mem_cons, List.not_mem_nil, or_false] at holds
  rw [List.drop_left]
  rcases holds with rfl | rfl | rfl | rfl
  · rfl
  · rfl
  · have alone := pair '\n' '\r' (by simp) rfl
    exact laterLineStarts.eq_3 _ _ alone
  · have alone := pair '\r' '\n' (by simp) rfl
    exact laterLineStarts.eq_4 _ _ alone

theorem laterLineStarts_sorted (offset : Nat) (text : List Char) :
    (laterLineStarts offset text).Pairwise (· < ·) := by
  fun_induction laterLineStarts offset text with
  | case1 _ _ ih | case2 _ _ ih | case3 _ _ _ ih | case4 _ _ _ ih =>
    exact List.pairwise_cons.mpr ⟨fun _ => lt_of_mem_laterLineStarts, ih⟩
  | case5 _ _ _ _ _ _ _ ih => exact ih
  | case6 => exact .nil

/-- The line that is found is the last one that starts at or before the offset. -/
theorem lineAt_eq {offset start : Nat} {starts : List Nat}
    (sorted : starts.Pairwise (· < ·)) (reached : start ≤ offset) (line : Nat) :
    ∃ count, (lineAt offset line start starts).1 = line + count ∧
      (start :: starts)[count]? = some (lineAt offset line start starts).2 ∧
      (lineAt offset line start starts).2 ≤ offset ∧
      ∀ later ∈ starts.drop count, offset < later := by
  induction starts generalizing line start with
  | nil => exact ⟨0, rfl, rfl, reached, nofun⟩
  | cons next starts ih =>
    rw [List.pairwise_cons] at sorted
    rw [lineAt]
    split
    · rename_i reached'
      obtain ⟨count, isLine, isStart, before, beyond⟩ := ih sorted.2 reached' (line + 1)
      exact ⟨count + 1, by omega, isStart, before, beyond⟩
    · rename_i further
      rw [Nat.not_le] at further
      refine ⟨0, rfl, rfl, reached, ?_⟩
      rw [List.drop_zero, List.forall_mem_cons]
      exact ⟨further, fun later member => further.trans (sorted.1 later member)⟩

theorem lineAt_last {offset : Nat} {starts : List Nat} (reached : ∀ start ∈ starts, start ≤ offset)
    (line start : Nat) :
    lineAt offset line start starts = (line + starts.length, starts.getLastD start) := by
  induction starts generalizing line start with
  | nil => rfl
  | cons next starts ih =>
    rw [List.forall_mem_cons] at reached
    rw [lineAt, if_pos reached.1, ih reached.2, List.length_cons, List.getLastD_cons]
    congr 1
    omega

end LineStarts

def breakEnds (tokens : List Token) : List Nat :=
  (tokens.filter (·.kind = .lineBreak)).map (·.stop.offset)

theorem breakEnds_cons (token : Token) (tokens : List Token) :
    breakEnds (token :: tokens) =
      if token.kind = .lineBreak then token.stop.offset :: breakEnds tokens
      else breakEnds tokens := by
  unfold breakEnds
  rw [List.filter_cons]
  by_cases isBreak : token.kind = .lineBreak <;> simp [isBreak]

theorem breakEnds_append (tokens tokens' : List Token) :
    breakEnds (tokens ++ tokens') = breakEnds tokens ++ breakEnds tokens' := by
  simp [breakEnds]

theorem length_breakEnds (tokens : List Token) :
    (breakEnds tokens).length = tokens.countP (·.kind = .lineBreak) := by
  rw [breakEnds, List.length_map, List.countP_eq_length_filter]

namespace Source

variable {source : Source} {offset stop : Nat} {tokens : List Token}

theorem inLine_scan (valid : (source.scan offset).isValid = true)
    (noBreak : (source.scan offset).kind ≠ .lineBreak) :
    ∀ c ∈ (source.scan offset).chars, isLineEnd c = false := by
  change ∀ c ∈ (Lexeme.first (source.text.drop offset)).chars, isLineEnd c = false
  change (Lexeme.first (source.text.drop offset)).isValid = true at valid
  change (Lexeme.first (source.text.drop offset)).kind ≠ .lineBreak at noBreak
  cases text : source.text.drop offset with
  | nil => exact nofun
  | cons c rest =>
    rw [text] at valid noBreak
    cases ends : isLineEnd c with
    | false => exact Lexeme.inLine_ofCons ends valid
    | true =>
      obtain ⟨others, later, isBreak, -⟩ := Lexeme.ofCons_lineEnd ends rest
      exact absurd (congrArg Lexeme.kind isBreak) noBreak

/-- A scanned token passes the lines that start up to its end: none, or the one after it. -/
theorem laterLineStarts_scan (valid : (source.scan offset).isValid = true) :
    laterLineStarts offset (source.text.drop offset) =
      breakEnds [source.scan offset] ++
        laterLineStarts (offset + (source.scan offset).length)
          (source.text.drop (offset + (source.scan offset).length)) := by
  rw [breakEnds_cons]
  split
  · rename_i isBreak
    have cut : Lexeme.Cut (source.text.drop offset) (source.scan offset).toLexeme :=
      Lexeme.first_eq_iff.mp rfl
    have longest : Lexeme.Form.lineBreak.Longest (source.text.drop offset)
        (source.scan offset).chars := cut.longest (by simp [isBreak])
    have passed := laterLineStarts_lineBreak longest offset
    rw [List.drop_drop] at passed
    exact passed
  · rename_i noBreak
    have whole : (source.scan offset).chars ++ source.text.drop (offset +
        (source.scan offset).length) = source.text.drop offset := by
      rw [← List.drop_drop]
      exact List.prefix_iff_eq_append.mp (Lexeme.first_prefix (source.text.drop offset))
    rw [← whole, laterLineStarts_inLine (inLine_scan valid noBreak)]
    rfl

theorem Tiles.laterLineStarts_eq (tiles : Tiles source offset tokens stop) :
    laterLineStarts offset (source.text.drop offset) =
      breakEnds tokens ++ laterLineStarts stop (source.text.drop stop) := by
  induction tiles with
  | nil => rfl
  | @cons offset rest stop valid _ ih =>
    rw [laterLineStarts_scan valid, ih, ← List.append_assoc, ← breakEnds_append]
    rfl

theorem Tiles.breakEnds_le (tiles : Tiles source offset tokens stop) :
    ∀ ends ∈ breakEnds tokens, ends ≤ stop := by
  induction tiles with
  | nil => exact nofun
  | @cons offset rest stop valid others ih =>
    have within := others.length_le
    rw [breakEnds_cons]
    split
    · rw [List.forall_mem_cons]
      exact ⟨(Nat.le_add_right ..).trans within, ih⟩
    · exact ih

section FromStart

variable (tiles : Tiles source 0 tokens stop)
include tiles

theorem Tiles.laterLines_eq :
    source.laterLines = breakEnds tokens ++ laterLineStarts stop (source.text.drop stop) := by
  rw [source.laterLines_eq]
  exact tiles.laterLineStarts_eq

theorem Tiles.lineStarts_filter :
    source.lineStarts.filter (· ≤ stop) = 0 :: breakEnds tokens := by
  have before : (breakEnds tokens).filter (· ≤ stop) = breakEnds tokens :=
    List.filter_eq_self.mpr fun ends member => decide_eq_true (tiles.breakEnds_le ends member)
  have beyond : (laterLineStarts stop (source.text.drop stop)).filter (· ≤ stop) = [] := by
    refine List.filter_eq_nil_iff.mpr fun start member => ?_
    have further := lt_of_mem_laterLineStarts member
    simpa using further
  rw [lineStarts, tiles.laterLines_eq, List.filter_cons_of_pos (by simp), List.filter_append,
    before, beyond, List.append_nil]

theorem Tiles.location_stop :
    (source.location stop).line = 1 + tokens.countP (·.kind = .lineBreak) ∧
      (breakEnds tokens).getLastD 0 + (source.location stop).column = stop + 1 := by
  have last : lineAt stop 1 0 source.laterLines =
      (1 + (breakEnds tokens).length, (breakEnds tokens).getLastD 0) := by
    rw [tiles.laterLines_eq, lineAt_append fun _ => lt_of_mem_laterLineStarts,
      lineAt_last tiles.breakEnds_le]
  have within : (breakEnds tokens).getLastD 0 ≤ stop := by
    rcases List.eq_nil_or_concat' (breakEnds tokens) with none_ | ⟨others, ends, some_⟩
    · rw [none_]
      exact stop.zero_le
    · rw [some_, List.getLastD_concat]
      exact tiles.breakEnds_le ends (by simp [some_])
  rw [location, last, length_breakEnds]
  refine ⟨rfl, ?_⟩
  dsimp only
  omega

end FromStart

/-- The place of an offset: as far into a line as its column says, with no later line begun. -/
structure Places (source : Source) (offset : Nat) (place : Location) : Prop where
  told : place.offset = offset
  line : 1 ≤ place.line
  column : 1 ≤ place.column
  start : ∃ start, source.lineStarts[place.line - 1]? = some start ∧
    start + place.column - 1 = offset
  later : ∀ start ∈ source.lineStarts.drop place.line, offset < start

theorem places_location (source : Source) (offset : Nat) :
    Places source offset (source.location offset) := by
  have sorted : source.laterLines.Pairwise (· < ·) := by
    rw [source.laterLines_eq]
    exact laterLineStarts_sorted 0 source.text
  obtain ⟨count, isLine, isStart, before, beyond⟩ := lineAt_eq sorted offset.zero_le 1
  have place : source.location offset = ⟨(lineAt offset 1 0 source.laterLines).1,
    offset - (lineAt offset 1 0 source.laterLines).2 + 1, offset⟩ := rfl
  rw [place, isLine, Nat.add_comm]
  refine ⟨rfl, by simp, by simp, ⟨_, isStart, ?_⟩, beyond⟩
  simp only
  omega

theorem Places.lt_iff {a b : Nat} {place place' : Location} (places : Places source a place)
    (places' : Places source b place') :
    a < b ↔ place.line < place'.line ∨ place.line = place'.line ∧ place.column < place'.column := by
  -- A later line starts beyond all offsets of an earlier one.
  have byLine {a b : Nat} {place place' : Location} (places : Places source a place)
      (places' : Places source b place') (before : place.line < place'.line) : a < b := by
    obtain ⟨start, isStart, isOffset⟩ := places'.start
    have dropped : (source.lineStarts.drop place.line)[place'.line - 1 - place.line]? =
        some start := by
      rw [List.getElem?_drop, Nat.add_sub_cancel' (Nat.le_sub_one_of_lt before), isStart]
    have further := places.later start (List.mem_of_getElem? dropped)
    have column := places'.column
    omega
  have byColumn (same : place.line = place'.line) : a < b ↔ place.column < place'.column := by
    obtain ⟨start, isStart, isOffset⟩ := places.start
    obtain ⟨start', isStart', isOffset'⟩ := places'.start
    rw [same, isStart'] at isStart
    have starts := Option.some.inj isStart
    have column := places.column
    have column' := places'.column
    omega
  rcases Nat.lt_trichotomy place.line place'.line with before | same | after
  · simp [before, byLine places places' before]
  · simp [same, byColumn same]
  · have back := byLine places' places after
    simp [Nat.lt_asymm after, Nat.ne_of_gt after, Nat.le_of_lt back]

/-- Up to where the scan stops, the lines of a text start at its beginning and where its line
breaks end, one for each. So every token, the one that stops the scan included, starts on the
line that the line breaks before it are counted to, in the column that is counted from the end of
the last of them. And every offset, also beyond the text, has its place on the last line that
starts at or before it, in the order of lines and columns that the offsets have. -/
theorem location_agrees (upcase : Bool) (text : String) :
    let source := Source.ofText upcase text
    (source.lineStarts.filter (· ≤ source.tokens.2.start.offset) =
      0 :: breakEnds source.tokens.1) ∧
    (∀ before token after, source.tokens.1 ++ [source.tokens.2] = before ++ token :: after →
      token.start.line = 1 + before.countP (·.kind = .lineBreak) ∧
      (breakEnds before).getLastD 0 + token.start.column = token.start.offset + 1) ∧
    (∀ offset, Places source offset (source.location offset)) ∧
    ∀ a b, let place := source.location a
      let place' := source.location b
      a < b ↔
        place.line < place'.line ∨ place.line = place'.line ∧ place.column < place'.column := by
  intro source
  obtain ⟨stop, tiles, stops⟩ := source.tokens_tiles
  refine ⟨?_, ?_, source.places_location,
    fun a b => (source.places_location a).lt_iff (source.places_location b)⟩
  · rw [stops]
    exact tiles.lineStarts_filter
  · intro before token after split_
    rw [stops] at split_
    have placed : Tiles source 0 before token.start.offset ∧
        token = source.scan token.start.offset := by
      rcases List.eq_nil_or_concat' after with rfl | ⟨others, last, rfl⟩
      · obtain ⟨rfl, isLast⟩ := List.append_inj' split_ rfl
        obtain rfl := (List.cons.inj isLast).1
        exact ⟨tiles, rfl⟩
      · rw [← List.cons_append, ← List.append_assoc] at split_
        rw [(List.append_inj' split_ rfl).1] at tiles
        exact tiles.of_append
    have start : token.start = source.location token.start.offset := congrArg Token.start placed.2
    obtain ⟨line, column⟩ := placed.1.location_stop
    rw [← start] at line column
    exact ⟨line, column⟩

end Source

end LoopLang
