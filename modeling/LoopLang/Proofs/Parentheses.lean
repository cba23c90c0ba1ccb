import LoopLang.Proofs.Parsing

/-!
# Parentheses and depth

Each parenthesis takes one from the depth. With enough of it, a number in parentheses is read to
the last of them. With less, the parentheses are passed as far as the depth goes, and the text is
given up at the token after them.
-/
namespace LoopLang

namespace Cursor

/-- A cursor before the token at its position. -/
structure At (source : Source) (position : Nat) (cursor : Cursor) : Prop where
  source_eq : cursor.source = source
  position_eq : cursor.position = position
  scanned : cursor.peek = source.scan position

theorem at_ofSource (source : Source) : At source 0 (ofSource source) :=
  ⟨rfl, rfl, rfl⟩

namespace At

variable {source : Source} {position : Nat} {cursor : Cursor} {lexeme blank : Lexeme}

theorem advance (at_ : At source position cursor) (is : (source.scan position).toLexeme = lexeme)
    (valid : lexeme.isValid = true) : At source (position + lexeme.length) cursor.advance := by
  obtain ⟨rfl, rfl, scanned⟩ := at_
  rw [← scanned] at is
  subst is
  rw [advance_of_valid valid]
  exact ⟨rfl, rfl, rfl⟩

theorem ready (at_ : At source position cursor)
    (real : (source.scan position).isWhitespace = false) : cursor.Ready :=
  ⟨by rw [at_.scanned]; exact real⟩

theorem pass (at_ : At source position cursor) (is : (source.scan position).toLexeme = lexeme)
    (valid : lexeme.isValid = true)
    (real : (source.scan (position + lexeme.length)).isWhitespace = false) :
    At source (position + lexeme.length) cursor.advanceReal := by
  have next := at_.advance is valid
  rwa [Cursor.advanceReal, (next.ready real).skipWhitespace]

theorem passBlank (at_ : At source position cursor) (is : (source.scan position).toLexeme = lexeme)
    (valid : lexeme.isValid = true)
    (isBlank : (source.scan (position + lexeme.length)).toLexeme = ⟨.space, [' ']⟩)
    (real : (source.scan (position + lexeme.length + 1)).isWhitespace = false) :
    At source (position + lexeme.length + 1) cursor.advanceReal := by
  have next := at_.advance is valid
  have further := next.advance isBlank rfl
  have white : (source.scan (position + lexeme.length)).isWhitespace = true :=
    congrArg Lexeme.isWhitespace isBlank
  have skipped : cursor.advanceReal = cursor.advance.advance := by
    rw [Cursor.advanceReal, skipWhitespace, Source.plenty, skip, next.scanned, if_pos white, skip,
      further.scanned]
    exact if_neg (Bool.eq_false_iff.mp real)
  rw [skipped]
  exact further

end At

end Cursor

namespace Source

variable {source : Source} {offset count : Nat} {rest : List Char}

theorem toLexeme_scan {text : List Char} (left : source.text.drop offset = text) :
    (source.scan offset).toLexeme = Lexeme.first text := by
  rw [← left]
  rfl

/-- So many times the same lexeme of one character stands from an offset on. -/
def Repeats (source : Source) (lexeme : Lexeme) (offset count : Nat) : Prop :=
  ∀ index < count, (source.scan (offset + index)).toLexeme = lexeme

namespace Repeats

variable {lexeme : Lexeme}

theorem first (repeats : source.Repeats lexeme offset (count + 1)) :
    (source.scan offset).toLexeme = lexeme :=
  repeats 0 (Nat.succ_pos count)

theorem later (repeats : source.Repeats lexeme offset (count + 1)) :
    source.Repeats lexeme (offset + 1) count := by
  intro index within
  rw [Nat.add_assoc, Nat.add_comm 1]
  exact repeats (index + 1) (Nat.succ_lt_succ within)

theorem fewer {few : Nat} (repeats : source.Repeats lexeme offset count) (within : few ≤ count) :
    source.Repeats lexeme offset few :=
  fun index less => repeats index (Nat.lt_of_lt_of_le less within)

theorem of_drop {c : Char} (single : ∀ rest, Lexeme.first (c :: rest) = lexeme)
    (left : source.text.drop offset = List.replicate count c ++ rest) :
    source.Repeats lexeme offset count := by
  intro index less
  obtain ⟨more, rfl⟩ := Nat.exists_eq_add_of_lt less
  have further : source.text.drop (offset + index) = c :: (List.replicate more c ++ rest) := by
    rw [← List.drop_drop, left, Nat.add_assoc, ← List.replicate_append_replicate,
      List.append_assoc, List.drop_left' List.length_replicate, List.replicate_succ]
    rfl
  exact (toLexeme_scan further).trans (single _)

end Repeats

end Source

def Lexeme.opening : Lexeme := ⟨.opening, ['(']⟩

def Lexeme.closing : Lexeme := ⟨.closing, [')']⟩

def Lexeme.one : Lexeme := ⟨.number, ['1']⟩

namespace Reading

variable {source : Source} {position depth : Nat} {reader : Reader} {lexeme : Lexeme}

section Words

variable (at_ : reader.cursor.At source position) (is : (source.scan position).toLexeme = lexeme)
  (valid : lexeme.isValid = true) (real : lexeme.isWhitespace = false)
include at_ is valid real

theorem take_at (expected : Option String) :
    take expected reader = .ok (source.scan position) (passing reader) := by
  subst is
  rw [take_eq expected (at_.ready real) (by rw [at_.scanned]; exact valid), at_.scanned]

theorem lastReal?_passing : (passing reader).cursor.lastReal? = some (source.scan position) := by
  subst is
  have passed := (at_.ready real).passed_advanceReal (by rw [at_.scanned]; exact valid)
  rw [cursor_passing, passed.last, at_.scanned]
  rfl

theorem expect_at {kind : Kind} (isKind : lexeme.kind = kind) :
    expect kind reader = .ok (source.scan position) (passing reader) := by
  rw [expect, bind_ok (take_at at_ is valid real _)]
  subst is
  rw [if_pos isKind]
  rfl

end Words

/-! ## Chains of one operand -/

theorem chain_error {operand : Reading Node} {fault : Fault} {last : Reader}
    (failed : operand reader = .error fault last) (level : Level) :
    chain level operand reader = .error fault last := by
  rw [chain, peek_bind, bind_error failed]

theorem chain_ok {operand : Reading Node} {node : Node} {last : Reader} {token : Token}
    (read : operand reader = .ok node last) {level : Level}
    (ends : level.joins last.cursor.peek.kind = false)
    (behind : last.cursor.lastReal? = some token) :
    ∃ node, chain level operand reader = .ok node last := by
  have none_ : tail level operand last = .ok .absent last := by
    rw [tail, many]
    exact bind_ok (repeatWhile_of_off _ _ ends)
  refine ⟨.chain level node .absent (some ⟨reader.cursor.peek.start, token.stop⟩), ?_⟩
  rw [chain, peek_bind, bind_ok read, bind_ok none_]
  exact bind_ok (current_bind behind _)

theorem factor_opening (depth : Nat) (isOpening : reader.cursor.peek.kind = .opening) :
    factor (depth + 1) reader = (do
      let _ ← take none
      let inner ← chain .sum (chain .product (factor depth))
      let _ ← expect .closing
      return .parenthesized inner (← spanFrom reader.cursor.peek.start) : Reading Node) reader := by
  rw [factor, peek_bind, isOpening]

/-- Where there are as many parentheses as levels, they are passed, and reading is given up at the
next token. -/
theorem factor_exhausted (at_ : reader.cursor.At source position)
    (opening : source.Repeats .opening position depth)
    (is : (source.scan (position + depth)).toLexeme = lexeme) (valid : lexeme.isValid = true)
    (real : lexeme.isWhitespace = false) :
    ∃ middle : Reader, factor depth reader = .error .stackExhausted middle.giveUp ∧
      middle.cursor.At source (position + depth) ∧ middle.tracing = reader.tracing := by
  induction depth generalizing position reader with
  | zero =>
    refine ⟨reader, ?_, at_, rfl⟩
    subst is
    rw [factor, exhaust_eq, at_.scanned]
    exact if_pos valid
  | succ depth ih =>
    have later : position + (depth + 1) = position + 1 + depth := by omega
    rw [later] at is ⊢
    have settled : (source.scan (position + 1)).isWhitespace = false := by
      cases depth with
      | zero => exact (congrArg Lexeme.isWhitespace is).trans real
      | succ depth => exact congrArg Lexeme.isWhitespace opening.later.first
    have next : (passing reader).cursor.At source (position + 1) := by
      rw [cursor_passing]
      exact at_.pass opening.first rfl settled
    obtain ⟨middle, fails, stops, tracing⟩ := ih next opening.later is
    refine ⟨middle, ?_, stops, tracing.trans (tracing_passing reader)⟩
    have isOpening : reader.cursor.peek.kind = .opening := by
      rw [at_.scanned]
      exact congrArg Lexeme.kind opening.first
    rw [factor_opening depth isOpening, bind_ok (take_at at_ opening.first rfl rfl none)]
    exact bind_error (chain_error (chain_error fails .product) .sum)

/-- With more levels than there are parentheses, a number in them is read to the last of them. -/
theorem factor_enclosed {count : Nat} (more : count < depth)
    (at_ : reader.cursor.At source position) (opening : source.Repeats .opening position count)
    (number : (source.scan (position + count)).toLexeme = .one)
    (closing : source.Repeats .closing (position + count + 1) count)
    (real : (source.scan (position + 2 * count + 1)).isWhitespace = false) :
    ∃ node last token, factor depth reader = .ok node last ∧
      last.cursor.At source (position + 2 * count + 1) ∧
      last.cursor.lastReal? = some token := by
  obtain ⟨depth, rfl⟩ : ∃ less, depth = less + 1 :=
    Nat.exists_eq_add_one.mpr (Nat.zero_lt_of_lt more)
  induction count generalizing position depth reader with
  | zero =>
    let token := source.scan position
    have isNumber : token.kind = .number := congrArg Lexeme.kind number
    refine ⟨.number (Number.read? token.chars) (some ⟨token.start, token.stop⟩),
      (passing reader).note .reader ("Atom => Const Value: " ++ token.text), token, ?_, ?_, ?_⟩
    · rw [factor, peek_bind, at_.scanned, isNumber]
      change atom reader = _
      rw [atom, bind_ok (take_at at_ number rfl rfl _), isNumber]
      rfl
    · rw [cursor_note, cursor_passing]
      exact at_.pass number rfl real
    · rw [cursor_note]
      exact lastReal?_passing at_ number rfl rfl
  | succ count ih =>
    have after : position + (count + 1) = position + 1 + count := by omega
    have ends : position + 2 * (count + 1) + 1 = position + 1 + 2 * count + 1 + 1 := by omega
    have lastClosing : (source.scan (position + 1 + 2 * count + 1)).toLexeme = .closing := by
      have last := closing count (Nat.lt_succ_self count)
      rwa [show position + (count + 1) + 1 + count = position + 1 + 2 * count + 1 by omega] at last
    rw [after] at number closing
    rw [ends] at real ⊢
    have settled : (source.scan (position + 1)).isWhitespace = false := by
      cases count with
      | zero => exact congrArg Lexeme.isWhitespace number
      | succ count => exact congrArg Lexeme.isWhitespace opening.later.first
    have next : (passing reader).cursor.At source (position + 1) := by
      rw [cursor_passing]
      exact at_.pass opening.first rfl settled
    obtain ⟨less, rfl⟩ : ∃ less, depth = less + 1 :=
      Nat.exists_eq_add_one.mpr (Nat.zero_lt_of_lt (Nat.lt_of_succ_lt_succ more))
    obtain ⟨inner, middle, token, read, stops, behind⟩ := ih next opening.later number
      (closing.fewer (Nat.le_succ count)) (congrArg Lexeme.isWhitespace lastClosing) less
      (Nat.lt_of_succ_lt_succ more)
    have isClosing : middle.cursor.peek.kind = .closing := by
      rw [stops.scanned]
      exact congrArg Lexeme.kind lastClosing
    obtain ⟨product, read⟩ := @chain_ok _ _ _ _ _ read .product (by rw [isClosing]; rfl) behind
    obtain ⟨sum, read⟩ := @chain_ok _ _ _ _ _ read .sum (by rw [isClosing]; rfl) behind
    have isOpening : reader.cursor.peek.kind = .opening := by
      rw [at_.scanned]
      exact congrArg Lexeme.kind opening.first
    have closes : expect .closing middle = .ok _ (passing middle) :=
      expect_at stops lastClosing rfl rfl rfl
    refine ⟨.parenthesized sum (some ⟨reader.cursor.peek.start,
      (source.scan (position + 1 + 2 * count + 1)).stop⟩), passing middle, _, ?_, ?_,
      lastReal?_passing stops lastClosing rfl rfl⟩
    · rw [factor_opening _ isOpening, bind_ok (take_at at_ opening.first rfl rfl none),
        bind_ok read, bind_ok closes]
      exact bind_ok (current_bind (lastReal?_passing stops lastClosing rfl rfl) _)
    · rw [cursor_passing]
      exact stops.pass lastClosing rfl real

theorem program_of_opening {limits : Limits} (deep : limits.depth reader.tracing = depth + 1)
    (isOpening : reader.cursor.peek.kind = .opening) :
    ∃ last, program limits reader =
      .error (.unexpectedToken (some "statement") reader.cursor.peek) last := by
  have ready : reader.cursor.Ready := ⟨congrArg Kind.isWhitespace isOpening⟩
  have taken : take (some "statement") reader = .ok reader.cursor.peek (passing reader) :=
    take_eq _ ready (congrArg Kind.isValid isOpening)
  have refused : Fault.ofToken (some "statement") reader.cursor.peek =
      .unexpectedToken (some "statement") reader.cursor.peek := by
    rw [Fault.ofToken, isOpening]
    rfl
  have failed : statement (depth + 1) reader =
      .error (.unexpectedToken (some "statement") reader.cursor.peek) (passing reader) := by
    rw [statement, bind_ok taken, isOpening, ← refused]
    rfl
  have listed : statements (depth + 1) reader =
      .error (.unexpectedToken (some "statement") reader.cursor.peek) (passing reader) :=
    bind_error failed
  refine ⟨passing reader, ?_⟩
  rw [program_within, deep, programWithin_eq, ready.skipWhitespace]
  refine reportDepth_error ?_ nofun
  rw [wholeWithin, peek_bind]
  exact bind_error listed

end Reading

/-! ## Assignments of parentheses -/

/-- An assignment of what some opening parentheses begin. -/
def Source.opened (count : Nat) (rest : List Char) : Source :=
  .ofText false (.ofList ("X := ".toList ++ (List.replicate count '(' ++ rest)))

namespace Source

variable {count : Nat} {rest : List Char}

theorem text_opened : (opened count rest).text =
    'X' :: ' ' :: ':' :: '=' :: ' ' :: (List.replicate count '(' ++ rest) :=
  String.toList_ofList

theorem name_opened : ((opened count rest).scan 0).toLexeme = ⟨.identifier, ['X']⟩ :=
  (toLexeme_scan (congrArg (List.drop 0) text_opened)).trans rfl

theorem repeats_opened : (opened count rest).Repeats .opening 5 count :=
  .of_drop (fun _ => rfl) (congrArg (List.drop 5) text_opened)

/-- An assignment of a number in so many parentheses. -/
abbrev enclosed (count : Nat) : Source :=
  opened count ('1' :: (List.replicate count ')' ++ ['.']))

theorem drop_enclosed (count : Nat) : (enclosed count).text.drop (5 + count) =
    '1' :: (List.replicate count ')' ++ ['.']) := by
  rw [enclosed, ← List.drop_drop, text_opened]
  exact List.drop_left' List.length_replicate

theorem number_enclosed (count : Nat) :
    ((enclosed count).scan (5 + count)).toLexeme = .one := by
  refine (toLexeme_scan (drop_enclosed count)).trans ?_
  cases count <;> rfl

theorem closing_enclosed (count : Nat) :
    (enclosed count).Repeats .closing (5 + count + 1) count := by
  have after : (enclosed count).text.drop (5 + count + 1) =
      List.replicate count ')' ++ ['.'] := by
    rw [← List.drop_drop, drop_enclosed]
    rfl
  exact .of_drop (fun _ => rfl) after

theorem point_enclosed (count : Nat) :
    ((enclosed count).scan (5 + 2 * count + 1)).toLexeme = ⟨.point, ['.']⟩ := by
  have after : (enclosed count).text.drop (5 + 2 * count + 1) = ['.'] := by
    rw [show 5 + 2 * count + 1 = 5 + count + (1 + count) by omega, ← List.drop_drop,
      drop_enclosed, ← List.drop_drop]
    exact List.drop_left' List.length_replicate
  exact (toLexeme_scan after).trans rfl

end Source

namespace Reading

section Opened

variable {count depth : Nat} {rest : List Char} {lexeme : Lexeme} {limits : Limits} {tracing : Bool}

theorem statement_opened (tracing : Bool)
    (real : ((Source.opened count rest).scan 5).isWhitespace = false) :
    ∃ middle : Reader, middle.cursor.At (.opened count rest) 5 ∧ middle.tracing = tracing ∧
      ∀ depth, statement (depth + 1) (.ofSource tracing (.opened count rest)) =
        (sum depth >>= fun value => do
          return .assign (.text ((Source.opened count rest).scan 0).text) value
            (← spanFrom ((Source.opened count rest).scan 0).start)) middle := by
  let start : Reader := .ofSource tracing (.opened count rest)
  let noted := (passing start).note .reader
    ("========>(AssignStatement) " ++ ((Source.opened count rest).scan 0).text ++ " :=")
  have text := @Source.text_opened count rest
  have name := @Source.name_opened count rest
  have blank : ((Source.opened count rest).scan 1).toLexeme = ⟨.space, [' ']⟩ :=
    (Source.toLexeme_scan (congrArg (List.drop 1) text)).trans rfl
  have sign : ((Source.opened count rest).scan 2).toLexeme = ⟨.assign, [':', '=']⟩ :=
    (Source.toLexeme_scan (congrArg (List.drop 2) text)).trans rfl
  have blank' : ((Source.opened count rest).scan 4).toLexeme = ⟨.space, [' ']⟩ :=
    (Source.toLexeme_scan (congrArg (List.drop 4) text)).trans rfl
  have isName : ((Source.opened count rest).scan 0).kind = .identifier :=
    congrArg Lexeme.kind name
  have at_ : start.cursor.At (.opened count rest) 0 := Cursor.at_ofSource _
  have atSign : noted.cursor.At (.opened count rest) 2 := by
    rw [cursor_note, cursor_passing]
    exact at_.passBlank name rfl blank (congrArg Lexeme.isWhitespace sign)
  have atValue : (passing noted).cursor.At (.opened count rest) 5 := by
    rw [cursor_passing]
    exact atSign.passBlank sign rfl blank' real
  refine ⟨passing noted, atValue, ?_, fun depth => ?_⟩
  · rw [tracing_passing, tracing_note, tracing_passing]
    rfl
  · rw [statement, bind_ok (take_at at_ name rfl rfl _), isName]
    change assignment depth (passing start) = _
    rw [assignment, current_bind (lastReal?_passing at_ name rfl rfl)]
    change (expect .assign >>= _ : Reading Node) noted = _
    rw [bind_ok (expect_at atSign sign rfl rfl rfl)]

theorem program_opened (deep : limits.depth tracing = depth + 1) :
    program limits (.ofSource tracing (.opened count rest)) =
      reportDepth (wholeWithin (depth + 1)) (.ofSource tracing (.opened count rest)) := by
  have ready := (Cursor.at_ofSource (.opened count rest)).ready
    (congrArg Lexeme.isWhitespace Source.name_opened)
  have depth_eq : limits.depth (Reader.ofSource tracing (.opened count rest)).tracing =
      depth + 1 := deep
  have skipped : (Reader.ofSource tracing (.opened count rest)).cursor.skipWhitespace =
      Cursor.ofSource (.opened count rest) := ready.skipWhitespace
  rw [program_within, depth_eq, programWithin_eq, skipped]
  rfl

/-- With no more levels than parentheses, beside the one of the statement, the text is too deep. -/
theorem program_opened_tooDeep (deep : limits.depth tracing = depth + 1) (within : depth ≤ count)
    (is : ((Source.opened count rest).scan (5 + depth)).toLexeme = lexeme)
    (valid : lexeme.isValid = true) (real : lexeme.isWhitespace = false) :
    ∃ middle : Reader, program limits (.ofSource tracing (.opened count rest)) =
        .error (.textTooDeep middle.giveUp.cursor.peek.start) middle.giveUp ∧
      middle.cursor.At (.opened count rest) (5 + depth) ∧ middle.tracing = tracing := by
  have opening := (@Source.repeats_opened count rest).fewer within
  have settled : ((Source.opened count rest).scan 5).isWhitespace = false := by
    cases depth with
    | zero => exact (congrArg Lexeme.isWhitespace is).trans real
    | succ depth => exact congrArg Lexeme.isWhitespace opening.first
  obtain ⟨start, at_, traced, states⟩ := statement_opened tracing settled
  obtain ⟨middle, fails, stops, same⟩ := factor_exhausted at_ opening is valid real
  refine ⟨middle, ?_, stops, same.trans traced⟩
  have failed : statement (depth + 1) (.ofSource tracing (.opened count rest)) =
      .error .stackExhausted middle.giveUp :=
    (states depth).trans (bind_error (chain_error (chain_error fails .product) .sum))
  have listed : statements (depth + 1) (.ofSource tracing (.opened count rest)) =
      .error .stackExhausted middle.giveUp := bind_error failed
  rw [program_opened deep]
  refine reportDepth_exhausted ?_
  rw [wholeWithin, peek_bind]
  exact bind_error listed

/-- With more levels than parentheses, beside the one of the statement, the program is read. -/
theorem program_enclosed (deep : limits.depth tracing = depth + 1) (more : count < depth) :
    ∃ node reader, program limits (.ofSource tracing (.enclosed count)) = .ok node reader := by
  have number := Source.number_enclosed count
  have closing := Source.closing_enclosed count
  have point := Source.point_enclosed count
  have settled : ((Source.enclosed count).scan 5).isWhitespace = false := by
    cases count with
    | zero => exact congrArg Lexeme.isWhitespace number
    | succ count => exact congrArg Lexeme.isWhitespace Source.repeats_opened.first
  obtain ⟨_, at_, -, states⟩ := statement_opened tracing settled
  obtain ⟨value, middle, token, read, stops, behind⟩ := factor_enclosed more at_
    Source.repeats_opened number closing (congrArg Lexeme.isWhitespace point)
  have isPoint : middle.cursor.peek.kind = .point := by
    rw [stops.scanned]
    exact congrArg Lexeme.kind point
  obtain ⟨product, read⟩ := @chain_ok _ _ _ _ _ read .product (by rw [isPoint]; rfl) behind
  obtain ⟨sum, read⟩ := @chain_ok _ _ _ _ _ read .sum (by rw [isPoint]; rfl) behind
  have stated := (states depth).trans ((bind_ok read).trans (bind_ok (current_bind behind _)))
  have noMore : many (· == .semicolon) (do
      note "Next statement"
      let _ ← take none
      statement (depth + 1)) middle = .ok [] middle :=
    repeatWhile_of_off _ _ (by rw [isPoint]; rfl)
  obtain ⟨body, listed⟩ : ∃ body, statements (depth + 1) (.ofSource tracing (.enclosed count)) =
      .ok body middle := by
    rw [statements, listOf, bind_ok stated, bind_ok noMore, current_bind behind]
    exact ⟨_, rfl⟩
  have ends : expect .point middle = .ok _ (passing middle) :=
    expect_at stops point rfl rfl rfl
  let span : Span := ⟨((Source.enclosed count).scan 0).start,
    ((Source.enclosed count).scan (5 + 2 * count + 1)).stop⟩
  have spans : spanFrom span.start (passing middle) = .ok (some span) (passing middle) :=
    current_bind (lastReal?_passing stops point rfl rfl) _
  obtain ⟨last, ending, -⟩ := ending_ok (.program body (some span)) (passing middle)
  refine ⟨.program body (some span), last, (program_opened deep).trans (reportDepth_ok ?_)⟩
  rw [wholeWithin, peek_bind, bind_ok listed, finish, bind_ok ends]
  exact (bind_ok spans).trans ending

end Opened

end Reading

end LoopLang
