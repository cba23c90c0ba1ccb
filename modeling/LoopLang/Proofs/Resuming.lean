import LoopLang.Proofs.Respacing
import LoopLang.Proofs.Sessions
import LoopLang.Proofs.Spans

/-!
# Reading on from any place

A program is read from where the cursor stands as if the text began there: what was passed,
read or refused before makes no difference. The text from there on has the same tokens, with
offsets counted from another place, and the reader never asks for a token that it has not
passed itself. So the programs of a text can be read one after another with one cursor, each up
to its point. All that is asked of the cursor is that it stands before the token at its position,
and does not come from a program that was given up in the middle of a move.
-/
namespace LoopLang

namespace Source

def after (source : Source) (offset : Nat) : Source :=
  ofText false (.ofList (source.text.drop offset))

/-- Where a place of the text after an offset lies in the whole text. -/
def placeAfter (source : Source) (offset : Nat) (place : Location) : Location :=
  source.location (offset + place.offset)

theorem scan_after (source : Source) (offset position : Nat) :
    ((source.after offset).scan position).moved (source.placeAfter offset) =
      source.scan (offset + position) := by
  have text : (source.after offset).text = source.text.drop offset := String.toList_ofList
  have lexeme : Lexeme.first ((source.after offset).text.drop position) =
      Lexeme.first (source.text.drop (offset + position)) := by
    rw [text, List.drop_drop]
  rw [scan, scan, lexeme]
  simp only [Token.moved, place, placeAfter, location, Nat.add_assoc]

end Source

namespace Cursor

/-- A cursor of a source stands as far in it as another one does in the text after an offset. It may
have passed words before. -/
structure Continues (source : Source) (offset : Nat) (cursor image : Cursor) : Prop where
  left : cursor.source = source.after offset
  whole : image.source = source
  position : image.position = offset + cursor.position
  peek : image.peek = cursor.peek.moved (source.placeAfter offset)
  last : ∀ token, cursor.lastReal? = some token →
    image.lastReal? = some (token.moved (source.placeAfter offset))

namespace Continues

variable {source : Source} {offset : Nat} {cursor image : Cursor}

theorem start (source_eq : image.source = source) (position : image.position = offset)
    (scanned : image.peek = source.scan offset) :
    Continues source offset (ofSource (source.after offset)) image where
  left := rfl
  whole := source_eq
  position := position
  peek := scanned.trans (source.scan_after offset 0).symm
  last _ none_ := by cases none_

theorem leave (continues : Continues source offset cursor image) :
    Continues source offset cursor.leave image.leave where
  left := continues.left
  whole := continues.whole
  position := by
    change image.position + image.peek.length = offset + (cursor.position + cursor.peek.length)
    rw [continues.position, continues.peek, Nat.add_assoc]
    rfl
  peek := continues.peek
  last token := by
    change (if cursor.peek.isWhitespace then cursor.lastReal? else some cursor.peek) = some token →
      (if image.peek.isWhitespace then image.lastReal? else some image.peek) = _
    have blank : image.peek.isWhitespace = cursor.peek.isWhitespace := by
      rw [continues.peek]
      rfl
    rw [blank]
    split
    · exact continues.last token
    · rintro ⟨rfl⟩
      rw [continues.peek]

theorem arrive (continues : Continues source offset cursor image) :
    Continues source offset cursor.arrive image.arrive where
  left := continues.left
  whole := continues.whole
  position := continues.position
  peek := by
    change image.source.scan image.position =
      (cursor.source.scan cursor.position).moved (source.placeAfter offset)
    rw [continues.left, continues.whole, continues.position, source.scan_after]
  last := continues.last

theorem advance (continues : Continues source offset cursor image) :
    Continues source offset cursor.advance image.advance := by
  have done : image.isDone = cursor.isDone := by
    rw [isDone, continues.peek]
    rfl
  rw [Cursor.advance, Cursor.advance, done]
  split
  · exact continues
  · exact continues.leave.arrive

theorem skip (continues : Continues source offset cursor image) {count count' : Nat}
    (enough : cursor.ahead.length ≤ count) (enough' : image.ahead.length ≤ count') :
    Continues source offset (cursor.skip count) (image.skip count') := by
  have more (cursor : Cursor) (count : Nat) (blank : cursor.peek.isWhitespace = true)
      (enough : cursor.ahead.length ≤ count) :
      ∃ less, count = less + 1 ∧ cursor.advance.ahead.length ≤ less := by
    rw [ahead_of_valid (Lexeme.isValid_of_isWhitespace blank), List.length_cons] at enough
    refine ⟨count - 1, by omega, ?_⟩
    rw [ahead_advance, ahead_of_valid (Lexeme.isValid_of_isWhitespace blank), List.drop_one,
      List.tail_cons]
    omega
  have stays (cursor : Cursor) (count : Nat) (real : cursor.peek.isWhitespace = false) :
      cursor.skip count = cursor := by
    cases count with
    | zero => rfl
    | succ count => rw [Cursor.skip, real, if_neg Bool.false_ne_true]
  induction count generalizing cursor image count' with
  | zero =>
    have real : cursor.peek.isWhitespace = false := by
      refine Bool.eq_false_iff.mpr fun blank => ?_
      obtain ⟨_, absurd_, -⟩ := more cursor 0 blank enough
      cases absurd_
    rw [stays cursor 0 real, stays image count' (by rw [continues.peek]; exact real)]
    exact continues
  | succ count ih =>
    cases blank : cursor.peek.isWhitespace with
    | true =>
      have blank' : image.peek.isWhitespace = true := by
        rw [continues.peek]
        exact blank
      obtain ⟨_, ⟨⟩, less⟩ := more cursor _ blank enough
      obtain ⟨count', rfl, less'⟩ := more image _ blank' enough'
      rw [Cursor.skip, Cursor.skip, if_pos blank, if_pos blank']
      exact ih continues.advance less less'
    | false =>
      rw [stays cursor _ blank, stays image count' (by rw [continues.peek]; exact blank)]
      exact continues

theorem skipWhitespace (continues : Continues source offset cursor image) :
    Continues source offset cursor.skipWhitespace image.skipWhitespace :=
  continues.skip cursor.length_ahead_lt.le image.length_ahead_lt.le

theorem advanceReal (continues : Continues source offset cursor image) :
    Continues source offset cursor.advanceReal image.advanceReal :=
  continues.advance.skipWhitespace

end Continues

end Cursor

/-- A reader of the text after an offset is compared with one of the whole text. -/
def Mirror.continuing (source : Source) (offset : Nat) : Mirror where
  move := source.placeAfter offset
  move' := id
  alike reader image := reader.cursor.Ready ∧
    Cursor.Continues source offset reader.cursor image.cursor ∧ image.tracing = reader.tracing
  fallen reader image := Cursor.Continues source offset reader.cursor image.cursor
  uneven := False

theorem Mirror.faithful_continuing (source : Source) (offset : Nat) :
    (continuing source offset).Faithful where
  ready := by
    rintro reader image ⟨ready, continues, -⟩
    refine ⟨ready, ⟨?_⟩⟩
    rw [continues.peek]
    exact ready.settled
  peek := by
    rintro reader image ⟨-, continues, -⟩
    exact continues.peek
  last := by
    rintro reader image token ⟨-, continues, -⟩ last
    exact ⟨_, continues.last token last, rfl⟩
  noted := by
    rintro reader image channel message message' ⟨ready, continues, tracing⟩
    simp only [continuing, Reading.cursor_note, Reading.tracing_note]
    exact ⟨ready, continues, tracing⟩
  passed := by
    rintro reader image ⟨ready, continues, tracing⟩ valid
    exact ⟨(ready.passed_advanceReal valid).ready, continues.advanceReal, tracing⟩
  fell := by
    rintro reader image ⟨-, continues, tracing⟩ -
    refine .inr ?_
    rw [Reader.giveUp, Reader.giveUp, tracing]
    cases reader.tracing with
    | true => exact continues.advanceReal
    | false => exact continues.leave

namespace Fault

theorem moved_moved (move move' : Location → Location) (fault : Fault) :
    (fault.moved move).moved move' = fault.moved (move' ∘ move) := by
  cases fault <;> simp [moved, Token.moved, Function.comp_def]

theorem placeless_moved (move : Location → Location) (fault : Fault) :
    (fault.moved move).placeless = fault.placeless :=
  moved_moved move _ fault

end Fault

namespace Reading

/-- What reading a program comes to, moved to other places, as far as it goes on. -/
inductive Resumed (source : Source) (offset : Nat) :
    EStateM.Result Fault Reader Node → EStateM.Result Fault Reader Node → Prop where
  | ok {node reader image}
    (cursor : Cursor.Continues source offset reader.cursor image.cursor) :
    Resumed source offset (.ok node reader) (.ok (node.moved (source.placeAfter offset)) image)
  | error {fault reader image}
    (cursor : Cursor.Continues source offset reader.cursor image.cursor) :
    Resumed source offset (.error fault reader)
      (.error (fault.moved (source.placeAfter offset)) image)

/-- Reading a program from a cursor of a text comes to what reading one from the beginning of the
text that is left comes to. -/
theorem program_resumed (limits : Limits) {source : Source} {reader : Reader}
    (source_eq : reader.cursor.source = source)
    (scanned : reader.cursor.peek = source.scan reader.cursor.position) :
    Resumed source reader.cursor.position
      (program limits (.ofSource reader.tracing (source.after reader.cursor.position)))
      (program limits reader) := by
  have start := Cursor.Continues.start source_eq rfl scanned
  have compared := @compared_programWithin _
    (Mirror.faithful_continuing source reader.cursor.position) (limits.depth reader.tracing) _
    ⟨Nat.le_refl _, .inr rfl⟩ (.ofSource reader.tracing (source.after reader.cursor.position))
    reader ⟨Cursor.ready_skipWhitespace _, start.skipWhitespace, rfl⟩
  rw [program_within, program_within]
  change Compared _ (programWithin (limits.depth reader.tracing) _) _ at compared
  change Resumed _ _ (programWithin (limits.depth reader.tracing) _) _
  generalize programWithin _ (.ofSource _ _) = result at compared
  generalize programWithin _ reader = result' at compared
  cases compared with
  | read trees holds =>
    rw [Mirror.nodes] at trees
    change Node.moved id _ = _ at trees
    rw [Node.moved_id] at trees
    rw [trees]
    exact .ok holds.2.1
  | refused faults holds =>
    rw [Mirror.faults] at faults
    change Fault.moved id _ = _ at faults
    rw [Fault.moved_id] at faults
    rw [faults]
    exact .error holds.2.1
  | @fell reader image holds =>
    have place : image.cursor.peek.start = source.placeAfter _ reader.cursor.peek.start :=
      congrArg Token.start holds.peek
    rw [place]
    exact .error holds
  | deeper uneven => exact uneven.elim

theorem ends_with_point {limits : Limits} {reader after : Reader} {node : Node}
    (read : program limits reader = .ok node after) :
    ∃ point span, after.cursor.lastReal? = some point ∧ point.kind = .point ∧
      node.span? = some span ∧ span.stop = point.stop := by
  have decided := decides_programWithin (limits.depth reader.tracing)
    { reader with cursor := reader.cursor.skipWhitespace } (Cursor.ready_skipWhitespace _)
  rw [program_within, programWithin_eq] at read
  generalize whole : wholeWithin _ _ = result at decided
  cases decided with
  | @found own _ _ passed derived =>
    rw [reportDepth_ok whole] at read
    cases read
    obtain ⟨u, _, body, rfl, -, point, ⟨rfl, isPoint⟩, rfl⟩ := program_parts.mpr derived
    obtain ⟨span, covers⟩ := Span.exists_covering (List.append_ne_nil_of_right_ne_nil u
      (List.cons_ne_nil point []))
    have last : (u ++ [point]).getLast? = some point := by simp
    have stops := (Span.ends_of_covering covers).2
    rw [last] at stops
    refine ⟨point, span, ?_, isPoint, covers, (Option.some.inj stops).symm⟩
    rw [passed.last, last]
    rfl
  | refused =>
    rw [reportDepth_error whole (Fault.ofToken_ne_stackExhausted _ _)] at read
    cases read
  | exhausted =>
    rw [reportDepth_exhausted whole] at read
    cases read

end Reading

/-- Programs that follow each other in a text from an offset on: each is read from the beginning
of what the one before left of the text, and belongs where that lies. -/
inductive Source.Successive (source : Source) (limits : Limits) (tracing : Bool) :
    Nat → List Node → Nat → Prop where
  | none {offset} : Successive source limits tracing offset [] offset
  | next {offset stop node reader nodes}
      (read : Reading.program limits (.ofSource tracing (source.after offset)) = .ok node reader)
      (others : Successive source limits tracing (offset + reader.cursor.position) nodes stop) :
      Successive source limits tracing offset (node.moved (source.placeAfter offset) :: nodes) stop

namespace Session

/-- Programs that a session reads one after the other. -/
inductive Parses : Session → List Node → Session → Prop where
  | none {session} : Parses session [] session
  | next {session middle last node nodes}
      (reads : session.perform .parse = (.tree node, middle))
      (others : Parses middle nodes last) : Parses session (node :: nodes) last

/-- A session on a source that can go on with what stands at its position. -/
structure Goes (source : Source) (limits : Limits) (tracing : Bool) (session : Session) :
    Prop where
  limits_eq : session.limits = limits
  tracing_eq : session.reader.tracing = tracing
  source_eq : session.cursor.source = source
  scanned : session.cursor.peek = source.scan session.cursor.position

variable {source : Source} {limits : Limits} {session last : Session} {tracing : Bool}
  {offset stop : Nat} {node : Node} {nodes : List Node} {fault : Fault} {reader : Reader}

/-- A session reads a program where one is read from the beginning of the text that is left, and
its cursor goes on as that one does. -/
theorem Goes.parse_of_ok (goes : session.Goes source limits tracing)
    (read : Reading.program limits (.ofSource tracing (source.after session.cursor.position)) =
      .ok node reader) :
    ∃ after, session.perform .parse =
        (.tree (node.moved (source.placeAfter session.cursor.position)), after) ∧
      Cursor.Continues source session.cursor.position reader.cursor after.cursor := by
  obtain ⟨rfl, rfl, source_eq, scanned⟩ := goes
  have resumed := Reading.program_resumed session.limits source_eq scanned
  rw [cursor] at read
  rw [read] at resumed
  rw [perform, Session.read]
  generalize Reading.program session.limits session.reader = result at resumed
  cases resumed with
  | ok cursor => exact ⟨_, rfl, cursor⟩

theorem Goes.parse_of_error (goes : session.Goes source limits tracing)
    (read : Reading.program limits (.ofSource tracing (source.after session.cursor.position)) =
      .error fault reader) :
    ∃ after, session.perform .parse =
        (.failed (fault.moved (source.placeAfter session.cursor.position)), after) ∧
      Cursor.Continues source session.cursor.position reader.cursor after.cursor := by
  obtain ⟨rfl, rfl, source_eq, scanned⟩ := goes
  have resumed := Reading.program_resumed session.limits source_eq scanned
  rw [cursor] at read
  rw [read] at resumed
  rw [perform, Session.read]
  generalize Reading.program session.limits session.reader = result at resumed
  cases resumed with
  | error cursor => exact ⟨_, rfl, cursor⟩

theorem Goes.of_tree {middle : Session} (goes : session.Goes source limits tracing)
    (reads : session.perform .parse = (.tree node, middle)) :
    middle.Goes source limits tracing := by
  have kept := Reading.keeps_program session.limits session.reader
  rw [perform, Session.read] at reads
  cases result : Reading.program session.limits session.reader with
  | ok node' last =>
    rw [result] at reads kept
    cases reads
    cases kept with
    | moved passed cursor tracing =>
      change last.cursor = _ at cursor
      have source_eq : last.cursor.source = source := by
        rw [cursor, Cursor.source_iterate]
        exact goes.source_eq
      have scanned : session.reader.cursor.peek =
          session.reader.cursor.source.scan session.reader.cursor.position :=
        goes.scanned.trans (congrArg (Source.scan · _) goes.source_eq.symm)
      have scanned' := Cursor.scanned_iterate passed scanned
      rw [← cursor, source_eq] at scanned'
      exact ⟨goes.limits_eq, tracing.trans goes.tracing_eq, source_eq, scanned'⟩
  | error fault last =>
    rw [result] at reads
    cases reads

theorem Parses.successive (parses : session.Parses nodes last)
    (goes : session.Goes source limits tracing) :
    source.Successive limits tracing session.cursor.position nodes last.cursor.position := by
  induction parses with
  | none => exact .none
  | @next session middle last node nodes reads _ ih =>
    have goes' := goes.of_tree reads
    cases came : Reading.program limits
        (.ofSource tracing (source.after session.cursor.position)) with
    | ok node' reader =>
      obtain ⟨after, answer, cursor⟩ := goes.parse_of_ok came
      rw [reads] at answer
      cases answer
      have others := ih goes'
      rw [cursor.position] at others
      exact .next came others
    | error fault reader =>
      obtain ⟨after, answer, -⟩ := goes.parse_of_error came
      rw [reads] at answer
      cases answer

theorem exists_parses (successive : source.Successive limits tracing offset nodes stop)
    (goes : session.Goes source limits tracing) (position : session.cursor.position = offset) :
    ∃ last, session.Parses nodes last ∧ last.cursor.position = stop := by
  induction successive generalizing session with
  | none => exact ⟨session, .none, position⟩
  | @next offset stop node reader nodes read _ ih =>
    subst position
    obtain ⟨middle, reads, cursor⟩ := goes.parse_of_ok read
    obtain ⟨last, others, stops⟩ := ih (goes.of_tree reads) cursor.position
    exact ⟨last, .next reads others, stops⟩

/-- Reading a program from the cursor of a text comes to what reading one from the beginning of
the rest of the text comes to, as that is scanned, with every place moved to where the rest lies in
the whole text: the same tree, or the same fault, which is reported alike. The cursor goes as far.
A program ends with a point, and that is then the word behind the cursor. So what is read one after
the other are the successive programs of the text. That is so after any operations that leave the
cursor before the token at its position, as they do unless a program was too deep since it was last
put back to the first token. -/
theorem parse_from_anywhere (limits : Limits) (tracing upcase : Bool) (text : String)
    (operations : List Operation) :
    let source := Source.ofText upcase text
    let start := ofSource limits tracing source
    let session := start.run operations
    let offset := session.cursor.position
    let move := source.placeAfter offset
    (start.overruns 0 operations = 0 → session.cursor.peek = source.scan offset) ∧
    (session.cursor.peek = source.scan offset →
      (∀ place, (move place).offset = offset + place.offset) ∧
      (match Reading.program limits (.ofSource tracing (source.after offset)) with
      | .ok node reader => ∃ after, session.perform .parse = (.tree (node.moved move), after) ∧
          after.cursor.position = offset + reader.cursor.position ∧
          after.cursor.peek = reader.cursor.peek.moved move ∧
          ∃ point span, after.cursor.lastReal? = some point ∧ point.kind = .point ∧
            (node.moved move).span? = some span ∧ span.stop = point.stop
      | .error fault reader => ∃ after,
          session.perform .parse = (.failed (fault.moved move), after) ∧
          after.cursor.position = offset + reader.cursor.position ∧
          after.cursor.peek = reader.cursor.peek.moved move ∧
          Option.Rel Report.SameButPlace fault.report? (fault.moved move).report?) ∧
      ∀ nodes stop, (∃ last, session.Parses nodes last ∧ last.cursor.position = stop) ↔
        source.Successive limits tracing offset nodes stop) := by
  intro source start session offset move
  obtain ⟨torn, few, comes⟩ : ∃ torn ≤ start.overruns 0 operations,
      Cursor.Comes source torn session.cursor :=
    comes_run operations ⟨0, Nat.le_refl 0, .fresh⟩
  refine ⟨fun none_ => ?_, fun scanned => ?_⟩
  · obtain ⟨count, within, iterate⟩ := comes.exists_iterate (Nat.le_zero.mp (none_ ▸ few))
    have stands := Cursor.stands_iterate source within
    rw [← iterate] at stands
    exact stands.peek
  obtain ⟨limits_eq, tracing_eq⟩ := start.same_run operations
  have goes : session.Goes source limits tracing :=
    ⟨limits_eq, tracing_eq, comes.source_eq, scanned⟩
  refine ⟨fun place => rfl, ?_, fun nodes stop => ⟨?_, fun successive => ?_⟩⟩
  · cases read : Reading.program limits (.ofSource tracing (source.after offset)) with
    | ok node reader =>
      obtain ⟨after, answer, cursor⟩ := goes.parse_of_ok read
      obtain ⟨point, span, last, isPoint, covers, stops⟩ := Reading.ends_with_point read
      refine ⟨after, answer, cursor.position, cursor.peek, point.moved move, span.moved move,
        cursor.last point last, isPoint, ?_, congrArg move stops⟩
      rw [Node.span?_moved, covers]
      rfl
    | error fault reader =>
      obtain ⟨after, answer, cursor⟩ := goes.parse_of_error read
      exact ⟨after, answer, cursor.position, cursor.peek,
        Fault.reports_alike (Fault.placeless_moved move fault)⟩
  · rintro ⟨last, parses, rfl⟩
    exact parses.successive goes
  · exact exists_parses successive goes rfl

/-- A program that is read after one that was refused at its second word. -/
theorem exit_after_refused :
    ∃ session node reader after,
      session = (ofSource .standard false (.ofText true "x x break.")).run [.parse] ∧
      session.cursor.position = 4 ∧
      session.cursor.peek = (Source.ofText true "x x break.").scan 4 ∧
      Reading.program .standard (.ofSource false ((Source.ofText true "x x break.").after 4)) =
        .ok node reader ∧
      session.perform .parse =
        (.tree (node.moved ((Source.ofText true "x x break.").placeAfter 4)), after) ∧
      after.cursor.position = 4 + reader.cursor.position := by
  have position : ((ofSource .standard false (.ofText true "x x break.")).run
      [.parse]).cursor.position = 4 := by decide +kernel
  have scanned : ((ofSource .standard false (.ofText true "x x break.")).run
      [.parse]).cursor.peek = (Source.ofText true "x x break.").scan 4 := by decide +kernel
  have reads : (match Reading.program .standard
      (.ofSource false ((Source.ofText true "x x break.").after 4)) with
      | .ok _ _ => true
      | .error _ _ => false) = true := by decide +kernel
  have resumes := (parse_from_anywhere .standard false true "x x break." [.parse]).2
  change _ → _ at resumes
  generalize (ofSource .standard false (.ofText true "x x break.")).run [.parse] = session
    at position scanned resumes
  rw [position] at resumes
  obtain ⟨-, resumes, -⟩ := resumes scanned
  cases read : Reading.program .standard
      (.ofSource false ((Source.ofText true "x x break.").after 4)) with
  | ok node reader =>
    rw [read] at resumes
    obtain ⟨after, answer, stops, -⟩ := resumes
    exact ⟨session, node, reader, after, rfl, position, scanned, rfl, answer, stops⟩
  | error fault reader =>
    rw [read] at reads
    cases reads

/-- After a text was too deep by its parentheses, the last one that was passed is read again, where
the text that is left begins with the next one. -/
theorem parse_of_opened {limits : Limits} {depth count : Nat}
    (deep : limits.depth false = depth + 1) (less : depth + 1 < count) :
    let source := Source.opened count []
    let session := (ofSource limits false source).run [.parse]
    session.cursor.position = 5 + depth + 1 ∧
    (∃ after, session.perform .parse =
      (.failed (.unexpectedToken (some "statement") (source.scan (5 + depth))), after)) ∧
    ∃ fault reader, Reading.program limits (.ofSource false (source.after (5 + depth + 1))) =
        .error fault reader ∧
      fault.moved (source.placeAfter (5 + depth + 1)) =
        .unexpectedToken (some "statement") (source.scan (5 + depth + 1)) := by
  have opening := @Source.repeats_opened count []
  obtain ⟨-, position, peek, -⟩ := torn_of_opened deep (Nat.lt_of_succ_lt less)
  obtain ⟨limits_eq, tracing_eq⟩ := (ofSource limits false (.opened count [])).same_run [.parse]
  dsimp only
  generalize Source.opened count [] = source at opening position peek limits_eq tracing_eq ⊢
  generalize (ofSource limits false source).run [.parse] = session
    at position peek limits_eq tracing_eq ⊢
  change session.limits = limits at limits_eq
  change session.reader.tracing = false at tracing_eq
  refine ⟨position, ?_, ?_⟩
  · have isOpening : session.reader.cursor.peek.kind = .opening :=
      (congrArg (·.kind) peek).trans (congrArg Lexeme.kind (opening depth (Nat.lt_of_succ_lt less)))
    obtain ⟨last, refused⟩ := @Reading.program_of_opening depth session.reader session.limits
      (by rw [limits_eq, tracing_eq, deep]) isOpening
    rw [perform, read, refused]
    exact ⟨_, congrArg (fun token => (Answer.failed (.unexpectedToken _ token), _)) peek⟩
  · have scanned := source.scan_after (5 + depth + 1) 0
    have isOpening : ((source.after (5 + depth + 1)).scan 0).kind = .opening :=
      (congrArg (·.kind) scanned).trans (congrArg Lexeme.kind (opening (depth + 1) less))
    obtain ⟨last, refused⟩ := @Reading.program_of_opening
      depth (.ofSource false (source.after (5 + depth + 1))) limits deep isOpening
    exact ⟨_, last, refused, congrArg (Fault.unexpectedToken _) scanned⟩

/-- After a text was too deep, a program is refused one token before the text that is left begins,
where one that is read from the beginning of that text is refused at its first token. -/
theorem opened_not_resumed :
    let source := Source.opened 1500 []
    let session := (ofSource .standard false source).run [.parse]
    session.cursor.position = 333 ∧
    (∃ after, session.perform .parse =
      (.failed (.unexpectedToken (some "statement") (source.scan 332)), after)) ∧
    ∃ fault reader, Reading.program .standard (.ofSource false (source.after 333)) =
        .error fault reader ∧
      fault.moved (source.placeAfter 333) =
        .unexpectedToken (some "statement") (source.scan 333) :=
  @parse_of_opened .standard 327 1500 rfl (by decide)

end Session

end LoopLang
