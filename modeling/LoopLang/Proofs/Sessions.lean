import LoopLang.Proofs.Keeping
import LoopLang.Proofs.Parentheses
import LoopLang.Proofs.Tiling
import Mathlib.Algebra.Ring.Nat

/-!
# Sessions

One cursor serves for many things: its tokens are looked at, passed, listed and visited one
by one, visits are left off and taken up again, and programs are read from it, or turn out to
be none. In whatever order that happens, the cursor moves by whole tokens, and then its parts fit
together: its position, the token before it and the two tokens behind it.

There is one way out. A program that is too deep may be given up in the middle of a move. The
cursor then counts a token as passed and stands before it all the same, which passing tokens never
leads to, and it goes on from there until it is put back to the first token.
-/
namespace LoopLang

namespace Cursor

variable {source : Source} {cursor : Cursor} {passed : List Token}

theorem ahead_iterate (count : Nat) (cursor : Cursor) :
    (advance^[count] cursor).ahead = cursor.ahead.drop count := by
  induction count generalizing cursor with
  | zero => rfl
  | succ count ih =>
    rw [Function.iterate_succ_apply, ih, ahead_advance, List.drop_drop, Nat.add_comm]

theorem source_iterate (count : Nat) (cursor : Cursor) :
    (advance^[count] cursor).source = cursor.source := by
  induction count generalizing cursor with
  | zero => rfl
  | succ count ih => rw [Function.iterate_succ_apply, ih, source_advance]

theorem scanned_iterate (count : Nat) (scanned : cursor.peek = cursor.source.scan cursor.position) :
    (advance^[count] cursor).peek =
      (advance^[count] cursor).source.scan (advance^[count] cursor).position := by
  induction count with
  | zero => exact scanned
  | succ count ih =>
    rw [Function.iterate_succ_apply']
    generalize advance^[count] cursor = middle at ih
    cases valid : middle.peek.isValid with
    | true =>
      rw [source_advance]
      exact scanned_advance valid
    | false =>
      rw [advance_of_invalid valid]
      exact ih

/-- The parts of a cursor say that some tokens from the beginning of the source are behind it,
and that it stands before what comes next. -/
structure Stands (source : Source) (passed : List Token) (cursor : Cursor) : Prop where
  source_eq : cursor.source = source
  position : cursor.position = (passed.map (·.length)).sum
  peek : cursor.peek = source.scan cursor.position
  last : cursor.last? = passed.getLast?
  lastReal : cursor.lastReal? = (passed.filter (!·.isWhitespace)).getLast?

theorem stands_ofSource (source : Source) : Stands source [] (ofSource source) :=
  ⟨rfl, rfl, rfl, rfl, rfl⟩

theorem Stands.advance (stands : Stands source passed cursor)
    (valid : cursor.peek.isValid = true) :
    Stands source (passed ++ [cursor.peek]) cursor.advance := by
  rw [advance_of_valid valid]
  constructor
  case source_eq => exact stands.source_eq
  case position =>
    change cursor.position + cursor.peek.length = _
    rw [stands.position, List.map_append, List.sum_append]
    rfl
  case peek =>
    change cursor.source.scan _ = source.scan _
    rw [stands.source_eq]
    rfl
  case last =>
    rw [List.getLast?_append]
    rfl
  case lastReal =>
    change (if cursor.peek.isWhitespace then cursor.lastReal? else some cursor.peek) = _
    rw [stands.lastReal, List.filter_append, List.getLast?_append]
    cases real : cursor.peek.isWhitespace <;> simp [real]

theorem stands_iterate (source : Source) {count : Nat} (within : count ≤ source.tokens.1.length) :
    Stands source (source.tokens.1.take count) (Cursor.advance^[count] (ofSource source)) := by
  induction count with
  | zero => exact stands_ofSource source
  | succ count ih =>
    have stands := ih (Nat.le_of_succ_le within)
    have ahead := ahead_iterate count (ofSource source)
    rw [ahead_ofSource, List.drop_eq_getElem_cons within] at ahead
    rw [Function.iterate_succ_apply', List.take_succ_eq_append_getElem within]
    generalize Cursor.advance^[count] (ofSource source) = cursor at stands ahead ⊢
    have isPeek : cursor.peek = source.tokens.1[count] := by rw [peek_eq, ahead, List.headD_cons]
    have valid : cursor.peek.isValid = true :=
      cursor.valid_ahead _ (by rw [ahead, isPeek]; exact List.mem_cons_self)
    rw [← isPeek]
    exact stands.advance valid

theorem exists_iterate_le (source : Source) (count : Nat) :
    ∃ passed ≤ source.tokens.1.length,
      Cursor.advance^[count] (ofSource source) = Cursor.advance^[passed] (ofSource source) := by
  rcases Nat.le_total count source.tokens.1.length with within | beyond
  · exact ⟨count, within, rfl⟩
  · obtain ⟨more, rfl⟩ := Nat.exists_eq_add_of_le' beyond
    refine ⟨_, Nat.le_refl _, ?_⟩
    have atEnd := ahead_iterate source.tokens.1.length (ofSource source)
    rw [ahead_ofSource, List.drop_length, ahead_eq_nil_iff] at atEnd
    rw [Function.iterate_add_apply, Function.iterate_fixed (advance_of_invalid atEnd)]

/-- A cursor comes about from a source by passing tokens, so many of them by half. -/
inductive Comes (source : Source) : Nat → Cursor → Prop where
  | fresh : Comes source 0 (ofSource source)
  | advance {torn cursor} (comes : Comes source torn cursor) : Comes source torn cursor.advance
  | interrupted {torn cursor} (comes : Comes source torn cursor)
      (valid : cursor.peek.isValid = true) : Comes source (torn + 1) cursor.leave

namespace Comes

variable {torn : Nat}

theorem iterate (comes : Comes source torn cursor) (count : Nat) :
    Comes source torn (Cursor.advance^[count] cursor) := by
  induction count with
  | zero => exact comes
  | succ count ih =>
    rw [Function.iterate_succ_apply']
    exact ih.advance

theorem source_eq (comes : Comes source torn cursor) : cursor.source = source := by
  induction comes with
  | fresh => rfl
  | advance _ ih => rw [source_advance, ih]
  | interrupted _ _ ih => exact ih

theorem reset (comes : Comes source torn cursor) : Comes source 0 cursor.reset := by
  rw [Cursor.reset, comes.source_eq]
  exact .fresh

/-- If no token was passed by half, some number of them was passed from the beginning on. -/
theorem exists_iterate (comes : Comes source torn cursor) (whole : torn = 0) :
    ∃ count ≤ source.tokens.1.length, cursor = Cursor.advance^[count] (ofSource source) := by
  suffices some_ : ∃ count, cursor = Cursor.advance^[count] (ofSource source) by
    obtain ⟨count, rfl⟩ := some_
    exact exists_iterate_le source count
  induction comes with
  | fresh => exact ⟨0, rfl⟩
  | advance _ ih =>
    obtain ⟨count, rfl⟩ := ih whole
    exact ⟨count + 1, (Function.iterate_succ_apply' ..).symm⟩
  | interrupted => cases whole

end Comes

theorem Walk.exists_iterate {tokens : List Token} {last : Cursor}
    (walk : Walk cursor tokens last) : ∃ count, last = Cursor.advance^[count] cursor := by
  induction walk with
  | done => exact ⟨0, rfl⟩
  | next _ _ ih =>
    obtain ⟨count, rfl⟩ := ih
    exact ⟨count + 1, rfl⟩

end Cursor

theorem Visit.exists_iterate_resume (visit : Visit) (cursor : Cursor) :
    ∃ count, (visit.resume cursor).2.2 = Cursor.advance^[count] cursor := by
  have look (cursor : Cursor) : (Visit.look cursor).2.2 = cursor := by
    unfold Visit.look
    split <;> rfl
  cases visit with
  | fresh => exact ⟨0, look cursor⟩
  | waiting => exact ⟨1, look cursor.advance⟩
  | ended => exact ⟨0, rfl⟩

/-- What can be done with a cursor and the source under it. -/
inductive Operation where
  | peek | advance | nextReal | peekNextReal | reset
  | scan (offset : Nat)
  | locate (offset : Nat)
  /-- Begins a visit to the tokens. -/
  | begin
  /-- Takes a visit up again; they are numbered as they were begun. -/
  | resume (visit : Nat)
  /-- Lists all tokens from the first one on. -/
  | list
  /-- Reads a program. -/
  | parse

inductive Answer where
  | nothing
  | token (token? : Option Token)
  | place (location : Location)
  | tokens (tokens : List Token)
  | tree (node : Node)
  | failed (fault : Fault)

def Answer.isTooDeep : Answer → Bool
  | failed fault => fault.isTooDeep
  | _ => false

/-- A reader that stands somewhere in a source, the limits that it keeps, and the visits that
were begun. -/
structure Session where
  limits : Limits
  reader : Reader
  visits : List Visit

namespace Session

def ofSource (limits : Limits) (tracing : Bool) (source : Source) : Session :=
  ⟨limits, .ofSource tracing source, []⟩

def cursor (session : Session) : Cursor :=
  session.reader.cursor

def moved (session : Session) (cursor : Cursor) : Session :=
  { session with reader := { session.reader with cursor } }

def read {α : Type} (session : Session) (action : Reading α) (answer : α → Answer) :
    Answer × Session :=
  match action session.reader with
  | .ok a reader => (answer a, { session with reader })
  | .error fault reader => (.failed fault, { session with reader })

def perform (session : Session) : Operation → Answer × Session
  | .peek => (.token session.cursor.peek, session)
  | .advance => (.nothing, session.moved session.cursor.advance)
  | .nextReal => session.read Reading.pass .token
  | .peekNextReal => (.token session.cursor.peekNextReal, session)
  | .reset => (.nothing, session.moved session.cursor.reset)
  | .scan offset => (.token (session.cursor.source.scan offset), session)
  | .locate offset => (.place (session.cursor.source.location offset), session)
  | .begin => (.nothing, { session with visits := session.visits ++ [.fresh] })
  | .resume index =>
    match session.visits[index]? with
    | none => (.nothing, session)
    | some visit =>
      let (token?, visit, cursor) := visit.resume session.cursor
      (.token token?, { session.moved cursor with visits := session.visits.set index visit })
  | .list =>
    let (tokens, last) := session.cursor.reset.drain
    (.tokens (tokens ++ [last.peek]), session.moved last.reset)
  | .parse => session.read (Reading.program session.limits) .tree

def run (session : Session) (operations : List Operation) : Session :=
  operations.foldl (fun session operation => (session.perform operation).2) session

/-- How many programs were too deep, after one more operation, since the cursor was last put before
the first token. -/
def overrun (session : Session) (count : Nat) : Operation → Nat
  | .reset | .list => 0
  | .parse => if (session.perform .parse).1.isTooDeep then count + 1 else count
  | _ => count

/-- How many programs were too deep, after some operations, since the cursor was last put before
the first token. -/
def overruns (session : Session) (count : Nat) : List Operation → Nat
  | [] => count
  | operation :: rest =>
    (session.perform operation).2.overruns (session.overrun count operation) rest

variable {session : Session} {source : Source} {count : Nat}

theorem comes_parse (comes : ∃ torn ≤ count, Cursor.Comes source torn session.cursor) :
    ∃ torn ≤ session.overrun count .parse,
      Cursor.Comes source torn (session.perform .parse).2.cursor := by
  obtain ⟨torn, few, comes⟩ := comes
  have kept := Reading.keeps_program session.limits session.reader
  cases result : Reading.program session.limits session.reader with
  | ok node last =>
    rw [result] at kept
    have performed : session.perform .parse = (.tree node, { session with reader := last }) := by
      rw [perform, read, result]
    rw [overrun, performed]
    cases kept with
    | moved passed cursor =>
      have came : Cursor.Comes source torn last.cursor :=
        Eq.subst cursor.symm (comes.iterate passed)
      exact ⟨torn, few, came⟩
  | error fault last =>
    rw [result] at kept
    have performed : session.perform .parse = (.failed fault, { session with reader := last }) := by
      rw [perform, read, result]
    rw [overrun, performed]
    cases kept with
    | moved passed cursor =>
      have came : Cursor.Comes source torn last.cursor :=
        Eq.subst cursor.symm (comes.iterate passed)
      refine ⟨torn, few.trans ?_, came⟩
      split
      · exact Nat.le_succ count
      · exact Nat.le_refl count
    | interrupted tooDeep _ passed valid cursor =>
      have came : Cursor.Comes source (torn + 1) last.cursor :=
        Eq.subst cursor.symm ((comes.iterate passed).interrupted valid)
      refine ⟨torn + 1, ?_, came⟩
      rw [Answer.isTooDeep, tooDeep]
      exact Nat.succ_le_succ few

theorem comes_perform (operation : Operation)
    (comes : ∃ torn ≤ count, Cursor.Comes source torn session.cursor) :
    ∃ torn ≤ session.overrun count operation,
      Cursor.Comes source torn (session.perform operation).2.cursor := by
  cases operation with
  | parse => exact comes_parse comes
  | reset =>
    obtain ⟨_, _, comes⟩ := comes
    exact ⟨0, Nat.le_refl 0, comes.reset⟩
  | list =>
    obtain ⟨_, _, comes⟩ := comes
    obtain ⟨passed, moved⟩ := session.cursor.reset.walk_drain.exists_iterate
    refine ⟨0, Nat.le_refl 0, ?_⟩
    change Cursor.Comes source 0 session.cursor.reset.drain.2.reset
    rw [moved]
    exact (comes.reset.iterate passed).reset
  | peek | peekNextReal | scan offset | locate offset | begin => exact comes
  | advance => exact comes.imp fun torn held => ⟨held.1, held.2.advance⟩
  | nextReal =>
    obtain ⟨passed, moved⟩ := session.cursor.exists_iterate_advanceReal
    have cursor : (session.perform .nextReal).2.cursor = session.cursor.advanceReal :=
      Reading.cursor_note ..
    rw [cursor, moved]
    exact comes.imp fun torn held => ⟨held.1, held.2.iterate passed⟩
  | resume index =>
    rw [perform]
    split
    · exact comes
    · rename_i visit _
      obtain ⟨passed, moved⟩ := visit.exists_iterate_resume session.cursor
      change ∃ torn ≤ count, Cursor.Comes source torn (visit.resume session.cursor).2.2
      rw [moved]
      exact comes.imp fun torn held => ⟨held.1, held.2.iterate passed⟩

theorem comes_run (operations : List Operation)
    (comes : ∃ torn ≤ count, Cursor.Comes source torn session.cursor) :
    ∃ torn ≤ session.overruns count operations,
      Cursor.Comes source torn (session.run operations).cursor := by
  induction operations generalizing session count with
  | nil => exact comes
  | cons operation rest ih => exact ih (comes_perform operation comes)

theorem same_perform (session : Session) (operation : Operation) :
    (session.perform operation).2.limits = session.limits ∧
      (session.perform operation).2.reader.tracing = session.reader.tracing := by
  cases operation with
  | peek | advance | peekNextReal | reset | scan | locate | begin | list => exact ⟨rfl, rfl⟩
  | nextReal => exact ⟨rfl, Reading.tracing_note ..⟩
  | resume index =>
    rw [perform]
    split <;> exact ⟨rfl, rfl⟩
  | parse =>
    have kept := Reading.keeps_program session.limits session.reader
    rw [perform, read]
    cases result : Reading.program session.limits session.reader with
    | ok node last =>
      rw [result] at kept
      exact ⟨rfl, kept.tracing_eq⟩
    | error fault last =>
      rw [result] at kept
      exact ⟨rfl, kept.tracing_eq⟩

theorem same_run (session : Session) (operations : List Operation) :
    (session.run operations).limits = session.limits ∧
      (session.run operations).reader.tracing = session.reader.tracing := by
  induction operations generalizing session with
  | nil => exact ⟨rfl, rfl⟩
  | cons operation rest ih =>
    obtain ⟨limits, tracing⟩ := session.same_perform operation
    obtain ⟨limits', tracing'⟩ := ih (session.perform operation).2
    exact ⟨limits'.trans limits, tracing'.trans tracing⟩

/-- After any operations on the cursor of a text, the source is the same, and the cursor comes
about from its beginning by passing tokens, some of them perhaps by half: no more than there were
programs that were too deep since the cursor was last put back to the first token. If there was
none, the cursor stands where passing some number of tokens from the beginning leads to, and shows
what that says: its position is the length of these tokens together, before it is what a scan
yields there, behind it the last of them, and the nearest real token is the last of them that is
not whitespace. -/
theorem run_stands (limits : Limits) (tracing upcase : Bool) (text : String)
    (operations : List Operation) :
    let source := Source.ofText upcase text
    let start := ofSource limits tracing source
    let cursor := (start.run operations).cursor
    cursor.source = source ∧
    (∃ torn ≤ start.overruns 0 operations, Cursor.Comes source torn cursor) ∧
    (start.overruns 0 operations = 0 → ∃ count ≤ source.tokens.1.length,
      let passed := source.tokens.1.take count
      cursor = Cursor.advance^[count] (Cursor.ofSource source) ∧
      cursor.position = (passed.map (·.length)).sum ∧
      cursor.peek = source.scan cursor.position ∧
      cursor.last? = passed.getLast? ∧ (cursor.last? = none ↔ count = 0) ∧
      cursor.lastReal? = (passed.filter (!·.isWhitespace)).getLast? ∧
      (cursor.lastReal? = none ↔ ∀ token ∈ passed, token.isWhitespace = true)) := by
  intro source start cursor
  have comes : ∃ torn ≤ start.overruns 0 operations, Cursor.Comes source torn cursor :=
    comes_run operations ⟨0, Nat.le_refl 0, .fresh⟩
  obtain ⟨torn, few, came⟩ := comes
  refine ⟨came.source_eq, ⟨torn, few, came⟩, fun none_ => ?_⟩
  obtain ⟨count, within, iterate⟩ := came.exists_iterate (Nat.le_zero.mp (none_ ▸ few))
  have stands := Cursor.stands_iterate source within
  rw [← iterate] at stands
  refine ⟨count, within, iterate, stands.position, stands.peek, stands.last, ?_,
    stands.lastReal, ?_⟩
  · rw [stands.last, List.getLast?_eq_none_iff, ← List.length_eq_zero_iff,
      List.length_take_of_le within]
  · rw [stands.lastReal, List.getLast?_eq_none_iff, List.filter_eq_nil_iff]
    simp

/-- A program that is refused, but not for its depth, leaves its cursor where passing tokens
leads. -/
theorem refused_stands :
    let source := Source.ofText true "x x break."
    let start := ofSource .standard false source
    start.overruns 0 [.parse] = 0 ∧
      ∃ count, (start.run [.parse]).cursor = Cursor.advance^[count] (Cursor.ofSource source) := by
  intro source start
  have none_ : start.overruns 0 [.parse] = 0 := by decide +kernel
  obtain ⟨count, -, iterate, -⟩ :=
    (run_stands .standard false true "x x break." [.parse]).2.2 none_
  exact ⟨none_, count, iterate⟩

/-- After a program was read that is too deep by its parentheses, the token that comes next is the
one that was passed last. -/
theorem torn_of_opened {limits : Limits} {depth count : Nat}
    (deep : limits.depth false = depth + 1) (less : depth < count) :
    let source := Source.opened count []
    let cursor := ((ofSource limits false source).run [.parse]).cursor
    cursor.source = source ∧ cursor.position = 5 + depth + 1 ∧
      cursor.peek = source.scan (5 + depth) ∧ cursor.last? = some (source.scan (5 + depth)) := by
  have is := @Source.repeats_opened count [] depth less
  obtain ⟨middle, fails, stops, untraced⟩ :=
    Reading.program_opened_tooDeep deep (Nat.le_of_lt less) is rfl rfl
  have cursor : ((ofSource limits false (.opened count [])).run [.parse]).cursor =
      middle.cursor.leave := by
    have performed : (ofSource limits false (.opened count [])).perform .parse =
        (.failed (.textTooDeep middle.giveUp.cursor.peek.start),
          { ofSource limits false (.opened count []) with reader := middle.giveUp }) := by
      have result : Reading.program (ofSource limits false (.opened count [])).limits
          (ofSource limits false (.opened count [])).reader = _ := fails
      rw [perform, read, result]
    change ((ofSource limits false (.opened count [])).perform .parse).2.cursor = _
    rw [performed]
    change (if middle.tracing then _ else middle.cursor.leave) = _
    rw [untraced, if_neg Bool.false_ne_true]
  dsimp only
  rw [cursor]
  refine ⟨stops.source_eq, ?_, stops.scanned, congrArg some stops.scanned⟩
  change middle.cursor.position + middle.cursor.peek.length = _
  rw [stops.position_eq, stops.scanned]
  exact congrArg (5 + depth + ·) (congrArg Lexeme.length is)

theorem ne_iterate_of_torn {cursor : Cursor} {before : Nat} (source_eq : cursor.source = source)
    (position : cursor.position = before + 1) (peek : cursor.peek = source.scan before)
    (count : Nat) : cursor ≠ Cursor.advance^[count] (Cursor.ofSource source) := by
  intro same
  have scanned := Cursor.scanned_iterate count (rfl : (Cursor.ofSource source).peek = _)
  rw [← same, source_eq, position, peek] at scanned
  have offsets : before = before + 1 := congrArg (fun token : Token => token.start.offset) scanned
  exact absurd offsets (Nat.ne_of_lt (Nat.lt_succ_self before))

/-- A text that is too deep leaves its cursor where passing tokens does not lead. -/
theorem opened_torn :
    let source := Source.opened 1500 []
    let cursor := ((ofSource .standard false source).run [.parse]).cursor
    cursor.position = 333 ∧ cursor.peek = source.scan 332 ∧
    cursor.last? = some (source.scan 332) ∧
    ∀ count, cursor ≠ Cursor.advance^[count] (Cursor.ofSource source) := by
  have deep : Limits.standard.depth false = 327 + 1 := rfl
  obtain ⟨source_eq, position, peek, last⟩ := torn_of_opened deep (by decide : 327 < 1500)
  exact ⟨position, peek, last, ne_iterate_of_torn source_eq position peek⟩

end Session

end LoopLang
