import LoopLang.Proofs.Sessions

/-!
# Words one by one

A session can be asked for one word after another, and for the word after the next token
without moving. Both skip whitespace, one with the cursor and the other by offsets alone. Asked
until the scan stops, a session yields the words of the tokens ahead, each once and in order;
only where it is asked before whitespace it first says again which word it passed last.
-/
namespace LoopLang

namespace Source

/-- The first token from an offset on that is not whitespace, as scans from one candidate to the
next find it. -/
inductive Finds (source : Source) : Nat → Token → Prop where
  | here {offset} (real : (source.scan offset).isWhitespace = false) :
      Finds source offset (source.scan offset)
  | later {offset token} (blank : (source.scan offset).isWhitespace = true)
      (finds : Finds source (offset + (source.scan offset).length) token) :
      Finds source offset token

variable {source : Source}

theorem seek_eq (count offset : Nat) (enough : (source.tokensAt offset).1.length ≤ count) :
    source.seek count offset =
        ((source.tokensAt offset).1.dropWhile (·.isWhitespace)).headD (source.tokensAt offset).2 ∧
      source.Finds offset (source.seek count offset) := by
  induction count generalizing offset with
  | zero =>
    have invalid : (source.scan offset).isValid = false := by
      rw [Bool.eq_false_iff]
      intro valid
      rw [tokensAt_of_valid valid] at enough
      cases enough
    rw [tokensAt_of_invalid invalid]
    exact ⟨rfl, .here (Lexeme.isWhitespace_of_invalid invalid)⟩
  | succ count ih =>
    unfold seek
    dsimp only
    split
    · rename_i blank
      have next := tokensAt_of_valid (Lexeme.isValid_of_isWhitespace blank)
      rw [next, List.length_cons] at enough
      obtain ⟨found, finds⟩ := ih _ (Nat.le_of_succ_le_succ enough)
      refine ⟨?_, .later blank finds⟩
      rw [found, next]
      simp [blank]
    · rename_i real
      have real := Bool.eq_false_iff.mpr real
      refine ⟨?_, .here real⟩
      cases valid : (source.scan offset).isValid with
      | true =>
        rw [tokensAt_of_valid valid]
        simp [real]
      | false =>
        rw [tokensAt_of_invalid valid]
        rfl

end Source

namespace Cursor

variable {cursor : Cursor}

theorem peekNextReal_of_valid (valid : cursor.peek.isValid = true) :
    cursor.peekNextReal =
      cursor.source.seek cursor.source.plenty (cursor.position + cursor.peek.length) := by
  rw [peekNextReal, isDone_of_valid valid]
  rfl

/-- Looking past the next token finds what the cursor would stand before if it was passed, and what
scans from its end on find. At the end there is nothing to look for. -/
theorem peekNextReal_eq (cursor : Cursor) :
    cursor.peekNextReal = cursor.advanceReal.peek ∧
      if cursor.peek.isValid then
        cursor.source.Finds (cursor.position + cursor.peek.length) cursor.peekNextReal
      else cursor.peekNextReal = cursor.peek := by
  have after : cursor.advanceReal.peek =
      ((cursor.ahead.drop 1).dropWhile (·.isWhitespace)).headD cursor.stop := by
    rw [peek_eq, advanceReal, ahead_skipWhitespace, stop_skipWhitespace, ahead_advance,
      stop_advance]
  rw [after]
  cases valid : cursor.peek.isValid with
  | true =>
    have ahead := ahead_of_valid valid
    have enough := cursor.length_ahead_lt
    rw [ahead, List.length_cons] at enough
    obtain ⟨found, finds⟩ := Source.seek_eq cursor.source.plenty
      (cursor.position + cursor.peek.length) (Nat.le_of_lt (Nat.lt_of_succ_lt enough))
    rw [peekNextReal_of_valid valid, ahead, stop, isDone_of_valid valid]
    exact ⟨found, finds⟩
  | false =>
    rw [peekNextReal, ahead_of_invalid valid, stop, isDone_of_invalid valid]
    exact ⟨rfl, rfl⟩

theorem lastReal?_advanceReal (valid : cursor.peek.isValid = true) :
    cursor.advanceReal.lastReal? =
      if cursor.peek.isWhitespace then cursor.lastReal? else some cursor.peek := by
  rw [advanceReal, lastReal?_skipWhitespace, lastReal?_advance valid]

end Cursor

namespace Session

/-- What a session answers if it is asked for the next word until the scan stops. After each
answer it stands before no whitespace. -/
inductive Answers : Session → List (Option Token) → Session → Prop where
  | done {session} (stopped : session.cursor.peek.isValid = false) : Answers session [] session
  | next {session token? middle rest last} (valid : session.cursor.peek.isValid = true)
      (passes : session.perform .nextReal = (.token token?, middle))
      (settled : middle.cursor.peek.isWhitespace = false) (others : Answers middle rest last) :
      Answers session (token? :: rest) last

variable {session last last' : Session} {answers answers' : List (Option Token)}

theorem Answers.unique (asked : session.Answers answers last)
    (asked' : session.Answers answers' last') : answers' = answers ∧ last' = last := by
  induction asked generalizing answers' with
  | done stopped =>
    cases asked' with
    | done => exact ⟨rfl, rfl⟩
    | next valid =>
      rw [stopped] at valid
      cases valid
  | next valid passes _ _ ih =>
    cases asked' with
    | done stopped =>
      rw [valid] at stopped
      cases stopped
    | next _ passes' _ others' =>
      rw [passes] at passes'
      cases passes'
      obtain ⟨rfl, rfl⟩ := ih others'
      exact ⟨rfl, rfl⟩

theorem perform_nextReal (session : Session) :
    ∃ middle, session.perform .nextReal = (.token session.cursor.advanceReal.lastReal?, middle) ∧
      middle.cursor = session.cursor.advanceReal :=
  ⟨_, rfl, Reading.cursor_note ..⟩

theorem exists_answers (session : Session) :
    ∃ last, session.Answers
        ((if session.cursor.peek.isWhitespace then [session.cursor.lastReal?] else []) ++
          (session.cursor.ahead.filter (!·.isWhitespace)).map some) last ∧
      last.cursor.peek = session.cursor.stop := by
  -- Each answer passes a token at least, so what is ahead gets shorter.
  generalize length : session.cursor.ahead.length = count
  induction count using Nat.strong_induction_on generalizing session with
  | h count ih =>
    cases valid : session.cursor.peek.isValid with
    | false =>
      rw [Cursor.ahead_of_invalid valid, Lexeme.isWhitespace_of_invalid valid, Cursor.stop,
        Cursor.isDone_of_invalid valid]
      exact ⟨session, .done valid, rfl⟩
    | true =>
      have ahead := Cursor.ahead_of_valid valid
      obtain ⟨middle, passes, moved⟩ := session.perform_nextReal
      have settled := session.cursor.advance.isWhitespace_peek_skipWhitespace
      have left : session.cursor.advanceReal.ahead =
          (session.cursor.ahead.drop 1).dropWhile (·.isWhitespace) := by
        rw [Cursor.advanceReal, Cursor.ahead_skipWhitespace, Cursor.ahead_advance]
      have shorter := List.length_dropWhile_le (·.isWhitespace) (session.cursor.ahead.drop 1)
      rw [← left, List.length_drop, ← moved] at shorter
      rw [← Cursor.advanceReal, ← moved] at settled
      have some_ : 0 < count := by
        rw [← length, ahead]
        exact Nat.succ_pos _
      obtain ⟨last, others, stops⟩ := ih middle.cursor.ahead.length (by omega) middle rfl
      rw [settled, moved, left, Cursor.words_dropWhile] at others
      refine ⟨last, ?_, by rw [stops, moved, Cursor.stop_advanceReal]⟩
      rw [Cursor.lastReal?_advanceReal valid] at passes
      have asked := Answers.next valid passes settled others
      rw [ahead] at asked ⊢
      cases real : session.cursor.peek.isWhitespace <;> simpa [real] using asked

/-- After any operations on the cursor of a text, what it answers if it is asked for the next
word until the scan stops are the words among the tokens that a walk over the rest yields, each
once and in order; before whitespace it first tells again which word is nearest behind it.
Looking for the word after the next token changes nothing and yields what the session would
stand before if it was asked for a word; that is the first word which scans from the end of the
next token on find, and the token that stops the scan if that is next. That is so too where the
cursor was left in the middle of a move. -/
theorem words_in_order (limits : Limits) (tracing upcase : Bool) (text : String)
    (operations : List Operation) :
    let source := Source.ofText upcase text
    let session := (ofSource limits tracing source).run operations
    let cursor := session.cursor
    (∃ tokens stop answers last, cursor.Walk tokens stop ∧ session.Answers answers last ∧
      (∀ answers' last', session.Answers answers' last' → answers' = answers ∧ last' = last) ∧
      last.cursor.peek = stop.peek ∧
      answers = (if cursor.peek.isWhitespace then [cursor.lastReal?] else []) ++
        (tokens.filter (!·.isWhitespace)).map some) ∧
    (session.perform .nextReal).2.cursor.peek.isWhitespace = false ∧
    ∃ token, session.perform .peekNextReal = (.token (some token), session) ∧
      token = (session.perform .nextReal).2.cursor.peek ∧
      if cursor.peek.isValid then source.Finds (cursor.position + cursor.peek.length) token
      else token = cursor.peek := by
  intro source session cursor
  obtain ⟨_, _, comes⟩ := comes_run operations
    (⟨0, Nat.le_refl 0, .fresh⟩ :
      ∃ torn ≤ 0, Cursor.Comes source torn (ofSource limits tracing source).cursor)
  have same : cursor.source = source := comes.source_eq
  obtain ⟨middle, passes, moved⟩ := session.perform_nextReal
  obtain ⟨next, finds⟩ := cursor.peekNextReal_eq
  rw [passes, moved, ← same]
  refine ⟨?_, cursor.advance.isWhitespace_peek_skipWhitespace, cursor.peekNextReal, rfl, next,
    finds⟩
  obtain ⟨last, asked, stops⟩ := session.exists_answers
  have walk := cursor.walk_drain
  obtain ⟨tokens, stop, -⟩ := walk.eq
  exact ⟨_, _, _, last, walk, asked, fun _ _ => asked.unique, stops.trans stop.symm,
    by rw [tokens]⟩

end Session

end LoopLang
