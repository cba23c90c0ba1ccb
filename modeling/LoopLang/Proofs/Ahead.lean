import LoopLang.Proofs.Scanning
import LoopLang.Token.Cursor

/-!
# What is ahead of a cursor

The moves of a cursor are told by the tokens that are still ahead of it: the next one, and what a
scan from behind it yields. That is so for every cursor, also for one that was left between the
halves of a move, so nothing here asks how the cursor came about.
-/
namespace LoopLang

theorem Lexeme.isValid_of_isWhitespace {lexeme : Lexeme} (blank : lexeme.isWhitespace = true) :
    lexeme.isValid = true := by
  obtain ⟨kind, chars⟩ := lexeme
  cases kind <;> first | rfl | cases blank

theorem Lexeme.isWhitespace_of_invalid {lexeme : Lexeme} (invalid : lexeme.isValid = false) :
    lexeme.isWhitespace = false := by
  rw [Bool.eq_false_iff]
  intro blank
  exact absurd (isValid_of_isWhitespace blank) (Bool.eq_false_iff.mp invalid)

namespace Source

variable (source : Source)

/-- The valid tokens from an offset on, and the token that stops the scan after them. -/
def tokensAt (offset : Nat) : List Token × Token :=
  source.tokensFrom source.text.length offset (source.text.drop offset)

theorem tokensFrom_enough {steps steps' : Nat} (offset : Nat) {rest : List Char}
    (enough : rest.length ≤ steps) (enough' : rest.length ≤ steps') :
    source.tokensFrom steps offset rest = source.tokensFrom steps' offset rest := by
  induction steps generalizing steps' offset rest with
  | zero =>
    obtain rfl := List.eq_nil_of_length_eq_zero (Nat.le_zero.mp enough)
    cases steps' <;> rfl
  | succ steps ih =>
    cases steps' with
    | zero =>
      obtain rfl := List.eq_nil_of_length_eq_zero (Nat.le_zero.mp enough')
      rfl
    | succ steps' =>
      unfold tokensFrom
      dsimp only
      split
      · rename_i valid
        have taken := Lexeme.length_first_pos valid
        rw [@ih steps'] <;> rw [List.length_drop] <;> omega
      · rfl

variable {source} {offset : Nat}

theorem tokensAt_of_valid (valid : (source.scan offset).isValid = true) :
    source.tokensAt offset =
      (source.scan offset :: (source.tokensAt (offset + (source.scan offset).length)).1,
        (source.tokensAt (offset + (source.scan offset).length)).2) := by
  have some_ : 0 < (source.scan offset).length := Lexeme.length_first_pos valid
  have within : (source.scan offset).length ≤ source.text.length - offset := by
    have begins := (Lexeme.first_prefix (source.text.drop offset)).length_le
    rwa [List.length_drop] at begins
  have later : source.tokensAt (offset + (source.scan offset).length) =
      source.tokensFrom (source.text.length - 1) (offset + (source.scan offset).length)
        ((source.text.drop offset).drop (source.scan offset).length) := by
    rw [List.drop_drop]
    apply tokensFrom_enough <;> rw [List.length_drop] <;> omega
  obtain ⟨steps, length⟩ : ∃ steps, source.text.length = steps + 1 :=
    ⟨source.text.length - 1, by omega⟩
  change (Lexeme.first (source.text.drop offset)).isValid = true at valid
  rw [later, tokensAt, length, tokensFrom]
  simp only [valid, if_true]
  rfl

theorem tokensAt_of_invalid (invalid : (source.scan offset).isValid = false) :
    source.tokensAt offset = ([], source.scan offset) := by
  change (Lexeme.first (source.text.drop offset)).isValid = false at invalid
  unfold tokensAt
  cases source.text.length with
  | zero => rfl
  | succ steps =>
    rw [tokensFrom]
    simp only [invalid, Bool.false_eq_true, if_false]
    rfl

variable (source) (offset)

theorem tokensAt_valid :
    (∀ token ∈ (source.tokensAt offset).1, token.isValid = true ∧ token.Proper) ∧
      (source.tokensAt offset).2.isValid = false :=
  source.tokensFrom_valid _ offset _ (by rw [List.length_drop]; omega)

theorem length_tokensFrom_le (steps : Nat) (rest : List Char) :
    (source.tokensFrom steps offset rest).1.length ≤ steps := by
  induction steps generalizing offset rest with
  | zero => exact Nat.le_refl _
  | succ steps ih =>
    unfold tokensFrom
    dsimp only
    split
    · exact Nat.succ_le_succ (ih _ _)
    · exact Nat.zero_le _

end Source

namespace Cursor

/-- The tokens that the cursor has still to pass. -/
def ahead (cursor : Cursor) : List Token :=
  if cursor.isDone then []
  else cursor.peek :: (cursor.source.tokensAt (cursor.position + cursor.peek.length)).1

def stop (cursor : Cursor) : Token :=
  if cursor.isDone then cursor.peek
  else (cursor.source.tokensAt (cursor.position + cursor.peek.length)).2

variable {cursor : Cursor}

theorem isDone_of_valid (valid : cursor.peek.isValid = true) : cursor.isDone = false := by
  simp [isDone, valid]

theorem isDone_of_invalid (invalid : cursor.peek.isValid = false) : cursor.isDone = true := by
  simp [isDone, invalid]

theorem peek_eq (cursor : Cursor) : cursor.peek = cursor.ahead.headD cursor.stop := by
  unfold ahead stop
  split <;> rfl

theorem ahead_of_valid (valid : cursor.peek.isValid = true) :
    cursor.ahead =
      cursor.peek :: (cursor.source.tokensAt (cursor.position + cursor.peek.length)).1 := by
  rw [ahead, isDone_of_valid valid]
  rfl

theorem ahead_of_invalid (invalid : cursor.peek.isValid = false) : cursor.ahead = [] := by
  rw [ahead, isDone_of_invalid invalid]
  rfl

theorem valid_ahead (cursor : Cursor) : ∀ token ∈ cursor.ahead, token.isValid = true := by
  cases valid : cursor.peek.isValid with
  | true =>
    rw [ahead_of_valid valid]
    rintro token (_ | ⟨_, later⟩)
    · exact valid
    · exact ((cursor.source.tokensAt_valid _).1 token later).1
  | false =>
    rw [ahead_of_invalid valid]
    exact nofun

theorem isValid_stop (cursor : Cursor) : cursor.stop.isValid = false := by
  unfold stop
  split
  · rename_i isDone
    simpa [Cursor.isDone] using isDone
  · exact (cursor.source.tokensAt_valid _).2

theorem ahead_eq_nil_iff : cursor.ahead = [] ↔ cursor.peek.isValid = false := by
  cases valid : cursor.peek.isValid with
  | true => simp [ahead_of_valid valid]
  | false => simp [ahead_of_invalid valid]

theorem ahead_of_scanned (scanned : cursor.peek = cursor.source.scan cursor.position) :
    (cursor.ahead, cursor.stop) = cursor.source.tokensAt cursor.position := by
  unfold ahead stop
  cases valid : cursor.peek.isValid with
  | true =>
    rw [isDone_of_valid valid]
    rw [scanned] at valid ⊢
    exact (Source.tokensAt_of_valid valid).symm
  | false =>
    rw [isDone_of_invalid valid]
    rw [scanned] at valid ⊢
    exact (Source.tokensAt_of_invalid valid).symm

theorem ahead_ofSource (source : Source) : (ofSource source).ahead = source.tokens.1 :=
  congrArg Prod.fst (ahead_of_scanned rfl)

theorem stop_ofSource (source : Source) : (ofSource source).stop = source.tokens.2 :=
  congrArg Prod.snd (ahead_of_scanned rfl)

/-! ## Moves -/

theorem advance_of_valid (valid : cursor.peek.isValid = true) :
    cursor.advance = cursor.leave.arrive := by
  rw [advance, isDone_of_valid valid]
  rfl

theorem advance_of_invalid (invalid : cursor.peek.isValid = false) : cursor.advance = cursor := by
  rw [advance, isDone_of_invalid invalid]
  rfl

theorem scanned_advance (valid : cursor.peek.isValid = true) :
    cursor.advance.peek = cursor.source.scan cursor.advance.position := by
  rw [advance_of_valid valid]
  rfl

theorem ahead_advance_eq (cursor : Cursor) :
    (cursor.advance.ahead, cursor.advance.stop) = (cursor.ahead.drop 1, cursor.stop) := by
  cases valid : cursor.peek.isValid with
  | true =>
    have source : cursor.advance.source = cursor.source := by rw [advance_of_valid valid]; rfl
    have position : cursor.advance.position = cursor.position + cursor.peek.length := by
      rw [advance_of_valid valid]
      rfl
    rw [ahead_of_scanned (by rw [source]; exact scanned_advance valid), source, position,
      ahead_of_valid valid, stop, isDone_of_valid valid]
    rfl
  | false => rw [advance_of_invalid valid, ahead_of_invalid valid, List.drop_nil]

@[simp] theorem ahead_advance (cursor : Cursor) : cursor.advance.ahead = cursor.ahead.drop 1 :=
  congrArg Prod.fst cursor.ahead_advance_eq

@[simp] theorem stop_advance (cursor : Cursor) : cursor.advance.stop = cursor.stop :=
  congrArg Prod.snd cursor.ahead_advance_eq

@[simp] theorem source_advance (cursor : Cursor) : cursor.advance.source = cursor.source := by
  unfold advance
  split <;> rfl

theorem lastReal?_advance (valid : cursor.peek.isValid = true) :
    cursor.advance.lastReal? =
      if cursor.peek.isWhitespace then cursor.lastReal? else some cursor.peek := by
  rw [advance_of_valid valid]
  rfl

theorem length_ahead_lt (cursor : Cursor) : cursor.ahead.length < cursor.source.plenty := by
  have bound := cursor.source.length_tokensFrom_le (cursor.position + cursor.peek.length)
    cursor.source.text.length (cursor.source.text.drop (cursor.position + cursor.peek.length))
  unfold ahead Source.plenty
  split
  · exact Nat.succ_pos _
  · exact Nat.succ_lt_succ (Nat.lt_succ_of_le bound)

@[simp] theorem source_skip (count : Nat) (cursor : Cursor) :
    (cursor.skip count).source = cursor.source := by
  induction count generalizing cursor with
  | zero => rfl
  | succ count ih =>
    unfold skip
    split
    · rw [ih, source_advance]
    · rfl

/-- What is skipped is the whitespace that is next, if so many steps are enough for it. -/
theorem ahead_skip (count : Nat) (cursor : Cursor) (enough : cursor.ahead.length ≤ count) :
    (cursor.skip count).ahead = cursor.ahead.dropWhile (·.isWhitespace) := by
  induction count generalizing cursor with
  | zero =>
    rw [List.eq_nil_of_length_eq_zero (Nat.le_zero.mp enough)]
    exact List.eq_nil_of_length_eq_zero (Nat.le_zero.mp enough)
  | succ count ih =>
    unfold skip
    split
    · rename_i blank
      have ahead := ahead_of_valid (Lexeme.isValid_of_isWhitespace blank)
      have dropped : cursor.ahead.dropWhile (·.isWhitespace) =
          (cursor.ahead.drop 1).dropWhile (·.isWhitespace) := by
        simp [ahead, blank]
      have shorter : cursor.advance.ahead.length ≤ count := by
        rw [ahead_advance, List.length_drop]
        omega
      rw [ih cursor.advance shorter, ahead_advance, dropped]
    · rename_i real
      cases valid : cursor.peek.isValid with
      | true => simp [ahead_of_valid valid, real]
      | false => rw [ahead_of_invalid valid, List.dropWhile_nil]

theorem skip_parts (count : Nat) (cursor : Cursor) :
    (cursor.skip count).stop = cursor.stop ∧ (cursor.skip count).lastReal? = cursor.lastReal? := by
  induction count generalizing cursor with
  | zero => exact ⟨rfl, rfl⟩
  | succ count ih =>
    unfold skip
    split
    · rename_i blank
      obtain ⟨stop, lastReal⟩ := ih cursor.advance
      have valid := Lexeme.isValid_of_isWhitespace blank
      exact ⟨stop.trans cursor.stop_advance,
        lastReal.trans ((lastReal?_advance valid).trans (if_pos blank))⟩
    · exact ⟨rfl, rfl⟩

@[simp] theorem source_skipWhitespace (cursor : Cursor) :
    cursor.skipWhitespace.source = cursor.source :=
  source_skip _ cursor

@[simp] theorem ahead_skipWhitespace (cursor : Cursor) :
    cursor.skipWhitespace.ahead = cursor.ahead.dropWhile (·.isWhitespace) :=
  ahead_skip _ cursor cursor.length_ahead_lt.le

@[simp] theorem stop_skipWhitespace (cursor : Cursor) :
    cursor.skipWhitespace.stop = cursor.stop :=
  (skip_parts _ cursor).1

@[simp] theorem lastReal?_skipWhitespace (cursor : Cursor) :
    cursor.skipWhitespace.lastReal? = cursor.lastReal? :=
  (skip_parts _ cursor).2

theorem isWhitespace_peek_skipWhitespace (cursor : Cursor) :
    cursor.skipWhitespace.peek.isWhitespace = false := by
  have stop := Lexeme.isWhitespace_of_invalid cursor.isValid_stop
  have head := List.head?_dropWhile_not (·.isWhitespace) cursor.ahead
  rw [peek_eq, ahead_skipWhitespace, stop_skipWhitespace]
  cases left : cursor.ahead.dropWhile (·.isWhitespace) with
  | nil => exact stop
  | cons token _ => simpa [left] using head

theorem skipWhitespace_of_settled (settled : cursor.peek.isWhitespace = false) :
    cursor.skipWhitespace = cursor := by
  rw [skipWhitespace, Source.plenty, skip, if_neg (by simp [settled])]

@[simp] theorem source_advanceReal (cursor : Cursor) :
    cursor.advanceReal.source = cursor.source := by
  rw [advanceReal, source_skipWhitespace, source_advance]

@[simp] theorem stop_advanceReal (cursor : Cursor) : cursor.advanceReal.stop = cursor.stop := by
  rw [advanceReal, stop_skipWhitespace, stop_advance]

end Cursor

end LoopLang
