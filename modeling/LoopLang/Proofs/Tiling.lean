import LoopLang.Proofs.Ahead
import Mathlib.Data.List.Chain

/-!
# Tokens without gaps

The tokens of a source lie side by side: each is what a scan yields at its own start, and
the next one starts where it stops. Put together they are the text again, up to where the
scan stops. It stops at the end of the text, or before one character that no token can
begin with, and a cursor that stands there stays.
-/
namespace LoopLang

/-- The kinds that stop a scan: the end of the text, and three for what no token begins with. -/
theorem Kind.mem_of_invalid {kind : Kind} (invalid : kind.isValid = false) :
    kind = .endOfInput ∨ kind ∈ [.unknownCharacter, .openQuote, .brokenString] := by
  cases kind <;> first | cases invalid; done | decide

namespace Lexeme

theorem Taken.kind_ne_endOfInput {c : Char} {rest : List Char} {lexeme : Lexeme}
    (taken : Taken c rest lexeme) : lexeme.kind ≠ .endOfInput := by
  cases taken with
  | spelled spelling =>
    rintro rfl
    cases spelling
  | quoted =>
    rcases quoted_cases rest with heq | heq | ⟨heq, -⟩ <;> simp [heq]
  | numeric =>
    rcases numeric_cases (c :: rest) with heq | ⟨_, -, -, heq⟩ <;> simp [heq]
  | _ => simp

theorem Taken.length_of_invalid {c : Char} {rest : List Char} {lexeme : Lexeme}
    (taken : Taken c rest lexeme) (invalid : lexeme.isValid = false) : lexeme.length = 1 := by
  cases taken with
  | spelled spelling =>
    have valid := Kind.isValid_of_spelling? spelling
    simp [isValid, valid] at invalid
  | quoted =>
    rcases quoted_cases rest with heq | heq | ⟨heq, -⟩
    · simp [heq, length]
    · simp [heq, length]
    · simp [heq, isValid, Kind.isValid, Kind.complaint?] at invalid
  | numeric =>
    rcases numeric_cases (c :: rest) with heq | ⟨_, -, -, heq⟩ <;>
      simp [heq, isValid, Kind.isValid, Kind.complaint?] at invalid
  | unknown => rfl
  | space | lineBreak | identifier => cases invalid

theorem first_kind_eq_endOfInput (text : List Char) :
    (first text).kind = .endOfInput ↔ text = [] := by
  cases text with
  | nil => simp [first]
  | cons c rest => simpa [first] using (taken_ofCons c rest).kind_ne_endOfInput

end Lexeme

namespace Source

/-- Valid tokens side by side, from one offset to another. -/
inductive Tiles (source : Source) : Nat → List Token → Nat → Prop where
  | nil {offset} : Tiles source offset [] offset
  | cons {offset rest stop} (valid : (source.scan offset).isValid = true)
      (others : Tiles source (offset + (source.scan offset).length) rest stop) :
      Tiles source offset (source.scan offset :: rest) stop

theorem length_scan (source : Source) (offset : Nat) :
    (source.scan offset).length = (Lexeme.first (source.text.drop offset)).length := rfl

theorem tokensFrom_tiles (source : Source) (steps offset : Nat)
    (enough : (source.text.drop offset).length ≤ steps) :
    ∃ stop, Tiles source offset (source.tokensFrom steps offset (source.text.drop offset)).1 stop ∧
      (source.tokensFrom steps offset (source.text.drop offset)).2 = source.scan stop := by
  induction steps generalizing offset with
  | zero => exact ⟨offset, .nil, rfl⟩
  | succ steps ih =>
    rw [tokensFrom]
    dsimp only
    split
    · rename_i valid
      have taken := Lexeme.length_first_pos valid
      rw [List.drop_drop]
      obtain ⟨stop, tiles, stops⟩ := ih (offset + (Lexeme.first (source.text.drop offset)).length)
        (by rw [List.length_drop] at enough ⊢; omega)
      exact ⟨stop, .cons valid tiles, stops⟩
    · exact ⟨offset, .nil, rfl⟩

theorem tokens_tiles (source : Source) :
    ∃ stop, Tiles source 0 source.tokens.1 stop ∧ source.tokens.2 = source.scan stop :=
  source.tokensFrom_tiles _ 0 (Nat.le_refl _)

theorem chars_scan (source : Source) (offset : Nat) :
    (source.scan offset).chars =
      (source.text.drop offset).take (source.scan offset).length :=
  List.prefix_iff_eq_take.mp (Lexeme.first_prefix (source.text.drop offset))

theorem length_scan_le (source : Source) (offset : Nat) :
    (source.scan offset).length ≤ source.text.length - offset := by
  have taken := (Lexeme.first_prefix (source.text.drop offset)).length_le
  rwa [List.length_drop] at taken

namespace Tiles

variable {source : Source} {offset stop : Nat} {tokens : List Token}

theorem within (tiles : Tiles source offset tokens stop) (inside : offset ≤ source.text.length) :
    stop ≤ source.text.length := by
  induction tiles with
  | nil => exact inside
  | @cons offset _ _ _ _ ih =>
    have bound := source.length_scan_le offset
    exact ih (by omega)

theorem chars_append (tiles : Tiles source offset tokens stop) :
    tokens.flatMap (·.chars) ++ source.text.drop stop = source.text.drop offset := by
  induction tiles with
  | nil => rfl
  | @cons offset _ _ _ _ ih =>
    rw [List.flatMap_cons, List.append_assoc, ih, chars_scan, ← List.drop_drop,
      List.take_append_drop]

theorem scanned (tiles : Tiles source offset tokens stop) {token : Token}
    (member : token ∈ tokens) :
    token = source.scan token.start.offset ∧ token.isValid = true := by
  induction tiles with
  | nil => cases member
  | cons valid _ ih =>
    rcases List.mem_cons.mp member with rfl | later
    · exact ⟨rfl, valid⟩
    · exact ih later

theorem isChain (tiles : Tiles source offset tokens stop) :
    (tokens ++ [source.scan stop]).IsChain (fun token next => token.stop = next.start) ∧
      (tokens ++ [source.scan stop]).head? = some (source.scan offset) := by
  induction tiles with
  | nil => exact ⟨.singleton _, rfl⟩
  | cons _ _ ih =>
    obtain ⟨chain, head⟩ := ih
    refine ⟨List.isChain_cons.mpr ⟨fun next isNext => ?_, chain⟩, rfl⟩
    have same : source.scan _ = next := Option.some.inj (head.symm.trans isNext)
    rw [← same]
    rfl

theorem length_le (tiles : Tiles source offset tokens stop) : offset + tokens.length ≤ stop := by
  induction tiles with
  | nil => exact Nat.le_refl _
  | cons valid _ ih =>
    have taken := Lexeme.length_first_pos valid
    rw [length_scan] at ih
    rw [List.length_cons]
    omega

end Tiles

/-- Tokens that lie side by side from the beginning of a text up to the one that stops. -/
structure Covers (source : Source) (tokens : List Token) (last : Token) : Prop where
  valid : ∀ token ∈ tokens, token.isValid = true
  some_ : ∀ token ∈ tokens, token.chars ≠ []
  scanned : ∀ token ∈ tokens ++ [last], token = source.scan token.start.offset
  slice : ∀ token ∈ tokens ++ [last],
    token.chars = (source.text.drop token.start.offset).take token.length
  begins : (tokens ++ [last]).head?.map (·.start.offset) = some 0
  adjacent : (tokens ++ [last]).IsChain fun token next => token.stop = next.start
  whole : tokens.flatMap (·.chars) = source.text.take last.start.offset
  inside : last.start.offset ≤ source.text.length
  atEnd : last.kind = .endOfInput ↔ last.start.offset = source.text.length
  inError : last.kind ≠ .endOfInput →
    last.kind ∈ [.unknownCharacter, .openQuote, .brokenString] ∧ last.length = 1

theorem covers_tokens (source : Source) : Covers source source.tokens.1 source.tokens.2 := by
  obtain ⟨stop, tiles, stops⟩ := source.tokens_tiles
  have invalid := source.tokens_valid.2
  have inside := tiles.within (Nat.zero_le _)
  have scanned : ∀ token ∈ source.tokens.1 ++ [source.scan stop],
      token = source.scan token.start.offset := by
    simp only [List.forall_mem_append, List.forall_mem_singleton]
    exact ⟨fun token member => (tiles.scanned member).1, rfl⟩
  rw [stops] at invalid ⊢
  constructor
  case valid => exact fun token member => (tiles.scanned member).2
  case some_ =>
    intro token member
    obtain ⟨scanned, valid⟩ := tiles.scanned member
    rw [scanned] at valid ⊢
    exact List.length_pos_iff.mp (Lexeme.length_first_pos valid)
  case scanned => exact scanned
  case slice =>
    intro token member
    rw [scanned token member]
    exact source.chars_scan _
  case begins => rw [tiles.isChain.2]; rfl
  case adjacent => exact tiles.isChain.1
  case whole =>
    have whole := tiles.chars_append
    rw [List.drop_zero] at whole
    have length := congrArg List.length whole
    rw [List.length_append, List.length_drop] at length
    rw [← whole]
    exact (List.take_left' (by change _ = stop; omega)).symm
  case inside => exact inside
  case atEnd =>
    change (Lexeme.first (source.text.drop stop)).kind = .endOfInput ↔ stop = source.text.length
    rw [Lexeme.first_kind_eq_endOfInput, List.drop_eq_nil_iff]
    omega
  case inError =>
    intro more
    refine ⟨(Kind.mem_of_invalid invalid).resolve_left more, ?_⟩
    change (Lexeme.first (source.text.drop stop)).kind ≠ .endOfInput at more
    cases rest : source.text.drop stop with
    | nil => exact absurd ((Lexeme.first_kind_eq_endOfInput _).mpr rest) more
    | cons c rest' =>
      have invalid' : (Lexeme.first (source.text.drop stop)).isValid = false := invalid
      rw [length_scan, rest]
      rw [rest] at invalid'
      exact (Lexeme.taken_ofCons c rest').length_of_invalid invalid'

end Source

namespace Cursor

/-- A walk yields the token before the cursor and passes it, as long as it is valid. -/
inductive Walk : Cursor → List Token → Cursor → Prop where
  | done {cursor} (stopped : cursor.peek.isValid = false) : Walk cursor [] cursor
  | next {cursor rest last} (valid : cursor.peek.isValid = true)
      (others : Walk cursor.advance rest last) : Walk cursor (cursor.peek :: rest) last

variable {cursor last last' : Cursor} {tokens tokens' : List Token}

theorem Walk.unique (walk : Walk cursor tokens last) (walk' : Walk cursor tokens' last') :
    tokens' = tokens ∧ last' = last := by
  induction walk generalizing tokens' with
  | done stopped =>
    cases walk' with
    | done => exact ⟨rfl, rfl⟩
    | next valid =>
      rw [stopped] at valid
      cases valid
  | next valid _ ih =>
    cases walk' with
    | done stopped =>
      rw [valid] at stopped
      cases stopped
    | next _ others =>
      obtain ⟨rfl, rfl⟩ := ih others
      exact ⟨rfl, rfl⟩

/-- What a walk yields is ahead of the cursor, and it goes on to the token that stops the scan. -/
theorem Walk.eq (walk : Walk cursor tokens last) :
    tokens = cursor.ahead ∧ last.peek = cursor.stop ∧ last.peek.isValid = false := by
  induction walk with
  | @done cursor stopped =>
    refine ⟨(ahead_of_invalid stopped).symm, ?_, stopped⟩
    rw [stop, isDone_of_invalid stopped]
    rfl
  | @next cursor _ _ valid _ ih =>
    obtain ⟨rest, stop, stopped⟩ := ih
    refine ⟨?_, stop.trans cursor.stop_advance, stopped⟩
    rw [rest, ahead_advance, ahead_of_valid valid]
    rfl

theorem walk_yields (count : Nat) {visit : Visit} {before : Cursor}
    (looks : visit.resume before = Visit.look cursor) (enough : cursor.ahead.length < count) :
    Walk cursor (visit.yields before count).1 (visit.yields before count).2 := by
  induction count generalizing visit before cursor with
  | zero => cases enough
  | succ count ih =>
    unfold Visit.yields
    rw [looks, Visit.look]
    cases valid : cursor.peek.isValid with
    | true =>
      rw [isDone_of_valid valid]
      have shorter : cursor.advance.ahead.length < count := by
        rw [ahead_of_valid valid] at enough
        rw [ahead_advance, ahead_of_valid valid]
        exact Nat.succ_lt_succ_iff.mp enough
      exact .next valid (ih rfl shorter)
    | false =>
      rw [isDone_of_invalid valid]
      exact .done valid

theorem walk_drain (cursor : Cursor) : Walk cursor cursor.drain.1 cursor.drain.2 :=
  walk_yields _ rfl cursor.length_ahead_lt

/-- A walk over a text ends. It yields every token of the text, and where it ends the cursor
stays, however often it is advanced. -/
theorem walk_covers (upcase : Bool) (text : String) :
    let source := Source.ofText upcase text
    ∃ tokens last, (ofSource source).Walk tokens last ∧
      (∀ tokens' last', (ofSource source).Walk tokens' last' → tokens' = tokens ∧ last' = last) ∧
      (ofSource source).drain = (tokens, last) ∧ tokens.length ≤ source.text.length ∧
      Source.Covers source tokens last.peek ∧ ∀ count, advance^[count] last = last := by
  intro source
  have walk := (ofSource source).walk_drain
  obtain ⟨tokens, stop, stopped⟩ := walk.eq
  rw [ahead_ofSource] at tokens
  rw [stop_ofSource] at stop
  obtain ⟨_, tiles, -⟩ := source.tokens_tiles
  have count := tiles.length_le
  have inside := tiles.within (Nat.zero_le _)
  refine ⟨_, _, walk, fun _ _ => walk.unique, rfl, ?_, ?_, fun count => ?_⟩
  · rw [tokens]
    omega
  · rw [tokens, stop]
    exact source.covers_tokens
  · exact Function.iterate_fixed (advance_of_invalid stopped) count

end Cursor

end LoopLang
