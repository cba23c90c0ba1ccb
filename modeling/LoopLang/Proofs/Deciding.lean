import LoopLang.Proofs.Ahead
import LoopLang.Proofs.Derivation
import LoopLang.Syntax.Reader

/-!
# Readings that decide a set of phrases

A reading decides a set of phrases if it always finds the phrase that the text begins
with, and no other could be meant: its tokens and its value are the only ones that can be
gone on from with the next token. Where it refuses a token, the tokens before it begin a
phrase, and with that token they no longer do. Where it runs out of depth, the text
begins with no phrase within the bound.

A phrase is always considered together with what follows it, since most phrases can be
made longer. The kinds that can make a phrase longer are told apart from all others, and
nothing is said about a text that goes on with one of them after the phrase. So readings
can be put together: each is asked about a phrase that is followed by the next one.
-/
namespace LoopLang

section Steps

variable {ε σ α β : Type} {m : EStateM ε σ α} {next : α → EStateM ε σ β} {before after : σ}

theorem bind_ok {a : α} (result : m before = .ok a after) :
    (m >>= next) before = next a after := by
  simp [Bind.bind, EStateM.bind, result]

theorem bind_error {fault : ε} (result : m before = .error fault after) :
    (m >>= next) before = .error fault after := by
  simp [Bind.bind, EStateM.bind, result]

theorem get_bind (next : σ → EStateM ε σ α) (state : σ) :
    (get >>= next) state = next state state := rfl

end Steps

namespace Cursor

/-- The tokens ahead that are not whitespace, and the token that stops the scan. -/
def pending (cursor : Cursor) : List Token :=
  cursor.ahead.filter (!·.isWhitespace) ++ [cursor.stop]

/-- The cursor stands before a token that is not whitespace. -/
structure Ready (cursor : Cursor) : Prop where
  settled : cursor.peek.isWhitespace = false

theorem Ready.pending_eq {cursor : Cursor} (ready : cursor.Ready) :
    ∃ rest, cursor.pending = cursor.peek :: rest := by
  have settled := ready.settled
  rw [peek_eq] at settled ⊢
  cases ahead : cursor.ahead with
  | nil => exact ⟨[], by simp [pending, ahead]⟩
  | cons token rest =>
    rw [ahead, List.headD_cons] at settled
    exact ⟨rest.filter (!·.isWhitespace) ++ [cursor.stop], by simp [pending, ahead, settled]⟩

theorem Ready.starts {cursor : Cursor} (ready : cursor.Ready) {own rest : List Token}
    {token : Token} (at_ : cursor.pending = own ++ token :: rest) (others : List Token) :
    ∃ after, own ++ token :: others = cursor.peek :: after := by
  obtain ⟨tail, pending⟩ := ready.pending_eq
  rw [pending] at at_
  cases own with
  | nil =>
    obtain ⟨rfl, -⟩ := List.cons.inj at_
    exact ⟨others, rfl⟩
  | cons first own =>
    obtain ⟨rfl, -⟩ := List.cons.inj at_
    exact ⟨own ++ token :: others, rfl⟩

/-- From one cursor to another past some tokens. -/
structure Passed (cursor : Cursor) (own : List Token) (after : Cursor) : Prop where
  pending : cursor.pending = own ++ after.pending
  ready : after.Ready
  suffix : after.ahead <:+ cursor.ahead
  last : after.lastReal? = own.getLast?.or cursor.lastReal?

theorem Passed.refl {cursor : Cursor} (ready : cursor.Ready) : Passed cursor [] cursor :=
  ⟨rfl, ready, List.suffix_rfl, rfl⟩

theorem Passed.trans {cursor middle after : Cursor} {own own' : List Token}
    (passed : Passed cursor own middle) (further : Passed middle own' after) :
    Passed cursor (own ++ own') after where
  pending := by rw [passed.pending, further.pending, List.append_assoc]
  ready := further.ready
  suffix := further.suffix.trans passed.suffix
  last := by rw [further.last, passed.last, List.getLast?_append, Option.or_assoc]

theorem Passed.at_ {cursor after : Cursor} {own : List Token} (passed : Passed cursor own after) :
    ∃ rest, cursor.pending = own ++ after.peek :: rest := by
  obtain ⟨rest, pending⟩ := passed.ready.pending_eq
  exact ⟨rest, by rw [passed.pending, pending]⟩

theorem Passed.head {cursor after : Cursor} {own : List Token} (passed : Passed cursor own after)
    (ready : cursor.Ready) (some_ : own ≠ []) : own.head? = some cursor.peek := by
  obtain ⟨rest, pending⟩ := ready.pending_eq
  have equal := passed.pending
  rw [pending] at equal
  obtain ⟨first, own, rfl⟩ := List.exists_cons_of_ne_nil some_
  obtain ⟨rfl, -⟩ := List.cons.inj equal
  rfl

theorem Passed.shorter {cursor after : Cursor} {own : List Token}
    (passed : Passed cursor own after) (some_ : own ≠ []) :
    after.ahead.length < cursor.ahead.length := by
  rcases Nat.lt_or_ge after.ahead.length cursor.ahead.length with shorter | same
  · exact shorter
  · have same := passed.suffix.eq_of_length_le same
    have equal := congrArg List.length passed.pending
    simp only [Cursor.pending, same, List.length_append, List.length_singleton] at equal
    have := List.length_pos_iff.mpr some_
    omega

theorem words_takeWhile (tokens : List Token) :
    (tokens.takeWhile (·.isWhitespace)).filter (!·.isWhitespace) = [] := by
  rw [List.filter_eq_nil_iff]
  intro token member
  have all := List.all_takeWhile (p := (·.isWhitespace)) (l := tokens)
  simp [List.all_eq_true.mp all token member]

theorem words_dropWhile (tokens : List Token) :
    (tokens.dropWhile (·.isWhitespace)).filter (!·.isWhitespace) =
      tokens.filter (!·.isWhitespace) := by
  have whole := congrArg (List.filter (!·.isWhitespace))
    (List.takeWhile_append_dropWhile (p := (·.isWhitespace)) (l := tokens))
  rwa [List.filter_append, words_takeWhile, List.nil_append] at whole

@[simp] theorem pending_skipWhitespace (cursor : Cursor) :
    cursor.skipWhitespace.pending = cursor.pending := by
  simp only [pending, ahead_skipWhitespace, stop_skipWhitespace, words_dropWhile]

theorem ready_skipWhitespace (cursor : Cursor) : cursor.skipWhitespace.Ready :=
  ⟨cursor.isWhitespace_peek_skipWhitespace⟩

theorem Ready.skipWhitespace {cursor : Cursor} (ready : cursor.Ready) :
    cursor.skipWhitespace = cursor :=
  skipWhitespace_of_settled ready.settled

theorem Ready.passed_advanceReal {cursor : Cursor} (ready : cursor.Ready)
    (valid : cursor.peek.isValid = true) :
    Passed cursor [cursor.peek] cursor.advanceReal := by
  have settled := ready.settled
  have ahead := ahead_of_valid valid
  refine ⟨?_, ready_skipWhitespace _, ?_, ?_⟩
  · rw [advanceReal, pending_skipWhitespace]
    simp [pending, ahead, settled]
  · rw [advanceReal, ahead_skipWhitespace, ahead_advance]
    exact (List.dropWhile_suffix _).trans (List.drop_suffix 1 _)
  · rw [advanceReal, lastReal?_skipWhitespace, lastReal?_advance valid, settled]
    rfl

end Cursor

/-- A set of phrases with their values, and those of them that keep within a bound. -/
structure Phrases (α : Type) where
  all : List Token → α → Prop
  within : List Token → α → Prop
  all_of_within : ∀ {own value}, within own value → all own value
  inhabited : ∃ own value, all own value

namespace Phrases

variable {α β : Type}

def andThen (first : Phrases α) (next : List Token → α → Phrases β) : Phrases β where
  all own b := ∃ u v a, own = u ++ v ∧ first.all u a ∧ (next u a).all v b
  within own b := ∃ u v a, own = u ++ v ∧ first.within u a ∧ (next u a).within v b
  all_of_within := by
    rintro own b ⟨u, v, a, rfl, head, tail⟩
    exact ⟨u, v, a, rfl, first.all_of_within head, (next u a).all_of_within tail⟩
  inhabited := by
    obtain ⟨u, a, head⟩ := first.inhabited
    obtain ⟨v, b, tail⟩ := (next u a).inhabited
    exact ⟨u ++ v, b, u, v, a, rfl, head, tail⟩

def map (phrases : Phrases α) (f : List Token → α → β) : Phrases β where
  all own b := ∃ a, phrases.all own a ∧ b = f own a
  within own b := ∃ a, phrases.within own a ∧ b = f own a
  all_of_within := by
    rintro own _ ⟨a, phrase, rfl⟩
    exact ⟨a, phrases.all_of_within phrase, rfl⟩
  inhabited := by
    obtain ⟨own, a, phrase⟩ := phrases.inhabited
    exact ⟨own, f own a, a, phrase, rfl⟩

def done (value : α) : Phrases α where
  all own value' := own = [] ∧ value' = value
  within own value' := own = [] ∧ value' = value
  all_of_within := id
  inhabited := ⟨[], value, rfl, rfl⟩

def word (kind : Kind) : Phrases Token where
  all own token := own = [token] ∧ token.kind = kind
  within own token := own = [token] ∧ token.kind = kind
  all_of_within := id
  inhabited := ⟨[Token.ofKind kind], Token.ofKind kind, rfl, rfl⟩

inductive Chained (one : List Token → α → Prop) : List Token → List α → Prop where
  | nil : Chained one [] []
  | cons {u v value values} (first : one u value) (rest : Chained one v values) :
      Chained one (u ++ v) (value :: values)

def orNone (value : α) (phrases : Phrases α) : Phrases α where
  all own value' := own = [] ∧ value' = value ∨ phrases.all own value'
  within own value' := own = [] ∧ value' = value ∨ phrases.within own value'
  all_of_within := Or.imp_right phrases.all_of_within
  inhabited := ⟨[], value, .inl ⟨rfl, rfl⟩⟩

def chained (one : Phrases α) : Phrases (List α) where
  all := Chained one.all
  within := Chained one.within
  all_of_within chain := by
    induction chain with
    | nil => exact .nil
    | cons first _ ih => exact .cons (one.all_of_within first) ih
  inhabited := ⟨[], [], .nil⟩

/-- The phrases are what can follow a token of others. -/
structure Follow (phrases : Phrases α) (token : Token) (whole : Phrases α) : Prop where
  all : ∀ own value, phrases.all own value ↔ whole.all (token :: own) value
  within : ∀ own value, phrases.within own value ↔ whole.within (token :: own) value

theorem follow_word {kind : Kind} {token : Token} (is : token.kind = kind)
    (next : List Token → Token → Phrases α) :
    (next [token] token).Follow token ((word kind).andThen next) := by
  constructor
  all_goals
    intro own value
    constructor
    · intro phrase
      exact ⟨[token], own, token, rfl, ⟨rfl, is⟩, phrase⟩
    · rintro ⟨_, v, token', equal, ⟨rfl, -⟩, phrase⟩
      obtain ⟨rfl, rfl⟩ := List.cons.inj equal
      exact phrase

def Begins (phrases : Phrases α) (own : List Token) : Prop :=
  ∃ others value, phrases.all (own ++ others) value

/-- The text does not go on with a kind that makes a phrase longer. -/
def Stops (more : Kind → Bool) (rest : List Token) : Prop :=
  ∀ token ∈ rest.head?, more token.kind = false

/-- No other phrase can be meant before the next token. -/
def Forces (phrases : Phrases α) (more : Kind → Bool) (own : List Token) (value : α)
    (token : Token) : Prop :=
  ∀ own' value' rest others, phrases.all own' value' → Stops more rest →
    own' ++ rest = own ++ token :: others → own' = own ∧ value' = value

/-- No phrase can be meant where this token is next. -/
def Refuses (phrases : Phrases α) (more : Kind → Bool) (own : List Token) (token : Token) :
    Prop :=
  ∀ own' value rest others, phrases.all own' value → Stops more rest →
    own' ++ rest ≠ own ++ token :: others

/-- What a reading from a cursor comes to. -/
inductive Decided (phrases : Phrases α) (more : Kind → Bool) (cursor : Cursor) :
    EStateM.Result Fault Reader α → Prop where
  | found {own value reader} (passed : cursor.Passed own reader.cursor)
      (phrase : phrases.within own value)
      (forces : phrases.Forces more own value reader.cursor.peek) :
      Decided phrases more cursor (.ok value reader)
  | refused {own token rest expected reader} (at_ : cursor.pending = own ++ token :: rest)
      (begins : phrases.Begins own) (refuses : phrases.Refuses more own token) :
      Decided phrases more cursor (.error (.ofToken expected token) reader)
  | exhausted {reader}
      (beyond : ∀ own value rest, phrases.within own value → Stops more rest →
        own ++ rest ≠ cursor.pending) :
      Decided phrases more cursor (.error .stackExhausted reader)

namespace Decided

variable {phrases phrases' : Phrases α} {more : Kind → Bool} {cursor : Cursor}
  {result : EStateM.Result Fault Reader α}

theorem of_start (decided : Decided phrases more cursor result) (ready : cursor.Ready)
    (all : ∀ own value, phrases.all own value → phrases'.all own value)
    (within : ∀ own value, phrases.within own value → phrases'.within own value)
    (only : ∀ own value rest after, own ++ rest = cursor.peek :: after → Stops more rest →
      (phrases'.all own value → phrases.all own value) ∧
        (phrases'.within own value → phrases.within own value)) :
    Decided phrases' more cursor result := by
  cases decided with
  | found passed phrase forces =>
    refine .found passed (within _ _ phrase) ?_
    intro own' value' rest others phrase' stops equal
    obtain ⟨pending, at_⟩ := passed.at_
    obtain ⟨after, starts⟩ := ready.starts at_ others
    exact forces own' value' rest others
      ((only own' value' rest after (equal.trans starts) stops).1 phrase') stops equal
  | refused at_ begins refuses =>
    obtain ⟨others, value, phrase⟩ := begins
    refine .refused at_ ⟨others, value, all _ _ phrase⟩ ?_
    intro own' value' rest others phrase' stops equal
    obtain ⟨after, starts⟩ := ready.starts at_ others
    exact refuses own' value' rest others
      ((only own' value' rest after (equal.trans starts) stops).1 phrase') stops equal
  | exhausted beyond =>
    refine .exhausted ?_
    intro own value rest phrase stops equal
    obtain ⟨after, starts⟩ := ready.pending_eq
    exact beyond own value rest
      ((only own value rest after (equal.trans starts) stops).2 phrase) stops equal

theorem mono {more' : Kind → Bool} (decided : Decided phrases more cursor result)
    (wider : ∀ kind, more' kind = false → more kind = false) :
    Decided phrases more' cursor result := by
  have stops_ : ∀ {rest}, Stops more' rest → Stops more rest :=
    fun stops token head => wider _ (stops token head)
  cases decided with
  | found passed phrase forces =>
    exact .found passed phrase fun _ _ _ _ phrase' stops => forces _ _ _ _ phrase' (stops_ stops)
  | refused at_ begins refuses =>
    exact .refused at_ begins fun _ _ _ _ phrase' stops => refuses _ _ _ _ phrase' (stops_ stops)
  | exhausted beyond =>
    exact .exhausted fun _ _ _ phrase stops => beyond _ _ _ phrase (stops_ stops)

theorem congr (decided : Decided phrases more cursor result) (ready : cursor.Ready)
    (all : ∀ own value, phrases.all own value ↔ phrases'.all own value)
    (within : ∀ own value, phrases.within own value ↔ phrases'.within own value) :
    Decided phrases' more cursor result :=
  decided.of_start ready (fun own value => (all own value).mp)
    (fun own value => (within own value).mp)
    fun own value _ _ _ _ => ⟨(all own value).mpr, (within own value).mpr⟩

end Decided

end Phrases

namespace Reading
open Phrases

variable {α β : Type} {phrases : Phrases α} {phrases' : List Token → α → Phrases β}
  {more more' : Kind → Bool} {m : Reading α} {f : α → Reading β}

/-- Whatever could be meant has the first phrase in common with what was found. -/
theorem common_of_forces {cursor : Cursor} {own u v rest own' others others' : List Token}
    {token : Token} {a a' : α} (forces : phrases.Forces more own a cursor.peek)
    (ready : cursor.Ready) (at_ : cursor.pending = own' ++ token :: others')
    (head : phrases.all u a') (stops : Stops more (v ++ rest))
    (equal : u ++ v ++ rest = own ++ own' ++ token :: others) :
    u = own ∧ a' = a ∧ v ++ rest = own' ++ token :: others := by
  rw [List.append_assoc, List.append_assoc] at equal
  obtain ⟨tail, starts⟩ := ready.starts at_ others
  obtain ⟨rfl, rfl⟩ := forces u a' (v ++ rest) tail head stops (by rw [equal, starts])
  exact ⟨rfl, rfl, List.append_cancel_left equal⟩

/-- After a phrase that was found, the next one decides. -/
theorem decided_andThen {cursor cursor' : Cursor} {own : List Token} {a : α}
    {result : EStateM.Result Fault Reader β} (passed : cursor.Passed own cursor')
    (phrase : phrases.within own a) (forces : phrases.Forces more own a cursor'.peek)
    (apart : ∀ u a v b rest, phrases.all u a → (phrases' u a).all v b → Stops more' rest →
      Stops more (v ++ rest))
    (second : Decided (phrases' own a) more' cursor' result) :
    Decided (phrases.andThen phrases') more' cursor result := by
  cases second with
  | @refused own' token rest' expected _ at_ reached refuses =>
    have at_' : cursor.pending = own ++ own' ++ token :: rest' := by
      rw [passed.pending, at_, List.append_assoc]
    refine .refused at_' ?_ ?_
    · obtain ⟨others, b, phrase'⟩ := reached
      exact ⟨others, b, own, own' ++ others, a, List.append_assoc ..,
        phrases.all_of_within phrase, phrase'⟩
    · rintro _ b rest others ⟨u, v, a', rfl, head, tail⟩ stops equal
      obtain ⟨rfl, rfl, equal⟩ := common_of_forces forces passed.ready at_ head
        (apart u a' v b rest head tail stops) equal
      exact refuses v b rest others tail stops equal
  | exhausted beyond =>
    refine .exhausted ?_
    rintro _ b rest ⟨u, v, a', rfl, head, tail⟩ stops equal
    obtain ⟨pending, starts⟩ := passed.ready.pending_eq
    have head' := phrases.all_of_within head
    have tail' := (phrases' u a').all_of_within tail
    rw [passed.pending, starts, ← List.append_nil own] at equal
    obtain ⟨rfl, rfl, equal⟩ := common_of_forces forces passed.ready starts head'
      (apart u a' v b rest head' tail' stops) equal
    exact beyond v b rest tail stops (equal.trans starts.symm)
  | @found own' _ _ passed' phrase' forces' =>
    refine .found (passed.trans passed') ⟨own, own', a, rfl, phrase, phrase'⟩ ?_
    rintro _ b' rest others ⟨u, v, a', rfl, head, tail⟩ stops equal
    obtain ⟨pending, at_⟩ := passed'.at_
    obtain ⟨rfl, rfl, equal⟩ := common_of_forces forces passed.ready at_ head
      (apart u a' v b' rest head tail stops) equal
    obtain ⟨rfl, rfl⟩ := forces' v b' rest others tail stops equal
    exact ⟨rfl, rfl⟩

theorem decided_bind {reader : Reader} (first : Decided phrases more reader.cursor (m reader))
    (next : ∀ own a after, reader.cursor.Passed own after.cursor → phrases.within own a →
      Decided (phrases' own a) more' after.cursor (f a after))
    (apart : ∀ u a v b rest, phrases.all u a → (phrases' u a).all v b → Stops more' rest →
      Stops more (v ++ rest)) :
    Decided (phrases.andThen phrases') more' reader.cursor ((m >>= f) reader) := by
  cases result : m reader with
  | error fault after =>
    rw [bind_error result]
    rw [result] at first
    cases first with
    | refused at_ reached refuses =>
      refine .refused at_ ?_ ?_
      · obtain ⟨others, a, phrase⟩ := reached
        obtain ⟨v, b, phrase'⟩ := (phrases' _ a).inhabited
        exact ⟨others ++ v, b, _, v, a, (List.append_assoc ..).symm, phrase, phrase'⟩
      · rintro _ b rest others ⟨u, v, a, rfl, phrase, phrase'⟩ stops equal
        rw [List.append_assoc] at equal
        exact refuses u a _ others phrase (apart u a v b rest phrase phrase' stops) equal
    | exhausted beyond =>
      refine .exhausted ?_
      rintro _ b rest ⟨u, v, a, rfl, phrase, phrase'⟩ stops equal
      rw [List.append_assoc] at equal
      exact beyond u a _ phrase (apart u a v b rest (phrases.all_of_within phrase)
        ((phrases' u a).all_of_within phrase') stops) equal
  | ok a after =>
    rw [bind_ok result]
    rw [result] at first
    cases first with
    | found passed phrase forces =>
      exact decided_andThen passed phrase forces apart (next _ a after passed phrase)

theorem decided_done {reader after : Reader} {a : α} (ready : reader.cursor.Ready)
    (result : m reader = .ok a after) (same : after.cursor = reader.cursor) :
    Decided (done a) more reader.cursor (m reader) := by
  have nothing : reader.cursor.Passed [] after.cursor := by
    rw [same]
    exact .refl ready
  rw [result]
  refine .found nothing ⟨rfl, rfl⟩ ?_
  rintro _ _ rest others ⟨rfl, rfl⟩ - -
  exact ⟨rfl, rfl⟩

theorem decided_map {reader : Reader} {g : List Token → α → β}
    (ready : reader.cursor.Ready) (decided : Decided phrases more reader.cursor (m reader))
    (ends : ∀ own a after, reader.cursor.Passed own after.cursor → phrases.within own a →
      ∃ after' : Reader, f a after = .ok (g own a) after' ∧ after'.cursor = after.cursor) :
    Decided (phrases.map g) more reader.cursor ((m >>= f) reader) := by
  have ended : Decided (phrases.andThen fun own a => done (g own a)) more reader.cursor
      ((m >>= f) reader) := by
    refine decided_bind decided ?_ ?_
    · intro own a after passed phrase
      obtain ⟨after', result, same⟩ := ends own a after passed phrase
      exact decided_done passed.ready result same
    · rintro _ _ _ _ rest _ ⟨rfl, rfl⟩ stops
      exact stops
  refine ended.congr ready ?_ ?_
  all_goals
    intro own b
    constructor
    · rintro ⟨u, _, a, rfl, phrase, rfl, rfl⟩
      exact ⟨a, by rwa [List.append_nil], by rw [List.append_nil]⟩
    · rintro ⟨a, phrase, rfl⟩
      exact ⟨own, [], a, (List.append_nil own).symm, phrase, rfl, rfl⟩

theorem peek_bind (next : Token → Reading α) (reader : Reader) :
    (peek >>= next) reader = next reader.cursor.peek reader := rfl

theorem current_bind {reader : Reader} {token : Token} (last : reader.cursor.lastReal? = some token)
    (next : Token → Reading α) : (current >>= next) reader = next token reader := by
  apply bind_ok
  rw [current, get_bind, last]
  rfl

theorem spanFrom_bind {reader after : Reader} {own : List Token} (ready : reader.cursor.Ready)
    (passed : reader.cursor.Passed own after.cursor) (some_ : own ≠ [])
    (next : Option Span → Reading α) :
    (spanFrom reader.cursor.peek.start >>= next) after = next (Span.covering own) after := by
  have head := passed.head ready some_
  have last := passed.last
  rw [List.getLast?_eq_some_getLast some_, Option.some_or] at last
  have span : spanFrom reader.cursor.peek.start after =
      .ok (some ⟨reader.cursor.peek.start, (own.getLast some_).stop⟩) after := by
    unfold spanFrom
    rw [current_bind last]
    rfl
  rw [bind_ok span, Span.covering, head, List.getLast?_eq_some_getLast some_]

theorem cursor_note (reader : Reader) (channel : Channel) (message : String) :
    (reader.note channel message).cursor = reader.cursor := by
  unfold Reader.note
  split <;> rfl

theorem tracing_note (reader : Reader) (channel : Channel) (message : String) :
    (reader.note channel message).tracing = reader.tracing := by
  unfold Reader.note
  split <;> rfl

theorem note_bind (message : String) (next : Unit → Reading α) (reader : Reader) :
    ∃ after : Reader, after.cursor = reader.cursor ∧
      (note message >>= next) reader = next () after :=
  ⟨reader.note .reader message, cursor_note .., rfl⟩

theorem repeatWhile_of_off {goesOn : Kind → Bool} (step : Reading α) (bound : Nat)
    {reader : Reader} (off : goesOn reader.cursor.peek.kind = false) :
    repeatWhile goesOn step bound reader = .ok [] reader := by
  cases bound with
  | zero => rfl
  | succ bound =>
    rw [repeatWhile, peek_bind, off]
    rfl

def passing (reader : Reader) : Reader :=
  ({ reader with cursor := reader.cursor.advanceReal } : Reader).note .scanner
    (passMessage reader.cursor.advanceReal)

@[simp] theorem cursor_passing (reader : Reader) :
    (passing reader).cursor = reader.cursor.advanceReal :=
  cursor_note ..

@[simp] theorem tracing_passing (reader : Reader) : (passing reader).tracing = reader.tracing :=
  tracing_note ..

theorem take_eq (expected : Option String) {reader : Reader} (ready : reader.cursor.Ready)
    (valid : reader.cursor.peek.isValid = true) :
    take expected reader = .ok reader.cursor.peek (passing reader) := by
  have last : reader.cursor.advanceReal.lastReal? = some reader.cursor.peek :=
    (ready.passed_advanceReal valid).last
  have advanced : advance expected reader = .ok (some reader.cursor.peek) (passing reader) := by
    rw [advance, peek_bind, if_pos valid, ← last]
    rfl
  rw [take, bind_ok advanced]
  rfl

theorem take_of_valid (expected : Option String) {reader : Reader} (ready : reader.cursor.Ready)
    (valid : reader.cursor.peek.isValid = true) :
    ∃ after : Reader, take expected reader = .ok reader.cursor.peek after ∧
      reader.cursor.Passed [reader.cursor.peek] after.cursor := by
  refine ⟨passing reader, take_eq expected ready valid, ?_⟩
  rw [cursor_passing]
  exact ready.passed_advanceReal valid

theorem exhaust_eq (expected : Option String) (reader : Reader) :
    (exhaust expected : Reading α) reader =
      if reader.cursor.peek.isValid then .error .stackExhausted reader.giveUp
      else .error (.ofToken expected reader.cursor.peek) reader := by
  rw [exhaust, peek_bind]
  split <;> rfl

theorem take_of_invalid (expected : Option String) {reader : Reader}
    (invalid : reader.cursor.peek.isValid = false) :
    take expected reader = .error (.ofToken expected reader.cursor.peek) reader := by
  have stopped : advance expected reader =
      .error (.ofToken expected reader.cursor.peek) reader := by
    rw [advance, peek_bind, if_neg (by simp [invalid])]
    rfl
  exact bind_error stopped

theorem decided_follow {cursor cursor' : Cursor} {token : Token} {rest : Phrases α}
    {result : EStateM.Result Fault Reader α} (passed : cursor.Passed [token] cursor')
    (firsts : ∀ own value, phrases.all own value → ∃ first rest, own = first :: rest)
    (follow : rest.Follow token phrases) (decided : Decided rest more cursor' result) :
    Decided phrases more cursor result := by
  -- Every phrase that can be meant begins with the token that was taken.
  have common : ∀ {own value left tail}, phrases.all own value → own ++ left = token :: tail →
      ∃ v, own = token :: v ∧ v ++ left = tail := by
    intro own value left tail phrase equal
    obtain ⟨first, v, rfl⟩ := firsts _ _ phrase
    obtain ⟨rfl, equal'⟩ := List.cons.inj equal
    exact ⟨v, rfl, equal'⟩
  cases decided with
  | @found own _ _ passed' phrase forces =>
    refine .found (passed.trans passed') ((follow.within _ _).mp phrase) ?_
    intro own' value' left others phrase' stops equal
    obtain ⟨v, rfl, equal'⟩ := common phrase' equal
    obtain ⟨rfl, rfl⟩ := forces v value' left others ((follow.all _ _).mpr phrase') stops equal'
    exact ⟨rfl, rfl⟩
  | @refused own token' rest' _ _ at_ reached refuses =>
    have at_' : cursor.pending = token :: own ++ token' :: rest' := by
      rw [passed.pending, at_]
      rfl
    obtain ⟨others, value, phrase⟩ := reached
    refine .refused at_' ⟨others, value, (follow.all _ _).mp phrase⟩ ?_
    intro own' value' left others phrase' stops equal
    obtain ⟨v, rfl, equal'⟩ := common phrase' equal
    exact refuses v value' left others ((follow.all _ _).mpr phrase') stops equal'
  | exhausted beyond =>
    refine .exhausted ?_
    intro own' value' left phrase' stops equal
    rw [passed.pending] at equal
    obtain ⟨v, rfl, equal'⟩ := common (phrases.all_of_within phrase') equal
    exact beyond v value' left ((follow.within _ _).mpr phrase') stops equal'

/-- A phrase is read by taking its first token and going on with what can follow it. -/
theorem decided_take (accepts : Kind → Bool) {next : Token → Reading α} {reader : Reader}
    (expected : Option String) (ready : reader.cursor.Ready)
    (valid : ∀ kind, accepts kind = true → kind.isValid = true)
    (firsts : ∀ own value, phrases.all own value → ∃ first rest, own = first :: rest ∧
      accepts first.kind = true)
    (rejects : ∀ after, accepts reader.cursor.peek.kind = false →
      next reader.cursor.peek after = .error (.ofToken expected reader.cursor.peek) after)
    (goesOn : ∀ after : Reader, accepts reader.cursor.peek.kind = true →
      reader.cursor.Passed [reader.cursor.peek] after.cursor →
      ∃ rest : Phrases α, rest.Follow reader.cursor.peek phrases ∧
        Decided rest more after.cursor (next reader.cursor.peek after)) :
    Decided phrases more reader.cursor ((take expected >>= next) reader) := by
  cases accepted : accepts reader.cursor.peek.kind with
  | true =>
    obtain ⟨after, taken, passed⟩ := take_of_valid expected ready (valid _ accepted)
    obtain ⟨rest, follow, decided⟩ := goesOn after accepted passed
    rw [bind_ok taken]
    refine decided_follow passed (fun own value phrase => ?_) follow decided
    obtain ⟨first, others, equal, -⟩ := firsts own value phrase
    exact ⟨first, others, equal⟩
  | false =>
    have stopped : ∃ after, (take expected >>= next) reader =
        .error (.ofToken expected reader.cursor.peek) after := by
      cases valid : reader.cursor.peek.isValid with
      | true =>
        obtain ⟨after, taken, -⟩ := take_of_valid expected ready valid
        exact ⟨after, by rw [bind_ok taken, rejects after accepted]⟩
      | false => exact ⟨reader, bind_error (take_of_invalid expected valid)⟩
    obtain ⟨after, stopped⟩ := stopped
    obtain ⟨pending, starts⟩ := ready.pending_eq
    have starts' : reader.cursor.pending = [] ++ reader.cursor.peek :: pending := starts
    rw [stopped]
    refine .refused starts' phrases.inhabited ?_
    intro own' value' left others phrase' _ equal
    obtain ⟨first, v, rfl, accepted'⟩ := firsts _ _ phrase'
    obtain ⟨rfl, -⟩ := List.cons.inj equal
    rw [accepted] at accepted'
    cases accepted'

theorem decided_exhaust (accepts : Kind → Bool) {reader : Reader} (expected : Option String)
    (ready : reader.cursor.Ready) (valid : ∀ kind, accepts kind = true → kind.isValid = true)
    (firsts : ∀ own value, phrases.all own value → ∃ first rest, own = first :: rest ∧
      accepts first.kind = true)
    (beyond : ∀ own value, ¬ phrases.within own value) :
    Decided phrases more reader.cursor (exhaust expected reader) := by
  unfold exhaust
  rw [peek_bind]
  split
  · exact .exhausted fun own value _ phrase _ => absurd phrase (beyond own value)
  · rename_i invalid
    obtain ⟨pending, starts⟩ := ready.pending_eq
    have starts' : reader.cursor.pending = [] ++ reader.cursor.peek :: pending := starts
    refine .refused starts' phrases.inhabited ?_
    rintro own value rest others phrase - equal
    obtain ⟨first, later, rfl, accepted⟩ := firsts own value phrase
    obtain ⟨rfl, -⟩ := List.cons.inj equal
    exact invalid (valid _ accepted)

theorem isValid_of_beq {kind : Kind} (valid : kind.isValid = true) (other : Kind)
    (same : (other == kind) = true) : other.isValid = true := by
  rwa [eq_of_beq same]

theorem word_begins {kind : Kind} {next : List Token → Token → Phrases α} (own : List Token)
    (value : α) (phrase : ((word kind).andThen next).all own value) :
    ∃ first rest, own = first :: rest ∧ (first.kind == kind) = true := by
  obtain ⟨_, rest, first, rfl, ⟨rfl, is⟩, -⟩ := phrase
  exact ⟨first, rest, rfl, beq_iff_eq.mpr is⟩

theorem decided_expect {kind : Kind} (valid : kind.isValid = true) {reader : Reader}
    (ready : reader.cursor.Ready) :
    Decided (word kind) (fun _ => false) reader.cursor (expect kind reader) := by
  refine decided_take (· == kind) (some kind.expected) ready (isValid_of_beq valid) ?_ ?_ ?_
  · rintro _ token ⟨rfl, rfl⟩
    exact ⟨token, [], rfl, beq_self_eq_true _⟩
  · intro after other
    rw [if_neg (by simpa using other)]
    rfl
  · intro after same passed
    rw [if_pos (eq_of_beq same)]
    refine ⟨done reader.cursor.peek, ⟨?_, ?_⟩, decided_done passed.ready rfl rfl⟩
    all_goals
      intro own value
      constructor
      · rintro ⟨rfl, rfl⟩
        exact ⟨rfl, eq_of_beq same⟩
      · rintro ⟨equal, -⟩
        obtain ⟨rfl, rfl⟩ := List.cons.inj equal
        exact ⟨rfl, rfl⟩

theorem decided_expect_bind {kind : Kind} {f : Token → Reading β}
    {phrases : List Token → Token → Phrases β} {reader : Reader} (valid : kind.isValid = true)
    (ready : reader.cursor.Ready)
    (next : ∀ own token after, reader.cursor.Passed own after.cursor →
      (word kind).within own token →
      Decided (phrases own token) more after.cursor (f token after)) :
    Decided ((word kind).andThen phrases) more reader.cursor ((expect kind >>= f) reader) := by
  refine decided_bind (decided_expect valid ready) next ?_
  intro _ _ _ _ _ _ _ _ _ _
  rfl

theorem ne_nil_of_goesOn {goesOn : Kind → Bool} {own rest after : List Token} {token : Token}
    (on : goesOn token.kind = true) (starts : own ++ rest = token :: after)
    (stops : Stops (fun kind => more kind || goesOn kind) rest) : own ≠ [] := by
  rintro rfl
  rw [List.nil_append] at starts
  have off := (Bool.or_eq_false_iff.mp (stops token (by rw [starts]; rfl))).2
  rw [on] at off
  cases off

theorem decided_orNone (goesOn : Kind → Bool) {value : α} {reader : Reader}
    (ready : reader.cursor.Ready)
    (firsts : ∀ own value, phrases.all own value → ∃ first rest, own = first :: rest ∧
      goesOn first.kind = true)
    (some_ : goesOn reader.cursor.peek.kind = true → Decided phrases more reader.cursor (m reader))
    (none_ : goesOn reader.cursor.peek.kind = false →
      ∃ after : Reader, m reader = .ok value after ∧ after.cursor = reader.cursor) :
    Decided (orNone value phrases) (fun kind => more kind || goesOn kind) reader.cursor
      (m reader) := by
  cases on : goesOn reader.cursor.peek.kind with
  | true =>
    have decided :
        Decided phrases (fun kind => more kind || goesOn kind) reader.cursor (m reader) :=
      (some_ on).mono fun _ off => (Bool.or_eq_false_iff.mp off).1
    refine decided.of_start ready (fun _ _ => .inr) (fun _ _ => .inr) ?_
    intro own value' rest after starts stops
    have some_ := ne_nil_of_goesOn on starts stops
    exact ⟨fun phrase => phrase.resolve_left (some_ ·.1),
      fun phrase => phrase.resolve_left (some_ ·.1)⟩
  | false =>
    obtain ⟨after, result, same⟩ := none_ on
    refine (decided_done ready result same).of_start ready (fun _ _ => .inl) (fun _ _ => .inl) ?_
    intro own value' rest after' starts _
    have none_ : ¬ phrases.all own value' := by
      intro phrase
      obtain ⟨first, others, rfl, on'⟩ := firsts _ _ phrase
      obtain ⟨rfl, -⟩ := List.cons.inj starts
      rw [on] at on'
      cases on'
    exact ⟨fun phrase => phrase.resolve_right none_,
      fun phrase => phrase.resolve_right (none_ ∘ phrases.all_of_within)⟩

section Repeating

variable {one : Phrases α} {goesOn : Kind → Bool} {step : Reading α}

theorem chained_begins (goesOn : Kind → Bool) {one : List Token → α → Prop}
    (begins : ∀ own value, one own value → ∃ first rest, own = first :: rest ∧
      goesOn first.kind = true) {own : List Token} {values : List α}
    (chain : Chained one own values) :
    own = [] ∧ values = [] ∨ ∃ first rest, own = first :: rest ∧ goesOn first.kind = true := by
  cases chain with
  | nil => exact .inl ⟨rfl, rfl⟩
  | @cons u v value _ head _ =>
    obtain ⟨first, rest, rfl, on⟩ := begins u value head
    exact .inr ⟨first, rest ++ v, rfl, on⟩

theorem decided_noMore {reader : Reader} (ready : reader.cursor.Ready)
    (begins : ∀ own value, one.all own value → ∃ first rest, own = first :: rest ∧
      goesOn first.kind = true)
    (off : goesOn reader.cursor.peek.kind = false) :
    Decided (chained one) more reader.cursor (.ok [] reader) := by
  have ended : Decided (done ([] : List α)) more reader.cursor (.ok [] reader) :=
    decided_done (m := pure []) ready rfl rfl
  refine ended.of_start ready ?_ ?_ ?_
  · rintro _ _ ⟨rfl, rfl⟩
    exact .nil
  · rintro _ _ ⟨rfl, rfl⟩
    exact .nil
  · intro own values rest after starts _
    have only : (chained one).all own values → own = [] ∧ values = [] := by
      intro chain
      rcases chained_begins goesOn begins chain with ended | ⟨first, others, rfl, on⟩
      · exact ended
      · obtain ⟨rfl, -⟩ := List.cons.inj starts
        rw [off] at on
        cases on
    exact ⟨only, fun chain => only ((chained one).all_of_within chain)⟩

theorem decided_chained {cursor : Cursor} {result : EStateM.Result Fault Reader (List α)}
    (ready : cursor.Ready) (on : goesOn cursor.peek.kind = true)
    (decided : Decided (one.andThen fun _ a => (chained one).map fun _ as => a :: as)
      (fun kind => more kind || goesOn kind) cursor result) :
    Decided (chained one) (fun kind => more kind || goesOn kind) cursor result := by
  refine decided.of_start ready ?_ ?_ ?_
  · rintro _ _ ⟨u, v, a, rfl, first, as, rest, rfl⟩
    exact .cons first rest
  · rintro _ _ ⟨u, v, a, rfl, first, as, rest, rfl⟩
    exact .cons first rest
  · intro own values rest after starts stops
    have some_ := ne_nil_of_goesOn on starts stops
    constructor <;> intro chain <;> cases chain with
    | nil => exact absurd rfl some_
    | cons first rest => exact ⟨_, _, _, rfl, first, _, rest, rfl⟩

/-- A step for every phrase that the next token begins, repeated while it begins one. -/
theorem decided_repeatWhile (valid : ∀ kind, goesOn kind = true → kind.isValid = true)
    (apart : ∀ kind, goesOn kind = true → more kind = false)
    (begins : ∀ own value, one.all own value → ∃ first rest, own = first :: rest ∧
      goesOn first.kind = true)
    (each : ∀ reader : Reader, reader.cursor.Ready → goesOn reader.cursor.peek.kind = true →
      Decided one more reader.cursor (step reader))
    (bound : Nat) (reader : Reader) (ready : reader.cursor.Ready)
    (enough : reader.cursor.ahead.length ≤ bound) :
    Decided (chained one) (fun kind => more kind || goesOn kind) reader.cursor
      (repeatWhile goesOn step bound reader) := by
  induction bound generalizing reader with
  | zero =>
    have none_ : reader.cursor.ahead = [] := List.eq_nil_of_length_eq_zero (Nat.le_zero.mp enough)
    have invalid : reader.cursor.peek.isValid = false := Cursor.ahead_eq_nil_iff.mp none_
    refine decided_noMore ready begins ?_
    cases on : goesOn reader.cursor.peek.kind with
    | false => rfl
    | true => exact absurd (valid _ on) (Bool.eq_false_iff.mp invalid)
  | succ bound ih =>
    unfold repeatWhile
    rw [peek_bind]
    split
    · rename_i on
      refine decided_chained ready on (decided_bind (each reader ready on) ?_ ?_)
      · intro own a after passed phrase
        have some_ : own ≠ [] := by
          obtain ⟨first, rest, rfl, -⟩ := begins own a (one.all_of_within phrase)
          exact List.cons_ne_nil _ _
        have shorter := passed.shorter some_
        have enough' : after.cursor.ahead.length ≤ bound := by omega
        exact decided_map passed.ready (ih after passed.ready enough')
          fun _ as after' _ _ => ⟨after', rfl, rfl⟩
      · rintro _ _ _ _ rest _ ⟨as, chain, rfl⟩ stops
        rcases chained_begins goesOn begins chain with ⟨rfl, rfl⟩ | ⟨first, others, rfl, on⟩
        · intro token head
          exact (Bool.or_eq_false_iff.mp (stops token head)).1
        · rintro token ⟨⟩
          exact apart _ on
    · rename_i off
      exact decided_noMore ready begins (Bool.eq_false_iff.mpr off)

theorem decided_many (valid : ∀ kind, goesOn kind = true → kind.isValid = true)
    (apart : ∀ kind, goesOn kind = true → more kind = false)
    (begins : ∀ own value, one.all own value → ∃ first rest, own = first :: rest ∧
      goesOn first.kind = true)
    (each : ∀ reader : Reader, reader.cursor.Ready → goesOn reader.cursor.peek.kind = true →
      Decided one more reader.cursor (step reader))
    {reader : Reader} (ready : reader.cursor.Ready) :
    Decided (chained one) (fun kind => more kind || goesOn kind) reader.cursor
      (many goesOn step reader) :=
  decided_repeatWhile valid apart begins each _ reader ready reader.cursor.length_ahead_lt.le

end Repeating

end Reading

end LoopLang
