import LoopLang.Proofs.Flattening
import LoopLang.Proofs.Statements

/-!
# Reading a program

The reader decides the programs of the grammar among the tokens of a source, with whatever
depth it is given. Only a statement can run out of depth, and that alone is reported in
another way, at the token that the reader then stands before.
-/
namespace LoopLang

namespace Reading
open Phrases

/-- Reading that does not run out of depth of itself. -/
def Shallow {α : Type} (m : Reading α) : Prop :=
  ∀ reader fault after, m reader = .error fault after → fault ≠ .stackExhausted

section Shallow

variable {α β : Type} {m : Reading α} {f : α → Reading β}

theorem shallow_bind (first : Shallow m) (next : ∀ a, Shallow (f a)) : Shallow (m >>= f) := by
  intro reader fault after failed
  cases result : m reader with
  | ok a reader' =>
    rw [bind_ok result] at failed
    exact next a reader' fault after failed
  | error fault' reader' =>
    rw [bind_error result] at failed
    cases failed
    exact first reader fault after result

theorem shallow_of_ok (succeeds : ∀ reader, ∃ a after, m reader = .ok a after) : Shallow m := by
  intro reader fault after failed
  obtain ⟨a, after', result⟩ := succeeds reader
  rw [result] at failed
  cases failed

theorem shallow_pure (a : α) : Shallow (pure a : Reading α) :=
  shallow_of_ok fun reader => ⟨a, reader, rfl⟩

theorem shallow_get : Shallow (get : Reading Reader) :=
  shallow_of_ok fun reader => ⟨reader, reader, rfl⟩

theorem shallow_peek : Shallow peek :=
  shallow_of_ok fun reader => ⟨reader.cursor.peek, reader, rfl⟩

theorem shallow_pass : Shallow pass :=
  shallow_of_ok fun _ => ⟨_, _, rfl⟩

theorem shallow_throw {fault : Fault} (other : fault ≠ .stackExhausted) :
    Shallow (throw fault : Reading α) := by
  rintro reader _ after ⟨⟩
  exact other

theorem shallow_current : Shallow current := by
  refine shallow_bind shallow_get fun reader => ?_
  split
  · exact shallow_pure _
  · exact shallow_throw nofun

theorem shallow_expect (kind : Kind) : Shallow (expect kind) := by
  refine shallow_bind (shallow_bind (shallow_bind shallow_peek fun token => ?_)
    fun token? => ?_) fun token => ?_
  · split
    · exact shallow_pass
    · exact shallow_throw (Fault.ofToken_ne_stackExhausted _ _)
  · split
    · exact shallow_pure _
    · exact shallow_throw nofun
  · split
    · exact shallow_pure _
    · exact shallow_throw (Fault.ofToken_ne_stackExhausted _ _)

theorem reportDepth_ok {reader after : Reader} {a : α} (result : m reader = .ok a after) :
    reportDepth m reader = .ok a after := by
  rw [reportDepth, result]

theorem reportDepth_error {reader after : Reader} {fault : Fault}
    (result : m reader = .error fault after) (other : fault ≠ .stackExhausted) :
    reportDepth m reader = .error fault after := by
  rw [reportDepth, result]
  cases fault <;> first | rfl | exact absurd rfl other

theorem reportDepth_exhausted {reader after : Reader}
    (result : m reader = .error .stackExhausted after) :
    reportDepth m reader = .error (.textTooDeep after.cursor.peek.start) after := by
  rw [reportDepth, result]

theorem reportDepth_bind (next : ∀ a, Shallow (f a)) :
    (reportDepth m >>= f) = reportDepth (m >>= f) := by
  funext reader
  cases result : m reader with
  | ok a after =>
    have whole : (m >>= f) reader = f a after := bind_ok result
    rw [bind_ok (reportDepth_ok result)]
    cases rest : f a after with
    | ok => exact (reportDepth_ok (whole.trans rest)).symm
    | error fault after' =>
      exact (reportDepth_error (whole.trans rest) (next a after fault after' rest)).symm
  | error fault after =>
    have whole : (m >>= f) reader = .error fault after := bind_error result
    by_cases exhausted : fault = .stackExhausted
    · subst exhausted
      rw [bind_error (reportDepth_exhausted result), reportDepth_exhausted whole]
    · rw [bind_error (reportDepth_error result exhausted), reportDepth_error whole exhausted]

end Shallow

/-- Yields a program after a note about what follows its point, if anything does. -/
def ending (program : Node) : Reading Node := do
  if !(← get).cursor.isDone then
    note ("Ignoring input after the end of program at " ++ (← peek).start.describe)
  return program

/-- What is left of a program after its statements. -/
def finish (start : Location) (body : Node) : Reading Node := do
  let _ ← expect .point
  let span ← spanFrom start
  ending (.program body span)

/-- A program before it is told how running out of depth is reported. -/
def wholeWithin (depth : Nat) : Reading Node := do
  let start := (← peek).start
  let body ← statements depth
  finish start body

theorem ending_ok (node : Node) (reader : Reader) :
    ∃ after : Reader, ending node reader = .ok node after ∧ after.cursor = reader.cursor := by
  cases done : reader.cursor.isDone with
  | true =>
    refine ⟨reader, ?_, rfl⟩
    change (if !reader.cursor.isDone then _ else _ : Reading Node) reader = _
    rw [done]
    rfl
  | false =>
    let message := "Ignoring input after the end of program at " ++
      reader.cursor.peek.start.describe
    obtain ⟨after, same, noted⟩ := note_bind message (fun _ => pure node) reader
    have result : ending node reader = (note message >>= fun _ => pure node) reader := by
      change (if !reader.cursor.isDone then _ else _ : Reading Node) reader = _
      rw [done]
      rfl
    exact ⟨after, by rw [result, noted]; rfl, same⟩

theorem programWithin_eq (depth : Nat) (reader : Reader) : programWithin depth reader =
    reportDepth (wholeWithin depth) { reader with cursor := reader.cursor.skipWhitespace } := by
  have shallow : ∀ start body, Shallow (finish start body) := by
    intro start body
    refine shallow_bind (shallow_expect _) fun _ => ?_
    refine shallow_bind (shallow_bind shallow_current fun _ => shallow_pure _) fun _ => ?_
    refine shallow_of_ok fun reader => ?_
    obtain ⟨after, result, -⟩ := ending_ok _ reader
    exact ⟨_, after, result⟩
  have parts : programWithin depth = skipWhitespace >>= fun _ => peek >>= fun token =>
      reportDepth (statements depth) >>= finish token.start := rfl
  rw [parts, bind_ok (rfl : skipWhitespace reader = .ok () _), peek_bind,
    reportDepth_bind (shallow _)]
  rfl

theorem program_within (limits : Limits) (reader : Reader) :
    program limits reader = programWithin (limits.depth reader.tracing) reader := rfl

variable {ρ : Type} {inside : ρ → ρ → Prop} {room : ρ} {own : List Token} {node : Node}

theorem program_parts : (∃ u v body, own = u ++ v ∧ Derives inside room .statements u body ∧
      ∃ point, (v = [point] ∧ point.kind = .point) ∧
        node = .program body (Span.covering (u ++ v))) ↔
    Derives inside room .program own node := by
  constructor
  · rintro ⟨u, _, body, rfl, derived, point, ⟨rfl, isPoint⟩, rfl⟩
    exact .program derived isPoint
  · intro derived
    cases derived with
    | program derived isPoint => exact ⟨_, _, _, rfl, derived, _, ⟨rfl, isPoint⟩, rfl⟩

theorem decides_programWithin (depth : Nat) : Decides .program depth (wholeWithin depth) := by
  intro reader ready
  have decided : Decided ((of .statements depth).andThen fun u body =>
      (word .point).map fun v _ => .program body (Span.covering (u ++ v)))
      Category.program.more reader.cursor (wholeWithin depth reader) := by
    unfold wholeWithin
    rw [peek_bind]
    refine decided_bind (decides_statements depth reader ready) ?_ ?_
    · intro u body after passed derived
      refine decided_map passed.ready (decided_expect rfl passed.ready) ?_
      intro v _ after' passed' isPoint
      have some_ : u ++ v ≠ [] := by
        obtain ⟨rfl, -⟩ := isPoint
        simp
      rw [spanFrom_bind ready (passed.trans passed') some_]
      exact ending_ok _ after'
    · rintro u body v _ rest _ ⟨_, isPoint, rfl⟩ -
      exact stops_of_word isPoint rfl rest
  exact decided.congr ready (fun _ _ => program_parts) fun _ _ => program_parts

end Reading

namespace Source

/-- The tokens that are not whitespace, up to the one that stops the scan. -/
def words (source : Source) : List Token :=
  source.tokens.1.filter (!·.isWhitespace)

theorem proper_of_words {source : Source} {token : Token} (member : token ∈ source.words) :
    token.Proper :=
  (source.tokens_valid.1 token (List.mem_filter.mp member).1).2

theorem ready_skipWhitespace (source : Source) :
    (Cursor.ofSource source).skipWhitespace.Ready :=
  Cursor.ready_skipWhitespace _

theorem pending_skipWhitespace (source : Source) :
    (Cursor.ofSource source).skipWhitespace.pending = source.words ++ [source.tokens.2] := by
  rw [Cursor.pending_skipWhitespace, Cursor.pending, Cursor.ahead_ofSource, Cursor.stop_ofSource]
  rfl

end Source

namespace Reading
open Phrases

variable {tracing : Bool} {source : Source}

/-- What reading a program of a source comes to. -/
inductive Outcome (depth : Nat) (source : Source) : EStateM.Result Fault Reader Node → Prop where
  | found {own node reader} (begins : own <+: source.words)
      (derived : Derives counted depth .program own node)
      (only : ∀ own' node', own' <+: source.words → Derives unlimited () .program own' node' →
        own' = own ∧ node' = node) :
      Outcome depth source (.ok node reader)
  | refused {own token rest expected reader}
      (at_ : source.words ++ [source.tokens.2] = own ++ token :: rest)
      (begins : (Phrases.of .program depth).Begins own)
      (refuses : ∀ own' node rest' others, Derives unlimited () .program own' node →
        own' ++ rest' ≠ own ++ token :: others) :
      Outcome depth source (.error (.ofToken expected token) reader)
  | tooDeep {reader} (beyond : ∀ own node, own <+: source.words →
        ¬ Derives counted depth .program own node) :
      Outcome depth source (.error (.textTooDeep reader.cursor.peek.start) reader)

theorem stops_program (rest : List Token) : Stops Category.program.more rest :=
  fun _ _ => rfl

theorem outcome_within (depth : Nat) (tracing : Bool) (source : Source) :
    Outcome depth source (programWithin depth (.ofSource tracing source)) := by
  let start : Reader :=
    { Reader.ofSource tracing source with cursor := (Cursor.ofSource source).skipWhitespace }
  have ready : start.cursor.Ready := source.ready_skipWhitespace
  have pending : start.cursor.pending = source.words ++ [source.tokens.2] :=
    source.pending_skipWhitespace
  have decided := decides_programWithin depth start ready
  have run : programWithin depth (.ofSource tracing source) =
      reportDepth (wholeWithin depth) start := programWithin_eq depth _
  rw [run]
  cases result : wholeWithin depth start with
  | ok node reader =>
    rw [reportDepth_ok result]
    rw [result] at decided
    cases decided with
    | @found own _ _ passed derived forces =>
      have whole := passed.pending
      rw [pending, Cursor.pending, ← List.append_assoc] at whole
      refine .found ⟨_, (List.append_inj' whole rfl).1.symm⟩ derived ?_
      rintro own' node' ⟨left, prefix_⟩ derived'
      obtain ⟨others, at_⟩ := passed.at_
      refine forces own' node' (left ++ [source.tokens.2]) others derived' (stops_program _) ?_
      rw [← at_, pending, ← List.append_assoc, prefix_]
  | error fault reader =>
    rw [result] at decided
    cases decided with
    | refused at_ begins refuses =>
      rw [pending] at at_
      rw [reportDepth_error result (Fault.ofToken_ne_stackExhausted _ _)]
      refine .refused at_ begins fun own' node rest others derived => ?_
      exact refuses own' node rest others derived (stops_program _)
    | exhausted beyond =>
      rw [reportDepth_exhausted result]
      refine .tooDeep ?_
      rintro own node ⟨left, prefix_⟩ derived
      refine beyond own node (left ++ [source.tokens.2]) derived (stops_program _) ?_
      rw [pending, ← List.append_assoc, prefix_]

theorem outcome (limits : Limits) (tracing : Bool) (source : Source) :
    Outcome (limits.depth tracing) source (program limits (.ofSource tracing source)) :=
  outcome_within (limits.depth tracing) tracing source

/-- A program that was read has a derivation from the first words, and these are proper. -/
theorem derives_of_program {limits : Limits} {tracing : Bool} {source : Source} {node : Node}
    {reader : Reader} (parsed : program limits (.ofSource tracing source) = .ok node reader) :
    ∃ own, own <+: source.words ∧ (∀ token ∈ own, token.Proper) ∧
      Derives counted (limits.depth tracing) .program own node := by
  have outcome := outcome limits tracing source
  rw [parsed] at outcome
  cases outcome with
  | @found own _ _ begins derived =>
    exact ⟨own, begins, fun token member => Source.proper_of_words (begins.subset member), derived⟩

theorem programWithin_of_derives (tracing : Bool) {depth : Nat} {own : List Token} {node : Node}
    (begins : own <+: source.words) (derived : Derives counted depth .program own node) :
    ∃ reader, programWithin depth (.ofSource tracing source) = .ok node reader := by
  have outcome := outcome_within depth tracing source
  generalize programWithin depth (.ofSource tracing source) = result at outcome
  obtain ⟨left, prefix_⟩ := begins
  cases outcome with
  | found _ _ only =>
    obtain ⟨-, rfl⟩ := only own node ⟨left, prefix_⟩ derived.free
    exact ⟨_, rfl⟩
  | refused at_ _ refuses =>
    have whole : own ++ (left ++ [source.tokens.2]) = source.words ++ [source.tokens.2] := by
      rw [← List.append_assoc, prefix_]
    exact absurd (whole.trans at_) (refuses own node _ _ derived.free)
  | tooDeep beyond => exact absurd derived (beyond own node ⟨left, prefix_⟩)

/-- A source whose first words are a program that does not nest too deep is read as that
program. -/
theorem program_of_derives {limits : Limits} (tracing : Bool) {own : List Token} {node : Node}
    (begins : own <+: source.words)
    (derived : Derives counted (limits.depth tracing) .program own node) :
    ∃ reader, program limits (.ofSource tracing source) = .ok node reader :=
  programWithin_of_derives tracing begins derived

/-- Reading succeeds if and only if some of the first words of a source are a program, unless
it nests too deep: then no first words are a program within the depth, and what is told is the
place of the token that the reader stands before. The tree that it yields is the only one that
they have, and no other first words have one; its symbols are theirs. -/
theorem program_sound_complete (limits : Limits) (tracing upcase : Bool) (text : String) :
    let source := Source.ofText upcase text
    let result := program limits (.ofSource tracing source)
    ((∃ reader, result = .error (.textTooDeep reader.cursor.peek.start) reader ∧
        ∀ own node, own <+: source.words →
          ¬ Derives counted (limits.depth tracing) .program own node) ∨
      ((∃ node reader, result = .ok node reader) ↔
        ∃ own, own <+: source.words ∧ Sentence .program (own.map (·.kind)))) ∧
    ∀ node reader, result = .ok node reader →
      ∃ own, own <+: source.words ∧ Sentence .program (own.map (·.kind)) ∧
        node.symbols = own.map (·.symbol) ∧ Derives unlimited () .program own node ∧
        ∀ own' node', own' <+: source.words → Derives unlimited () .program own' node' →
          own' = own ∧ node' = node := by
  intro source result
  have outcome : Outcome (limits.depth tracing) source result := outcome limits tracing source
  constructor
  · cases heq : result with
    | ok node reader =>
      rw [heq] at outcome
      cases outcome with
      | found begins derived =>
        exact .inr ⟨fun _ => ⟨_, begins, derived.sentence⟩, fun _ => ⟨node, reader, rfl⟩⟩
    | error fault reader =>
      rw [heq] at outcome
      cases outcome with
      | tooDeep beyond => exact .inl ⟨reader, rfl, beyond⟩
      | refused at_ _ refuses =>
        refine .inr ⟨?_, ?_⟩
        · rintro ⟨_, _, ⟨⟩⟩
        · rintro ⟨own, ⟨left, prefix_⟩, sentence⟩
          obtain ⟨node, derived⟩ := sentence.derives rfl
          have whole : own ++ (left ++ [source.tokens.2]) =
              source.words ++ [source.tokens.2] := by
            rw [← List.append_assoc, prefix_]
          exact absurd (whole.trans at_) (refuses own node _ _ derived)
  · intro node reader succeeds
    rw [succeeds] at outcome
    cases outcome with
    | @found own _ _ begins derived only =>
      have proper : ∀ token ∈ own, token.Proper := fun token member =>
        Source.proper_of_words (begins.subset member)
      exact ⟨own, begins, derived.sentence, derived.symbols proper, derived.free, only⟩

section Refused

variable {own own' : List Token} {token : Token}

theorem viable_of_begins
    (begins : ∃ others node, Derives unlimited () .program (own ++ others) node) :
    Viable (own.map (·.kind)) := by
  obtain ⟨others, node, derived⟩ := begins
  have sentence := derived.sentence
  rw [List.map_append] at sentence
  exact ⟨_, sentence⟩

variable (refuses : ∀ own' node rest others, Derives unlimited () .program own' node →
  own' ++ rest ≠ own ++ token :: others)
include refuses

theorem not_viable_of_refuses : ¬ Viable ((own ++ [token]).map (·.kind)) := by
  rintro ⟨others, sentence⟩
  have kinds : (own ++ token :: others.map Token.ofKind).map (·.kind) =
      (own ++ [token]).map (·.kind) ++ others := by
    simp [Token.ofKind, Function.comp_def]
  obtain ⟨node, derived⟩ := sentence.derives kinds
  exact refuses _ node [] _ derived (List.append_nil _)

theorem not_sentence_of_refuses (begins : own' <+: own) :
    ¬ Sentence .program (own'.map (·.kind)) := by
  rintro sentence
  obtain ⟨left, rfl⟩ := begins
  obtain ⟨node, derived⟩ := sentence.derives rfl
  exact refuses own' node (left ++ [token]) [] derived (List.append_assoc ..).symm

end Refused

theorem wrong_unique {own own' rest rest' : List Token} {token token' : Token}
    (whole : own' ++ token' :: rest' = own ++ token :: rest)
    (viable : Viable (own.map (·.kind))) (ends : ¬ Viable ((own ++ [token]).map (·.kind)))
    (viable' : Viable (own'.map (·.kind))) (ends' : ¬ Viable ((own' ++ [token']).map (·.kind))) :
    own' = own ∧ token' = token := by
  have kinds := congrArg (List.map (·.kind)) whole
  simp only [List.map_append, List.map_cons, List.map_nil] at kinds ends ends'
  have same := congrArg List.length (viable'.first_unique kinds ends' viable ends)
  simp only [List.length_map] at same
  obtain ⟨rfl, tail⟩ := List.append_inj whole same
  exact ⟨rfl, (List.cons.inj tail).1⟩

/-- Nothing but the depth of a text or its first wrong token is ever reported. Where it is the
depth, no first words are a program within it. Otherwise what stands before the token begins a
program and holds none, and with it begins no program. The kind of the token decides the report,
and its start is the place told. Every number is one that can be read. -/
theorem program_reports_first_wrong (limits : Limits) (tracing upcase : Bool) (text : String) :
    let source := Source.ofText upcase text
    (∀ token ∈ source.words, token.kind = .number → (Number.read? token.chars).isSome = true) ∧
    match program limits (.ofSource tracing source) with
    | .ok node _ => ∃ body span, node = .program body span
    | .error fault reader =>
      (fault = .textTooDeep reader.cursor.peek.start ∧ ∀ own node, own <+: source.words →
        ¬ Derives counted (limits.depth tracing) .program own node) ∨
      ∃ own token rest, source.words ++ [source.tokens.2] = own ++ token :: rest ∧
        Viable (own.map (·.kind)) ∧ ¬ Viable ((own ++ [token]).map (·.kind)) ∧
        (∀ own', own' <+: own → ¬ Sentence .program (own'.map (·.kind))) ∧
        (∀ own' token' rest', source.words ++ [source.tokens.2] = own' ++ token' :: rest' →
          Viable (own'.map (·.kind)) → ¬ Viable ((own' ++ [token']).map (·.kind)) →
          own' = own ∧ token' = token) ∧
        (∃ expected, fault = match token.kind with
          | .unknownCharacter => .badToken .unknownCharacters token.start
          | .openQuote => .badToken .mismatchedQuote token.start
          | .brokenString => .badToken .newlineInLiteral token.start
          | .endOfInput => .unexpectedEnd expected token.start
          | _ => .unexpectedToken expected token) ∧
        fault.report?.map (fun report => (report.origin, report.code)) = some
          (match token.kind with
          | .unknownCharacter => (.scanning, .unknownCharacters)
          | .openQuote => (.scanning, .mismatchedQuote)
          | .brokenString => (.scanning, .newlineInLiteral)
          | .endOfInput => (.reading, .unexpectedEnd)
          | _ => (.reading, .unexpectedToken)) := by
  intro source
  constructor
  · intro token member isNumber
    obtain ⟨digits, exponent, read⟩ := (Source.proper_of_words member).readable isNumber
    exact Option.isSome_of_eq_some read
  have outcome := outcome limits tracing source
  cases heq : program limits (.ofSource tracing source) with
  | ok node reader =>
    obtain ⟨own, -, -, derived⟩ := derives_of_program heq
    cases derived with
    | program => exact ⟨_, _, rfl⟩
  | error fault reader =>
    rw [heq] at outcome
    cases outcome with
    | tooDeep beyond => exact .inl ⟨rfl, beyond⟩
    | @refused own token rest expected _ at_ begins refuses =>
      have viable := viable_of_begins begins
      have ends := not_viable_of_refuses refuses
      refine .inr ⟨own, token, rest, at_, viable, ends, ?_, ?_, ⟨expected, ?_⟩, ?_⟩
      · exact fun own' begins => not_sentence_of_refuses refuses begins
      · intro own' token' rest' at_' viable' ends'
        exact wrong_unique (at_'.symm.trans at_) viable ends viable' ends'
      · unfold Fault.ofToken
        cases token.kind <;> rfl
      · unfold Fault.ofToken
        cases token.kind <;> cases expected <;> rfl

end Reading

end LoopLang
