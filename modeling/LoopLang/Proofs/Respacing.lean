import LoopLang.Proofs.Keeping
import LoopLang.Proofs.Mirroring

/-!
# Texts with the same words

Whitespace only keeps words apart. Two sources whose words are the same, one by one, and which
stop at the same lexeme are read alike, wherever their words stand: the trees are the same but
for their places, and where one of them is refused the other is too, at the word with the same
number and with the same report but for the place that it tells.
-/
namespace LoopLang

/-- A place that stands for all others. -/
def nowhere : Location :=
  ⟨0, 0, 0⟩

def Token.placeless (token : Token) : Token :=
  token.moved fun _ => nowhere

def Node.placeless (node : Node) : Node :=
  node.moved fun _ => nowhere

def Fault.placeless (fault : Fault) : Fault :=
  fault.moved fun _ => nowhere

/-- Reports that differ in the place that they tell at most. -/
structure Report.SameButPlace (report report' : Report) : Prop where
  origin : report'.origin = report.origin
  code : report'.code = report.code
  detail : report'.detail = report.detail ∨ ∃ before after, ∃ place place' : Location,
    report.detail = before ++ place.describe ++ after ∧
      report'.detail = before ++ place'.describe ++ after

theorem Report.sameButPlace (origin : Origin) (code : Code) (before after : String)
    (place place' : Location) :
    SameButPlace ⟨origin, code, before ++ place.describe ++ after⟩
      ⟨origin, code, before ++ place'.describe ++ after⟩ :=
  ⟨rfl, rfl, .inr ⟨before, after, place, place', rfl, rfl⟩⟩

theorem Fault.expectation_append (expected : Option String) (rest place : String) :
    expectation expected (rest ++ place) = expectation expected rest ++ place := by
  cases expected with
  | none => rfl
  | some what => simp [expectation, String.append_assoc]

/-- How a message tells a lexeme, up to where its place follows. -/
def Lexeme.announced (lexeme : Lexeme) : String :=
  "Token(" ++ lexeme.kind.name ++ ", " ++ Text.quote lexeme.text ++ ", position="

theorem Token.describe_eq (token : Token) :
    token.describe = token.toLexeme.announced ++ token.start.describe ++ ")" := by
  simp [describe, Lexeme.describeWith, Lexeme.announced, String.append_assoc]

theorem Fault.reports_alike {fault fault' : Fault} (same : fault'.placeless = fault.placeless) :
    Option.Rel Report.SameButPlace fault.report? fault'.report? := by
  cases fault with
  | badToken code place =>
    cases fault' with
    | badToken code' place' =>
      obtain rfl : code' = code := (Fault.badToken.inj same).1
      simpa [report?] using Option.Rel.some
        (Report.sameButPlace .scanning code' "at " "" place place')
    | _ => cases same
  | unexpectedEnd expected place =>
    cases fault' with
    | unexpectedEnd expected' place' =>
      obtain rfl : expected' = expected := (Fault.unexpectedEnd.inj same).1
      simpa [report?, expectation_append] using Option.Rel.some
        (Report.sameButPlace .reading .unexpectedEnd (expectation expected' "at ") "" place place')
    | _ => cases same
  | unexpectedToken expected found =>
    cases fault' with
    | unexpectedToken expected' found' =>
      obtain ⟨rfl, founds⟩ := Fault.unexpectedToken.inj same
      have announced : found'.toLexeme.announced = found.toLexeme.announced :=
        congrArg (fun token => token.toLexeme.announced) founds
      cases expected' with
      | none =>
        simp only [report?, Token.describe_eq, announced]
        exact .some (Report.sameButPlace ..)
      | some what =>
        simpa [report?, expectation_append, Token.describe_eq, announced, String.append_assoc] using
          Option.Rel.some (Report.sameButPlace .reading .unexpectedToken
            (expectation (some what) "but " ++ found.toLexeme.announced) ") was given"
            found.start found'.start)
    | _ => cases same
  | textTooDeep place =>
    cases fault' with
    | textTooDeep place' =>
      simpa [report?] using Option.Rel.some
        (Report.sameButPlace .reading .nestingTooDeep "at " "" place place')
    | _ => cases same
  | divisionByZero dividend place =>
    cases fault' with
    | divisionByZero dividend' place' =>
      obtain ⟨rfl, places⟩ := Fault.divisionByZero.inj same
      cases place <;> cases place' <;> cases places
      · exact .some ⟨rfl, rfl, .inl rfl⟩
      · simpa [report?, Location.describeOption] using Option.Rel.some (Report.sameButPlace .running
          .divisionByZero (Number.printed dividend' ++ " / 0 at ") "" _ _)
    | _ => cases same
  | _ =>
    cases fault' <;> cases same
    all_goals first | exact .none | exact .some ⟨rfl, rfl, .inl rfl⟩

theorem Token.placeless_eq {token token' : Token} (same : token'.toLexeme = token.toLexeme) :
    token'.placeless = token.placeless := by
  simp only [placeless, moved, same]

/-- Readers are compared that stand before the word with the same number, each in words of its own:
it is in another place, and there may be other whitespace between. -/
def Mirror.respacing (words words' : List Token) : Mirror where
  move _ := nowhere
  move' _ := nowhere
  alike reader image := reader.cursor.Ready ∧ image.cursor.Ready ∧
    image.tracing = reader.tracing ∧
    image.cursor.lastReal?.map (·.toLexeme) = reader.cursor.lastReal?.map (·.toLexeme) ∧
    ∃ index, reader.cursor.pending = words.drop index ∧ image.cursor.pending = words'.drop index
  fallen reader image := ∃ index : Nat,
    words[index]? = some reader.cursor.peek ∧ words'[index]? = some image.cursor.peek
  uneven := False

namespace Cursor

variable {cursor cursor' : Cursor} {words words' : List Token} {index : Nat}

theorem Ready.getElem?_of_pending (ready : cursor.Ready)
    (pending : cursor.pending = words.drop index) :
    words[index]? = some cursor.peek := by
  obtain ⟨rest, starts⟩ := ready.pending_eq
  rw [← List.head?_drop, ← pending, starts, List.head?_cons]

theorem Ready.toLexeme_peek (ready : cursor.Ready) (ready' : cursor'.Ready)
    (same : words'.map (·.toLexeme) = words.map (·.toLexeme))
    (pending : cursor.pending = words.drop index) (pending' : cursor'.pending = words'.drop index) :
    cursor'.peek.toLexeme = cursor.peek.toLexeme := by
  have lexemes := congrArg (·[index]?) same
  simp only [List.getElem?_map, ready.getElem?_of_pending pending,
    ready'.getElem?_of_pending pending'] at lexemes
  exact Option.some.inj lexemes

theorem Ready.drop_succ (ready : cursor.Ready) (valid : cursor.peek.isValid = true)
    (pending : cursor.pending = words.drop index) :
    cursor.advanceReal.pending = words.drop (index + 1) := by
  have passed := (ready.passed_advanceReal valid).pending
  rw [← List.drop_drop, ← pending, passed]
  rfl

end Cursor

theorem Mirror.faithful_respacing {words words' : List Token}
    (same : words'.map (·.toLexeme) = words.map (·.toLexeme)) :
    (respacing words words').Faithful where
  ready := by
    rintro reader image ⟨ready, ready', -⟩
    exact ⟨ready, ready'⟩
  peek := by
    rintro reader image ⟨ready, ready', -, -, index, pending, pending'⟩
    exact Token.placeless_eq (ready.toLexeme_peek ready' same pending pending')
  last := by
    rintro reader image token ⟨-, -, -, lasts, -⟩ last
    rw [last, Option.map_some, Option.map_eq_some_iff] at lasts
    obtain ⟨token', last', lexeme⟩ := lasts
    exact ⟨token', last', Token.placeless_eq lexeme⟩
  noted := by
    rintro reader image channel message message' ⟨ready, ready', tracing, lasts, pending⟩
    simp only [respacing, Reading.cursor_note, Reading.tracing_note]
    exact ⟨ready, ready', tracing, lasts, pending⟩
  passed := by
    rintro reader image ⟨ready, ready', tracing, -, index, pending, pending'⟩ valid
    have lexemes := ready.toLexeme_peek ready' same pending pending'
    have valid' : image.cursor.peek.isValid = true := by rw [lexemes]; exact valid
    have last := (ready.passed_advanceReal valid).last
    have last' := (ready'.passed_advanceReal valid').last
    refine ⟨Cursor.ready_skipWhitespace _, Cursor.ready_skipWhitespace _, tracing, ?_, index + 1,
      ready.drop_succ valid pending, ready'.drop_succ valid' pending'⟩
    rw [last, last']
    exact congrArg some lexemes
  fell := by
    rintro reader image ⟨ready, ready', tracing, -, index, pending, pending'⟩ valid
    have lexemes := ready.toLexeme_peek ready' same pending pending'
    have valid' : image.cursor.peek.isValid = true := by rw [lexemes]; exact valid
    refine .inr ?_
    -- While tracing, both have passed the word; else it is still the next one for both.
    rw [Reader.giveUp, Reader.giveUp, tracing]
    cases reader.tracing with
    | true =>
      refine ⟨index + 1, ?_, ?_⟩
      · exact (Cursor.ready_skipWhitespace _).getElem?_of_pending (ready.drop_succ valid pending)
      · exact (Cursor.ready_skipWhitespace _).getElem?_of_pending (ready'.drop_succ valid' pending')
    | false =>
      exact ⟨index, ready.getElem?_of_pending pending, ready'.getElem?_of_pending pending'⟩

namespace Reading

theorem Compared.of_errors {mirror : Mirror} {fault fault' : Fault} {reader image : Reader}
    (compared : Compared mirror (.error fault reader) (.error fault' image)) :
    (mirror.faults fault fault' ∧ fault.isTooDeep = false ∧ fault'.isTooDeep = false) ∨
    (fault = .textTooDeep reader.cursor.peek.start ∧
      fault' = .textTooDeep image.cursor.peek.start ∧ mirror.fallen reader image) ∨
    mirror.uneven := by
  cases compared with
  | refused faults =>
    exact .inl ⟨faults, Fault.isTooDeep_ofToken _ _, Fault.isTooDeep_ofToken _ _⟩
  | fell holds => exact .inr (.inl ⟨rfl, rfl, holds⟩)
  | deeper uneven => exact .inr (.inr uneven)

/-- Reading a source fails at the word with this number, counted from zero: the fault is about
it or, if the text nests too deeply, tells its place, and the reader stands before it. -/
inductive FailsAt (source : Source) (index : Nat) : Fault → Reader → Prop where
  | refused {expected token reader}
      (at_ : (source.words ++ [source.tokens.2])[index]? = some token) :
    FailsAt source index (.ofToken expected token) reader
  | tooDeep {reader : Reader}
      (at_ : (source.words ++ [source.tokens.2])[index]? = some reader.cursor.peek) :
    FailsAt source index (.textTooDeep reader.cursor.peek.start) reader

section SameWords

variable {source source' : Source}
  (words : source'.words.map (·.toLexeme) = source.words.map (·.toLexeme))
  (stop : source'.tokens.2.toLexeme = source.tokens.2.toLexeme)
include words stop

theorem lexemes_alike : (source'.words ++ [source'.tokens.2]).map (·.toLexeme) =
    (source.words ++ [source.tokens.2]).map (·.toLexeme) := by
  rw [List.map_append, List.map_append, words, List.map_singleton, List.map_singleton, stop]

theorem program_alike (limits : Limits) (tracing : Bool) (log log' : List Record) :
    Compared (.respacing (source.words ++ [source.tokens.2]) (source'.words ++ [source'.tokens.2]))
      (program limits ⟨.ofSource source, tracing, log⟩)
      (program limits ⟨.ofSource source', tracing, log'⟩) := by
  have faithful := Mirror.faithful_respacing (lexemes_alike words stop)
  refine compared_programWithin faithful ⟨Nat.le_refl _, .inr rfl⟩ ?_
  refine ⟨source.ready_skipWhitespace, source'.ready_skipWhitespace, rfl, ?_, 0,
    source.pending_skipWhitespace, source'.pending_skipWhitespace⟩
  simp [Cursor.ofSource]

theorem length_of_wrong {own own' rest rest' : List Token} {token token' : Token}
    (at_ : source.words ++ [source.tokens.2] = own ++ token :: rest)
    (at_' : source'.words ++ [source'.tokens.2] = own' ++ token' :: rest')
    (viable : Viable (own.map (·.kind))) (ends : ¬ Viable ((own ++ [token]).map (·.kind)))
    (viable' : Viable (own'.map (·.kind))) (ends' : ¬ Viable ((own' ++ [token']).map (·.kind))) :
    own'.length = own.length := by
  have lexemes := lexemes_alike words stop
  rw [at_, at_'] at lexemes
  have kinds := congrArg (List.map (·.kind)) lexemes
  simp only [List.map_map, Function.comp_def, List.map_append, List.map_cons] at kinds
  simp only [List.map_append, List.map_cons, List.map_nil] at ends ends'
  simpa using congrArg List.length (viable'.first_unique kinds ends' viable ends)

theorem exists_failsAt {limits : Limits} {tracing : Bool} {fault fault' : Fault}
    {reader reader' : Reader}
    (failed : program limits (.ofSource tracing source) = .error fault reader)
    (failed' : program limits (.ofSource tracing source') = .error fault' reader') :
    fault'.placeless = fault.placeless ∧
      ∃ index, FailsAt source index fault reader ∧ FailsAt source' index fault' reader' := by
  have alike := program_alike words stop limits tracing [] []
  have outcome := outcome limits tracing source
  have outcome' := Reading.outcome limits tracing source'
  change Compared _ (program limits (.ofSource tracing source))
    (program limits (.ofSource tracing source')) at alike
  rw [failed] at alike outcome
  rw [failed'] at alike outcome'
  rcases alike.of_errors with ⟨faults, shallow, shallow'⟩ | ⟨rfl, rfl, index, at_, at_'⟩ | uneven
  · refine ⟨faults, ?_⟩
    cases outcome with
    | tooDeep => cases shallow
    | @refused own token rest expected _ at_ begins refuses =>
      cases outcome' with
      | tooDeep => cases shallow'
      | @refused own' token' rest' expected' _ at_' begins' refuses' =>
        have index := length_of_wrong words stop at_ at_' (viable_of_begins begins)
          (not_viable_of_refuses refuses) (viable_of_begins begins')
          (not_viable_of_refuses refuses')
        refine ⟨own.length, .refused (by simp [at_]), ?_⟩
        rw [← index]
        exact .refused (by simp [at_'])
  · exact ⟨rfl, index, .tooDeep at_, .tooDeep at_'⟩
  · exact uneven.elim

end SameWords

end Reading

end LoopLang
