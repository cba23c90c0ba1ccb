import LoopLang.Machine.Program
import LoopLang.Proofs.Mirroring
import LoopLang.Proofs.Sessions
import LoopLang.Proofs.Tracking

/-!
# Tracing

Whether a reader or a machine is tracing makes no difference but for what it records, as long
as a text is not too deep to be read with tracing. One that is not tracing comes to the same,
token by token and statement by statement, also where it fails or is stopped, and has recorded
what the other one has but for the details. Since tracing takes depth of its own, a text may be
read without it that is too deep with it, or be given up at another place.
-/
namespace LoopLang

/-- The records of a trace that are no details. -/
def warnings (log : List Record) : List Record :=
  log.filter fun record => record.severity != .detail

theorem Reader.Records.warnings_eq {reader last : Reader} (records : reader.Records last) :
    warnings last.log = warnings reader.log ∧
      (reader.tracing = false → last.log = reader.log) := by
  obtain ⟨details, log, each⟩ := records
  constructor
  · have none_ : warnings details = [] := by
      refine List.filter_eq_nil_iff.mpr fun record member => ?_
      simp [(each record member).2]
    rw [log, warnings, List.filter_append]
    exact congrArg (· ++ _) none_
  · intro untraced
    have none_ : details = [] := by
      refine List.eq_nil_iff_forall_not_mem.mpr fun record member => ?_
      exact absurd (each record member).1 (Bool.eq_false_iff.mp untraced)
    rw [log, none_, List.nil_append]

/-- A reader that is not tracing and never was. -/
def Reader.quiet (reader : Reader) : Reader :=
  ⟨reader.cursor, false, warnings reader.log⟩

@[simp] theorem Reader.quiet_note (reader : Reader) (channel : Channel) (message : String) :
    (reader.note channel message).quiet = reader.quiet := by
  unfold note
  split
  · simp [quiet, warnings]
  · rfl

/-- A world that is not traced and never was. -/
def World.quiet (world : World) : World :=
  { world with settings := { world.settings with trace := false }, log := warnings world.log }

/-- A reader is compared with the same one without tracing, which may go deeper. -/
def Mirror.quieting : Mirror where
  move := id
  move' := id
  alike reader image := reader.cursor.Ready ∧ image = reader.quiet
  fallen _ _ := False
  uneven := True

theorem Mirror.faithful_quieting : quieting.Faithful where
  ready := by rintro reader _ ⟨ready, rfl⟩; exact ⟨ready, ready⟩
  peek := by rintro reader _ ⟨-, rfl⟩; rfl
  last := by rintro reader _ token ⟨-, rfl⟩ last; exact ⟨token, last, rfl⟩
  noted := by
    rintro reader _ channel message message' ⟨ready, rfl⟩
    refine ⟨by rwa [Reading.cursor_note], ?_⟩
    rw [Reader.quiet_note]
    rfl
  passed := by
    rintro reader _ ⟨ready, rfl⟩ valid
    exact ⟨(ready.passed_advanceReal valid).ready, rfl⟩
  fell _ _ := .inl trivial

namespace Reading

/-- What reading comes to, in a reader that is not tracing. -/
def quieted {α : Type} : EStateM.Result Fault Reader α → EStateM.Result Fault Reader α
  | .ok a reader => .ok a reader.quiet
  | .error fault reader => .error fault reader.quiet

theorem pass_quiet (reader : Reader) : pass reader.quiet = quieted (pass reader) := by
  have silent : pass reader.quiet =
      .ok reader.cursor.advanceReal.lastReal?
        (Reader.quiet { reader with cursor := reader.cursor.advanceReal }) := rfl
  rw [silent, ← Reader.quiet_note _ .scanner (passMessage reader.cursor.advanceReal)]
  rfl

/-- A program that is not too deep for a reader is read without tracing as by that reader. -/
theorem program_quiet (limits : Limits) (reader : Reader)
    (fits : ∀ place last, program limits reader ≠ .error (.textTooDeep place) last) :
    program limits reader.quiet = quieted (program limits reader) := by
  have allows : Mirror.quieting.Allows (limits.depth reader.tracing) (limits.depth false) :=
    ⟨limits.depth_le _, .inl trivial⟩
  have start : Mirror.quieting.alike { reader with cursor := reader.cursor.skipWhitespace }
      { reader.quiet with cursor := reader.quiet.cursor.skipWhitespace } :=
    ⟨Cursor.ready_skipWhitespace _, rfl⟩
  have compared := compared_programWithin Mirror.faithful_quieting allows start
  rw [program_within] at fits ⊢
  rw [program_within]
  change Compared _ _ (programWithin (limits.depth reader.quiet.tracing) reader.quiet) at compared
  generalize programWithin (limits.depth reader.tracing) reader = result at compared fits
  generalize programWithin (limits.depth reader.quiet.tracing) reader.quiet = result' at compared
  cases compared with
  | read trees holds =>
    rw [Mirror.nodes] at trees
    change Node.moved id _ = Node.moved id _ at trees
    rw [Node.moved_id, Node.moved_id] at trees
    rw [trees, holds.2]
    rfl
  | refused faults holds =>
    change Fault.moved id _ = Fault.moved id _ at faults
    rw [Fault.moved_id, Fault.moved_id] at faults
    rw [faults, holds.2]
    rfl
  | fell holds => exact holds.elim
  | deeper => exact absurd rfl (fits _ _)

end Reading

namespace Session

/-- A session whose reader is not tracing and never was. -/
def quiet (session : Session) : Session :=
  { session with reader := session.reader.quiet }

/-- None of the operations finds a program that is too deep. -/
def fits (session : Session) : List Operation → Bool
  | [] => true
  | operation :: rest =>
    !(session.perform operation).1.isTooDeep && (session.perform operation).2.fits rest

variable {session : Session}

theorem read_quiet {α : Type} {action : Reading α}
    (same : action session.reader.quiet = Reading.quieted (action session.reader))
    (answer : α → Answer) : session.quiet.read action answer =
      ((session.read action answer).1, (session.read action answer).2.quiet) := by
  have reader : session.quiet.reader = session.reader.quiet := rfl
  rw [read, read, reader, same]
  cases action session.reader <;> rfl

/-- An operation that finds no program too deep does the same to a session that is not traced, with
the same answer. -/
theorem perform_quiet (operation : Operation)
    (fits : (session.perform operation).1.isTooDeep = false) :
    session.quiet.perform operation =
      ((session.perform operation).1, (session.perform operation).2.quiet) := by
  cases operation with
  | peek | advance | peekNextReal | reset | scan | locate | begin | list => rfl
  | nextReal => exact read_quiet (Reading.pass_quiet session.reader) _
  | resume index =>
    have visits : session.quiet.visits = session.visits := rfl
    rw [perform, perform, visits]
    cases session.visits[index]? <;> rfl
  | parse =>
    refine read_quiet (Reading.program_quiet session.limits session.reader ?_) _
    intro place last failed
    rw [perform, read, failed] at fits
    cases fits

theorem run_quiet (operations : List Operation) (fits : session.fits operations = true) :
    session.quiet.run operations = (session.run operations).quiet := by
  induction operations generalizing session with
  | nil => rfl
  | cons operation rest ih =>
    rw [Session.fits, Bool.and_eq_true, Bool.not_eq_true'] at fits
    have performed := perform_quiet operation fits.1
    calc session.quiet.run (operation :: rest)
        = (session.quiet.perform operation).2.run rest := rfl
      _ = (session.perform operation).2.quiet.run rest := by rw [performed]
      _ = ((session.perform operation).2.run rest).quiet := ih fits.2

theorem records_perform (session : Session) (operation : Operation) :
    session.reader.Records (session.perform operation).2.reader := by
  cases operation with
  | peek | advance | peekNextReal | reset | scan | locate | begin | list => exact .of_eq rfl
  | nextReal => exact .note _ _ _
  | resume index =>
    rw [perform]
    split <;> exact .of_eq rfl
  | parse =>
    have records := (Reading.keeps_program session.limits session.reader).records
    rw [perform, read]
    cases result : Reading.program session.limits session.reader <;>
      · rw [result] at records
        exact records

end Session

namespace Machine

/-- What an action comes to, in a world that is not traced. -/
def quieted {α : Type} : EStateM.Result Halt World α → EStateM.Result Halt World α
  | .ok a world => .ok a world.quiet
  | .error halt world => .error halt world.quiet

theorem unnoticed_quiet : Unnoticed fun world world' => world' = world.quiet where
  prompt := by rintro world _ rfl; rfl
  signal := by rintro world _ rfl; rfl
  noted := by
    rintro world _ message rfl
    have silent : world.quiet.note message = world.quiet := rfl
    rw [silent, World.note]
    split
    · simp [World.quiet, warnings]
    · rfl
  warned := by
    rintro world _ message rfl
    simp [World.warn, World.quiet, warnings]
  requested := by rintro world _ target rfl; rfl
  finished := by rintro world _ rfl; rfl
  read := by
    rintro world _ prompt rfl
    change Matched _ (world.console.readLine prompt) (world.console.readLine prompt)
    cases world.console.readLine prompt with
    | ok came => exact .ok ⟨rfl, rfl⟩
    | error fault => exact .error fault
  written := by
    rintro world _ line rfl
    change Matched _ (world.console.writeLine line) (world.console.writeLine line)
    cases world.console.writeLine line with
    | ok console => exact .ok rfl
    | error fault => exact .error fault

theorem run_world_quiet (steps : Nat) (program : Node) (world : World) :
    run steps program world.quiet = quieted (run steps program world) := by
  have came : Follows True (fun world world' => world' = world.quiet) (run steps program world)
      (run steps program world.quiet) := by
    refine tracks_run unnoticed_quiet ⟨Nat.le_refl steps, fun _ => rfl⟩ ?_ ?_ world world.quiet rfl
    · rintro name _ world _ rfl
      rfl
    · rintro name _ value world _ rfl
      rfl
  generalize run steps program world = result at came
  generalize run steps program world.quiet = result' at came
  cases came with
  | done holds | halted holds =>
    rw [holds]
    rfl
  | outlasted more => exact absurd trivial more

/-- Whether reading or running failed because a text is too deep. -/
def tooDeep? {α : Type} : EStateM.Result Halt World α → Option Location
  | .error (.fault (.textTooDeep place)) _ => some place
  | _ => none

variable {limits : Limits} {source : Source} {world : World}

theorem load_quiet (fits : tooDeep? (load limits source world) = none) :
    load limits source world.quiet = quieted (load limits source world) := by
  have image : (⟨.ofSource source, world.quiet.settings.trace, world.quiet.log⟩ : Reader) =
      Reader.quiet ⟨.ofSource source, world.settings.trace, world.log⟩ := rfl
  have read : ∀ place last, Reading.program limits
      ⟨.ofSource source, world.settings.trace, world.log⟩ ≠ .error (.textTooDeep place) last := by
    intro place last failed
    rw [load_eq, failed] at fits
    cases fits
  rw [load_eq, load_eq, image, Reading.program_quiet limits _ read]
  cases Reading.program limits ⟨.ofSource source, world.settings.trace, world.log⟩ <;> rfl

theorem load_tooDeep {place : Location} {last : World}
    (failed : load limits source world = .error (.fault (.textTooDeep place)) last) :
    last = { world with log := last.log } ∧ warnings last.log = warnings world.log ∧
      (world.settings.trace = false → last.log = world.log) := by
  have records := (Reading.keeps_program limits
    ⟨.ofSource source, world.settings.trace, world.log⟩).records.warnings_eq
  rw [load_eq] at failed
  cases result : Reading.program limits
      ⟨.ofSource source, world.settings.trace, world.log⟩ with
  | ok program reader =>
    rw [result] at failed
    cases failed
  | error fault reader =>
    rw [result] at failed records
    obtain ⟨-, rfl⟩ := EStateM.Result.error.inj failed
    exact ⟨rfl, records⟩

theorem runText_eq (limits : Limits) (steps : Nat) (text : String) (world : World) :
    runText limits steps text world =
      (load limits (.ofText world.settings.upcase text) >>= run steps) world := rfl

/-- Tracing changes nothing but the trace, unless it makes a text too deep. Whatever is done with a
text, one after another, its tokens looked at, passed and listed, places asked for and programs read
from where the cursor stands: if no program is too deep with tracing, all answers, which are tokens,
places, trees and faults, are the same without it, and so is what is left, but for the details that
were recorded. So are, with any number of steps for each loop, the state, the console and the
fault or stop of a run of the text in any world. If the text is too deep with tracing, nothing is
run then. Without tracing its reading may go further; if it is too deep there as well, then nothing
but the details and the place that is told can differ. -/
theorem tracing_unnoticed (limits : Limits) (text : String) (settings : Settings) :
    let source := Source.ofText settings.upcase text
    (∀ operations,
      let traced := (Session.ofSource limits true source).run operations
      let untraced := (Session.ofSource limits false source).run operations
      (Session.ofSource limits true source).fits operations = true →
        untraced = traced.quiet ∧
        ∀ operation,
          let came := traced.perform operation
          let came' := untraced.perform operation
          came'.2.reader.log = warnings came.2.reader.log ∧
          (came.1.isTooDeep = false → came'.1 = came.1 ∧ came'.2 = came.2.quiet)) ∧
    ∀ state console log,
      let traced : World := ⟨state, console, { settings with trace := true }, log⟩
      let untraced : World := ⟨state, console, { settings with trace := false }, warnings log⟩
      match load limits source traced with
      | .error (.fault (.textTooDeep place)) last =>
        last.state = state ∧ last.console = console ∧
        (∀ steps, runText limits steps text traced = .error (.fault (.textTooDeep place)) last) ∧
        ∀ place' last', load limits source untraced = .error (.fault (.textTooDeep place')) last' →
          last' = last.quiet
      | result => load limits source untraced = quieted result ∧ ∀ steps,
        runText limits steps text untraced = quieted (runText limits steps text traced) := by
  intro source
  constructor
  · intro operations traced untraced fits
    have same : untraced = traced.quiet := Session.run_quiet operations fits
    refine ⟨same, fun operation => ⟨?_, fun fits => ?_⟩⟩
    · obtain ⟨warned, -⟩ := (traced.records_perform operation).warnings_eq
      obtain ⟨-, silent⟩ := (untraced.records_perform operation).warnings_eq
      have untraced_ : untraced.reader.tracing = false := by rw [same]; rfl
      have log : untraced.reader.log = warnings traced.reader.log := by rw [same]; rfl
      exact (silent untraced_).trans (log.trans warned.symm)
    · have performed : untraced.perform operation =
          ((traced.perform operation).1, (traced.perform operation).2.quiet) := by
        rw [same]
        exact Session.perform_quiet operation fits
      have answers : (untraced.perform operation).1 = (traced.perform operation).1 := by
        rw [performed]
      have lefts : (untraced.perform operation).2 = (traced.perform operation).2.quiet := by
        rw [performed]
      exact ⟨answers, lefts⟩
  · intro state console log traced untraced
    have same : untraced = traced.quiet := rfl
    have parts := runText_eq limits
    cases result : load limits source traced with
    | ok program middle =>
      have loaded : load limits source untraced = quieted (.ok program middle) := by
        rw [same, load_quiet (by rw [result]; rfl), result]
      refine ⟨loaded, fun steps => ?_⟩
      rw [parts, parts, bind_ok result, bind_ok loaded]
      exact run_world_quiet steps program middle
    | error halt last =>
      have other (fits : tooDeep? (.error halt last : EStateM.Result Halt World Node) = none) :
          load limits source untraced = quieted (.error halt last) ∧
            ∀ steps, runText limits steps text untraced =
              quieted (runText limits steps text traced) := by
        have loaded : load limits source untraced = quieted (.error halt last) := by
          rw [same, load_quiet (by rw [result]; exact fits), result]
        refine ⟨loaded, fun steps => ?_⟩
        rw [parts, parts, bind_error result, bind_error loaded]
        rfl
      cases halt with
      | outOfSteps => exact other rfl
      | fault fault =>
        cases fault with
        | textTooDeep place =>
          obtain ⟨left, warned, -⟩ := load_tooDeep result
          have failed (steps : Nat) : runText limits steps text traced = .error _ last :=
            (parts steps text traced).trans (bind_error result)
          refine ⟨by rw [left], by rw [left], failed, fun place' last' failed => ?_⟩
          obtain ⟨left', -, silent⟩ := load_tooDeep failed
          rw [left', silent rfl, left, World.quiet, warned]
        | _ => exact other rfl

/-- A program that is not too deep with tracing is read alike without it. -/
theorem exit_unnoticed :
    let source := Source.ofText true "x x break."
    (Session.ofSource .standard true source).fits [.parse, .parse] = true ∧
    (Session.ofSource .standard false source).run [.parse, .parse] =
      ((Session.ofSource .standard true source).run [.parse, .parse]).quiet := by
  have fits : (Session.ofSource .standard true (.ofText true "x x break.")).fits
      [.parse, .parse] = true := by decide +kernel
  have unnoticed := (tracing_unnoticed .standard "x x break." { upcase := true }).1
  exact ⟨fits, (unnoticed [.parse, .parse] fits).1⟩

/-- A text that is too deep with tracing, and can be read without it. -/
theorem enclosed_noticed :
    let source := Source.enclosed 325
    (∃ place reader, Reading.program .standard (.ofSource true source) =
      .error (.textTooDeep place) reader) ∧
    ∃ node reader, Reading.program .standard (.ofSource false source) = .ok node reader := by
  intro source
  have traced : Limits.standard.depth true = 325 + 1 := rfl
  have untraced : Limits.standard.depth false = 327 + 1 := rfl
  obtain ⟨middle, failed, -⟩ := Reading.program_opened_tooDeep traced (Nat.le_refl 325)
    (Source.number_enclosed 325) rfl rfl
  exact ⟨⟨_, _, failed⟩, Reading.program_enclosed untraced (by decide)⟩

end Machine

end LoopLang
