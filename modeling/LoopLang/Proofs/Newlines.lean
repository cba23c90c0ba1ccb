import LoopLang.Machine.Program
import LoopLang.Proofs.LineEnds
import LoopLang.Proofs.Placeless
import LoopLang.Proofs.Respacing

/-!
# Texts and files with other line ends

A file is read with a single line feed for each line end, where a text is scanned as it stands.
Both hold the same words, so both are the same program, and their runs do the same: they may
differ in what is recorded and in the places that are told.
-/
namespace LoopLang

theorem Text.decodeFile?_toUTF8 (text : String) :
    decodeFile? text.toUTF8 = some (unifyNewlines text.toList) := by
  have decoded : String.fromUTF8? text.toUTF8 = some text := by
    rw [String.fromUTF8?, String.toUTF8_eq_toByteArray, dif_pos text.isValidUTF8]
    rfl
  rw [decodeFile?, decoded]
  rfl

def World.SameButLog (world world' : World) : Prop :=
  ∃ log, world' = { world with log }

namespace Machine

/-- What two runs come to that do the same, but for what was recorded and the place of a fault. -/
inductive Agrees : EStateM.Result Halt World Unit → EStateM.Result Halt World Unit → Prop where
  | done {last last'} (worlds : World.SameButLog last last') : Agrees (.ok () last) (.ok () last')
  | failed {fault fault' last last'} (faults : fault'.placeless = fault.placeless)
    (reports : Option.Rel Report.SameButPlace fault.report? fault'.report?)
    (worlds : World.SameButLog last last') :
    Agrees (.error (.fault fault) last) (.error (.fault fault') last')
  | stopped {last last'} (worlds : World.SameButLog last last') :
    Agrees (.error .outOfSteps last) (.error .outOfSteps last')

theorem respected_sameButLog : Respected World.SameButLog where
  settings := by rintro world _ ⟨log, rfl⟩; rfl
  console := by rintro world _ ⟨log, rfl⟩; rfl
  signal := by rintro world _ ⟨log, rfl⟩; rfl
  recorded := by rintro world _ record ⟨log, rfl⟩; exact ⟨record :: log, rfl⟩
  requested := by rintro world _ target ⟨log, rfl⟩; exact ⟨log, rfl⟩
  finished := by rintro world _ ⟨log, rfl⟩; exact ⟨log, rfl⟩
  read := by rintro world _ prompt line console ⟨log, rfl⟩ -; exact ⟨log, rfl⟩
  written := by rintro world _ line console ⟨log, rfl⟩ -; exact ⟨log, rfl⟩

variable {steps : Nat} {world world' : World}

theorem agrees_of_moved {action action' : Machine Unit}
    {result' : EStateM.Result Halt World Unit}
    (alike : action'.moved (fun _ => nowhere) world = action.moved (fun _ => nowhere) world)
    (follows : Follows True World.SameButLog (action' world) result') :
    Agrees (action world) result' := by
  rw [moved, moved] at alike
  generalize action world = result at alike
  generalize action' world = middle at alike follows
  cases follows with
  | done worlds =>
    cases result with
    | ok value last =>
      cases alike
      exact .done worlds
    | error halt last => cases alike
  | @halted halt _ _ worlds =>
    cases result with
    | ok value last => cases alike
    | error halt' last =>
      injection alike with halts lasts
      subst lasts
      cases halt with
      | fault fault' =>
        cases halt' with
        | fault fault =>
          have faults : fault'.placeless = fault.placeless := Halt.fault.inj halts
          exact .failed faults (Fault.reports_alike faults) worlds
        | outOfSteps => cases halts
      | outOfSteps =>
        cases halt' with
        | fault fault => cases halts
        | outOfSteps => exact .stopped worlds
  | outlasted more => exact absurd trivial more

theorem run_agrees {program program' : Node} (trees : program'.placeless = program.placeless)
    (worlds : World.SameButLog world world') :
    Agrees (run steps program world) (run steps program' world') := by
  have same (program : Node) : (run steps program.placeless).moved (fun _ => nowhere) =
      (run steps program).moved fun _ => nowhere :=
    @run_moved (fun _ => nowhere) steps (fun _ => rfl) program
  have alike : (run steps program').moved (fun _ => nowhere) world =
      (run steps program).moved (fun _ => nowhere) world := by
    rw [← same program, ← same program', trees]
  apply agrees_of_moved alike
  have unnoticed := respected_sameButLog.unnoticed
  refine tracks_run unnoticed ⟨Nat.le_refl steps, fun _ => rfl⟩ ?_ ?_ world world' worlds
  · rintro name _ world _ ⟨log, rfl⟩
    rfl
  · rintro name _ value world _ ⟨log, rfl⟩
    exact ⟨log, rfl⟩

theorem runText_agrees {text text' : String} (limits : Limits)
    (words : (Source.ofText world.settings.upcase text').words.map (·.toLexeme) =
      (Source.ofText world.settings.upcase text).words.map (·.toLexeme))
    (stop : (Source.ofText world.settings.upcase text').tokens.2.toLexeme =
      (Source.ofText world.settings.upcase text).tokens.2.toLexeme) :
    Agrees (runText limits steps text world) (runText limits steps text' world) := by
  have parts (text : String) : runText limits steps text world =
      (load limits (.ofText world.settings.upcase text) >>= run steps) world := rfl
  have read := load_eq limits (.ofText world.settings.upcase text) world
  have read' := load_eq limits (.ofText world.settings.upcase text') world
  have alike := Reading.program_alike words stop limits world.settings.trace world.log world.log
  rw [parts, parts]
  generalize Reading.program limits
    ⟨.ofSource (.ofText world.settings.upcase text'), _, _⟩ = result' at alike read'
  generalize Reading.program limits
    ⟨.ofSource (.ofText world.settings.upcase text), _, _⟩ = result at alike read
  have failed {fault fault' : Fault} {log log' : List Record}
      (faults : fault'.placeless = fault.placeless) :
      Agrees (.error (.fault fault) { world with log })
        (.error (.fault fault') { world with log := log' }) :=
    .failed faults (Fault.reports_alike faults) ⟨log', rfl⟩
  cases alike with
  | @read program program' reader reader' trees holds =>
    rw [bind_ok read, bind_ok read']
    exact run_agrees trees ⟨reader'.log, rfl⟩
  | refused faults =>
    rw [bind_error read, bind_error read']
    exact failed faults
  | fell =>
    rw [bind_error read, bind_error read']
    exact failed rfl
  | deeper uneven => exact uneven.elim

open Reading in
/-- A text and the contents of a file with it are the same program, whatever ends their lines.
They have the same words. Both are read, to trees that are the same but for their places, or both
are refused at the word with the same number and with the same report but for its place. And with
any number of steps for each loop both runs come to the same, in any world: the state and the
console are the same in the end, and a fault is the same and is reported alike, but for its
place. -/
theorem newlines_alike (limits : Limits) (text : String) (settings : Settings) :
    let unified := String.ofList (Text.unifyNewlines text.toList)
    let source := Source.ofText settings.upcase text
    let source' := Source.ofText settings.upcase unified
    Text.decodeFile? text.toUTF8 = some unified.toList ∧
    (source'.words.map (·.toLexeme) = source.words.map (·.toLexeme) ∧
      source'.tokens.2.toLexeme = source.tokens.2.toLexeme) ∧
    (match program limits (.ofSource settings.trace source),
        program limits (.ofSource settings.trace source') with
    | .ok node _, .ok node' _ => node'.bare = node.bare
    | .error fault reader, .error fault' reader' =>
      Option.Rel Report.SameButPlace fault.report? fault'.report? ∧
      ∃ index, FailsAt source index fault reader ∧ FailsAt source' index fault' reader'
    | _, _ => False) ∧
    ∀ steps state console log,
      Agrees (runText limits steps text ⟨state, console, settings, log⟩)
        (runText limits steps unified ⟨state, console, settings, log⟩) := by
  intro unified source source'
  obtain ⟨words, stop⟩ := Source.words_unified settings.upcase text
  refine ⟨?_, ⟨words, stop⟩, ?_, fun steps state console log =>
    runText_agrees limits words stop⟩
  · rw [Text.decodeFile?_toUTF8, String.toList_ofList]
  have alike := program_alike words stop limits settings.trace [] []
  change Compared _ (program limits (.ofSource settings.trace source))
    (program limits (.ofSource settings.trace source')) at alike
  cases result : program limits (.ofSource settings.trace source) with
  | ok node reader =>
    rw [result] at alike
    cases result' : program limits (.ofSource settings.trace source') with
    | ok node' reader' =>
      rw [result'] at alike
      cases alike with
      | read trees =>
        have bares := congrArg Node.bare trees
        rwa [Node.bare_moved, Node.bare_moved] at bares
    | error fault' reader' =>
      rw [result'] at alike
      cases alike
  | error fault reader =>
    rw [result] at alike
    cases result' : program limits (.ofSource settings.trace source') with
    | ok node' reader' =>
      rw [result'] at alike
      cases alike with
      | deeper uneven => exact uneven.elim
    | error fault' reader' =>
      obtain ⟨faults, at_⟩ := exists_failsAt words stop result result'
      exact ⟨Fault.reports_alike faults, at_⟩

end Machine

end LoopLang
