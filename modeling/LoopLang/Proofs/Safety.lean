import LoopLang.Proofs.Executing
import LoopLang.Proofs.Parsing
import LoopLang.Proofs.Typing

/-!
# What can go wrong in a run

On a console, every name can be asked for and every line can be written. A program that was
read then runs into a few faults only: what its expressions come to, and lines that are no
numbers. Each of these is told to the user, unless a line passes for a number and is none.
-/
namespace LoopLang

theorem Reading.typed_of_ok {limits : Limits} {tracing : Bool} {source : Source} {program : Node}
    {reader : Reader}
    (parsed : Reading.program limits (.ofSource tracing source) = .ok program reader) :
    Typed .program program := by
  obtain ⟨own, -, proper, derived⟩ := derives_of_program parsed
  exact derived.typed proper

namespace Prompt

variable {fillSpec : List Char → Except Fault (List Char)}

theorem fillPieces_plain {name : Thing} {rest : List Piece} {filled : List Char}
    (fills : fillPieces fillSpec name rest = .ok filled) (chars : List Char) :
    fillPieces fillSpec name (chars.map .plain ++ rest) = .ok (chars ++ filled) := by
  induction chars with
  | nil => exact fills
  | cons c chars ih =>
    rw [List.map_cons, List.cons_append, fillPieces, ih]
    rfl

theorem fillField_name (plain : fillSpec [] = .ok []) (name : String) :
    fillField fillSpec (.ofNode (.text name)) { path := ['n', 'a', 'm', 'e'] } =
      .ok name.toList := by
  have direct : pathAccesses ['n', 'a', 'm', 'e'] = [] := accesses.eq_1
  rw [fillField, direct, plain]
  rfl

theorem fillPieces_name (plain : fillSpec [] = .ok []) (name : String) (before after : List Char) :
    fillPieces fillSpec (.ofNode (.text name)) (before.map .plain ++
        (.field { path := ['n', 'a', 'm', 'e'] } :: (after.map .plain ++ []))) =
      .ok (before ++ (name.toList ++ after)) := by
  apply fillPieces_plain
  rw [fillPieces, fillField_name plain, fillPieces_plain rfl, List.append_nil]
  rfl

theorem fill_default (name : String) :
    fill ({} : Settings).prompt (.text name) = .ok ("IN (" ++ name ++ ") <== : ") := by
  have cut : pieces ({} : Settings).prompt.toList = "IN (".toList.map .plain ++
      (.field { path := ['n', 'a', 'm', 'e'] } :: (") <== : ".toList.map .plain ++ [])) := rfl
  rw [fill, fillNested, cut, fillPieces_name]
  · simp only [Except.map, String.ofList_append, String.ofList_toList, String.append_assoc]
  · rfl

end Prompt

namespace Console

def IsQueue (console : Console) : Prop :=
  ∃ unread written prompts, console = .queue unread written prompts

theorem IsQueue.ne_missing {console : Console} (isQueue : console.IsQueue) :
    console ≠ .missing := by
  obtain ⟨unread, written, prompts, rfl⟩ := isQueue
  nofun

theorem IsQueue.writeLine {console after : Console} {line : String} (isQueue : console.IsQueue)
    (written : console.writeLine line = .ok after) : after.IsQueue := by
  obtain ⟨unread, lines, prompts, rfl⟩ := isQueue
  cases written
  exact ⟨_, _, _, rfl⟩

theorem IsQueue.readLine {console : Console} {shown : String} {came : Option String × Console}
    (isQueue : console.IsQueue) (read : console.readLine shown = .ok came) : came.2.IsQueue := by
  obtain ⟨unread, lines, prompts, rfl⟩ := isQueue
  cases unread <;> cases read <;> exact ⟨_, _, _, rfl⟩

theorem safe_writeLine {console : Console} (present : console ≠ .missing) (line : String) :
    Safe Fault.Expected (· ≠ .missing) (console.writeLine line) := by
  cases console with
  | queue | streams => nofun
  | missing => exact absurd rfl present

theorem safe_readLine {console : Console} (present : console ≠ .missing) (shown : String) :
    Safe Fault.Expected (fun read => read.2 ≠ .missing) (console.readLine shown) := by
  cases console with
  | queue unread => cases unread <;> nofun
  | streams unread =>
    rw [readLine]
    split <;> nofun
  | missing => exact absurd rfl present

end Console

/-- A world in which every name can be asked for and every line can be written. -/
structure World.Ready (world : World) : Prop where
  prompt : world.settings.prompt = ({} : Settings).prompt
  console : world.console ≠ .missing

namespace Machine

variable {α β : Type} {m : Machine α} {next : α → Machine β} {holds : α → Prop}
  {holds' : β → Prop} {name node : Node} {steps depth : Nat}

/-- An action that keeps worlds ready and comes to a value as it should be, or ends with a
fault that can be expected. -/
def Guarded (m : Machine α) (holds : α → Prop) : Prop :=
  ∀ world, world.Ready → match m world with
    | .ok a last => last.Ready ∧ holds a
    | .error (.fault fault) _ => fault.Expected
    | .error .outOfSteps _ => True

/-- An action of which only the faults matter. -/
abbrev Harmless (m : Machine Unit) : Prop :=
  Guarded m fun _ => True

theorem guarded_pure {a : α} (fits : holds a) : Guarded (pure a) holds :=
  fun _ ready => ⟨ready, fits⟩

theorem guarded_fail {fault : Fault} (expected : fault.Expected) : Guarded (fail fault) holds :=
  fun _ _ => expected

theorem guarded_ofExcept {result : Except Fault α} (safe : Safe Fault.Expected holds result) :
    Guarded (ofExcept result) holds := by
  cases result with
  | ok a => exact guarded_pure safe
  | error fault => exact guarded_fail safe

theorem guarded_bind (first : Guarded m holds) (rest : ∀ a, holds a → Guarded (next a) holds') :
    Guarded (m >>= next) holds' := by
  intro world ready
  have came := first world ready
  cases result : m world with
  | ok a middle =>
    rw [result] at came
    rw [bind_ok result]
    exact rest a came.2 middle came.1
  | error halt last =>
    rw [result] at came
    rw [bind_error result]
    cases halt <;> exact came

theorem guarded_get : Guarded get World.Ready :=
  fun _ ready => ⟨ready, ready⟩

theorem harmless_modify {change : World → World}
    (keeps : ∀ world, world.Ready → (change world).Ready) : Harmless (modify change) :=
  fun world ready => ⟨keeps world ready, trivial⟩

theorem harmless_note (message : String) : Harmless (note message) := by
  apply harmless_modify
  intro world ready
  unfold World.note
  split
  · exact ⟨ready.prompt, ready.console⟩
  · exact ready

theorem harmless_warn (message : String) : Harmless (warn message) :=
  harmless_modify fun _ ready => ⟨ready.prompt, ready.console⟩

theorem harmless_changeState (change : State → State) : Harmless (changeState change) :=
  harmless_modify fun _ ready => ⟨ready.prompt, ready.console⟩

theorem guarded_signal : Guarded signal fun _ => True :=
  guarded_bind guarded_get fun _ _ => guarded_pure trivial

theorem harmless_setConsole {console : Console} (present : console ≠ .missing) :
    Harmless (modify fun world => { world with console }) :=
  harmless_modify fun _ ready => ⟨ready.prompt, present⟩

theorem harmless_writeLine (line : String) : Harmless (writeLine line) := by
  apply guarded_bind guarded_get
  intro world ready
  exact guarded_bind (guarded_ofExcept (Console.safe_writeLine ready.console line))
    fun _ => harmless_setConsole

theorem guarded_readLine (text : String) : Guarded (readLine (.text text)) fun _ => True := by
  apply guarded_bind guarded_get
  intro world ready
  have fills : Safe Fault.Expected (fun _ => True)
      (Prompt.fill world.settings.prompt (.text text)) := by
    rw [ready.prompt, Prompt.fill_default]
    trivial
  apply guarded_bind (guarded_ofExcept fills)
  intro shown _
  apply guarded_bind guarded_get
  intro world ready
  apply guarded_bind (guarded_ofExcept (Console.safe_readLine ready.console shown))
  rintro ⟨line, console⟩ present
  exact guarded_bind (harmless_setConsole present) fun _ _ => guarded_pure trivial

theorem safe_readNumber (text : String) (line : Option String) :
    Safe Fault.Expected (fun _ => True) (readNumber (.text text) line) := by
  unfold readNumber
  split
  · exact .invalidInput
  · split
    · exact .invalidInput
    · split
      · trivial
      · exact .unreadableNumber

theorem harmless_readName (text : String) : Harmless (readName (.text text)) := by
  apply guarded_bind (guarded_readLine text)
  intro line _
  apply guarded_bind (guarded_ofExcept (safe_readNumber text line))
  intro value _
  have named : Safe Fault.Expected (fun _ => True) (Node.text text).named := trivial
  exact guarded_bind (guarded_ofExcept named) fun _ _ => harmless_changeState _

theorem harmless_printName (text : String) : Harmless (printName (.text text)) := by
  have display : Safe Fault.Expected (fun _ => True) (Node.text text).display := trivial
  apply guarded_bind (guarded_ofExcept display)
  intro line _
  apply guarded_bind guarded_get
  intro world _
  have value : Safe Fault.Expected (fun _ => True)
      (Node.lookUp world.state.store.get (.text text)) := trivial
  exact guarded_bind (guarded_ofExcept value) fun _ _ => harmless_writeLine _

theorem harmless_forNames {act : Node → Machine Unit} {names : List Node}
    (each : ∀ name ∈ names, Harmless (act name)) : Harmless (forNames act names) := by
  induction names with
  | nil => exact guarded_pure trivial
  | cons name rest ih =>
    have parts := List.forall_mem_cons.mp each
    exact guarded_bind parts.1 fun _ _ => ih parts.2

theorem texts_of_typed (typed : Typed .names node) :
    (∀ name ∈ node.elements, ∃ text, name = .text text) ∧ node.names = node.elements ∧
      node.namesFault? = none := by
  generalize list : Category.names = category at typed
  induction typed with
  | @oneName name => exact ⟨by simp [Node.elements], rfl, rfl⟩
  | moreNames _ ih =>
    refine ⟨?_, rfl, rfl⟩
    rw [Node.elements, List.forall_mem_cons]
    exact ⟨⟨_, rfl⟩, (ih list).1⟩
  | _ => cases list

theorem harmless_forNamesOf {act : Node → Machine Unit}
    (each : ∀ text, Harmless (act (.text text))) (typed : Typed .names node) :
    Harmless (forNamesOf act node) := by
  obtain ⟨texts, names, noFault⟩ := texts_of_typed typed
  have all : ∀ name ∈ node.names, Harmless (act name) := by
    intro name member
    rw [names] at member
    obtain ⟨text, rfl⟩ := texts name member
    exact each text
  rw [forNamesOf, noFault]
  exact guarded_bind (harmless_forNames all) fun _ _ => guarded_pure trivial

theorem harmless_tellUnmatched : Harmless tellUnmatched := by
  apply guarded_bind guarded_signal
  intro pending _
  split
  · apply guarded_bind (harmless_warn _)
    intro _ _
    apply guarded_bind (harmless_writeLine _)
    intro _ _
    split
    · exact harmless_writeLine _
    · exact guarded_pure trivial
  · exact guarded_pure trivial

theorem harmless_runList {run : Node → Machine Unit}
    (each : ∀ node, Typed .statement node → Harmless (run node)) (typed : Typed .statements node) :
    Harmless (runList run node) := by
  generalize list : Category.statements = category at typed
  induction typed with
  | last only =>
    refine guarded_bind (each _ only) fun _ _ => guarded_bind guarded_signal fun pending _ => ?_
    split <;> exact guarded_pure trivial
  | next head _ _ ih =>
    refine guarded_bind (each _ head) fun _ _ => guarded_bind guarded_signal fun pending _ => ?_
    split
    · exact guarded_pure trivial
    · exact ih list
  | _ => cases list

theorem harmless_repeatBody {label : Node} {body : Machine Unit} (each : Harmless body)
    (rounds : Nat) : Harmless (repeatBody label body rounds) := by
  induction rounds with
  | zero => exact fun _ _ => trivial
  | succ rounds ih =>
    refine guarded_bind each fun _ _ => guarded_bind guarded_signal fun pending _ => ?_
    split
    · apply guarded_bind (harmless_note _)
      intro _ _
      split
      · exact harmless_changeState _
      · exact guarded_pure trivial
    · exact ih

theorem harmless_unlessBreaking {action : Machine Unit} (harmless : Harmless action) :
    Harmless (signal >>= fun pending => if pending.isBreaking then pure () else action) := by
  apply guarded_bind guarded_signal
  intro pending _
  split
  · exact guarded_pure trivial
  · exact harmless

/-- What executing a tree of a category comes to. -/
def Executes (steps depth : Nat) (node : Node) : Category → Prop
  | .program | .statements | .statement | .otherwise => Harmless (execute steps depth node)
  | _ => True

/-- Every statement that was read can be executed in every world that is ready. -/
theorem executes_of_typed {category : Category} (typed : Typed category node) (steps depth : Nat) :
    Executes steps depth node category := by
  induction depth generalizing category node with
  | zero =>
    have exhausted : Harmless (execute steps 0 node) := guarded_fail (.expression .stackExhausted)
    cases category <;> first | exact exhausted | trivial
  | succ depth ih =>
    cases typed with
    | program statements =>
      exact harmless_unlessBreaking (guarded_bind (ih statements) fun _ _ => harmless_tellUnmatched)
    | last only =>
      exact harmless_unlessBreaking
        (harmless_runList (fun _ statement => ih statement) (.last only))
    | next head others =>
      exact harmless_unlessBreaking
        (harmless_runList (fun _ statement => ih statement) (.next head others))
    | branch condition consequent alternate =>
      apply harmless_unlessBreaking
      apply guarded_bind (guarded_bind guarded_get fun _ _ =>
        guarded_ofExcept ((condition.evaluates depth).mono fun _ => .expression))
      intro decision _
      apply guarded_bind (harmless_note _)
      intro _ _
      split
      · exact ih consequent
      · exact ih alternate
    | fi => exact harmless_unlessBreaking (guarded_pure trivial)
    | «otherwise» statements =>
      cases statements with
      | last only => exact harmless_unlessBreaking (ih (.last only))
      | next head others => exact harmless_unlessBreaking (ih (.next head others))
    | loop statements => exact harmless_unlessBreaking (harmless_repeatBody (ih statements) steps)
    | exit => exact harmless_unlessBreaking (harmless_changeState _)
    | read list => exact harmless_unlessBreaking (harmless_forNamesOf harmless_readName list)
    | print list => exact harmless_unlessBreaking (harmless_forNamesOf harmless_printName list)
    | @assign name _ _ sum =>
      apply harmless_unlessBreaking
      apply guarded_bind (guarded_bind guarded_get fun _ _ =>
        guarded_ofExcept ((sum.evaluates depth).mono fun _ => .expression))
      rintro value ⟨x, rfl⟩
      have value : Safe Fault.Expected (fun _ => True) (needed (some x)) := trivial
      apply guarded_bind (guarded_ofExcept value)
      intro number _
      have named : Safe Fault.Expected (fun _ => True) (Node.named (.text name)) := trivial
      exact guarded_bind (guarded_ofExcept named) fun _ _ => harmless_changeState _
    | _ => trivial

theorem reported_of_expected {fault : Fault} (expected : fault.Expected) :
    fault.ofRun = .unreadableNumber ∨
      fault.ofRun.report?.map (fun report => (report.origin, report.code)) ∈
        [some (.running, .divisionByZero), some (.running, .nestingTooDeep),
          some (.input, .invalidInput)] := by
  cases expected with
  | unreadableNumber => exact .inl rfl
  | expression evaluated =>
    right
    cases evaluated <;> simp [Fault.ofRun, Fault.report?]
  | invalidInput =>
    right
    simp [Fault.ofRun, Fault.report?]

theorem reported_of_ready {program : Node} (typed : Typed .program program) {steps : Nat}
    {world last : World} (ready : world.Ready) {fault : Fault}
    (failed : run steps program world = .error (.fault fault) last) :
    fault = .unreadableNumber ∨
      fault.report?.map (fun report => (report.origin, report.code)) ∈
        [some (.running, .divisionByZero), some (.running, .nestingTooDeep),
          some (.input, .invalidInput)] := by
  have harmless : Harmless (execute steps depthLimit program) :=
    executes_of_typed typed steps depthLimit
  have came := harmless world ready
  rw [run] at failed
  cases result : execute steps depthLimit program world with
  | ok value middle =>
    rw [result] at failed
    cases failed
  | error halt middle =>
    rw [result] at failed came
    cases halt with
    | outOfSteps => cases failed
    | fault inner =>
      simp only [reportDepth_fault] at failed
      cases failed
      exact reported_of_expected came

theorem reported_of_typed {program : Node} (typed : Typed .program program) {steps : Nat}
    {world last : World}
    (ready : world.settings.prompt = ({} : Settings).prompt ∧ world.console.IsQueue)
    {fault : Fault} (failed : run steps program world = .error (.fault fault) last) :
    fault = .unreadableNumber ∨
      fault.report?.map (fun report => (report.origin, report.code)) ∈
        [some (.running, .divisionByZero), some (.running, .nestingTooDeep),
          some (.input, .invalidInput)] :=
  reported_of_ready typed ⟨ready.1, ready.2.ne_missing⟩ failed

/-- A text that can be read is a program of the right shape: nothing in it is missing, every
operator is one of its level, and every number is there and has no sign. Divisions are made
only by numbers that are not zero. So with prepared lines to read, and with the prompt that
is shown unless another one is chosen, the only faults of a run are the reported ones for a
division by zero, for nesting too deep and for a line that is no number, and the one for a
line that is a numeral for one test of it but not for the other. -/
theorem typed_of_parsed (limits : Limits) (tracing upcase : Bool) (text : String) (program : Node)
    (reader : Reader)
    (parsed : Reading.program limits (.ofSource tracing (.ofText upcase text)) =
      .ok program reader) :
    Typed .program program ∧
    (∀ place dividend divisor quotient, divide place dividend divisor = .ok quotient →
      ∃ x y, dividend = some x ∧ divisor = some y ∧ (y == 0) = false ∧ quotient = x / y) ∧
    ∀ (world : World) (lines written prompts : List String), world.state.signal = .running →
      world.settings.prompt = "IN (\x7bname\x7d) <== : " →
      world.console = .queue lines written prompts →
      ∀ steps fault last, run steps program world = .error (.fault fault) last →
        fault = .unreadableNumber ∨
          fault.report?.map (fun report => (report.origin, report.code)) ∈
            [some (.running, .divisionByZero), some (.running, .nestingTooDeep),
              some (.input, .invalidInput)] := by
  have typed := Reading.typed_of_ok parsed
  refine ⟨typed, fun _ _ _ _ => divide_eq_ok, ?_⟩
  intro world lines written prompts _ prompt queue steps fault last failed
  exact reported_of_typed typed ⟨prompt, ⟨_, _, _, queue⟩⟩ failed

/-- A number is divided by a variable that was never written. -/
theorem reciprocal_typed : ∃ program reader fault last,
    Reading.program .standard (.ofSource false (.ofText false "B := 1 / A.")) = .ok program reader ∧
      Typed .program program ∧
      (divide none (some 1) (some 2) = .ok (1 / 2) ∧
        ∃ x y, some (1 : Float) = some x ∧ some (2 : Float) = some y ∧ (y == 0) = false ∧
          (1 / 2 : Float) = x / y) ∧
      run 0 program ⟨.initial, .ofLines ["2"], {}, []⟩ = .error (.fault fault) last ∧
      (fault = .unreadableNumber ∨
        fault.report?.map (fun report => (report.origin, report.code)) ∈
          [some (.running, .divisionByZero), some (.running, .nestingTooDeep),
            some (.input, .invalidInput)]) := by
  have typed := typed_of_parsed .standard false false "B := 1 / A." _ _ rfl
  exact ⟨_, _, _, _, rfl, typed.1, ⟨rfl, typed.2.1 none _ _ _ rfl⟩, rfl,
    typed.2.2 ⟨.initial, .ofLines ["2"], {}, []⟩ ["2"] [] [] rfl rfl rfl 0 _ _ rfl⟩

end Machine

end LoopLang
