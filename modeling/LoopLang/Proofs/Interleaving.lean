import LoopLang.Proofs.Showing

/-!
# Prompts and lines in one text

A queue keeps its prompts apart from the lines that are written; streams show both in one
text, in the order in which they came. A queue of lines and a stream that holds them, each
with a line feed after it, cannot be told apart by a program: each reading takes the same
line from both or finds both at their end. So the runs go the same way and come to the same
prompts and lines in the same order, which the queue keeps apart and the streams do not.
-/
namespace LoopLang

namespace Console

/-- A line that a stream gives back as it was put there. -/
structure IsLine (line : String) : Prop where
  noFeed : '\n' ∉ line.toList
  noReturn : line.toList.getLast? ≠ some '\r'

/-- The text of some lines, each with a line feed after it. -/
def textOf (lines : List String) : List Char :=
  lines.flatMap fun line => line.toList ++ ['\n']

theorem splitLine_line {line : List Char} (noFeed : '\n' ∉ line) (rest : List Char) :
    splitLine (line ++ '\n' :: rest) = (line ++ ['\n'], rest) := by
  have each : ∀ c ∈ line, (c != '\n') = true := by
    intro c member
    rw [bne_iff_ne]
    rintro rfl
    exact noFeed member
  have taken : (line ++ '\n' :: rest).takeWhile (· != '\n') = line := by
    simp [List.takeWhile_append_of_pos each]
  simp [splitLine, taken]

theorem dropLineEnds_line {line : List Char} (noFeed : '\n' ∉ line)
    (noReturn : line.getLast? ≠ some '\r') : dropLineEnds (line ++ ['\n']) = line := by
  have kept : line.reverse.dropWhile isLineEnd = line.reverse := by
    cases reversed : line.reverse with
    | nil => rfl
    | cons c rest =>
      have last : line.getLast? = some c := by rw [← List.head?_reverse, reversed, List.head?_cons]
      have notFeed : c ≠ '\n' := by
        rintro rfl
        exact noFeed (List.mem_of_getLast? last)
      have notReturn : c ≠ '\r' := by
        rintro rfl
        exact noReturn last
      simp [isLineEnd, notFeed, notReturn]
  simp [dropLineEnds, isLineEnd, kept]

/-- A queue and streams with the same lines left to read. -/
inductive Beside : Console → Console → Prop where
  | intro {unread written prompts pieces} (lines : ∀ line ∈ unread, IsLine line) :
    Beside (.queue unread written prompts) (.streams (textOf unread) pieces)

variable {console console' : Console}

theorem Beside.readLine (beside : Beside console console') (prompt : String) :
    Matched (fun came came' => came'.1 = came.1 ∧ Beside came.2 came'.2)
      (console.readLine prompt) (console'.readLine prompt) := by
  cases beside with
  | @intro unread _ _ pieces lines =>
    cases unread with
    | nil => exact .ok ⟨rfl, .intro lines⟩
    | cons line unread =>
      rw [List.forall_mem_cons] at lines
      obtain ⟨⟨noFeed, noReturn⟩, lines⟩ := lines
      have text : textOf (line :: unread) = line.toList ++ '\n' :: textOf unread := by
        simp [textOf]
      have given : (streams (textOf (line :: unread)) pieces).readLine prompt =
          .ok (some line, streams (textOf unread) (prompt :: pieces)) := by
        simp [Console.readLine, text, splitLine_line noFeed, dropLineEnds_line noFeed noReturn]
      rw [given]
      exact .ok ⟨rfl, .intro lines⟩

theorem Beside.writeLine (beside : Beside console console') (line : String) :
    Matched Beside (console.writeLine line) (console'.writeLine line) := by
  cases beside with
  | intro lines => exact .ok (.intro lines)

theorem Beside.shows_eq (beside : Beside console console') (shown : Shown) :
    console'.shows shown = console.shows shown := by
  cases beside
  rfl

end Console

namespace Scene

/-- Scenes with the same variables, and a queue beside streams. -/
structure Beside (scene scene' : Scene) : Prop where
  store : scene'.store = scene.store
  console : Console.Beside scene.console scene'.console

/-- What an action on scenes that are beside each other has in common. -/
structure Common (act : Scene → String → Option Fault × Scene)
    (shows : Scene → String → List Shown) (scene scene' : Scene) (text : String) : Prop where
  fault : (act scene' text).1 = (act scene text).1
  after : Beside (act scene text).2 (act scene' text).2
  shows : shows scene' text = shows scene text

variable {scene scene' : Scene}

theorem Beside.readName (beside : Beside scene scene') (prompt name : String) :
    Common (Scene.readName prompt) (Scene.promptFor prompt) scene scene' name := by
  cases fills : Prompt.fill prompt (.text name) with
  | error fault =>
    constructor <;> simp only [Scene.readName, promptFor, fills]
    exact beside
  | ok text =>
    have shows := beside.console.shows_eq (.prompt text)
    have taken := beside.console.readLine text
    generalize took : scene.console.readLine text = result at taken
    generalize took' : scene'.console.readLine text = result' at taken
    cases taken with
    | error fault =>
      constructor <;> simp only [Scene.readName, promptFor, fills, took, took', shows]
      exact beside
    | @ok came came' both =>
      obtain ⟨_, console⟩ := came
      obtain ⟨line?, console'⟩ := came'
      obtain ⟨rfl, consoles⟩ := both
      cases number : readNumber (.text name) line? with
      | error fault =>
        constructor <;> simp only [Scene.readName, promptFor, fills, took, took', number, shows]
        exact ⟨beside.store, consoles⟩
      | ok value =>
        constructor <;> simp only [Scene.readName, promptFor, fills, took, took', number, shows]
        exact ⟨by rw [beside.store], consoles⟩

theorem Beside.writeLine (beside : Beside scene scene') (line : String) :
    Common Scene.writeLine Scene.lineFor scene scene' line := by
  have shows := beside.console.shows_eq (.line line)
  have written := beside.console.writeLine line
  generalize wrote : scene.console.writeLine line = result at written
  generalize wrote' : scene'.console.writeLine line = result' at written
  cases written with
  | error fault =>
    constructor <;> simp only [Scene.writeLine, lineFor, wrote, wrote', shows]
    exact beside
  | ok consoles =>
    constructor <;> simp only [Scene.writeLine, lineFor, wrote, wrote', shows]
    exact ⟨beside.store, consoles⟩

theorem Beside.printName (beside : Beside scene scene') (name : String) :
    Common Scene.printName Scene.valueFor scene scene' name := by
  obtain ⟨fault, after, shows⟩ :=
    beside.writeLine (name ++ "=" ++ Number.printed (scene.store.get (some name)))
  constructor <;> simp only [Scene.printName, valueFor, beside.store]
  · exact fault
  · exact after
  · exact shows

theorem Beside.each {act : Scene → String → Option Fault × Scene}
    {shows : Scene → String → List Shown}
    (common : ∀ {scene scene'}, Beside scene scene' → ∀ text, Common act shows scene scene' text)
    (beside : Beside scene scene') {texts : List String} {fault? : Option Fault} {after : Scene}
    (did : scene.each act texts = (fault?, after)) :
    (∃ after', scene'.each act texts = (fault?, after') ∧ Beside after after') ∧
      scene'.showEach act shows texts = scene.showEach act shows texts := by
  induction texts generalizing scene scene' with
  | nil =>
    cases did
    exact ⟨⟨scene', rfl, beside⟩, rfl⟩
  | cons text rest ih =>
    obtain ⟨fault, after, shows⟩ := common beside text
    rw [Scene.each] at did ⊢
    rw [showEach, showEach, shows]
    generalize acted : act scene text = came at did fault after
    generalize acted' : act scene' text = came' at fault after
    obtain ⟨fault?, middle⟩ := came
    obtain ⟨_, middle'⟩ := came'
    cases fault
    cases fault? with
    | none =>
      obtain ⟨rest, shows⟩ := ih after did
      exact ⟨rest, congrArg (_ ++ ·) shows⟩
    | some fault =>
      cases did
      exact ⟨⟨middle', rfl, after⟩, rfl⟩

end Scene

section Shows

variable {prompt : String} {node : Node} {scene scene' after : Scene} {outcome : Completion}
  {shown : List Shown}

/-- What is shown does not depend on which of two consoles is there. -/
theorem Shows.beside (shows : Shows prompt node scene outcome after shown)
    (beside : Scene.Beside scene scene') :
    ∃ after', Shows prompt node scene' outcome after' shown ∧ Scene.Beside after after' := by
  induction shows generalizing scene' with
  | last _ ih => exact (ih beside).imp fun _ => .imp_left .last
  | next _ _ ih ih' =>
    obtain ⟨middle', shows, beside⟩ := ih beside
    exact (ih' beside).imp fun _ => .imp_left (.next shows)
  | stop _ leaves ih => exact (ih beside).imp fun _ => .imp_left (.stop · leaves)
  | consequent holds _ ih =>
    rw [← beside.store] at holds
    exact (ih beside).imp fun _ => .imp_left (.consequent holds)
  | alternate fails _ ih =>
    rw [← beside.store] at fails
    exact (ih beside).imp fun _ => .imp_left (.alternate fails)
  | undecided faulty =>
    rw [← beside.store] at faulty
    exact ⟨scene', .undecided faulty, beside⟩
  | fi => exact ⟨scene', .fi, beside⟩
  | «otherwise» _ ih => exact (ih beside).imp fun _ => .imp_left .otherwise
  | again _ _ ih ih' =>
    obtain ⟨middle', shows, beside⟩ := ih beside
    exact (ih' beside).imp fun _ => .imp_left (.again shows)
  | leave _ leaves ih => exact (ih beside).imp fun _ => .imp_left (.leave · leaves)
  | exit => exact ⟨scene', .exit, beside⟩
  | exitTo given => exact ⟨scene', .exitTo given, beside⟩
  | assign comesTo =>
    rw [← beside.store] at comesTo
    exact ⟨_, .assign comesTo, by rw [beside.store], beside.console⟩
  | noValue faulty =>
    rw [← beside.store] at faulty
    exact ⟨scene', .noValue faulty, beside⟩
  | read holds reads =>
    obtain ⟨⟨after', reads', beside'⟩, same⟩ :=
      beside.each (fun beside => beside.readName prompt) reads
    exact ⟨after', same ▸ .read holds reads', beside'⟩
  | print holds prints =>
    obtain ⟨⟨after', prints', beside'⟩, same⟩ := beside.each Scene.Beside.printName prints
    exact ⟨after', same ▸ .print holds prints', beside'⟩

end Shows

/-- Worlds that are the same but for their consoles, a queue beside streams. -/
structure World.Beside (world world' : World) : Prop where
  state : world'.state = world.state
  settings : world'.settings = world.settings
  log : world'.log = world.log
  console : Console.Beside world.console world'.console

theorem unnoticed_beside : Unnoticed World.Beside where
  prompt beside := by rw [beside.settings]
  signal beside := by rw [beside.state]
  noted {world world'} message beside := by
    have tracing : world'.settings.trace = world.settings.trace := by rw [beside.settings]
    simp only [World.note, tracing]
    split
    · exact { beside with log := congrArg (_ :: ·) beside.log }
    · exact beside
  warned message beside := { beside with log := congrArg (_ :: ·) beside.log }
  requested target beside := { beside with state := by simp only [beside.state] }
  finished beside := { beside with state := by simp only [beside.state] }
  read prompt beside :=
    (beside.console.readLine prompt).imp fun _ _ fits =>
      ⟨fits.1, { beside with console := fits.2 }⟩
  written line beside :=
    (beside.console.writeLine line).imp fun _ _ console => { beside with console }

namespace Machine

variable {program : Node} {world world' : World} {shown : List Shown}

theorem Showed.beside (showed : Showed program world shown) (beside : World.Beside world world') :
    Showed program world' shown := by
  cases showed with
  | nothing breaking => exact .nothing (by rwa [beside.state])
  | @statements body span _ outcome after shown running shows =>
    have scenes : Scene.Beside ⟨world.state.store, world.console⟩
        ⟨world'.state.store, world'.console⟩ :=
      ⟨by rw [beside.state], beside.console⟩
    obtain ⟨after', shows', beside'⟩ := shows.beside scenes
    rw [← beside.settings] at shows'
    obtain ⟨fault?, last, did⟩ :
        ∃ fault? last, after.each Scene.writeLine outcome.unmatched = (fault?, last) :=
      ⟨_, _, rfl⟩
    obtain ⟨-, told⟩ := beside'.each Scene.Beside.writeLine did
    rw [← told]
    exact .statements (by rwa [beside.state]) shows'

/-- A program that was read runs on a queue of lines as it does on streams whose input is the
text of these lines: the runs come to the same fault or none, the same state and the same log, or
both go on for ever. Of the input there is left the text of the lines that the queue has left.
The program shows the same prompts and lines in the same order on both. The queue has kept
the lines among them and the prompts among them, and what was written on the streams is all
of them in their order. -/
theorem run_interleaved (limits : Limits) (runnable : limits.Runnable) (tracing upcase : Bool)
    (text : String) (program : Node) (reader : Reader)
    (parsed : Reading.program limits (.ofSource tracing (.ofText upcase text)) =
      .ok program reader)
    (state : State) (settings : Settings) (log : List Record) (lines : List String)
    (each : ∀ line ∈ lines, Console.IsLine line) :
    let world : World := ⟨state, .ofLines lines, settings, log⟩
    let world' : World := ⟨state, .ofInput (Console.textOf lines), settings, log⟩
    let Same (last last' : World) : Prop :=
      last'.state = last.state ∧ last'.log = last.log ∧
      (∃ shown, Showed program world shown) ∧
      ∃ unread, ∀ shown, Showed program world shown →
          Showed program world' shown ∧
          last.console = .queue unread (shown.filterMap Shown.line?).reverse
            (shown.filterMap Shown.prompt?).reverse ∧
          last'.console = .streams (Console.textOf unread) (shown.map Shown.inText).reverse ∧
          last'.console.transcript = String.join (shown.map Shown.inText)
    (∀ fault? last, Ends program world fault? last →
      ∃ last', Ends program world' fault? last' ∧ Same last last') ∧
    (∀ fault? last', Ends program world' fault? last' →
      ∃ last, Ends program world fault? last ∧ Same last last') ∧
    (Diverges program world ↔ Diverges program world') := by
  intro world world' Same
  have beside : World.Beside world world' := ⟨rfl, rfl, rfl, .intro each⟩
  obtain ⟨there, back, endless⟩ := @ends_tracked _ program _ _ unnoticed_beside
    (fun name _ _ _ beside => by rw [beside.state])
    (fun name _ value _ _ beside => { beside with state := by simp only [beside.state] }) beside
  have same {fault? last last'} (ends : Ends program world fault? last)
      (ends' : Ends program world' fault? last') (after : World.Beside last last') :
      Same last last' := by
    have consoles := after.console
    have keeps {shown} (showed : Showed program world shown) :
        Console.Keeps shown world.console last.console :=
      showed.keeps runnable parsed ends
    have keeps' {shown} (showed : Showed program world' shown) :
        Console.Keeps shown world'.console last'.console :=
      showed.keeps runnable parsed ends'
    refine ⟨after.state, after.log, ?_⟩
    generalize last.console = console at consoles keeps
    generalize last'.console = console' at consoles keeps'
    cases consoles with
    | @intro unread written prompts pieces =>
      refine ⟨exists_showed runnable parsed ends, unread, fun shown showed => ?_⟩
      have showed' := showed.beside beside
      cases keeps showed
      cases keeps' showed'
      exact ⟨showed', by simp, by simp, by simp [Console.transcript]⟩
  refine ⟨?_, ?_, endless⟩
  · intro fault? last ends
    obtain ⟨last', ends', after⟩ := there fault? last ends
    exact ⟨last', ends', same ends ends' after⟩
  · intro fault? last' ends'
    obtain ⟨last, ends, after⟩ := back fault? last' ends'
    exact ⟨last, ends, same ends ends' after⟩

/-- A line between two prompts, of which the second finds nothing left to read. -/
theorem two_prompts_interleaved :
    let shown : List Shown :=
      [.prompt "? ", .line ("B" ++ "=" ++ Number.printed 0), .prompt "? "]
    ∃ program reader last last',
      Reading.program .standard (.ofSource false (.ofText false "READ A; PRINT B; READ A.")) =
        .ok program reader ∧
      (∀ line ∈ ["1"], Console.IsLine line) ∧
      Ends program ⟨.initial, .ofLines ["1"], { prompt := "? " }, []⟩
        (some (.invalidInput "A" none)) last ∧
      Ends program ⟨.initial, .ofInput ['1', '\n'], { prompt := "? " }, []⟩
        (some (.invalidInput "A" none)) last' ∧
      Showed program ⟨.initial, .ofLines ["1"], { prompt := "? " }, []⟩ shown ∧
      last'.console.transcript = String.join (shown.map Shown.inText) := by
  intro shown
  have showed (a b c d e f g) : Showed (.program (.sequence (.read (.ofNames ["A"]) a) (.sequence
      (.print (.ofNames ["B"]) b) (.sequence (.read (.ofNames ["A"]) c) .absent d) e) f) g)
      ⟨.initial, .ofLines ["1"], { prompt := "? " }, []⟩ shown := by
    have asked : Shows "? " (.read (.ofNames ["A"]) a) ⟨.empty, .ofLines ["1"]⟩ .normal _
        [.prompt "? "] :=
      .read rfl rfl
    have told (value : Float) : Shows "? " (.print (.ofNames ["B"]) b)
        ⟨⟨[(some "A", value)]⟩, .queue [] [] ["? "]⟩ .normal _
        [.line ("B" ++ "=" ++ Number.printed 0)] :=
      .print rfl rfl
    have again (store : Store) (written prompts : List String) : Shows "? "
        (.read (.ofNames ["A"]) c) ⟨store, .queue [] written prompts⟩
        (.failed (.invalidInput "A" none)) _ [.prompt "? "] :=
      .read rfl rfl
    exact @Showed.statements _ g ⟨.initial, .ofLines ["1"], { prompt := "? " }, []⟩
      (.failed (.invalidInput "A" none)) _ shown rfl
      (.next asked (.next (told _) (.last (again _ _ _))))
  obtain ⟨program, reader, last, parsed, ends, showed⟩ :
      ∃ program reader last,
        Reading.program .standard (.ofSource false (.ofText false "READ A; PRINT B; READ A.")) =
          .ok program reader ∧
        Ends program ⟨.initial, .ofLines ["1"], { prompt := "? " }, []⟩
          (some (.invalidInput "A" none)) last ∧
        Showed program ⟨.initial, .ofLines ["1"], { prompt := "? " }, []⟩ shown :=
    ⟨_, _, _, rfl, ⟨0, rfl⟩, showed _ _ _ _ _ _ _⟩
  have each : ∀ line ∈ ["1"], Console.IsLine line := by
    intro line member
    rw [List.mem_singleton.mp member]
    exact ⟨by decide, by decide⟩
  have interleaved := run_interleaved .standard Limits.runnable_standard false false _ program
    reader parsed .initial { prompt := "? " } [] ["1"] each
  obtain ⟨last', ends', -, -, -, unread, orders⟩ := interleaved.1 _ last ends
  obtain ⟨-, -, -, text⟩ := orders shown showed
  exact ⟨program, reader, last, last', parsed, each, ends, ends', showed, text⟩

end Machine

end LoopLang
