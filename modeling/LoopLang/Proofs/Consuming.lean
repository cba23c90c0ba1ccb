import LoopLang.Proofs.Prompting
import LoopLang.Proofs.Safety
import LoopLang.Proofs.Sequencing

/-!
# Lines that a program takes

For each name that is read a prompt is shown and then a line is taken, if one is left. So the
lines that a program takes are the first ones of the queue, as many as it has shown prompts;
only if it fails for want of a line, the last prompt has none. What was read before a fault is
kept, and nothing else changes.
-/
namespace LoopLang

/-- How many prompts found no line, if a run came to this fault or none. -/
def unanswered : Option Fault → Nat
  | some (.invalidInput _ none) => 1
  | _ => 0

theorem unanswered_of_notInput {fault : Fault} (notInput : fault.NotInput) :
    unanswered (some fault) = 0 := by
  unfold unanswered
  split
  · rename_i same
    cases same
    exact absurd rfl (notInput _ _)
  · rfl

theorem unanswered_ofRun (fault : Fault) :
    unanswered (some fault.ofRun) = unanswered (some fault) := by
  cases fault <;> rfl

theorem unanswered_of_line {name line : String} {fault : Fault}
    (failed : readNumber (.text name) (some line) = .error fault) :
    unanswered (some fault) = 0 := by
  unfold readNumber at failed
  split at failed
  · rename_i missing
    cases missing
  · split at failed
    · cases failed
      rfl
    · split at failed <;> cases failed
      rfl

namespace Console

/-- A queue after lines were taken from it and prompts were shown: one for each line, but for
so many that found none. -/
inductive Drawn (missed : Nat) : Console → Console → Prop where
  | queue {taken unread written written' shown prompts}
      (count : shown.length = taken.length + missed) (gone : missed ≠ 0 → unread = []) :
      Drawn missed (.queue (taken ++ unread) written prompts)
        (.queue unread written' (shown ++ prompts))

variable {first second third : Console} {missed : Nat}

theorem drawn_written (unread written written' prompts : List String) :
    Drawn 0 (.queue unread written prompts) (.queue unread written' prompts) :=
  @Drawn.queue 0 [] unread written written' [] prompts rfl (absurd rfl)

theorem Drawn.trans (drawn : Drawn 0 first second) (further : Drawn missed second third) :
    Drawn missed first third := by
  cases drawn with
  | @queue taken _ written _ shown prompts count =>
    generalize same : Console.queue _ _ _ = middle at further
    cases further with
    | @queue taken' unread _ written' shown' _ count' gone =>
      cases same
      rw [← List.append_assoc, ← List.append_assoc]
      exact .queue (by simp only [List.length_append]; omega) gone

theorem Drawn.isQueue (drawn : Drawn missed first second) : second.IsQueue := by
  cases drawn
  exact ⟨_, _, _, rfl⟩

theorem IsQueue.drawn (isQueue : first.IsQueue) : Drawn 0 first first := by
  obtain ⟨unread, written, prompts, rfl⟩ := isQueue
  exact drawn_written ..

end Console

namespace Scene

variable {scene after : Scene}

/-- What an action on a scene draws from a queue, whatever fault it comes to. -/
def Draws (act : Scene → String → Option Fault × Scene) : Prop :=
  ∀ scene text, scene.console.IsQueue →
    Console.Drawn (unanswered (act scene text).1) scene.console (act scene text).2.console

theorem draws_readName (prompt : String) : Draws (readName prompt) := by
  rintro ⟨store, console⟩ name ⟨unread, written, prompts, rfl⟩
  have fills := Prompt.inputless_fill prompt (.text name)
  unfold readName
  cases filled : Prompt.fill prompt (.text name) with
  | error fault =>
    rw [filled] at fills
    have answered : unanswered (some fault) = 0 := unanswered_of_notInput fills
    simp only [answered]
    exact Console.drawn_written ..
  | ok shown =>
    cases unread with
    | nil => exact @Console.Drawn.queue 1 [] [] written written [shown] prompts rfl fun _ => rfl
    | cons line rest =>
      have taken : Console.Drawn 0 (.queue (line :: rest) written prompts)
          (.queue rest written (shown :: prompts)) :=
        @Console.Drawn.queue 0 [line] rest written written [shown] prompts rfl (absurd rfl)
      simp only [Console.readLine]
      split
      · rename_i failed
        simp only [unanswered_of_line failed]
        exact taken
      · exact taken

theorem draws_writeLine : Draws writeLine := by
  rintro ⟨store, console⟩ line ⟨unread, written, prompts, rfl⟩
  exact Console.drawn_written ..

theorem draws_printName : Draws printName :=
  fun scene _ isQueue => draws_writeLine scene _ isQueue

theorem Draws.each {act : Scene → String → Option Fault × Scene} (draws : Draws act)
    {texts : List String} {fault? : Option Fault} (isQueue : scene.console.IsQueue)
    (did : scene.each act texts = (fault?, after)) :
    Console.Drawn (unanswered fault?) scene.console after.console := by
  induction texts generalizing scene with
  | nil =>
    cases did
    exact isQueue.drawn
  | cons text rest ih =>
    have drawn := draws scene text isQueue
    rw [Scene.each] at did
    split at did
    · rename_i came
      rw [came] at drawn
      cases did
      exact drawn
    · rename_i came
      rw [came] at drawn
      exact drawn.trans (ih drawn.isQueue did)

end Scene

section Meaning

variable {prompt : String} {scene after : Scene} {node : Node} {outcome : Completion}

theorem unanswered_of_decides {fault : Fault} {store : Store}
    (typed : Typed (.chain .disjunction) node) (decides : node.Decides store (.error fault)) :
    unanswered (some fault) = 0 := by
  obtain ⟨depth, -, faulty⟩ := decides
  have judged : Judged (node.evalCondition store.get depth) := typed.evaluates depth
  rw [faulty] at judged
  exact unanswered_of_notInput judged.notInput

theorem unanswered_of_comesTo {fault : Fault} {store : Store} (typed : Typed (.chain .sum) node)
    (comesTo : node.ComesTo store (.error fault)) : unanswered (some fault) = 0 := by
  obtain ⟨depth, -, faulty⟩ := comesTo
  have valued : Valued (node.evalNumber store.get depth) := typed.evaluates depth
  cases result : node.evalNumber store.get depth with
  | ok value =>
    rw [result] at valued faulty
    obtain ⟨x, rfl⟩ := valued
    cases faulty
  | error fault' =>
    rw [result] at valued faulty
    cases faulty
    exact unanswered_of_notInput valued.notInput

/-- Whatever a tree that was read does, it draws a line for each prompt, but for one that is
shown when no line is left. -/
theorem Runs.drawn {category : Category} (runs : Runs prompt node scene outcome after)
    (typed : Typed category node) (isQueue : scene.console.IsQueue) :
    Console.Drawn (unanswered outcome.fault?) scene.console after.console := by
  induction runs generalizing category with
  | last _ ih =>
    cases typed with
    | last only => exact ih only isQueue
    | next head => exact ih head isQueue
  | next _ others ih ih' =>
    cases typed with
    | last => cases others
    | next head rest =>
      have drawn := ih head isQueue
      exact drawn.trans (ih' rest drawn.isQueue)
  | stop _ _ ih =>
    cases typed with
    | last only => exact ih only isQueue
    | next head => exact ih head isQueue
  | consequent _ _ ih =>
    cases typed with
    | branch _ consequent => exact ih consequent isQueue
  | alternate _ _ ih =>
    cases typed with
    | branch _ _ alternate => exact ih alternate isQueue
  | undecided faulty =>
    cases typed with
    | branch condition =>
      rw [Completion.fault?, unanswered_of_decides condition faulty]
      exact isQueue.drawn
  | fi | exit | exitTo | assign => exact isQueue.drawn
  | «otherwise» runs ih =>
    cases typed with
    | fi => cases runs
    | «otherwise» statements => exact ih statements isQueue
  | again _ _ ih ih' =>
    have whole := typed
    cases typed with
    | loop statements =>
      have drawn := ih statements isQueue
      exact drawn.trans (ih' whole drawn.isQueue)
  | leave _ _ ih =>
    cases typed with
    | loop statements =>
      rw [Completion.fault?_afterLoop]
      exact ih statements isQueue
  | noValue faulty =>
    cases typed with
    | assign sum =>
      rw [Completion.fault?, unanswered_of_comesTo sum faulty]
      exact isQueue.drawn
  | read _ reads =>
    rw [Completion.fault?_ofFault?]
    exact (Scene.draws_readName prompt).each isQueue reads
  | print _ prints =>
    rw [Completion.fault?_ofFault?]
    exact Scene.draws_printName.each isQueue prints

theorem Finishes.drawn {fault? : Option Fault} {signal : Signal}
    (finishes : Finishes prompt node scene fault? signal after) (typed : Typed .program node)
    (isQueue : scene.console.IsQueue) :
    Console.Drawn (unanswered fault?) scene.console after.console := by
  cases finishes with
  | program runs concludes =>
    cases typed with
    | program statements =>
      have drawn := runs.drawn statements isQueue
      cases concludes with
      | normal => exact drawn
      | failed => rwa [unanswered_ofRun]
      | breakOne told | breakTo told =>
        exact drawn.trans (Scene.draws_writeLine.each drawn.isQueue told)

end Meaning

/-- How reading some names goes: the first of them get the numbers on the first lines, and then
the names are used up, or the next name finds no number on the next line or no line. -/
structure ReadsNames (names lines : List String) (values : List Float) (fault? : Option Fault) :
    Prop where
  numbers : ∀ (index : Nat) value, values[index]? = some value →
    ∃ name line, names[index]? = some name ∧ lines[index]? = some line ∧
      readNumber (.text name) (some line) = .ok value
  ends : match fault? with
    | none => values.length = names.length
    | some fault => ∃ name, names[values.length]? = some name ∧
        readNumber (.text name) lines[values.length]? = .error fault

/-- How many names were asked for. -/
def asked (values : List Float) (fault? : Option Fault) : Nat :=
  values.length + if fault?.isSome then 1 else 0

/-- A state after names were given values, in order; the last value of a name stays. -/
def State.assignAll (state : State) (names : List String) (values : List Float) : State :=
  (names.zip values).foldl (fun state entry => state.assign (some entry.1) entry.2) state

namespace ReadsNames

variable {names lines : List String} {values : List Float} {fault? : Option Fault}
  {name line : String}

theorem nil (lines : List String) : ReadsNames [] lines [] none :=
  ⟨by simp, rfl⟩

theorem stop {fault : Fault} (failed : readNumber (.text name) lines.head? = .error fault) :
    ReadsNames (name :: names) lines [] (some fault) := by
  refine ⟨by simp, name, rfl, ?_⟩
  rwa [List.head?_eq_getElem?] at failed

theorem cons {value : Float} (number : readNumber (.text name) (some line) = .ok value)
    (reads : ReadsNames names lines values fault?) :
    ReadsNames (name :: names) (line :: lines) (value :: values) fault? := by
  constructor
  case numbers =>
    rintro (_ | index) found isValue
    · cases isValue
      exact ⟨name, line, rfl, rfl, number⟩
    · exact reads.numbers index found isValue
  case ends =>
    have ends := reads.ends
    cases fault? with
    | none => exact congrArg (· + 1) ends
    | some fault => exact ends

theorem answered (reads : ReadsNames names lines values fault?) :
    asked values fault? = (lines.take (asked values fault?)).length + unanswered fault? := by
  have enough : values.length ≤ lines.length := by
    by_contra short
    have isValue := List.getElem?_eq_getElem (Nat.lt_of_not_le short)
    obtain ⟨-, line, -, isLine, -⟩ := reads.numbers lines.length _ isValue
    simp at isLine
  have ends := reads.ends
  rw [List.length_take]
  cases fault? with
  | none => simp [asked, unanswered, enough]
  | some fault =>
    obtain ⟨name, -, failed⟩ := ends
    cases next : lines[values.length]? with
    | none =>
      rw [next] at failed
      obtain rfl : fault = .invalidInput name none := (Except.error.inj failed).symm
      have whole : lines.length = values.length :=
        Nat.le_antisymm (List.getElem?_eq_none_iff.mp next) enough
      simp [asked, unanswered, whole]
    | some line =>
      rw [next] at failed
      obtain ⟨within, -⟩ := List.getElem?_eq_some_iff.mp next
      rw [unanswered_of_line failed]
      simp only [asked, Option.isSome_some, if_true]
      omega

end ReadsNames

namespace Machine

variable {world : World} {names lines written prompts : List String}

theorem readName_of_line {name shown : String} {line? : Option String} {console : Console}
    (fills : Prompt.fill world.settings.prompt (.text name) = .ok shown)
    (taken : world.console.readLine shown = .ok (line?, console)) :
    readName (.text name) world =
      match readNumber (.text name) line? with
      | .ok value => .ok () { world with state := world.state.assign (some name) value, console }
      | .error fault => .error (.fault fault) { world with console } := by
  have read : readLine (.text name) world = .ok line? { world with console } := by
    rw [readLine_eq, fills]
    dsimp only
    rw [taken]
  unfold readName
  rw [bind_ok read, ofExcept_bind]
  cases readNumber (.text name) line? <;> rfl

theorem readName_queue {name shown : String} (queue : world.console = .queue lines written prompts)
    (fills : Prompt.fill world.settings.prompt (.text name) = .ok shown) :
    readName (.text name) world =
      match readNumber (.text name) lines.head? with
      | .ok value => .ok () { world with
          state := world.state.assign (some name) value
          console := .queue lines.tail written (shown :: prompts) }
      | .error fault => .error (.fault fault) { world with
          console := .queue lines.tail written (shown :: prompts) } := by
  apply readName_of_line fills
  rw [queue]
  cases lines <;> rfl

/-- Names are read in order up to the first fault, and nothing else is changed. -/
theorem forNames_readName {shown : String → String}
    (queue : world.console = .queue lines written prompts)
    (fills : ∀ name ∈ names, Prompt.fill world.settings.prompt (.text name) = .ok (shown name)) :
    ∃ values fault?, ReadsNames names lines values fault? ∧
      forNames readName (names.map .text) world = ending fault? { world with
        state := world.state.assignAll names values
        console := .queue (lines.drop (asked values fault?)) written
          (((names.take (asked values fault?)).map shown).reverse ++ prompts) } := by
  induction names generalizing world lines prompts with
  | nil =>
    refine ⟨[], none, .nil lines, ?_⟩
    obtain ⟨state, console, settings, log⟩ := world
    cases queue
    rfl
  | cons name rest ih =>
    rw [List.forall_mem_cons] at fills
    have first := readName_queue queue fills.1
    rw [List.map_cons, forNames]
    cases number : readNumber (.text name) lines.head? with
    | error fault =>
      rw [number] at first
      rw [bind_error first]
      refine ⟨[], some fault, .stop number, ?_⟩
      simp [ending, asked, State.assignAll]
    | ok value =>
      rw [number] at first
      rw [bind_ok first]
      cases lines with
      | nil => cases number
      | cons line lines =>
        let middle : World := { world with
          state := world.state.assign (some name) value
          console := .queue lines written (shown name :: prompts) }
        have queue' : middle.console = .queue lines written (shown name :: prompts) := rfl
        obtain ⟨values, fault?, reads, ran⟩ := ih queue' fills.2
        refine ⟨value :: values, fault?, .cons number reads, ran.trans ?_⟩
        have once : asked (value :: values) fault? = asked values fault? + 1 :=
          Nat.add_right_comm values.length 1 _
        rw [once]
        simp [State.assignAll, middle]

theorem execute_read {shown : String → String} (running : world.state.signal = .running)
    (queue : world.console = .queue lines written prompts)
    (fills : ∀ name ∈ names, Prompt.fill world.settings.prompt (.text name) = .ok (shown name))
    (steps depth : Nat) (span : Option Span) :
    ∃ values fault?, ReadsNames names lines values fault? ∧
      execute steps (depth + 1) (.read (.ofNames names) span) world = ending fault? { world with
        state := world.state.assignAll names values
        console := .queue (lines.drop (asked values fault?)) written
          (((names.take (asked values fault?)).map shown).reverse ++ prompts) } := by
  rw [execute_of_running (forNamesOf readName (.ofNames names)) (at_of_running running) rfl,
    forNamesOf_ofNames]
  exact forNames_readName queue fills

theorem drawn_of_ends {limits : Limits} (runnable : limits.Runnable) {tracing : Bool}
    {source : Source} {program : Node} {reader : Reader}
    (parsed : Reading.program limits (.ofSource tracing source) = .ok program reader)
    (isQueue : world.console.IsQueue) {fault? : Option Fault} {last : World}
    (ends : Ends program world fault? last) :
    Console.Drawn (unanswered fault?) world.console last.console := by
  by_cases breaking : world.state.signal.isBreaking = true
  · have idle : Ends program world none world := ⟨0, run_of_breaking breaking⟩
    obtain ⟨rfl, rfl⟩ := idle.unique ends
    exact isQueue.drawn
  · have running := Signal.running_of_not_breaking breaking
    obtain ⟨signal, after, finishes, at_⟩ := finishes_of_ends runnable parsed running ends
    rw [at_.console]
    exact finishes.drawn (Reading.typed_of_ok parsed) isQueue

/-- Reading some names loses and doubles no line. With a prompt that can be filled for each of
them, they are given the numbers on the first lines, in order, up to the first name that finds
no number on its line or no line; what was read before is kept, each name that was asked for
has its prompt, each of them took its line unless the last one found none, and nothing else
changes. Over a whole run of a program that was read, in any world, the lines of the queue are
the ones that were taken and then the ones that are left: as many were taken as prompts were
shown, and one less exactly if the run failed at the end of the lines. -/
theorem input_accounted (limits : Limits) (runnable : limits.Runnable) (tracing upcase : Bool)
    (text : String) (program : Node) (reader : Reader)
    (parsed : Reading.program limits (.ofSource tracing (.ofText upcase text)) =
      .ok program reader)
    (world : World) (lines written prompts : List String)
    (queue : world.console = .queue lines written prompts) :
    (world.state.signal = .running → ∀ (names : List String) (shown : String → String),
      (∀ name ∈ names, Prompt.fill world.settings.prompt (.text name) = .ok (shown name)) →
      ∀ steps depth span, ∃ values fault?, ReadsNames names lines values fault? ∧
        execute steps (depth + 1) (.read (.ofNames names) span) world = ending fault? { world with
          state := world.state.assignAll names values
          console := .queue (lines.drop (asked values fault?)) written
            (((names.take (asked values fault?)).map shown).reverse ++ prompts) } ∧
        asked values fault? =
          (lines.take (asked values fault?)).length + unanswered fault?) ∧
    ∀ fault? last, Ends program world fault? last →
      ∃ taken unread written' added, lines = taken ++ unread ∧
        last.console = .queue unread written' (added ++ prompts) ∧
        added.length = taken.length + unanswered fault? ∧
        (unanswered fault? ≠ 0 → unread = []) := by
  constructor
  · intro running names shown fills steps depth span
    obtain ⟨values, fault?, reads, ran⟩ := execute_read running queue fills steps depth span
    exact ⟨values, fault?, reads, ran, reads.answered⟩
  · intro fault? last ends
    have drawn := drawn_of_ends runnable parsed ⟨_, _, _, queue⟩ ends
    rw [queue] at drawn
    generalize last.console = left at drawn ⊢
    cases drawn with
    | queue count gone => exact ⟨_, _, _, _, rfl, rfl, count, gone⟩

/-- Two names and one line: both are asked for, and the second one has no line. -/
theorem two_names_one_line :
    let world : World := ⟨.initial, .ofLines ["1"], { prompt := "? " }, []⟩
    ∃ program reader last values fault? taken unread written added,
      Reading.program .standard (.ofSource false (.ofText false "READ A, B.")) =
        .ok program reader ∧
      Ends program world (some (.invalidInput "B" none)) last ∧
      ReadsNames ["A", "B"] ["1"] values fault? ∧
      execute 0 1 (.read (.ofNames ["A", "B"]) none) world = ending fault? { world with
        state := world.state.assignAll ["A", "B"] values
        console := .queue (["1"].drop (asked values fault?)) []
          ((["A", "B"].take (asked values fault?)).map fun _ => "? ").reverse } ∧
      ["1"] = taken ++ unread ∧ last.console = .queue unread written added ∧
      added.length = taken.length + 1 ∧ unread = [] := by
  obtain ⟨program, reader, last, parsed, ends⟩ : ∃ program reader last,
      Reading.program .standard (.ofSource false (.ofText false "READ A, B.")) =
        .ok program reader ∧
        Ends program ⟨.initial, .ofLines ["1"], { prompt := "? " }, []⟩
          (some (.invalidInput "B" none)) last :=
    ⟨_, _, _, rfl, 0, rfl⟩
  obtain ⟨each, whole⟩ :=
    input_accounted .standard Limits.runnable_standard false false _ program reader parsed
    ⟨.initial, .ofLines ["1"], { prompt := "? " }, []⟩ ["1"] [] [] rfl
  obtain ⟨values, fault?, reads, ran, -⟩ :=
    each rfl ["A", "B"] (fun _ => "? ") (fun _ _ => rfl) 0 0 none
  obtain ⟨taken, unread, written, added, all, left, count, gone⟩ := whole _ last ends
  rw [List.append_nil] at ran left
  exact ⟨program, reader, last, values, fault?, taken, unread, written, added, parsed, ends, reads,
    ran, all, left, count, gone Nat.one_ne_zero⟩

end Machine

end LoopLang
