import LoopLang.Proofs.Sequencing

/-!
# What a run shows

Prompts and lines, in the order in which a program comes to them. A reading comes to the
prompt for each of its names, a printing to the line for each of its names, and a program
with a break that no loop ends comes to the lines that tell of it. Whatever console is there
keeps all of them, a queue in two lists and streams in one text.
-/
namespace LoopLang

inductive Shown where
  | prompt (text : String)
  | line (text : String)

namespace Shown

def prompt? : Shown → Option String
  | prompt text => some text
  | line _ => none

def line? : Shown → Option String
  | prompt _ => none
  | line text => some text

/-- A prompt stands in the text as it is, and a line with its end. -/
def inText : Shown → String
  | prompt text => text
  | line text => text ++ "\n"

end Shown

namespace Console

/-- Nothing is shown if there is no console. -/
def shows : Console → Shown → List Shown
  | missing, _ => []
  | queue .., shown | streams .., shown => [shown]

/-- One console is another one on which some prompts and lines were shown since. -/
inductive Keeps (shown : List Shown) : Console → Console → Prop where
  | queue {unread unread' written prompts} :
      Keeps shown (.queue unread written prompts)
        (.queue unread' ((shown.filterMap Shown.line?).reverse ++ written)
          ((shown.filterMap Shown.prompt?).reverse ++ prompts))
  | streams {unread unread' written} :
      Keeps shown (.streams unread written)
        (.streams unread' ((shown.map Shown.inText).reverse ++ written))
  | missing (nothing : shown = []) : Keeps shown .missing .missing

namespace Keeps

variable {console middle after : Console} {shown later : List Shown} {line? : Option String}

theorem refl (console : Console) : Keeps [] console console := by
  cases console with
  | queue => exact .queue
  | streams => exact .streams
  | missing => exact .missing rfl

theorem trans (first : Keeps shown console middle) (second : Keeps later middle after) :
    Keeps (shown ++ later) console after := by
  cases first with
  | queue =>
    cases second with
    | queue =>
      simp only [← List.append_assoc, ← List.reverse_append, ← List.filterMap_append]
      exact .queue
  | streams =>
    cases second with
    | streams =>
      simp only [← List.append_assoc, ← List.reverse_append, ← List.map_append]
      exact .streams
  | missing nothing =>
    cases second with
    | missing nothing' => exact .missing (by simp [nothing, nothing'])

theorem of_readLine {prompt : String} (read : console.readLine prompt = .ok (line?, after)) :
    Keeps (console.shows (.prompt prompt)) console after := by
  cases console with
  | queue unread =>
    cases unread <;> cases read <;> exact .queue
  | streams unread =>
    rw [readLine] at read
    split at read <;> cases read <;> exact .streams
  | missing => cases read

theorem of_writeLine {line : String} (wrote : console.writeLine line = .ok after) :
    Keeps (console.shows (.line line)) console after := by
  cases console with
  | queue =>
    cases wrote
    exact .queue
  | streams =>
    cases wrote
    exact .streams
  | missing => cases wrote

theorem of_readLine_error {prompt : String} {fault : Fault}
    (failed : console.readLine prompt = .error fault) :
    Keeps (console.shows (.prompt prompt)) console console := by
  cases console with
  | queue unread => cases unread <;> cases failed
  | streams =>
    rw [readLine] at failed
    split at failed <;> cases failed
  | missing => exact .missing rfl

theorem of_writeLine_error {line : String} {fault : Fault}
    (failed : console.writeLine line = .error fault) :
    Keeps (console.shows (.line line)) console console := by
  cases console with
  | queue | streams => cases failed
  | missing => exact .missing rfl

end Keeps

end Console

namespace Scene

variable {prompt text : String} {texts : List String} {scene after : Scene}
  {fault? : Option Fault}

/-- What a name that is read shows: its prompt, if that can be filled in. -/
def promptFor (prompt : String) (scene : Scene) (name : String) : List Shown :=
  match Prompt.fill prompt (.text name) with
  | .error _ => []
  | .ok text => scene.console.shows (.prompt text)

def lineFor (scene : Scene) (line : String) : List Shown :=
  scene.console.shows (.line line)

def valueFor (scene : Scene) (name : String) : List Shown :=
  scene.lineFor (name ++ "=" ++ Number.printed (scene.store.get (some name)))

/-- What something that is done for each of some texts shows, up to the first fault. -/
def showEach (act : Scene → String → Option Fault × Scene)
    (shows : Scene → String → List Shown) : List String → Scene → List Shown
  | [], _ => []
  | text :: rest, scene =>
    shows scene text ++
      match act scene text with
      | (some _, _) => []
      | (none, after) => showEach act shows rest after

theorem keeps_readName (read : scene.readName prompt text = (fault?, after)) :
    Console.Keeps (scene.promptFor prompt text) scene.console after.console := by
  unfold readName at read
  unfold promptFor
  cases fills : Prompt.fill prompt (.text text) with
  | error fault =>
    rw [fills] at read
    cases read
    exact .refl _
  | ok shown =>
    rw [fills] at read
    dsimp only at read ⊢
    split at read
    · rename_i fails
      cases read
      exact .of_readLine_error fails
    · rename_i takes
      split at read <;> cases read <;> exact .of_readLine takes

theorem keeps_writeLine (wrote : scene.writeLine text = (fault?, after)) :
    Console.Keeps (scene.lineFor text) scene.console after.console := by
  unfold writeLine at wrote
  split at wrote
  · rename_i fails
    cases wrote
    exact .of_writeLine_error fails
  · rename_i wrote'
    cases wrote
    exact .of_writeLine wrote'

theorem keeps_each {act : Scene → String → Option Fault × Scene}
    {shows : Scene → String → List Shown}
    (keeps : ∀ {scene text fault? after}, act scene text = (fault?, after) →
      Console.Keeps (shows scene text) scene.console after.console)
    (did : scene.each act texts = (fault?, after)) :
    Console.Keeps (scene.showEach act shows texts) scene.console after.console := by
  induction texts generalizing scene with
  | nil =>
    cases did
    exact .refl _
  | cons text rest ih =>
    rw [each] at did
    rw [showEach]
    cases acted : act scene text with
    | mk fault?' middle =>
      rw [acted] at did
      cases fault?' with
      | none => exact (keeps acted).trans (ih did)
      | some fault =>
        cases did
        dsimp only
        rw [List.append_nil]
        exact keeps acted

end Scene

/-- A statement or a list of statements takes one scene to another, and shows some prompts and
lines on its way, in order. -/
inductive Shows (prompt : String) : Node → Scene → Completion → Scene → List Shown → Prop where
  | last {first span scene outcome after shown}
      (shows : Shows prompt first scene outcome after shown) :
      Shows prompt (.sequence first .absent span) scene outcome after shown
  | next {first rest span scene middle outcome after shown later}
      (shows : Shows prompt first scene .normal middle shown)
      (others : Shows prompt rest middle outcome after later) :
      Shows prompt (.sequence first rest span) scene outcome after (shown ++ later)
  | stop {first rest span scene outcome after shown}
      (shows : Shows prompt first scene outcome after shown) (leaves : outcome ≠ .normal) :
      Shows prompt (.sequence first rest span) scene outcome after shown
  | consequent {test body rest span scene outcome after shown}
      (holds : test.Decides scene.store (.ok true))
      (shows : Shows prompt body scene outcome after shown) :
      Shows prompt (.branch test body rest span) scene outcome after shown
  | alternate {test body rest span scene outcome after shown}
      (fails : test.Decides scene.store (.ok false))
      (shows : Shows prompt rest scene outcome after shown) :
      Shows prompt (.branch test body rest span) scene outcome after shown
  | undecided {test body rest span scene fault}
      (faulty : test.Decides scene.store (.error fault)) :
      Shows prompt (.branch test body rest span) scene (.failed fault) scene []
  | fi {span scene} : Shows prompt (.otherwise .absent span) scene .normal scene []
  | otherwise {body span scene outcome after shown}
      (shows : Shows prompt body scene outcome after shown) :
      Shows prompt (.otherwise body span) scene outcome after shown
  | again {label body span scene middle outcome after shown later}
      (shows : Shows prompt body scene .normal middle shown)
      (repeats : Shows prompt (.loop (.text label) body span) middle outcome after later) :
      Shows prompt (.loop (.text label) body span) scene outcome after (shown ++ later)
  | leave {label body span scene outcome after shown}
      (shows : Shows prompt body scene outcome after shown) (leaves : outcome ≠ .normal) :
      Shows prompt (.loop (.text label) body span) scene (outcome.afterLoop label) after shown
  | exit {span scene} : Shows prompt (.exit (.text "") span) scene .breakOne scene []
  | exitTo {label span scene} (given : label ≠ "") :
      Shows prompt (.exit (.text label) span) scene (.breakTo label) scene []
  | assign {name value span scene number} (comesTo : value.ComesTo scene.store (.ok number)) :
      Shows prompt (.assign (.text name) value span) scene .normal
        { scene with store := scene.store.set (some name) number } []
  | noValue {name value span scene fault} (faulty : value.ComesTo scene.store (.error fault)) :
      Shows prompt (.assign (.text name) value span) scene (.failed fault) scene []
  | read {list names span scene fault? after} (holds : list = .ofNames names)
      (reads : scene.each (Scene.readName prompt) names = (fault?, after)) :
      Shows prompt (.read list span) scene (.ofFault? fault?) after
        (scene.showEach (Scene.readName prompt) (Scene.promptFor prompt) names)
  | print {list names span scene fault? after} (holds : list = .ofNames names)
      (prints : scene.each Scene.printName names = (fault?, after)) :
      Shows prompt (.print list span) scene (.ofFault? fault?) after
        (scene.showEach Scene.printName Scene.valueFor names)

section Shows

variable {prompt : String} {node : Node} {scene after : Scene} {outcome : Completion}
  {shown : List Shown}

theorem Shows.runs (shows : Shows prompt node scene outcome after shown) :
    Runs prompt node scene outcome after := by
  induction shows with
  | last _ ih => exact .last ih
  | next _ _ ih ih' => exact .next ih ih'
  | stop _ leaves ih => exact .stop ih leaves
  | consequent holds _ ih => exact .consequent holds ih
  | alternate fails _ ih => exact .alternate fails ih
  | undecided faulty => exact .undecided faulty
  | fi => exact .fi
  | «otherwise» _ ih => exact .otherwise ih
  | again _ _ ih ih' => exact .again ih ih'
  | leave _ leaves ih => exact .leave ih leaves
  | exit => exact .exit
  | exitTo given => exact .exitTo given
  | assign comesTo => exact .assign comesTo
  | noValue faulty => exact .noValue faulty
  | read holds reads => exact .read holds reads
  | print holds prints => exact .print holds prints

theorem Runs.exists_shows (runs : Runs prompt node scene outcome after) :
    ∃ shown, Shows prompt node scene outcome after shown := by
  induction runs with
  | last _ ih => exact ih.imp fun _ => .last
  | next _ _ ih ih' =>
    obtain ⟨shown, shows⟩ := ih
    exact ih'.imp' _ fun _ others => .next shows others
  | stop _ leaves ih => exact ih.imp fun _ shows => .stop shows leaves
  | consequent holds _ ih => exact ih.imp fun _ => .consequent holds
  | alternate fails _ ih => exact ih.imp fun _ => .alternate fails
  | undecided faulty => exact ⟨[], .undecided faulty⟩
  | fi => exact ⟨[], .fi⟩
  | «otherwise» _ ih => exact ih.imp fun _ => .otherwise
  | again _ _ ih ih' =>
    obtain ⟨shown, shows⟩ := ih
    exact ih'.imp' _ fun _ repeats => .again shows repeats
  | leave _ leaves ih => exact ih.imp fun _ shows => .leave shows leaves
  | exit => exact ⟨[], .exit⟩
  | exitTo given => exact ⟨[], .exitTo given⟩
  | assign comesTo => exact ⟨[], .assign comesTo⟩
  | noValue faulty => exact ⟨[], .noValue faulty⟩
  | read holds reads => exact ⟨_, .read holds reads⟩
  | print holds prints => exact ⟨_, .print holds prints⟩

theorem Shows.keeps (shows : Shows prompt node scene outcome after shown) :
    Console.Keeps shown scene.console after.console := by
  induction shows with
  | last _ ih | stop _ _ ih | consequent _ _ ih | alternate _ _ ih | «otherwise» _ ih
  | leave _ _ ih => exact ih
  | next _ _ ih ih' | again _ _ ih ih' => exact ih.trans ih'
  | read _ reads => exact Scene.keeps_each Scene.keeps_readName reads
  | print _ prints => exact Scene.keeps_each Scene.keeps_writeLine prints
  | _ => exact .refl _

end Shows

/-- The lines that tell of a break that no loop ended. -/
def Completion.unmatched : Completion → List String
  | normal | failed _ => []
  | breakOne => unmatchedLines none
  | breakTo label => unmatchedLines (some label)

namespace Machine

/-- What a program shows in a world, in order: nothing while a break is pending, else what its
statements show, and then the lines that tell of a break that no loop ended. -/
inductive Showed : Node → World → List Shown → Prop where
  | nothing {program world} (breaking : world.state.signal.isBreaking = true) :
      Showed program world []
  | statements {body span world outcome after shown} (running : world.state.signal = .running)
      (shows : Shows world.settings.prompt body ⟨world.state.store, world.console⟩ outcome after
        shown) :
      Showed (.program body span) world
        (shown ++ after.showEach Scene.writeLine Scene.lineFor outcome.unmatched)

theorem keeps_concludes {outcome : Completion} {scene after : Scene} {fault? : Option Fault}
    {signal : Signal} (concludes : Concludes outcome scene fault? signal after) :
    Console.Keeps (scene.showEach Scene.writeLine Scene.lineFor outcome.unmatched)
      scene.console after.console := by
  cases concludes with
  | normal | failed => exact .refl _
  | breakOne told | breakTo told => exact Scene.keeps_each Scene.keeps_writeLine told

variable {limits : Limits} {tracing : Bool} {source : Source} {program : Node} {reader : Reader}
  {world last : World} {fault? : Option Fault} {shown : List Shown}

theorem exists_showed (runnable : limits.Runnable)
    (parsed : Reading.program limits (.ofSource tracing source) = .ok program reader)
    (ends : Ends program world fault? last) : ∃ shown, Showed program world shown := by
  by_cases breaking : world.state.signal.isBreaking = true
  · exact ⟨[], .nothing breaking⟩
  · have running := Signal.running_of_not_breaking breaking
    obtain ⟨signal, after, finishes, -⟩ := finishes_of_ends runnable parsed running ends
    cases finishes with
    | program runs _ =>
      obtain ⟨shown, shows⟩ := runs.exists_shows
      exact ⟨_, .statements running shows⟩

/-- The console at the end of a run keeps what the program showed. -/
theorem Showed.keeps (showed : Showed program world shown) (runnable : limits.Runnable)
    (parsed : Reading.program limits (.ofSource tracing source) = .ok program reader)
    (ends : Ends program world fault? last) : Console.Keeps shown world.console last.console := by
  cases showed with
  | nothing breaking =>
    have idle : Ends program world none world := ⟨0, run_of_breaking breaking⟩
    obtain ⟨-, rfl⟩ := idle.unique ends
    exact .refl _
  | @statements body span _ outcome after _ running shows =>
    obtain ⟨fault?', signal, final, concludes⟩ := outcome.exists_concludes after
    obtain ⟨last', ends', at_⟩ :=
      ends_of_finishes runnable parsed running (.program shows.runs concludes)
    obtain ⟨-, rfl⟩ := ends.unique ends'
    rw [at_.console]
    exact shows.keeps.trans (keeps_concludes concludes)

end Machine

end LoopLang
