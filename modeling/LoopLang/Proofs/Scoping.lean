import LoopLang.Proofs.Refinement
import LoopLang.Proofs.Safety

/-!
# Where breaks can lead

A break is free in a tree if no loop of the tree ends it: one without a target stands in no
loop, one with a target in none with that label. Which breaks are free can be seen without
running anything, and only a free break can leave a signal pending. So a program without
free breaks tells of none, and a loop whose body has none does not come to its end.
-/
namespace LoopLang

/-- A break: its target, and the labels of the loops around it, the outermost first. -/
structure Exit where
  target : Node
  around : List Node

/-- Whether none of the loops around a break ends it. -/
def Exit.isFree (exit : Exit) : Bool :=
  if exit.target.isGiven then exit.around.all (!exit.target.sameValue ·) else exit.around.isEmpty

def Node.exits : Node → List Exit
  | program body _ | otherwise body _ => body.exits
  | sequence first rest _ => first.exits ++ rest.exits
  | branch _ consequent alternate _ => consequent.exits ++ alternate.exits
  | loop label body _ =>
    body.exits.map fun exit => { exit with around := label :: exit.around }
  | exit target _ => [⟨target, []⟩]
  | _ => []

/-- The breaks of a tree that its loops do not end. -/
def Node.freeExits (node : Node) : List Exit :=
  node.exits.filter Exit.isFree

namespace Signal

theorem isBreaking_eq_false (signal : Signal) : signal.isBreaking = false ↔ signal = .running := by
  simp [isBreaking]

theorem running_of_not_breaking {signal : Signal} (breaking : ¬ signal.isBreaking = true) :
    signal = .running :=
  signal.isBreaking_eq_false.mp (Bool.eq_false_iff.mpr breaking)

theorem isFree_of_endsAt {exit : Exit} {label : Node} (free : exit.isFree = true)
    (goesOn : (ofTarget exit.target).endsAt label = false) :
    Exit.isFree { exit with around := label :: exit.around } = true := by
  unfold ofTarget at goesOn
  by_cases given : exit.target.isGiven = true
  · simp_all [Exit.isFree, endsAt]
  · simp [given, endsAt] at goesOn

end Signal

namespace Node

/-- A signal that a tree can leave: none, or that of one of its free breaks. -/
def Leaves (node : Node) (signal : Signal) : Prop :=
  signal = .running ∨ ∃ exit ∈ node.freeExits, signal = .ofTarget exit.target

variable {node node' : Node} {span : Option Span} {signal : Signal}

theorem Leaves.mono (leaves : node.Leaves signal)
    (within : ∀ exit ∈ node.exits, exit ∈ node'.exits) : node'.Leaves signal := by
  apply leaves.imp_right
  rintro ⟨exit, member, rfl⟩
  simp only [freeExits, List.mem_filter] at member ⊢
  exact ⟨exit, ⟨within exit member.1, member.2⟩, rfl⟩

theorem Leaves.loop {label body : Node} (leaves : body.Leaves signal)
    (goesOn : signal.endsAt label = false) : (Node.loop label body span).Leaves signal := by
  apply leaves.imp_right
  rintro ⟨exit, member, rfl⟩
  simp only [freeExits, List.mem_filter] at member ⊢
  exact ⟨{ exit with around := label :: exit.around },
    ⟨List.mem_map_of_mem member.1, Signal.isFree_of_endsAt member.2 goesOn⟩, rfl⟩

theorem Leaves.leaveNearest (leaves : node.Leaves .leaveNearest) :
    ∃ exit ∈ node.freeExits, exit.target.isGiven = false := by
  rcases leaves with running | ⟨exit, member, target⟩
  · cases running
  · refine ⟨exit, member, ?_⟩
    by_cases given : exit.target.isGiven = true
    · simp [Signal.ofTarget, given] at target
    · exact Bool.eq_false_iff.mpr given

theorem Leaves.leaveTo {label : Node} (leaves : node.Leaves (.leaveTo label)) :
    label.isGiven = true ∧ ∃ exit ∈ node.freeExits, exit.target = label := by
  rcases leaves with running | ⟨exit, member, target⟩
  · cases running
  · by_cases given : exit.target.isGiven = true
    · simp only [Signal.ofTarget, given, if_true, Signal.leaveTo.injEq] at target
      subst target
      exact ⟨given, exit, member, rfl⟩
    · simp [Signal.ofTarget, given] at target

end Node

namespace Machine

variable {α β : Type} {m : Machine α} {next : α → Machine β} {world last : World}

theorem exists_of_bind_ok {b : β} (ended : (m >>= next) world = .ok b last) :
    ∃ a middle, m world = .ok a middle ∧ next a middle = .ok b last := by
  cases result : m world with
  | ok a middle =>
    rw [bind_ok result] at ended
    exact ⟨a, middle, rfl, ended⟩
  | error halt middle =>
    rw [bind_error result] at ended
    cases ended

/-- An action that leaves the signal as it is. -/
def Steady (m : Machine α) : Prop :=
  ∀ world a last, m world = .ok a last → last.state.signal = world.state.signal

/-- An action that leaves the signal as it is and a queue of lines a queue, also where it fails. -/
def Calm (m : Machine α) : Prop :=
  ∀ world, match m world with
    | .ok _ last | .error _ last =>
      last.state.signal = world.state.signal ∧ (world.console.IsQueue → last.console.IsQueue)

theorem Calm.steady (calm : Calm m) : Steady m := by
  intro world a last ended
  have kept := calm world
  rw [ended] at kept
  exact kept.1

theorem calm_pure (a : α) : Calm (pure a : Machine α) :=
  fun _ => ⟨rfl, id⟩

theorem calm_fail (fault : Fault) : Calm (fail fault : Machine α) :=
  fun _ => ⟨rfl, id⟩

theorem calm_ofExcept (result : Except Fault α) : Calm (ofExcept result) := by
  cases result with
  | ok a => exact calm_pure a
  | error fault => exact calm_fail fault

theorem calm_bind (first : Calm m) (rest : ∀ a, Calm (next a)) : Calm (m >>= next) := by
  intro world
  have kept := first world
  cases result : m world with
  | ok a middle =>
    rw [result] at kept
    rw [bind_ok result]
    have kept' := rest a middle
    cases last : next a middle <;> rw [last] at kept' <;>
      exact ⟨kept'.1.trans kept.1, kept'.2 ∘ kept.2⟩
  | error halt middle =>
    rw [result] at kept
    rw [bind_error result]
    exact kept

theorem calm_note (message : String) : Calm (note message) := by
  intro world
  change (world.note message).state.signal = _ ∧ (_ → (world.note message).console.IsQueue)
  unfold World.note
  split <;> exact ⟨rfl, id⟩

theorem calm_warn (message : String) : Calm (warn message) :=
  fun _ => ⟨rfl, id⟩

theorem calm_writeLine (line : String) : Calm (writeLine line) := by
  intro world
  unfold writeLine
  rw [get_bind, ofExcept_bind]
  cases written : world.console.writeLine line with
  | ok console => exact ⟨rfl, fun queue => queue.writeLine written⟩
  | error fault => exact ⟨rfl, id⟩

theorem calm_readLine (name : Node) : Calm (readLine name) := by
  intro world
  rw [readLine_eq]
  cases Prompt.fill world.settings.prompt name with
  | error fault => exact ⟨rfl, id⟩
  | ok shown =>
    dsimp only
    cases read : world.console.readLine shown with
    | ok came => exact ⟨rfl, fun queue => queue.readLine read⟩
    | error fault => exact ⟨rfl, id⟩

theorem calm_readName (name : Node) : Calm (readName name) := by
  apply calm_bind (calm_readLine name)
  intro line
  apply calm_bind (calm_ofExcept _)
  intro value
  exact calm_bind (calm_ofExcept _) fun name _ => ⟨rfl, id⟩

theorem calm_printName (name : Node) : Calm (printName name) := by
  apply calm_bind (calm_ofExcept _)
  intro line world
  exact calm_bind (calm_ofExcept _) (fun _ => calm_writeLine _) world

theorem calm_forNamesOf {act : Node → Machine Unit} (each : ∀ name, Calm (act name))
    (names : Node) : Calm (forNamesOf act names) := by
  have all : Calm (forNames act names.names) := by
    induction names.names with
    | nil => exact calm_pure ()
    | cons name rest ih => exact calm_bind (each name) fun _ => ih
  apply calm_bind all
  intro _
  split
  · exact calm_fail _
  · exact calm_pure ()

theorem calm_signal : Calm signal :=
  fun _ => ⟨rfl, id⟩

theorem calm_tellUnmatched : Calm tellUnmatched := by
  apply calm_bind calm_signal
  intro pending
  split
  · apply calm_bind (calm_warn _)
    intro _
    apply calm_bind (calm_writeLine _)
    intro _
    split
    · exact calm_writeLine _
    · exact calm_pure ()
  · exact calm_pure ()

theorem calm_evalCondition (depth : Nat) (node : Node) : Calm (evalCondition depth node) :=
  fun world => calm_ofExcept _ world

theorem calm_assignment (depth : Nat) (name value : Node) :
    Calm (evalNumber depth value >>= fun value => ofExcept (needed value) >>= fun number =>
      ofExcept name.named >>= fun name => changeState (·.assign name number)) := by
  apply calm_bind fun world => calm_ofExcept _ world
  intro value
  apply calm_bind (calm_ofExcept _)
  intro number
  exact calm_bind (calm_ofExcept _) fun name _ => ⟨rfl, id⟩

section Trees

variable {node label : Node} {steps depth rounds : Nat}

theorem leaves_runList {run : Node → Machine Unit}
    (each : ∀ node world last, world.state.signal = .running → run node world = .ok () last →
      node.Leaves last.state.signal)
    (running : world.state.signal = .running) (ended : runList run node world = .ok () last) :
    node.Leaves last.state.signal := by
  induction node generalizing world with
  | absent =>
    cases ended
    exact .inl running
  | sequence first rest span _ ih =>
    rw [runList] at ended
    obtain ⟨_, middle, ran, went⟩ := exists_of_bind_ok ended
    have leaves := each first world middle running ran
    rw [signal_bind] at went
    by_cases breaking : middle.state.signal.isBreaking = true
    · rw [if_pos breaking] at went
      cases went
      exact leaves.mono fun _ member => List.mem_append_left _ member
    · rw [if_neg breaking] at went
      have running' := Signal.running_of_not_breaking breaking
      exact (ih running' went).mono fun _ member => List.mem_append_right _ member
  | _ => cases ended

/-- A loop comes to its end only through a round of its body that leaves a break. -/
theorem exists_of_repeatBody_ok {body : Machine Unit} (running : world.state.signal = .running)
    (ended : repeatBody label body rounds world = .ok () last) :
    ∃ start stop, start.state.signal = .running ∧ body start = .ok () stop ∧
      stop.state.signal.isBreaking = true ∧ last.state.signal =
        if stop.state.signal.endsAt label then .running else stop.state.signal := by
  induction rounds generalizing world with
  | zero => cases ended
  | succ rounds ih =>
    rw [repeatBody] at ended
    obtain ⟨_, stop, ran, went⟩ := exists_of_bind_ok ended
    rw [signal_bind] at went
    by_cases breaking : stop.state.signal.isBreaking = true
    · rw [if_pos breaking] at went
      obtain ⟨_, noted, note, left⟩ := exists_of_bind_ok went
      have kept := (calm_note _).steady stop _ noted note
      refine ⟨world, stop, running, ran, breaking, ?_⟩
      by_cases ends : stop.state.signal.endsAt label = true
      · rw [if_pos ends] at left ⊢
        cases left
        rfl
      · rw [if_neg ends] at left ⊢
        cases left
        exact kept
    · rw [if_neg breaking] at went
      exact ih (Signal.running_of_not_breaking breaking) went

theorem ok_of_running (action : Machine Unit) (running : world.state.signal = .running)
    (unfolds : execute steps (depth + 1) node =
      (Machine.signal >>= fun pending => if pending.isBreaking then pure () else action))
    (ended : execute steps (depth + 1) node world = .ok () last) : action world = .ok () last := by
  rwa [execute_of_running action (at_of_running running) unfolds] at ended

/-- Only a free break leaves a signal pending. -/
theorem leaves_execute (running : world.state.signal = .running)
    (ended : execute steps depth node world = .ok () last) : node.Leaves last.state.signal := by
  induction depth generalizing node world last with
  | zero => cases ended
  | succ depth ih =>
    cases node with
    | program body span =>
      have ran := ok_of_running (execute steps depth body >>= fun _ => tellUnmatched)
        running rfl ended
      obtain ⟨_, middle, inner, told⟩ := exists_of_bind_ok ran
      rw [calm_tellUnmatched.steady middle () last told]
      exact (ih running inner).mono fun _ member => member
    | sequence first rest span =>
      have ran := ok_of_running
        (runList (execute steps depth) (.sequence first rest span)) running rfl ended
      exact leaves_runList (fun _ _ _ running ran => ih running ran) running ran
    | branch test consequent alternate span =>
      have ran := ok_of_running (evalCondition depth test >>= fun holds =>
        note ("If Statement reached - Condition: " ++ flagText holds) >>= fun _ =>
          if holds then execute steps depth consequent else execute steps depth alternate)
        running rfl ended
      obtain ⟨holds, middle, decided, went⟩ := exists_of_bind_ok ran
      obtain ⟨_, start, noted, chosen⟩ := exists_of_bind_ok went
      have running' : start.state.signal = .running := by
        rw [(calm_note _).steady middle () start noted,
          (calm_evalCondition _ _).steady world holds middle decided, running]
      cases holds with
      | true => exact (ih running' chosen).mono fun _ member => List.mem_append_left _ member
      | false => exact (ih running' chosen).mono fun _ member => List.mem_append_right _ member
    | «otherwise» body span =>
      cases body with
      | absent =>
        have ran := ok_of_running (pure ()) running rfl ended
        cases ran
        exact .inl running
      | _ =>
        have ran := ok_of_running (execute steps depth _) running rfl ended
        exact (ih running ran).mono fun _ member => member
    | loop label body span =>
      have ran := ok_of_running
        (repeatBody label (execute steps depth body) steps) running rfl ended
      obtain ⟨start, stop, running', inner, -, signal⟩ := exists_of_repeatBody_ok running ran
      rw [signal]
      by_cases ends : stop.state.signal.endsAt label = true
      · rw [if_pos ends]
        exact .inl rfl
      · rw [if_neg ends]
        exact (ih running' inner).loop (Bool.eq_false_iff.mpr ends)
    | exit target span =>
      have ran := ok_of_running (changeState (·.requestBreak target)) running rfl ended
      cases ran
      refine .inr ⟨⟨target, []⟩, ?_, ?_⟩
      · simp [Node.freeExits, Node.exits, Exit.isFree]
      · simp [State.requestBreak, running, Signal.isBreaking]
    | assign name value span =>
      have ran := ok_of_running (evalNumber depth value >>= fun value =>
        ofExcept (needed value) >>= fun number => ofExcept name.named >>= fun name =>
          changeState (·.assign name number)) running rfl ended
      have kept := (calm_assignment depth name value).steady world () last ran
      exact .inl (kept.trans running)
    | read names span =>
      have ran := ok_of_running (forNamesOf readName names) running rfl ended
      have kept := (calm_forNamesOf calm_readName names).steady world () last ran
      exact .inl (kept.trans running)
    | print names span =>
      have ran := ok_of_running (forNamesOf printName names) running rfl ended
      have kept := (calm_forNamesOf calm_printName names).steady world () last ran
      exact .inl (kept.trans running)
    | _ =>
      have ran := ok_of_running (fail _) running rfl ended
      cases ran

theorem running_of_noFreeExits (none_ : node.freeExits = [])
    (running : world.state.signal = .running)
    (ended : execute steps depth node world = .ok () last) : last.state.signal = .running := by
  apply (leaves_execute running ended).resolve_right
  simp [none_]

theorem loop_ne_ok {body : Node} {span : Option Span} (none_ : body.freeExits = [])
    (running : world.state.signal = .running) :
    execute steps depth (.loop label body span) world ≠ .ok () last := by
  intro ended
  cases depth with
  | zero => cases ended
  | succ depth =>
    have ran := ok_of_running
      (repeatBody label (execute steps depth body) steps) running rfl ended
    obtain ⟨start, stop, running', inner, breaking, -⟩ := exists_of_repeatBody_ok running ran
    rw [running_of_noFreeExits none_ running' inner] at breaking
    cases breaking

end Trees

end Machine

namespace Console

/-- What programs do to a console apart from telling of a break: lines are read, and the
lines of variables are written. -/
inductive Follows (start : Console) : Console → Prop where
  | refl : Follows start start
  | read {middle after prompt line} (follows : Follows start middle)
      (reads : middle.readLine prompt = .ok (line, after)) : Follows start after
  | print {middle after value} (name : String) (follows : Follows start middle)
      (writes : middle.writeLine (name ++ "=" ++ Number.printed value) = .ok after) :
      Follows start after

theorem Follows.trans {first second third : Console} (follows : first.Follows second)
    (further : second.Follows third) : first.Follows third := by
  induction further with
  | refl => exact follows
  | read _ reads ih => exact .read ih reads
  | print name _ writes ih => exact .print name ih writes

/-- Every line that was written in this way has an equals sign, so it tells of no break. -/
theorem Follows.queue {console : Console} {unread written prompts : List String}
    (follows : (Console.queue unread written prompts).Follows console) :
    ∃ unread' lines prompts', console = .queue unread' (lines ++ written) prompts' ∧
      ∀ line ∈ lines, '=' ∈ line.toList := by
  induction follows with
  | refl => exact ⟨unread, [], prompts, rfl, by simp⟩
  | read _ reads ih =>
    obtain ⟨unread', lines, prompts', rfl, marked⟩ := ih
    cases unread' with
    | nil =>
      cases reads
      exact ⟨[], lines, _, rfl, marked⟩
    | cons line unread' =>
      cases reads
      exact ⟨unread', lines, _, rfl, marked⟩
  | print name _ writes ih =>
    obtain ⟨unread', lines, prompts', rfl, marked⟩ := ih
    cases writes
    refine ⟨unread', _ :: lines, prompts', rfl, ?_⟩
    simpa using marked

end Console

section Runs

variable {prompt : String} {scene after : Scene} {fault? : Option Fault}

theorem follows_readName {name : String} (read : scene.readName prompt name = (fault?, after)) :
    scene.console.Follows after.console := by
  unfold Scene.readName at read
  split at read
  · cases read
    exact .refl
  · split at read
    · cases read
      exact .refl
    · rename_i reads
      split at read <;> cases read <;> exact .read .refl reads

theorem follows_printName {name : String} (print : scene.printName name = (fault?, after)) :
    scene.console.Follows after.console := by
  unfold Scene.printName Scene.writeLine at print
  split at print <;> cases print
  · exact .refl
  · rename_i writes
    exact .print name .refl writes

theorem follows_each {act : Scene → String → Option Fault × Scene}
    (each : ∀ scene name fault? after, act scene name = (fault?, after) →
      scene.console.Follows after.console) (names : List String)
    (did : scene.each act names = (fault?, after)) : scene.console.Follows after.console := by
  induction names generalizing scene with
  | nil =>
    cases did
    exact .refl
  | cons name rest ih =>
    rw [Scene.each] at did
    split at did
    · rename_i acted
      cases did
      exact each _ _ _ _ acted
    · rename_i acted
      exact (each _ _ _ _ acted).trans (ih did)

theorem Runs.follows {node : Node} {outcome : Completion}
    (runs : Runs prompt node scene outcome after) : scene.console.Follows after.console := by
  induction runs with
  | last _ ih | stop _ _ ih | consequent _ _ ih | alternate _ _ ih | otherwise _ ih
  | leave _ _ ih => exact ih
  | next _ _ ih ih' | again _ _ ih ih' => exact ih.trans ih'
  | read _ reads => exact follows_each (fun _ _ _ _ => follows_readName) _ reads
  | print _ prints => exact follows_each (fun _ _ _ _ => follows_printName) _ prints
  | undecided | fi | exit | exitTo | assign | noValue => exact .refl

end Runs

namespace Machine

theorem run_of_noFreeExits {limits : Limits} (runnable : limits.Runnable) {tracing : Bool}
    {source : Source} {program : Node} {reader : Reader}
    (parsed : Reading.program limits (.ofSource tracing source) = .ok program reader)
    (none_ : program.freeExits = []) {steps : Nat} {world last : World}
    (running : world.state.signal = .running) (ended : run steps program world = .ok () last) :
    last.state.signal = .running ∧ world.console.Follows last.console := by
  obtain ⟨body, span, rfl, executable⟩ := executable_of_parsed runnable parsed
  have executed : execute steps depthLimit (.program body span) world = .ok () last := by
    rw [run] at ended
    split at ended <;> cases ended
    assumption
  have signal := running_of_noFreeExits none_ running executed
  refine ⟨signal, ?_⟩
  rcases run_sound executable steps (at_of_running running) with
    ⟨_, stopped⟩ | ⟨_, _, _, finishes, settles⟩
  · rw [ended] at stopped
    cases stopped
  · rw [ended] at settles
    cases settles with
    | done at_' =>
      rw [at_'.state] at signal
      rw [at_'.console]
      cases finishes with
      | program runs concludes =>
        cases concludes with
        | normal => exact runs.follows
        | breakOne | breakTo => cases signal

/-- Breaks are scoped. A statement that ends with a break pending has a free break of that
kind. A program without free breaks ends with none pending, and writes lines of variables
only. A loop whose body has none never comes to its end. -/
theorem breaks_scoped :
    (∀ steps depth node world last, world.state.signal = .running →
      execute steps depth node world = .ok () last →
      (last.state.signal = .leaveNearest →
        ∃ exit ∈ node.freeExits, exit.target.isGiven = false) ∧
      ∀ label, last.state.signal = .leaveTo label →
        label.isGiven = true ∧ ∃ exit ∈ node.freeExits, exit.target = label) ∧
    (∀ limits : Limits, limits.Runnable → ∀ tracing upcase text program reader,
      Reading.program limits (.ofSource tracing (.ofText upcase text)) = .ok program reader →
      program.freeExits = [] → ∀ steps world last, world.state.signal = .running →
      run steps program world = .ok () last →
      last.state.signal = .running ∧ world.console.Follows last.console ∧
      ∀ unread written prompts, world.console = .queue unread written prompts →
        ∃ unread' lines prompts', last.console = .queue unread' (lines ++ written) prompts' ∧
          "Error! - Attempting to break, and reached the end of program" ∉ lines) ∧
    ∀ label body span, body.freeExits = [] → ∀ steps depth world last,
      world.state.signal = .running →
      execute steps depth (.loop label body span) world ≠ .ok () last := by
  refine ⟨?_, ?_, ?_⟩
  · intro steps depth node world last running ended
    have leaves := leaves_execute running ended
    constructor
    · intro nearest
      rw [nearest] at leaves
      exact leaves.leaveNearest
    · intro label labelled
      rw [labelled] at leaves
      exact leaves.leaveTo
  · intro limits runnable tracing upcase text program reader parsed none_ steps world last running
      ended
    obtain ⟨signal, follows⟩ := run_of_noFreeExits runnable parsed none_ running ended
    refine ⟨signal, follows, fun unread written prompts queue => ?_⟩
    rw [queue] at follows
    obtain ⟨unread', lines, prompts', after, marked⟩ := follows.queue
    refine ⟨unread', lines, prompts', after, fun member => ?_⟩
    exact absurd (marked _ member) (by decide)
  · intro label body span none_ steps depth world last running
    exact loop_ne_ok none_ running

/-- A break for an outer loop is free in the inner loop, ends the program that has both, and
without the outer loop's label there is nothing to end a loop. -/
theorem outer_break_scoped :
    (∃ last, execute 1 2 (.loop (.text "B") (.exit (.text "A") none) none)
        ⟨.initial, .ofLines [], {}, []⟩ = .ok () last ∧
      last.state.signal = .leaveTo (.text "A") ∧
      ∃ exit ∈ (Node.loop (.text "B") (.exit (.text "A") none) none).freeExits,
        exit.target = .text "A") ∧
    (∃ program reader last,
      Reading.program .standard
        (.ofSource false (.ofText false "LOOP A: LOOP B: BREAK A REPEAT REPEAT.")) =
        .ok program reader ∧ program.freeExits = [] ∧
      run 1 program ⟨.initial, .ofLines [], {}, []⟩ = .ok () last ∧
      last.state.signal = .running ∧ (Console.ofLines []).Follows last.console) ∧
    ∀ steps last, execute steps 9 (.loop (.text "A") (.loop (.text "B") (.exit (.text "") none)
      none) none) ⟨.initial, .ofLines [], {}, []⟩ ≠ .ok () last := by
  refine ⟨⟨⟨⟨.empty, .leaveTo (.text "A")⟩, .ofLines [], {}, []⟩, rfl, rfl, ?_⟩,
    ⟨_, _, _, rfl, rfl, rfl, ?_⟩, fun steps last => ?_⟩
  · exact ((breaks_scoped.1 1 2 _ ⟨.initial, .ofLines [], {}, []⟩
      ⟨⟨.empty, .leaveTo (.text "A")⟩, .ofLines [], {}, []⟩ rfl rfl).2 _ rfl).2
  · have ends := breaks_scoped.2.1 .standard Limits.runnable_standard false false
      "LOOP A: LOOP B: BREAK A REPEAT REPEAT." _ _ rfl rfl
      1 ⟨.initial, .ofLines [], {}, []⟩ _ rfl rfl
    exact ⟨ends.1, ends.2.1⟩
  · exact breaks_scoped.2.2 _ _ _ rfl steps 9 _ last rfl

end Machine

end LoopLang
