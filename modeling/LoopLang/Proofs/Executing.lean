import LoopLang.Machine.Program
import LoopLang.Machine.Registers
import LoopLang.Proofs.Deciding
import LoopLang.Proofs.Structured

/-!
# What execution does

A world shows a scene of the meaning, and while no break is pending every statement takes
it to a world that shows what the statement does to the scene. Each kind of statement has
its own lemma, from what its parts come to.
-/
namespace LoopLang

namespace Machine

/-- A world that shows a scene and a signal. -/
structure At (prompt : String) (signal : Signal) (scene : Scene) (world : World) : Prop where
  prompt : world.settings.prompt = prompt
  state : world.state = ⟨scene.store, signal⟩
  console : world.console = scene.console

theorem At.registers {prompt : String} {signal : Signal} {scene : Scene} {world : World}
    (at_ : At prompt signal scene world) : world.state.registers = signal.registers := by
  rw [at_.state]
  rfl

/-- An action that was not stopped for its steps, and what it came to. -/
inductive Settles {α : Type} (prompt : String) : Option Fault → Signal → Scene →
    EStateM.Result Halt World α → Prop where
  | done {signal scene value world} (at_ : At prompt signal scene world) :
      Settles prompt none signal scene (.ok value world)
  | failed {signal scene fault world} (at_ : At prompt signal scene world) :
      Settles prompt (some fault) signal scene (.error (.fault fault) world)

variable {α β : Type} {prompt : String} {fault? : Option Fault} {signal signal' : Signal}
  {scene middle after : Scene} {world : World} {m : Machine α} {next : α → Machine β}

theorem at_of_running (running : world.state.signal = .running) :
    At world.settings.prompt .running ⟨world.state.store, world.console⟩ world :=
  ⟨rfl, by rw [← running], rfl⟩

theorem Settles.bind (first : Settles prompt none signal middle (m world))
    (rest : ∀ a world', At prompt signal middle world' →
      Settles prompt fault? signal' after (next a world')) :
    Settles prompt fault? signal' after ((m >>= next) world) := by
  cases result : m world with
  | ok a world' =>
    rw [bind_ok result]
    rw [result] at first
    cases first with
    | done at_ => exact rest a world' at_
  | error halt world' =>
    rw [result] at first
    cases first

theorem Settles.bind_failed {fault : Fault}
    (first : Settles prompt (some fault) signal after (m world)) :
    Settles prompt (some fault) signal after ((m >>= next) world) := by
  cases result : m world with
  | ok a world' =>
    rw [result] at first
    cases first
  | error halt world' =>
    rw [bind_error result]
    rw [result] at first
    cases first with
    | failed at_ => exact .failed at_

theorem Settles.of_none (settles : Settles prompt none signal after (m world)) :
    ∃ a world', m world = .ok a world' ∧ At prompt signal after world' := by
  cases result : m world with
  | ok a world' =>
    rw [result] at settles
    cases settles with
    | done at_ => exact ⟨a, world', rfl, at_⟩
  | error halt world' =>
    rw [result] at settles
    cases settles

/-- What an action comes to is one scene, one signal and one fault or none. -/
theorem Settles.unique {fault?' : Option Fault} {after' : Scene}
    {result : EStateM.Result Halt World α} (settles : Settles prompt fault? signal after result)
    (settles' : Settles prompt fault?' signal' after' result) :
    fault? = fault?' ∧ signal = signal' ∧ after = after' := by
  have same {world : World} (at_ : At prompt signal after world)
      (at_' : At prompt signal' after' world) : signal = signal' ∧ after = after' := by
    have states := at_.state.symm.trans at_'.state
    have consoles := at_.console.symm.trans at_'.console
    cases after
    cases after'
    cases states
    cases consoles
    exact ⟨rfl, rfl⟩
  cases settles with
  | done at_ =>
    cases settles' with
    | done at_' => exact ⟨rfl, same at_ at_'⟩
  | failed at_ =>
    cases settles' with
    | failed at_' => exact ⟨rfl, same at_ at_'⟩

theorem Settles.not_stopped {world' : World} {result : EStateM.Result Halt World α}
    (stopped : result = .error .outOfSteps world') :
    ¬ Settles prompt fault? signal after result := by
  subst stopped
  nofun

theorem ofExcept_bind (result : Except Fault α) (world : World) :
    (ofExcept result >>= next) world = match result with
      | .ok a => next a world
      | .error fault => .error (.fault fault) world := by
  cases result <;> rfl

theorem settles_modify {change : World → World} (at_ : At prompt signal after (change world)) :
    Settles prompt none signal after ((modify change : Machine Unit) world) :=
  .done at_

theorem settles_note (at_ : At prompt signal scene world) (message : String) :
    Settles prompt none signal scene (note message world) := by
  refine settles_modify ?_
  unfold World.note
  split
  · exact ⟨at_.prompt, at_.state, at_.console⟩
  · exact at_

theorem settles_warn (at_ : At prompt signal scene world) (message : String) :
    Settles prompt none signal scene (warn message world) :=
  settles_modify ⟨at_.prompt, at_.state, at_.console⟩

theorem settles_writeLine (at_ : At prompt signal scene world) (line : String) :
    Settles prompt (scene.writeLine line).1 signal (scene.writeLine line).2
      (writeLine line world) := by
  unfold writeLine Scene.writeLine
  rw [get_bind, ofExcept_bind, at_.console]
  cases scene.console.writeLine line with
  | error fault => exact .failed at_
  | ok console => exact settles_modify ⟨at_.prompt, at_.state, rfl⟩

theorem settles_printName (at_ : At prompt signal scene world) (name : String) :
    Settles prompt (scene.printName name).1 signal (scene.printName name).2
      (printName (.text name) world) := by
  have line : printName (.text name) world =
      writeLine (name ++ "=" ++ Number.printed (world.state.store.get (some name))) world := rfl
  rw [line, at_.state]
  exact settles_writeLine at_ _

theorem readLine_eq (name : Node) (world : World) :
    readLine name world = match Prompt.fill world.settings.prompt name with
      | .error fault => .error (.fault fault) world
      | .ok shown => match world.console.readLine shown with
        | .error fault => .error (.fault fault) world
        | .ok (line, console) => .ok line { world with console } := by
  unfold readLine
  rw [get_bind, ofExcept_bind]
  cases Prompt.fill world.settings.prompt name with
  | error fault => rfl
  | ok shown =>
    dsimp only
    rw [get_bind, ofExcept_bind]
    cases world.console.readLine shown <;> rfl

theorem load_eq (limits : Limits) (source : Source) (world : World) :
    load limits source world =
      match Reading.program limits ⟨.ofSource source, world.settings.trace, world.log⟩ with
      | .ok program reader => .ok program { world with log := reader.log }
      | .error fault reader => .error (.fault fault) { world with log := reader.log } := by
  change (ofReading (Cursor.ofSource source) (Reading.program limits) >>= fun came =>
    pure came.1) world = _
  cases result : Reading.program limits ⟨.ofSource source, world.settings.trace, world.log⟩ with
  | ok program reader =>
    have read : ofReading (Cursor.ofSource source) (Reading.program limits) world =
        .ok (program, reader.cursor) { world with log := reader.log } := by
      rw [ofReading, result]
    rw [bind_ok read]
    rfl
  | error fault reader =>
    have read : ofReading (Cursor.ofSource source) (Reading.program limits) world =
        .error (.fault fault) { world with log := reader.log } := by
      rw [ofReading, result]
    rw [bind_error read]

theorem settles_readName (at_ : At prompt signal scene world) (name : String) :
    Settles prompt (scene.readName prompt name).1 signal (scene.readName prompt name).2
      (readName (.text name) world) := by
  have read := readLine_eq (.text name) world
  rw [at_.prompt, at_.console] at read
  unfold Scene.readName readName
  cases filled : Prompt.fill prompt (.text name) with
  | error fault =>
    rw [filled] at read
    rw [bind_error read]
    exact .failed at_
  | ok shown =>
    cases line : scene.console.readLine shown with
    | error fault =>
      simp only [filled, line] at read ⊢
      rw [bind_error read]
      exact .failed at_
    | ok result =>
      obtain ⟨line?, console⟩ := result
      simp only [filled, line] at read ⊢
      rw [bind_ok read, ofExcept_bind]
      have at_' : At prompt signal { scene with console } { world with console } :=
        ⟨at_.prompt, at_.state, rfl⟩
      cases number : readNumber (.text name) line? with
      | error fault => exact .failed at_'
      | ok value =>
        have assigned : At prompt signal ⟨scene.store.set (some name) value, console⟩
            { world with console, state := world.state.assign (some name) value } :=
          ⟨at_.prompt, by rw [at_.state]; rfl, rfl⟩
        exact settles_modify assigned

theorem settles_forNames {act : Node → Machine Unit} {act' : Scene → String → Option Fault × Scene}
    (each : ∀ name scene world, At prompt signal scene world →
      Settles prompt (act' scene name).1 signal (act' scene name).2 (act (.text name) world))
    (names : List String) (at_ : At prompt signal scene world) :
    Settles prompt (scene.each act' names).1 signal (scene.each act' names).2
      (forNames act (names.map .text) world) := by
  induction names generalizing scene world with
  | nil => exact .done at_
  | cons name rest ih =>
    have first := each name scene world at_
    rw [Scene.each]
    split
    · rename_i fault after known
      rw [known] at first
      exact first.bind_failed
    · rename_i after known
      rw [known] at first
      exact first.bind fun _ world' at_' => ih at_'

theorem elements_ofItems (nodes : List Node) : (Node.ofItems nodes).elements = nodes := by
  induction nodes with
  | nil => rfl
  | cons head rest ih => rw [Node.ofItems, Node.elements, ih]

theorem names_ofNames (names : List String) :
    (Node.ofNames names).names = names.map .text ∧ (Node.ofNames names).namesFault? = none := by
  cases names with
  | nil => exact ⟨rfl, rfl⟩
  | cons name rest =>
    refine ⟨?_, rfl⟩
    change Node.text name :: (Node.ofItems (rest.map .text)).elements = _
    rw [elements_ofItems]
    rfl

theorem forNamesOf_ofNames (act : Node → Machine Unit) (names : List String) :
    forNamesOf act (.ofNames names) = forNames act (names.map .text) := by
  obtain ⟨all, none_⟩ := names_ofNames names
  rw [forNamesOf, all, none_]
  exact bind_pure_unit

theorem settles_forNamesOf {act : Node → Machine Unit}
    {act' : Scene → String → Option Fault × Scene}
    (each : ∀ name scene world, At prompt signal scene world →
      Settles prompt (act' scene name).1 signal (act' scene name).2 (act (.text name) world))
    (names : List String) (at_ : At prompt signal scene world) :
    Settles prompt (scene.each act' names).1 signal (scene.each act' names).2
      (forNamesOf act (.ofNames names) world) := by
  rw [forNamesOf_ofNames]
  exact settles_forNames each names at_

theorem execute_of_running {steps depth : Nat} {node : Node} (action : Machine Unit)
    (at_ : At prompt .running scene world)
    (unfolds : execute steps (depth + 1) node =
      (Machine.signal >>= fun pending => if pending.isBreaking then pure () else action)) :
    execute steps (depth + 1) node world = action world := by
  have running : world.state.signal = .running := by rw [at_.state]
  rw [unfolds]
  change (if world.state.signal.isBreaking then pure () else action : Machine Unit) world = _
  rw [running]
  rfl

theorem reportDepth_fault (fault : Fault) : reportDepth (.fault fault) = .fault fault.ofRun := by
  cases fault <;> rfl

theorem signal_bind (next : Signal → Machine β) (world : World) :
    (Machine.signal >>= next) world = next world.state.signal world := rfl

section Lists

variable {run : Node → Machine Unit} {first rest : Node} {span : Option Span} {outcome : Completion}

theorem runList_next {world' : World} (ran : run first world = .ok () world')
    (at_ : At prompt .running middle world') :
    runList run (.sequence first rest span) world = runList run rest world' := by
  rw [runList, bind_ok ran, signal_bind, at_.state]
  rfl

theorem runList_stop
    (settles : Settles prompt outcome.fault? outcome.signal after (run first world))
    (leaves : outcome ≠ .normal) :
    Settles prompt outcome.fault? outcome.signal after
      (runList run (.sequence first rest span) world) := by
  rw [runList]
  cases outcome with
  | normal => exact absurd rfl leaves
  | failed fault => exact settles.bind_failed
  | breakOne | breakTo label =>
    refine Settles.bind settles fun _ world' at_ => ?_
    rw [signal_bind, at_.state]
    exact .done at_

end Lists

section Loops

variable {label : String} {body : Machine Unit} {outcome : Completion} {rounds : Nat}

theorem repeatBody_again {world' : World} (ran : body world = .ok () world')
    (at_ : At prompt .running middle world') :
    repeatBody (.text label) body (rounds + 1) world =
      repeatBody (.text label) body rounds world' := by
  rw [repeatBody, bind_ok ran, signal_bind, at_.state]
  rfl

theorem repeatBody_leave (settles : Settles prompt outcome.fault? outcome.signal after (body world))
    (leaves : outcome ≠ .normal) :
    Settles prompt (outcome.afterLoop label).fault? (outcome.afterLoop label).signal after
      (repeatBody (.text label) body (rounds + 1) world) := by
  rw [repeatBody]
  cases outcome with
  | normal => exact absurd rfl leaves
  | failed fault => exact settles.bind_failed
  | breakOne =>
    refine Settles.bind settles fun _ world₁ at₁ => ?_
    rw [signal_bind, at₁.state]
    refine Settles.bind (settles_note at₁ _) fun _ world₂ at₂ => ?_
    exact settles_modify ⟨at₂.prompt, by rw [at₂.state]; rfl, at₂.console⟩
  | breakTo target =>
    refine Settles.bind settles fun _ world₁ at₁ => ?_
    rw [signal_bind, at₁.state]
    refine Settles.bind (settles_note at₁ _) fun _ world₂ at₂ => ?_
    change Settles prompt (Completion.afterLoop label (.breakTo target)).fault?
      (Completion.afterLoop label (.breakTo target)).signal after
      ((if (target == label) = true then changeState (·.finishBreak) else pure () : Machine Unit)
        world₂)
    rw [Completion.afterLoop]
    by_cases same : target = label
    · rw [if_pos same, if_pos (beq_iff_eq.mpr same)]
      exact settles_modify ⟨at₂.prompt, by rw [at₂.state]; rfl, at₂.console⟩
    · rw [if_neg same, if_neg (same ∘ beq_iff_eq.mp)]
      exact .done at₂

end Loops

theorem evalCondition_bind (depth : Nat) (node : Node) (next : Bool → Machine β) (world : World) :
    (evalCondition depth node >>= next) world =
      match node.evalCondition world.state.store.get depth with
      | .ok holds => next holds world
      | .error fault => .error (.fault fault) world := by
  change (ofExcept (node.evalCondition world.state.store.get depth) >>= next) world = _
  rw [ofExcept_bind]
  cases node.evalCondition world.state.store.get depth <;> rfl

theorem evalNumber_bind (depth : Nat) (node : Node) (next : Float → Machine β) (world : World) :
    (evalNumber depth node >>= fun value => ofExcept (needed value) >>= next) world =
      match node.evalNumber world.state.store.get depth >>= needed with
      | .ok value => next value world
      | .error fault => .error (.fault fault) world := by
  have first : (evalNumber depth node >>= fun value => ofExcept (needed value) >>= next) world =
      match node.evalNumber world.state.store.get depth with
      | .ok value => (ofExcept (needed value) >>= next) world
      | .error fault => .error (.fault fault) world := by
    change (ofExcept (node.evalNumber world.state.store.get depth) >>= fun value =>
      ofExcept (needed value) >>= next) world = _
    rw [ofExcept_bind]
    cases node.evalNumber world.state.store.get depth <;> rfl
  rw [first]
  cases node.evalNumber world.state.store.get depth with
  | error fault => rfl
  | ok value =>
    change (ofExcept (needed value) >>= next) world = match needed value with
      | .ok value => next value world
      | .error fault => .error (.fault fault) world
    rw [ofExcept_bind]
    cases needed value <;> rfl

section Statements

variable {steps depth : Nat} {first second rest : Node} {span span' : Option Span}
  {outcome : Completion}

theorem execute_sequence (at_ : At prompt .running scene world) :
    execute steps (depth + 1) (.sequence first rest span) world =
      runList (execute steps depth) (.sequence first rest span) world :=
  execute_of_running (runList (execute steps depth) (.sequence first rest span)) at_ rfl

theorem settles_last (at_ : At prompt .running scene world)
    (settles : Settles prompt outcome.fault? outcome.signal after
      (execute steps depth first world)) :
    Settles prompt outcome.fault? outcome.signal after
      (execute steps (depth + 1) (.sequence first .absent span) world) := by
  rw [execute_sequence at_]
  by_cases normal : outcome = .normal
  · subst normal
    obtain ⟨_, world', ran, at_'⟩ := settles.of_none
    rw [runList_next ran at_']
    exact .done at_'
  · exact runList_stop settles normal

theorem settles_stop (at_ : At prompt .running scene world)
    (settles : Settles prompt outcome.fault? outcome.signal after
      (execute steps depth first world))
    (leaves : outcome ≠ .normal) :
    Settles prompt outcome.fault? outcome.signal after
      (execute steps (depth + 1) (.sequence first rest span) world) := by
  rw [execute_sequence at_]
  exact runList_stop settles leaves

theorem execute_next (at_ : At prompt .running scene world)
    (settles : Settles prompt Completion.normal.fault? Completion.normal.signal middle
      (execute steps depth first world)) :
    ∃ world', At prompt .running middle world' ∧
      execute steps (depth + 1) (.sequence first (.sequence second rest span') span) world =
        execute steps (depth + 1) (.sequence second rest span') world' := by
  obtain ⟨_, world', ran, at_'⟩ := settles.of_none
  refine ⟨world', at_', ?_⟩
  rw [execute_sequence at_, execute_sequence at_', runList_next ran at_']

theorem settles_fi (at_ : At prompt .running scene world) :
    Settles prompt none .running scene
      (execute steps (depth + 1) (.otherwise .absent span) world) := by
  rw [execute_of_running (pure ()) at_ rfl]
  exact .done at_

theorem execute_otherwise (at_ : At prompt .running scene world) :
    execute steps (depth + 1) (.otherwise (.sequence first rest span') span) world =
      execute steps depth (.sequence first rest span') world :=
  execute_of_running (execute steps depth (.sequence first rest span')) at_ rfl

theorem execute_branch {test body : Node} (at_ : At prompt .running scene world) :
    execute steps (depth + 1) (.branch test body rest span) world =
      match test.evalCondition scene.store.get depth with
      | .ok holds => (note ("If Statement reached - Condition: " ++ flagText holds) >>= fun _ =>
          if holds then execute steps depth body else execute steps depth rest) world
      | .error fault => .error (.fault fault) world := by
  rw [execute_of_running (evalCondition depth test >>= fun holds =>
    note ("If Statement reached - Condition: " ++ flagText holds) >>= fun _ =>
      if holds then execute steps depth body else execute steps depth rest) at_ rfl,
    evalCondition_bind, at_.state]

theorem execute_chosen {test body : Node} {holds : Bool} (at_ : At prompt .running scene world)
    (result : test.evalCondition scene.store.get depth = .ok holds) :
    ∃ world', At prompt .running scene world' ∧
      execute steps (depth + 1) (.branch test body rest span) world =
        execute steps depth (if holds then body else rest) world' := by
  have noted := settles_note at_ ("If Statement reached - Condition: " ++ flagText holds)
  obtain ⟨_, world', ran, at_'⟩ := noted.of_none
  refine ⟨world', at_', ?_⟩
  rw [execute_branch at_, result]
  simp only
  rw [bind_ok ran]
  cases holds <;> rfl

theorem settles_undecided {test body : Node} {fault : Fault} (at_ : At prompt .running scene world)
    (result : test.evalCondition scene.store.get depth = .error fault) :
    Settles prompt (some fault) .running scene
      (execute steps (depth + 1) (.branch test body rest span) world) := by
  rw [execute_branch at_, result]
  exact .failed at_

theorem execute_assign {name : String} {value : Node} (at_ : At prompt .running scene world) :
    execute steps (depth + 1) (.assign (.text name) value span) world =
      match value.evalNumber scene.store.get depth >>= needed with
      | .ok number => changeState (·.assign (some name) number) world
      | .error fault => .error (.fault fault) world := by
  rw [execute_of_running (evalNumber depth value >>= fun value => ofExcept (needed value) >>=
    fun number => ofExcept (Node.named (.text name)) >>= fun name =>
      changeState (·.assign name number)) at_ rfl, evalNumber_bind, at_.state]
  rfl

theorem settles_assign {name : String} {value : Node} {number : Float}
    (at_ : At prompt .running scene world)
    (result : (value.evalNumber scene.store.get depth >>= needed) = .ok number) :
    Settles prompt none .running { scene with store := scene.store.set (some name) number }
      (execute steps (depth + 1) (.assign (.text name) value span) world) := by
  rw [execute_assign at_, result]
  exact settles_modify ⟨at_.prompt, by rw [at_.state]; rfl, at_.console⟩

theorem settles_noValue {name : String} {value : Node} {fault : Fault}
    (at_ : At prompt .running scene world)
    (result : (value.evalNumber scene.store.get depth >>= needed) = .error fault) :
    Settles prompt (some fault) .running scene
      (execute steps (depth + 1) (.assign (.text name) value span) world) := by
  rw [execute_assign at_, result]
  exact .failed at_

theorem settles_exit (at_ : At prompt .running scene world) :
    Settles prompt none .leaveNearest scene
      (execute steps (depth + 1) (.exit (.text "") span) world) := by
  rw [execute_of_running (changeState (·.requestBreak (.text ""))) at_ rfl]
  exact settles_modify ⟨at_.prompt, by rw [at_.state]; rfl, at_.console⟩

theorem settles_exitTo {label : String} (given : label ≠ "")
    (at_ : At prompt .running scene world) :
    Settles prompt none (.leaveTo (.text label)) scene
      (execute steps (depth + 1) (.exit (.text label) span) world) := by
  rw [execute_of_running (changeState (·.requestBreak (.text label))) at_ rfl]
  refine settles_modify ⟨at_.prompt, ?_, at_.console⟩
  simp [at_.state, State.requestBreak, Signal.isBreaking, Signal.ofTarget, Node.isGiven, given]

theorem settles_read {names : List String} (at_ : At prompt .running scene world)
    (reads : scene.each (Scene.readName prompt) names = (fault?, after)) :
    Settles prompt fault? .running after
      (execute steps (depth + 1) (.read (.ofNames names) span) world) := by
  rw [execute_of_running (forNamesOf readName (.ofNames names)) at_ rfl]
  have settles := settles_forNamesOf (fun name _ _ at_ => settles_readName at_ name) names at_
  rwa [reads] at settles

theorem settles_print {names : List String} (at_ : At prompt .running scene world)
    (prints : scene.each Scene.printName names = (fault?, after)) :
    Settles prompt fault? .running after
      (execute steps (depth + 1) (.print (.ofNames names) span) world) := by
  rw [execute_of_running (forNamesOf printName (.ofNames names)) at_ rfl]
  have settles := settles_forNamesOf (fun name _ _ at_ => settles_printName at_ name) names at_
  rwa [prints] at settles

end Statements

end Machine

end LoopLang
