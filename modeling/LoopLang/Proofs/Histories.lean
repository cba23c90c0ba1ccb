import LoopLang.Proofs.Safety
import LoopLang.Proofs.Sequencing

/-!
# A break over many runs

A state is used for many runs, and written and asked for breaks in between. The registers of
its signal always fit together; a break that is pending stays until it is finished or a loop
ends it; and a run that fails has left none, since nothing is executed while a break is
pending and a queue of lines takes every line that tells of it.
-/
namespace LoopLang

namespace Machine

variable {α β : Type} {m : Machine α} {next : α → Machine β} {before between after : Signal → Prop}
  {steps depth : Nat} {node : Node} {world last : World}

/-- On a queue of lines, an action that takes signals as they may be before it to signals as
they may be after it, and that fails only where no break is pending. -/
def Orderly (before : Signal → Prop) (m : Machine α) (after : Signal → Prop) : Prop :=
  ∀ world, world.console.IsQueue → before world.state.signal → match m world with
    | .ok _ last => last.console.IsQueue ∧ after last.state.signal
    | .error _ last => last.state.signal = .running

section Orderly

theorem orderly_pure (a : α) : Orderly before (pure a : Machine α) before :=
  fun _ queue holds => ⟨queue, holds⟩

theorem orderly_fail (fault : Fault) : Orderly (· = .running) (fail fault : Machine α) after :=
  fun _ _ running => running

theorem orderly_bind (first : Orderly before m between)
    (rest : ∀ a, Orderly between (next a) after) : Orderly before (m >>= next) after := by
  intro world queue holds
  have came := first world queue holds
  cases result : m world with
  | ok a middle =>
    rw [result] at came
    rw [bind_ok result]
    exact rest a middle came.1 came.2
  | error halt middle =>
    rw [result] at came
    rw [bind_error result]
    exact came

theorem Orderly.mono {after' : Signal → Prop} (orderly : Orderly before m after)
    (weaker : ∀ signal, after signal → after' signal) : Orderly before m after' := by
  intro world queue holds
  have came := orderly world queue holds
  cases result : m world with
  | ok a middle =>
    rw [result] at came
    exact ⟨came.1, weaker _ came.2⟩
  | error halt middle =>
    rw [result] at came
    exact came

theorem orderly_modify {change : World → World}
    (keeps : ∀ world, (change world).console = world.console)
    (turns : ∀ world, before world.state.signal → after (change world).state.signal) :
    Orderly before (modify change : Machine Unit) after := by
  intro world queue holds
  refine ⟨?_, turns world holds⟩
  rw [keeps]
  exact queue

theorem orderly_signal_bind {next : Signal → Machine β}
    (rest : ∀ pending, before pending → Orderly (· = pending) (next pending) after) :
    Orderly before (signal >>= next) after :=
  fun world queue holds => rest _ holds world queue rfl

theorem orderly_note (message : String) : Orderly before (note message) before := by
  refine orderly_modify (fun world => ?_) fun world holds => ?_
  · unfold World.note
    split <;> rfl
  · unfold World.note
    split <;> exact holds

theorem orderly_warn (message : String) : Orderly before (warn message) before :=
  orderly_modify (fun _ => rfl) fun _ => id

theorem orderly_writeLine (line : String) : Orderly before (writeLine line) before := by
  rintro ⟨state, console, settings, log⟩ ⟨unread, written, prompts, rfl⟩ holds
  exact ⟨⟨_, _, _, rfl⟩, holds⟩

theorem Calm.orderly (calm : Calm m) : Orderly (· = .running) m (· = .running) := by
  intro world queue running
  have kept := calm world
  cases result : m world with
  | ok a last =>
    rw [result] at kept
    exact ⟨kept.2 queue, kept.1.trans running⟩
  | error halt last =>
    rw [result] at kept
    exact kept.1.trans running

theorem orderly_tellUnmatched : Orderly before tellUnmatched before := by
  apply orderly_signal_bind
  intro pending holds
  have kept (signal : Signal) (same : signal = pending) : before signal := same ▸ holds
  refine Orderly.mono ?_ kept
  split
  · apply orderly_bind (orderly_warn _)
    intro _
    apply orderly_bind (orderly_writeLine _)
    intro _
    split
    · exact orderly_writeLine _
    · exact orderly_pure ()
  · exact orderly_pure ()

end Orderly

/-- Signals whose registers fit together. -/
def Fits (signal : Signal) : Prop :=
  signal.registers.WellFormed

theorem fits_running : Fits .running :=
  Registers.wellFormed_clear

theorem orderly_requestBreak (target : Node) :
    Orderly (· = .running) (changeState (·.requestBreak target)) Fits := by
  refine orderly_modify (fun _ => rfl) fun world running => ?_
  have fits : world.state.registers.WellFormed := by
    rw [State.registers, running]
    exact fits_running
  change (world.state.requestBreak target).registers.WellFormed
  rw [State.registers_requestBreak]
  exact fits.request target

theorem orderly_unlessBreaking {action : Machine Unit}
    (orderly : Orderly (· = .running) action after)
    (idle : ∀ signal, before signal → after signal) :
    Orderly before (signal >>= fun pending => if pending.isBreaking then pure () else action)
      after := by
  apply orderly_signal_bind
  intro pending holds
  by_cases breaking : pending.isBreaking = true
  · rw [if_pos breaking]
    refine (orderly_pure ()).mono ?_
    rintro _ rfl
    exact idle _ holds
  · rw [if_neg breaking, Signal.running_of_not_breaking breaking]
    exact orderly

theorem orderly_runList {run : Node → Machine Unit}
    (each : ∀ node, Orderly (· = .running) (run node) Fits) :
    Orderly (· = .running) (runList run node) Fits := by
  induction node with
  | absent => exact (orderly_pure ()).mono fun _ running => running ▸ fits_running
  | sequence first rest span _ ih =>
    exact orderly_bind (each first) fun _ => orderly_unlessBreaking ih fun _ => id
  | _ => exact orderly_fail _

/-- A loop ends a break or passes it on, and goes round while none is pending. -/
theorem orderly_repeatBody {label : Node} {body : Machine Unit} {rounds : Nat}
    (each : Orderly (· = .running) body Fits) :
    Orderly (· = .running) (repeatBody label body rounds) Fits := by
  induction rounds with
  | zero => exact fun _ _ running => running
  | succ rounds ih =>
    apply orderly_bind each
    intro _
    apply orderly_signal_bind
    intro pending fits
    by_cases breaking : pending.isBreaking = true
    · rw [if_pos breaking]
      apply orderly_bind (orderly_note _)
      intro _
      split
      · exact orderly_modify (fun _ => rfl) fun _ _ => fits_running
      · refine (orderly_pure ()).mono ?_
        rintro _ rfl
        exact fits
    · rw [if_neg breaking, Signal.running_of_not_breaking breaking]
      exact ih

theorem orderly_execute : Orderly (· = .running) (execute steps depth node) Fits := by
  -- only an exit and a loop change the signal; all else leaves it as it is, which fits
  have idle (signal : Signal) (running : signal = .running) : Fits signal := running ▸ fits_running
  induction depth generalizing node with
  | zero => exact orderly_fail _
  | succ depth ih =>
    cases node with
    | program body span =>
      exact orderly_unlessBreaking (orderly_bind ih fun _ => orderly_tellUnmatched) idle
    | sequence first rest span =>
      exact orderly_unlessBreaking (orderly_runList fun _ => ih) idle
    | branch test consequent alternate span =>
      have decided := (calm_evalCondition depth test).orderly
      refine orderly_unlessBreaking (orderly_bind decided fun holds => ?_) idle
      apply orderly_bind (orderly_note _)
      intro _
      split
      · exact ih
      · exact ih
    | «otherwise» body span =>
      cases body with
      | absent => exact orderly_unlessBreaking ((orderly_pure ()).mono idle) idle
      | _ => exact orderly_unlessBreaking ih idle
    | loop label body span => exact orderly_unlessBreaking (orderly_repeatBody ih) idle
    | exit target span => exact orderly_unlessBreaking (orderly_requestBreak target) idle
    | assign name value span =>
      have assigned := (calm_assignment depth name value).orderly
      exact orderly_unlessBreaking (assigned.mono idle) idle
    | read names span =>
      have each := (calm_forNamesOf calm_readName names).orderly
      exact orderly_unlessBreaking (each.mono idle) idle
    | print names span =>
      have each := (calm_forNamesOf calm_printName names).orderly
      exact orderly_unlessBreaking (each.mono idle) idle
    | _ => exact orderly_unlessBreaking (orderly_fail _) idle

theorem orderly_run (program : Node) : Orderly (· = .running) (run steps program) Fits := by
  intro world queue running
  have came := @orderly_execute steps depthLimit program world queue running
  rw [run]
  cases executed : execute steps depthLimit program world with
  | ok value last | error halt last =>
    rw [executed] at came
    exact came

theorem orderly_load (limits : Limits) (source : Source) :
    Orderly (· = .running) (load limits source) (· = .running) := by
  intro world queue running
  rw [load_eq]
  cases Reading.program limits ⟨.ofSource source, world.settings.trace, world.log⟩ with
  | ok program reader => exact ⟨queue, running⟩
  | error fault reader => exact running

theorem orderly_runText (limits : Limits) (text : String) :
    Orderly (· = .running) (runText limits steps text) Fits :=
  fun world => orderly_bind (orderly_load limits _) orderly_run world

section Endings

variable {limits : Limits} {action : Machine Unit} {fault? : Option Fault} {program : Node}
  {text : String}

theorem state_of_run (ended : run steps program world = ending fault? last)
    (breaking : world.state.signal.isBreaking = true) : last.state = world.state := by
  have idle : ending none world = ending fault? last := (run_of_breaking breaking).symm.trans ended
  obtain ⟨-, rfl⟩ := ending_inj idle
  rfl

/-- A text is read all the same, in the trace. -/
theorem state_of_runText (ended : runText limits steps text world = ending fault? last)
    (breaking : world.state.signal.isBreaking = true) : last.state = world.state := by
  rw [runText, get_bind] at ended
  have loaded := load_eq limits (.ofText world.settings.upcase text) world
  split at loaded
  · rw [bind_ok loaded] at ended
    have kept := state_of_run ended breaking
    exact kept
  · rename_i fault reader _
    rw [bind_error loaded] at ended
    have failed : ending (some fault) { world with log := reader.log } = ending fault? last := ended
    obtain ⟨-, rfl⟩ := ending_inj failed
    rfl

theorem Orderly.fits (orderly : Orderly (· = .running) action Fits)
    (queue : world.console.IsQueue) (running : world.state.signal = .running)
    (ended : action world = ending fault? last) : Fits last.state.signal := by
  have came := orderly world queue running
  rw [ended] at came
  cases fault? with
  | none => exact came.2
  | some fault => exact came ▸ fits_running

theorem Orderly.clear (orderly : Orderly (· = .running) action Fits)
    (queue : world.console.IsQueue) (running : world.state.signal = .running) {fault : Fault}
    (failed : action world = .error (.fault fault) last) : last.state.registers = .clear := by
  have came := orderly world queue running
  rw [failed] at came
  rw [State.registers, came]
  rfl

end Endings

end Machine

/-- What is done with a state. -/
inductive Event where
  | set (name : Option String) (value : Float)
  | request (target : Node)
  | finish
  | run (program : Node)
  | runText (text : String)

/-- An event takes a state to another one. The runs end, with a fault or without one, and are
given queues of lines. -/
inductive Does : State → Event → State → Prop where
  | set {state name value} : Does state (.set name value) (state.assign name value)
  | request {state target} : Does state (.request target) (state.requestBreak target)
  | finish {state} : Does state .finish state.finishBreak
  | run {world last : World} {steps program fault?} (queue : world.console.IsQueue)
      (ended : Machine.run steps program world = Machine.ending fault? last) :
      Does world.state (.run program) last.state
  | runText {world last : World} {limits steps text fault?} (queue : world.console.IsQueue)
      (ended : Machine.runText limits steps text world = Machine.ending fault? last) :
      Does world.state (.runText text) last.state

inductive History : State → List Event → State → Prop where
  | nil {state} : History state [] state
  | cons {state event middle rest after} (does : Does state event middle)
      (later : History middle rest after) : History state (event :: rest) after

section History

variable {state after : State} {event : Event} {events : List Event}

theorem Does.registers_of_pending (does : Does state event after)
    (pending : state.registers.control ≠ .running) (goesOn : event ≠ .finish) :
    after.registers = state.registers := by
  have breaking := Signal.isBreaking_of_control pending
  cases does with
  | set => rfl
  | request => rw [State.registers_requestBreak, Registers.request_of_pending pending]
  | finish => exact absurd rfl goesOn
  | run queue ended => rw [Machine.state_of_run ended breaking]
  | runText queue ended => rw [Machine.state_of_runText ended breaking]

theorem Does.wellFormed (does : Does state event after) (wellFormed : state.registers.WellFormed) :
    after.registers.WellFormed := by
  -- a run is orderly only from where no break is pending; else it does nothing
  by_cases running : state.registers.control = .running
  · have noBreak := Signal.control_eq_running.mp running
    cases does with
    | set => exact wellFormed
    | request =>
      rw [State.registers_requestBreak]
      exact wellFormed.request _
    | finish => exact Registers.wellFormed_clear
    | run queue ended => exact (Machine.orderly_run _).fits queue noBreak ended
    | runText queue ended => exact (Machine.orderly_runText _ _).fits queue noBreak ended
  · by_cases finish : event = .finish
    · subst finish
      cases does
      exact Registers.wellFormed_clear
    · rw [does.registers_of_pending running finish]
      exact wellFormed

theorem History.wellFormed (history : History state events after)
    (wellFormed : state.registers.WellFormed) : after.registers.WellFormed := by
  induction history with
  | nil => exact wellFormed
  | cons does _ ih => exact ih (does.wellFormed wellFormed)

theorem History.registers_of_pending (history : History state events after)
    (pending : state.registers.control ≠ .running) (goesOn : .finish ∉ events) :
    after.registers = state.registers := by
  induction history with
  | nil => rfl
  | cons does _ ih =>
    rw [List.mem_cons, not_or] at goesOn
    have kept := does.registers_of_pending pending (Ne.symm goesOn.1)
    rw [← kept] at pending ⊢
    exact ih pending goesOn.2

end History

end LoopLang
