import LoopLang.Proofs.Scoping
import LoopLang.Proofs.Tracking

/-!
# One program after another

While a break is pending nothing is executed, so a list of statements comes to its
statements one after the other, whether or not one of them leaves a break pending. Hence the
statements of two programs in one list do what the two programs do in turn. A break that
the first program leaves is told there, and makes the second one do nothing; in one list it
is told at the end, after statements that did nothing.
-/
namespace LoopLang

def Node.statements : Node → List Node
  | program body _ => body.linked
  | _ => []

theorem Node.linked_ofStatements (place : Node → Option Span) (statements : List Node) :
    (ofStatements place statements).linked = statements := by
  induction statements with
  | nil => rfl
  | cons first rest ih => simp [ofStatements, linked, ih]

theorem Node.linkFault?_ofStatements (place : Node → Option Span) (statements : List Node) :
    (ofStatements place statements).linkFault? = none := by
  induction statements with
  | nil => rfl
  | cons first rest ih => simp [ofStatements, linkFault?, ih]

namespace Machine

variable {first second list : Node} {span : Option Span} {steps depth : Nat}
  {world middle last : World} {fault? : Option Fault}

section Lists

variable {run : Node → Machine Unit}

/-- Something that does nothing while a break is pending. -/
def Idle (run : Node → Machine Unit) : Prop :=
  ∀ node world, world.state.signal.isBreaking = true → run node world = .ok () world

theorem idle_execute (steps depth : Nat) : Idle (execute steps (depth + 1)) := by
  intro node world breaking
  unfold execute
  rw [signal_bind, if_pos breaking]
  rfl

theorem Idle.all_idle (idle : Idle run) (statements : List Node)
    (breaking : world.state.signal.isBreaking = true) :
    forM statements run world = .ok () world := by
  induction statements with
  | nil => rfl
  | cons first rest ih => rw [List.forM_cons, bind_ok (idle first world breaking), ih]

/-- A linked list comes to its statements one after the other. -/
theorem Idle.runList_eq (idle : Idle run) {node : Node} (whole : node.linkFault? = none) :
    runList run node = forM node.linked run := by
  induction node with
  | absent => rfl
  | sequence first rest span _ ih =>
    have others : (signal >>= fun pending =>
        if pending.isBreaking then pure () else runList run rest) =
          forM rest.linked run := by
      funext world
      rw [signal_bind]
      by_cases breaking : world.state.signal.isBreaking = true
      · rw [if_pos breaking, idle.all_idle _ breaking]
        rfl
      · rw [if_neg breaking, ih whole]
    rw [runList, others, Node.linked, List.forM_cons]
  | _ => cases whole

theorem execute_eq_forM {node : Node} (whole : node.linkFault? = none) (given : node.linked ≠ []) :
    execute steps (depth + 2) node = forM node.linked (execute steps (depth + 1)) := by
  cases node with
  | sequence first rest span =>
    have idle := idle_execute steps depth
    funext world
    rw [← idle.runList_eq whole, execute, signal_bind]
    by_cases breaking : world.state.signal.isBreaking = true
    · rw [if_pos breaking, idle.runList_eq whole, idle.all_idle _ breaking]
      rfl
    · rw [if_neg breaking]
  | _ => exact absurd rfl given

end Lists

section Programs

variable {body body' : Node} {span' span'' : Option Span}

theorem execute_statements (whole : body.linkFault? = none) (given : body.linked ≠ [])
    (running : ¬ world.state.signal.isBreaking = true) :
    execute steps (depth + 3) (.program body span) world =
      (forM body.linked (execute steps (depth + 1)) >>= fun _ => tellUnmatched) world := by
  rw [execute, signal_bind, if_neg running, execute_eq_forM whole given]

/-- It does not matter whether a break is told before the statements that it keeps from being
executed or after them. -/
theorem tellUnmatched_bind (whole : body.linkFault? = none) (given : body.linked ≠ []) :
    (tellUnmatched >>= fun _ => execute steps (depth + 3) (.program body span)) =
      (forM body.linked (execute steps (depth + 1)) >>= fun _ => tellUnmatched) := by
  funext world
  by_cases breaking : world.state.signal.isBreaking = true
  · rw [bind_ok ((idle_execute steps depth).all_idle _ breaking)]
    cases told : tellUnmatched world with
    | error halt last => rw [bind_error told]
    | ok value last =>
      have pending : last.state.signal.isBreaking = true := by
        rw [calm_tellUnmatched.steady world value last told, breaking]
      rw [bind_ok told, idle_execute steps _ _ _ pending]
  · have silent : tellUnmatched world = .ok () world := by
      rw [tellUnmatched, signal_bind, if_neg breaking]
      rfl
    rw [bind_ok silent, execute_statements whole given breaking]

theorem execute_append (whole : body.linkFault? = none) (given : body.linked ≠ [])
    (whole' : body'.linkFault? = none) (given' : body'.linked ≠ [])
    (listed : list.linked = body.linked ++ body'.linked) (wholeList : list.linkFault? = none) :
    execute steps (depth + 3) (.program list span) =
      (execute steps (depth + 3) (.program body span') >>= fun _ =>
        execute steps (depth + 3) (.program body' span'')) := by
  have givenList : list.linked ≠ [] := by simp [listed, given]
  funext world
  by_cases breaking : world.state.signal.isBreaking = true
  · have idle := idle_execute steps (depth + 2)
    rw [idle _ _ breaking, bind_ok (idle _ _ breaking), idle _ _ breaking]
  · have first : execute steps (depth + 3) (.program body span') world =
        (forM body.linked (execute steps (depth + 1)) >>= fun _ => tellUnmatched) world :=
      execute_statements whole given breaking
    calc execute steps (depth + 3) (.program list span) world
        = (forM list.linked (execute steps (depth + 1)) >>= fun _ => tellUnmatched) world :=
          execute_statements wholeList givenList breaking
      _ = (forM body.linked (execute steps (depth + 1)) >>= fun _ => tellUnmatched >>= fun _ =>
            execute steps (depth + 3) (.program body' span'')) world := by
          rw [listed, List.forM_append, bind_assoc, tellUnmatched_bind whole' given']
      _ = (execute steps (depth + 3) (.program body span') >>= fun _ =>
            execute steps (depth + 3) (.program body' span'')) world := by
          rw [← bind_assoc]
          simp only [Bind.bind, EStateM.bind] at first ⊢
          rw [first]

end Programs

theorem run_of_breaking (breaking : world.state.signal.isBreaking = true) :
    run steps first world = .ok () world := by
  have executed : execute steps depthLimit first world = .ok () world :=
    idle_execute steps _ first world breaking
  rw [run, executed]

theorem run_bind {program : Node}
    (executed : execute steps depthLimit program =
      (execute steps depthLimit first >>= fun _ => execute steps depthLimit second)) :
    run steps program = (run steps first >>= fun _ => run steps second) := by
  funext world
  rw [run, executed]
  cases ran : execute steps depthLimit first world with
  | error halt last =>
    have stopped : run steps first world = .error (reportDepth halt) last := by rw [run, ran]
    rw [bind_error ran, bind_error stopped]
  | ok value middle =>
    have ended : run steps first world = .ok () middle := by rw [run, ran]
    rw [bind_ok ran, bind_ok ended, run]

theorem linked_of_derives {ρ : Type} {inside : ρ → ρ → Prop} {room : ρ} {own : List Token}
    {node : Node} (derived : Derives inside room .statements own node) :
    node.linkFault? = none ∧ node.linked ≠ [] := by
  generalize same : Category.statements = category at derived
  induction derived with
  | oneStatement => simp [Node.linkFault?, Node.linked]
  | moreStatements _ _ _ _ ih => simp [Node.linkFault?, Node.linked, (ih rfl).1]
  | _ => cases same

theorem linked_of_parsed {limits : Limits} {tracing : Bool} {source : Source} {program : Node}
    {reader : Reader}
    (parsed : Reading.program limits (.ofSource tracing source) = .ok program reader) :
    ∃ body span, program = .program body span ∧ body.linkFault? = none ∧ body.linked ≠ [] := by
  obtain ⟨own, -, -, derived⟩ := Reading.derives_of_program parsed
  cases derived with
  | program statements => exact ⟨_, _, rfl, linked_of_derives statements⟩

section Ends

variable {program : Node}
  (turns : ∀ steps, run steps program = (run steps first >>= fun _ => run steps second))
include turns

theorem ends_of_failed {fault : Fault} (failed : Ends first world (some fault) last) :
    Ends program world (some fault) last := by
  obtain ⟨steps, ran⟩ := failed
  exact ⟨steps, by rw [turns, bind_error ran]; rfl⟩

theorem ends_of_ended (ended : Ends first world none middle)
    (then_ : Ends second middle fault? last) : Ends program world fault? last := by
  obtain ⟨steps, ran⟩ := ended
  obtain ⟨steps', ran'⟩ := then_
  have enough : run (max steps steps') first world = .ok () middle :=
    run_more (Nat.le_max_left steps steps') ran
  refine ⟨max steps steps', ?_⟩
  rw [turns, bind_ok enough]
  exact run_more (Nat.le_max_right steps steps') ran'

theorem ends_turns_iff :
    Ends program world fault? last ↔
      (fault? ≠ none ∧ Ends first world fault? last) ∨
        ∃ middle, Ends first world none middle ∧ Ends second middle fault? last := by
  constructor
  · rintro ⟨steps, ended⟩
    rw [turns] at ended
    rcases ended_or_stopped (run steps first world) with ⟨fault?', middle, ran⟩ | ⟨middle, stopped⟩
    · cases fault?' with
      | none =>
        rw [bind_ok ran] at ended
        exact .inr ⟨middle, ⟨steps, ran⟩, steps, ended⟩
      | some fault =>
        rw [bind_error ran] at ended
        have same : ending (some fault) middle = ending fault? last := ended
        obtain ⟨rfl, rfl⟩ := ending_inj same
        exact .inl ⟨nofun, steps, ran⟩
    · rw [bind_error stopped] at ended
      exact absurd ended.symm ending_ne_stopped
  · rintro (⟨failed, ended⟩ | ⟨middle, ended, then_⟩)
    · cases fault? with
      | none => exact absurd rfl failed
      | some fault => exact ends_of_failed turns ended
    · exact ends_of_ended turns ended then_

theorem diverges_turns_iff :
    Diverges program world ↔
      Diverges first world ∨ ∃ middle, Ends first world none middle ∧ Diverges second middle := by
  simp only [diverges_iff, ends_turns_iff turns]
  constructor
  · intro endless
    by_cases ends : ∃ fault? last, Ends first world fault? last
    · obtain ⟨fault?, middle, ended⟩ := ends
      cases fault? with
      | none =>
        refine .inr ⟨middle, ended, ?_⟩
        rintro ⟨fault?, last, then_⟩
        exact endless ⟨fault?, last, .inr ⟨middle, ended, then_⟩⟩
      | some fault => exact absurd ⟨some fault, middle, .inl ⟨nofun, ended⟩⟩ endless
    · exact .inl ends
  · rintro (endless | ⟨middle, ended, endless⟩)
      ⟨fault?, last, ⟨failed, ended'⟩ | ⟨middle', ended', then_⟩⟩
    · exact endless ⟨fault?, last, ended'⟩
    · exact endless ⟨none, middle', ended'⟩
    · exact failed (ended.unique ended').1.symm
    · obtain ⟨-, rfl⟩ := ended.unique ended'
      exact endless ⟨fault?, last, then_⟩

end Ends

section Unmatched

theorem each_writeLine (lines : List String) (store : Store)
    (unread written prompts : List String) :
    (Scene.mk store (.queue unread written prompts)).each Scene.writeLine lines =
      (none, ⟨store, .queue unread (lines.reverse ++ written) prompts⟩) := by
  induction lines generalizing written with
  | nil => rfl
  | cons line rest ih => simp [Scene.each, Scene.writeLine, Console.writeLine, ih]

theorem count_unmatchedLines (label? : Option String) :
    (unmatchedLines label?).count "Error! - Attempting to break, and reached the end of program" =
      1 := by
  cases label? with
  | none => rfl
  | some label =>
    have differs : "Label " ++ label ++ ": Not Found" ≠
        "Error! - Attempting to break, and reached the end of program" := by
      intro same
      have heads := congrArg (·.toList.head?) same
      simp at heads
    simp [unmatchedLines, differs]

theorem written_of_concludes {outcome : Completion} {scene after : Scene} {signal : Signal}
    {unread written prompts : List String} (concludes : Concludes outcome scene none signal after)
    (queue : scene.console = .queue unread written prompts) (breaking : signal.isBreaking = true) :
    ∃ label?,
      after.console = .queue unread ((unmatchedLines label?).reverse ++ written) prompts := by
  obtain ⟨store, console⟩ := scene
  cases queue
  cases concludes with
  | normal => cases breaking
  | breakOne told | breakTo told =>
    rw [each_writeLine] at told
    cases told
    exact ⟨_, rfl⟩

/-- A run that leaves a break pending where none was pending before tells of it once. -/
theorem tells_once {limits : Limits} (runnable : limits.Runnable) {tracing : Bool}
    {source : Source} {reader : Reader} {unread written prompts : List String}
    (parsed : Reading.program limits (.ofSource tracing source) = .ok first reader)
    (running : world.state.signal = .running)
    (queue : world.console = .queue unread written prompts)
    (ended : Ends first world none middle) (breaking : middle.state.signal.isBreaking = true) :
    ∃ unread' lines prompts', middle.console = .queue unread' (lines ++ written) prompts' ∧
      lines.count "Error! - Attempting to break, and reached the end of program" = 1 := by
  obtain ⟨signal, after, finishes, at_⟩ := finishes_of_ends runnable parsed running ended
  rw [at_.state] at breaking
  cases finishes with
  | program runs concludes =>
    have follows := runs.follows
    rw [queue] at follows
    obtain ⟨unread', lines, prompts', left, marked⟩ := follows.queue
    obtain ⟨label?, told⟩ := written_of_concludes concludes left breaking
    refine ⟨unread', (unmatchedLines label?).reverse ++ lines, prompts', ?_, ?_⟩
    · rw [at_.console, told, List.append_assoc]
    · have fresh : lines.count
          "Error! - Attempting to break, and reached the end of program" = 0 :=
        List.count_eq_zero.mpr fun member => absurd (marked _ member) (by decide)
      rw [List.count_append, List.count_reverse, count_unmatchedLines, fresh]

end Unmatched

/-- Running the statements of two programs in one list is running the programs in turn, in any
world: the same world is left and the same fault or none, and the one goes on for ever if the
other does. If the first program leaves a break pending then the second one does nothing, and
if none was pending at the start then the break is told once. -/
theorem run_sequenced (limits limits' : Limits) (runnable : limits.Runnable)
    (tracing tracing' : Bool) (source source' : Source) (first second : Node)
    (reader reader' : Reader)
    (parsed : Reading.program limits (.ofSource tracing source) = .ok first reader)
    (parsed' : Reading.program limits' (.ofSource tracing' source') = .ok second reader')
    (list : Node) (span : Option Span)
    (listed : list.linked = first.statements ++ second.statements)
    (whole : list.linkFault? = none) :
    (∀ steps, run steps (.program list span) =
      (run steps first >>= fun _ => run steps second)) ∧
    ∀ world,
      (∀ fault? last, Ends (.program list span) world fault? last ↔
        (fault? ≠ none ∧ Ends first world fault? last) ∨
          ∃ middle, Ends first world none middle ∧ Ends second middle fault? last) ∧
      (Diverges (.program list span) world ↔
        Diverges first world ∨ ∃ middle, Ends first world none middle ∧ Diverges second middle) ∧
      ∀ middle, Ends first world none middle → middle.state.signal.isBreaking = true →
        Ends (.program list span) world none middle ∧
        (∀ fault? last, Ends second middle fault? last ↔ fault? = none ∧ last = middle) ∧
        (world.state.signal = .running → ∀ unread written prompts,
          world.console = .queue unread written prompts →
          ∃ unread' lines prompts', middle.console = .queue unread' (lines ++ written) prompts' ∧
            lines.count "Error! - Attempting to break, and reached the end of program" = 1) := by
  obtain ⟨body, span', rfl, wholeFirst, given⟩ := linked_of_parsed parsed
  obtain ⟨body', span'', rfl, wholeSecond, given'⟩ := linked_of_parsed parsed'
  have turns (steps : Nat) : run steps (.program list span) =
      (run steps (.program body span') >>= fun _ => run steps (.program body' span'')) :=
    run_bind (execute_append wholeFirst given wholeSecond given' listed whole)
  refine ⟨turns, fun world => ⟨fun _ _ => ends_turns_iff turns, diverges_turns_iff turns, ?_⟩⟩
  intro middle ended breaking
  have idle : Ends (.program body' span'') middle none middle := ⟨0, run_of_breaking breaking⟩
  refine ⟨ends_of_ended turns ended idle, fun fault? last => ⟨?_, ?_⟩, ?_⟩
  · intro ended'
    obtain ⟨rfl, rfl⟩ := idle.unique ended'
    exact ⟨rfl, rfl⟩
  · rintro ⟨rfl, rfl⟩
    exact idle
  · intro running unread written prompts queue
    exact tells_once runnable parsed running queue ended breaking

/-- After a break that no loop ends, an assignment does nothing, in one program or in two. -/
theorem break_sequenced :
    ∃ first second reader reader' list middle,
      Reading.program .standard (.ofSource false (.ofText false "BREAK A.")) = .ok first reader ∧
      Reading.program .standard (.ofSource false (.ofText false "B := 1.")) = .ok second reader' ∧
      list.linked = first.statements ++ second.statements ∧ list.linkFault? = none ∧
      Ends first ⟨.initial, .ofLines [], {}, []⟩ none middle ∧
      Ends (.program list none) ⟨.initial, .ofLines [], {}, []⟩ none middle ∧
      middle.state = ⟨.empty, .leaveTo (.text "A")⟩ ∧
      middle.console = .queue [] ["Label A: Not Found",
        "Error! - Attempting to break, and reached the end of program"] [] := by
  obtain ⟨first, second, reader, reader', middle, parsed, parsed', ended, state, console⟩ :
      ∃ first second reader reader' middle,
        Reading.program .standard (.ofSource false (.ofText false "BREAK A.")) = .ok first reader ∧
        Reading.program .standard (.ofSource false (.ofText false "B := 1.")) = .ok second reader' ∧
        Ends first ⟨.initial, .ofLines [], {}, []⟩ none middle ∧
        middle.state = ⟨.empty, .leaveTo (.text "A")⟩ ∧
        middle.console = .queue [] ["Label A: Not Found",
          "Error! - Attempting to break, and reached the end of program"] [] :=
    ⟨_, _, _, _, _, rfl, rfl, ⟨0, rfl⟩, rfl, rfl⟩
  have listed := Node.linked_ofStatements (fun _ => none) (first.statements ++ second.statements)
  have whole := Node.linkFault?_ofStatements (fun _ => none) (first.statements ++ second.statements)
  have sequenced := run_sequenced .standard .standard Limits.runnable_standard false false _ _ first
    second reader reader' parsed parsed' _ none listed whole
  have breaking : middle.state.signal.isBreaking = true := by simp [state, Signal.isBreaking]
  have ended' := ((sequenced.2 ⟨.initial, .ofLines [], {}, []⟩).2.2 middle ended breaking).1
  exact ⟨first, second, reader, reader', _, middle, parsed, parsed', listed, whole, ended, ended',
    state, console⟩

end Machine

end LoopLang
