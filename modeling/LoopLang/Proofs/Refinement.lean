import LoopLang.Proofs.Executing
import LoopLang.Proofs.Parsing
import LoopLang.Proofs.Tracking

/-!
# The signal refines structured breaks

While no break is pending, executing a tree takes a world to one that shows what the
meaning of the tree says: the same scene, and the signal for the way in which it ended.
That holds for every number of steps with which no loop is stopped, and if a tree has a
meaning then there are steps enough.
-/
namespace LoopLang

/-- What is read within the limits does not nest too deep to be run. -/
def Limits.Runnable (limits : Limits) : Prop :=
  Category.program.levels limits.reading ≤ depthLimit

theorem Limits.runnable_standard : Limits.standard.Runnable := by
  unfold Runnable
  decide

namespace Machine

variable {α β : Type} {prompt : String} {fault? : Option Fault} {signal signal' : Signal}
  {scene middle after : Scene} {world : World} {m : Machine α} {next : α → Machine β}

/-- A tree that the reader can build, and that the depth suffices for. -/
inductive Executable : Nat → Node → Prop where
  | last {depth first span} (head : Executable depth first) :
      Executable (depth + 1) (.sequence first .absent span)
  | next {depth first second rest span span'} (head : Executable depth first)
      (others : Executable (depth + 1) (.sequence second rest span')) :
      Executable (depth + 1) (.sequence first (.sequence second rest span') span)
  | branch {depth test body rest span}
      (condition : ∀ look, Deep (test.evalCondition look depth))
      (consequent : Executable depth body) (alternate : Executable depth rest) :
      Executable (depth + 1) (.branch test body rest span)
  | fi {depth span} : Executable (depth + 1) (.otherwise .absent span)
  | otherwise {depth first rest span span'}
      (body : Executable depth (.sequence first rest span')) :
      Executable (depth + 1) (.otherwise (.sequence first rest span') span)
  | loop {depth label body span} (inner : Executable depth body) :
      Executable (depth + 1) (.loop (.text label) body span)
  | exit {depth label span} : Executable (depth + 1) (.exit (.text label) span)
  | assign {depth name value span} (number : ∀ look, Deep (value.evalNumber look depth)) :
      Executable (depth + 1) (.assign (.text name) value span)
  | read {depth list names span} (holds : list = .ofNames names) :
      Executable (depth + 1) (.read list span)
  | print {depth list names span} (holds : list = .ofNames names) :
      Executable (depth + 1) (.print list span)

theorem Executable.depth_pos {depth : Nat} {node : Node} (executable : Executable depth node) :
    ∃ less, depth = less + 1 := by
  cases executable <;> exact ⟨_, rfl⟩

/-- An action on a scene that either was stopped for its steps, or did what a tree means. -/
def Explained (prompt : String) (node : Node) (scene : Scene)
    (result : EStateM.Result Halt World Unit) : Prop :=
  (∃ world, result = .error .outOfSteps world) ∨
    ∃ outcome after, Runs prompt node scene outcome after ∧
      Settles prompt outcome.fault? outcome.signal after result

/-- A loop does what it means for every number of rounds, if its body does. -/
theorem repeatBody_sound {label : String} {body : Node} {span : Option Span} {action : Machine Unit}
    (each : ∀ scene world, At prompt .running scene world →
      Explained prompt body scene (action world))
    (rounds : Nat) (at_ : At prompt .running scene world) :
    Explained prompt (.loop (.text label) body span) scene
      (repeatBody (.text label) action rounds world) := by
  induction rounds generalizing scene world with
  | zero => exact .inl ⟨world, rfl⟩
  | succ rounds ih =>
    rcases each scene world at_ with ⟨world', stopped⟩ | ⟨outcome, after, runs, settles⟩
    · exact .inl ⟨world', bind_error stopped⟩
    · by_cases normal : outcome = .normal
      · subst normal
        obtain ⟨_, world', ran, at_'⟩ := settles.of_none
        rw [repeatBody_again ran at_']
        rcases ih at_' with stopped | ⟨outcome, last, repeats, settles'⟩
        · exact .inl stopped
        · exact .inr ⟨outcome, last, .again runs repeats, settles'⟩
      · exact .inr ⟨_, after, .leave runs normal, repeatBody_leave settles normal⟩

/-- Execution does what a tree means, if no loop is stopped. -/
theorem execute_sound {depth : Nat} {node : Node} (executable : Executable depth node) (steps : Nat)
    (at_ : At prompt .running scene world) :
    Explained prompt node scene (execute steps depth node world) := by
  induction executable generalizing scene world with
  | last _ ih =>
    rcases ih at_ with ⟨world', stopped⟩ | ⟨outcome, after, runs, settles⟩
    · exact .inl ⟨world', (execute_sequence at_).trans (bind_error stopped)⟩
    · exact .inr ⟨outcome, after, .last runs, settles_last at_ settles⟩
  | next _ _ ih ih' =>
    rcases ih at_ with ⟨world', stopped⟩ | ⟨outcome, middle, runs, settles⟩
    · exact .inl ⟨world', (execute_sequence at_).trans (bind_error stopped)⟩
    · by_cases normal : outcome = .normal
      · subst normal
        obtain ⟨world', at_', executed⟩ := execute_next at_ settles
        rw [executed]
        rcases ih' at_' with stopped | ⟨outcome, after, runs', settles'⟩
        · exact .inl stopped
        · exact .inr ⟨outcome, after, .next runs runs', settles'⟩
      · exact .inr ⟨outcome, middle, .stop runs normal, settles_stop at_ settles normal⟩
  | @branch depth test body rest span condition consequent alternate ih ih' =>
    have decides : test.Decides scene.store (test.evalCondition scene.store.get depth) :=
      ⟨depth, condition _, rfl⟩
    cases result : test.evalCondition scene.store.get depth with
    | error fault =>
      rw [result] at decides
      exact .inr ⟨.failed fault, scene, .undecided decides, settles_undecided at_ result⟩
    | ok holds =>
      rw [result] at decides
      obtain ⟨world', at_', executed⟩ := execute_chosen at_ result
      rw [executed]
      cases holds with
      | true =>
        rcases ih at_' with stopped | ⟨outcome, after, runs, settles⟩
        · exact .inl stopped
        · exact .inr ⟨outcome, after, .consequent decides runs, settles⟩
      | false =>
        rcases ih' at_' with stopped | ⟨outcome, after, runs, settles⟩
        · exact .inl stopped
        · exact .inr ⟨outcome, after, .alternate decides runs, settles⟩
  | fi => exact .inr ⟨.normal, scene, .fi, settles_fi at_⟩
  | otherwise _ ih =>
    rw [execute_otherwise at_]
    rcases ih at_ with stopped | ⟨outcome, after, runs, settles⟩
    · exact .inl stopped
    · exact .inr ⟨outcome, after, .otherwise runs, settles⟩
  | @loop depth label body span inner ih =>
    rw [execute_of_running (repeatBody (.text label) (execute steps depth body) steps) at_ rfl]
    exact repeatBody_sound (fun _ _ => ih) steps at_
  | @exit depth label span =>
    by_cases given : label = ""
    · subst given
      exact .inr ⟨.breakOne, scene, .exit, settles_exit at_⟩
    · exact .inr ⟨.breakTo label, scene, .exitTo given, settles_exitTo given at_⟩
  | @assign depth name value span number =>
    have comesTo : value.ComesTo scene.store (value.evalNumber scene.store.get depth >>= needed) :=
      ⟨depth, number _, rfl⟩
    cases result : value.evalNumber scene.store.get depth >>= needed with
    | error fault =>
      rw [result] at comesTo
      exact .inr ⟨.failed fault, scene, .noValue comesTo, settles_noValue at_ result⟩
    | ok number =>
      rw [result] at comesTo
      exact .inr ⟨.normal, _, .assign comesTo, settles_assign at_ result⟩
  | read holds =>
    subst holds
    refine .inr ⟨_, _, .read rfl rfl, ?_⟩
    rw [Completion.fault?_ofFault?, Completion.signal_ofFault?]
    exact settles_read at_ rfl
  | print holds =>
    subst holds
    refine .inr ⟨_, _, .print rfl rfl, ?_⟩
    rw [Completion.fault?_ofFault?, Completion.signal_ofFault?]
    exact settles_print at_ rfl

theorem eq_of_comesTo {store : Store} {node : Node} {result : Except Fault Float} {depth : Nat}
    (comesTo : node.ComesTo store result) (deep : Deep (node.evalNumber store.get depth)) :
    (node.evalNumber store.get depth >>= needed) = result := by
  obtain ⟨depth', deep', rfl⟩ := comesTo
  rw [Node.evalNumber_unique deep deep']

theorem eq_of_decides {store : Store} {node : Node} {result : Except Fault Bool} {depth : Nat}
    (decides : node.Decides store result) (deep : Deep (node.evalCondition store.get depth)) :
    node.evalCondition store.get depth = result := by
  obtain ⟨depth', deep', rfl⟩ := decides
  exact Node.evalCondition_unique deep deep'

/-- Execution where a loop at the top has a number of rounds of its own. -/
def executeRounds (steps rounds : Nat) : Nat → Node → Machine Unit
  | depth + 1, .loop label body _ => repeatBody label (execute steps depth body) rounds
  | depth, node => execute steps depth node

theorem executeRounds_same {steps depth : Nat} {node : Node}
    (at_ : At prompt .running scene world) :
    executeRounds steps steps depth node world = execute steps depth node world := by
  cases depth with
  | zero => rfl
  | succ depth =>
    cases node with
    | loop label body span =>
      exact (execute_of_running (repeatBody label (execute steps depth body) steps) at_ rfl).symm
    | _ => rfl

/-- With steps enough, and rounds enough for a loop at the top, a tree takes one scene to
another. -/
def Reaches (prompt : String) (depth : Nat) (node : Node) (scene : Scene) (outcome : Completion)
    (after : Scene) : Prop :=
  ∃ least, ∀ steps rounds, least ≤ steps → least ≤ rounds → ∀ world,
    At prompt .running scene world →
    Settles prompt outcome.fault? outcome.signal after (executeRounds steps rounds depth node world)

namespace Reaches

variable {depth depth' : Nat} {node node' : Node} {outcome outcome' : Completion}

theorem execute (reaches : Reaches prompt depth node scene outcome after) :
    ∃ least, ∀ steps, least ≤ steps → ∀ world, At prompt .running scene world →
      Settles prompt outcome.fault? outcome.signal after (execute steps depth node world) := by
  obtain ⟨least, settles⟩ := reaches
  refine ⟨least, fun steps enough world at_ => ?_⟩
  rw [← executeRounds_same at_]
  exact settles steps steps enough enough world at_

variable (noLoop : ∀ steps rounds, executeRounds steps rounds depth node =
  Machine.execute steps depth node)
include noLoop

theorem now (settles : ∀ steps world, At prompt .running scene world →
      Settles prompt outcome.fault? outcome.signal after (Machine.execute steps depth node world)) :
    Reaches prompt depth node scene outcome after := by
  refine ⟨0, fun steps rounds _ _ world at_ => ?_⟩
  rw [noLoop]
  exact settles steps world at_

theorem through (reaches : Reaches prompt depth' node' middle outcome after)
    (settles : ∀ steps world, At prompt .running scene world →
      (∀ world', At prompt .running middle world' →
        Settles prompt outcome.fault? outcome.signal after
          (Machine.execute steps depth' node' world')) →
      Settles prompt outcome'.fault? outcome'.signal after
        (Machine.execute steps depth node world)) :
    Reaches prompt depth node scene outcome' after := by
  obtain ⟨least, settles'⟩ := reaches.execute
  refine ⟨least, fun steps rounds enough _ world at_ => ?_⟩
  rw [noLoop]
  exact settles steps world at_ (settles' steps enough)

end Reaches

/-- With steps enough, execution comes to what a tree means. -/
theorem execute_complete {node : Node} {outcome : Completion}
    (runs : Runs prompt node scene outcome after) {depth : Nat}
    (executable : Executable depth node) : Reaches prompt depth node scene outcome after := by
  induction runs generalizing depth with
  | last _ ih =>
    cases executable with
    | last head =>
      refine (ih head).through (fun _ _ => rfl) fun steps world at_ settles => ?_
      exact settles_last at_ (settles world at_)
  | next _ others ih ih' =>
    cases executable with
    | last => nomatch others
    | next head tail =>
      obtain ⟨least, settles⟩ := (ih head).execute
      obtain ⟨least', settles'⟩ := (ih' tail).execute
      refine ⟨max least least', fun steps rounds enough _ world at_ => ?_⟩
      obtain ⟨enough, enough'⟩ := Nat.max_le.mp enough
      obtain ⟨world', at_', executed⟩ := execute_next at_ (settles steps enough world at_)
      simp only [executeRounds]
      rw [executed]
      exact settles' steps enough' world' at_'
  | @stop first _ _ _ _ _ _ leaves ih =>
    have head : ∃ less, depth = less + 1 ∧ Executable less first := by
      cases executable with
      | last head | next head => exact ⟨_, rfl, head⟩
    obtain ⟨depth, rfl, head⟩ := head
    refine (ih head).through (fun _ _ => rfl) fun steps world at_ settles => ?_
    exact settles_stop at_ (settles world at_) leaves
  | consequent holds _ ih =>
    cases executable with
    | branch condition consequent =>
      refine (ih consequent).through (fun _ _ => rfl) fun steps world at_ settles => ?_
      obtain ⟨world', at_', executed⟩ := execute_chosen at_ (eq_of_decides holds (condition _))
      rw [executed]
      exact settles world' at_'
  | alternate fails _ ih =>
    cases executable with
    | branch condition _ alternate =>
      refine (ih alternate).through (fun _ _ => rfl) fun steps world at_ settles => ?_
      obtain ⟨world', at_', executed⟩ := execute_chosen at_ (eq_of_decides fails (condition _))
      rw [executed]
      exact settles world' at_'
  | undecided faulty =>
    cases executable with
    | branch condition =>
      refine .now (fun _ _ => rfl) fun steps world at_ => ?_
      exact settles_undecided at_ (eq_of_decides faulty (condition _))
  | fi =>
    cases executable with
    | fi => exact .now (fun _ _ => rfl) fun steps world at_ => settles_fi at_
  | otherwise runs ih =>
    cases executable with
    | fi => nomatch runs
    | otherwise body =>
      refine (ih body).through (fun _ _ => rfl) fun steps world at_ settles => ?_
      rw [execute_otherwise at_]
      exact settles world at_
  | again _ _ ih ih' =>
    cases executable with
    | loop inner =>
      obtain ⟨least, settles⟩ := (ih inner).execute
      obtain ⟨least', settles'⟩ := ih' (.loop inner)
      refine ⟨max least least' + 1, fun steps rounds enough enough' world at_ => ?_⟩
      obtain ⟨rounds, rfl⟩ : ∃ less, rounds = less + 1 := ⟨rounds - 1, by omega⟩
      have settles := settles steps (by omega) world at_
      obtain ⟨_, world', ran, at_'⟩ := settles.of_none
      have settles' := settles' steps rounds (by omega) (by omega) world' at_'
      rw [executeRounds] at settles' ⊢
      rw [repeatBody_again ran at_']
      exact settles'
  | leave _ leaves ih =>
    cases executable with
    | loop inner =>
      obtain ⟨least, settles⟩ := (ih inner).execute
      refine ⟨least + 1, fun steps rounds enough enough' world at_ => ?_⟩
      obtain ⟨rounds, rfl⟩ : ∃ less, rounds = less + 1 := ⟨rounds - 1, by omega⟩
      exact repeatBody_leave (settles steps (by omega) world at_) leaves
  | exit =>
    cases executable with
    | exit => exact .now (fun _ _ => rfl) fun steps world at_ => settles_exit at_
  | exitTo given =>
    cases executable with
    | exit => exact .now (fun _ _ => rfl) fun steps world at_ => settles_exitTo given at_
  | assign comesTo =>
    cases executable with
    | assign number =>
      refine .now (fun _ _ => rfl) fun steps world at_ => ?_
      exact settles_assign at_ (eq_of_comesTo comesTo (number _))
  | noValue faulty =>
    cases executable with
    | assign number =>
      refine .now (fun _ _ => rfl) fun steps world at_ => ?_
      exact settles_noValue at_ (eq_of_comesTo faulty (number _))
  | read holds reads =>
    subst holds
    obtain ⟨depth, rfl⟩ := executable.depth_pos
    refine .now (fun _ _ => rfl) fun steps world at_ => ?_
    rw [Completion.fault?_ofFault?, Completion.signal_ofFault?]
    exact settles_read at_ reads
  | print holds prints =>
    subst holds
    obtain ⟨depth, rfl⟩ := executable.depth_pos
    refine .now (fun _ _ => rfl) fun steps world at_ => ?_
    rw [Completion.fault?_ofFault?, Completion.signal_ofFault?]
    exact settles_print at_ prints

/-- What the trees of a category are made for. -/
def Builds (depth : Nat) (node : Node) : Category → Prop
  | .statements | .statement | .otherwise => Executable depth node
  | .names => ∃ names, node = .ofNames names
  | _ => True

/-- A tree that nests within a bound can be executed with a depth that is known. -/
theorem builds_of_derives {room : Nat} {category : Category} {own : List Token} {node : Node}
    (derived : Derives counted room category own node) {depth : Nat}
    (enough : category.levels room ≤ depth) : Builds depth node category := by
  induction derived generalizing depth with
  | oneStatement _ ih =>
    obtain ⟨depth, rfl⟩ := Category.exists_less enough (by simp [Category.levels])
    exact .last (ih (Nat.le_of_succ_le_succ enough))
  | moreStatements _ _ rest ih ih' =>
    obtain ⟨depth, rfl⟩ := Category.exists_less enough (by simp [Category.levels])
    have head := ih (Nat.le_of_succ_le_succ enough)
    have tail := ih' enough
    cases rest with
    | oneStatement | moreStatements => exact .next head tail
  | branch nest _ condition _ _ _ _ ih ih' =>
    cases nest
    obtain ⟨depth, rfl⟩ := Category.exists_less enough (by simp [Category.levels])
    simp only [Category.levels] at enough
    refine .branch (fun look => ?_) (ih ?_) (ih' ?_)
    · exact condition.suffices (by simp only [Category.levels]; omega)
    · simp only [Category.levels]
      omega
    · simp only [Category.levels]
      omega
  | fi =>
    obtain ⟨depth, rfl⟩ := Category.exists_less enough (by simp [Category.levels])
    exact .fi
  | otherwise _ statements _ ih =>
    obtain ⟨depth, rfl⟩ := Category.exists_less enough (by simp [Category.levels])
    have body := ih (Nat.le_of_succ_le_succ enough)
    cases statements with
    | oneStatement | moreStatements => exact .otherwise body
  | loop nest _ _ _ _ _ ih =>
    cases nest
    obtain ⟨depth, rfl⟩ := Category.exists_less enough (by simp [Category.levels])
    simp only [Category.levels] at enough
    exact .loop (ih (by simp only [Category.levels]; omega))
  | exit =>
    obtain ⟨depth, rfl⟩ := Category.exists_less enough (by simp [Category.levels])
    exact .exit
  | exitTo =>
    obtain ⟨depth, rfl⟩ := Category.exists_less enough (by simp [Category.levels])
    exact .exit
  | read _ _ _ ih =>
    obtain ⟨depth, rfl⟩ := Category.exists_less enough (by simp [Category.levels])
    obtain ⟨names, holds⟩ := ih (Nat.zero_le depth)
    exact .read holds
  | print _ _ _ ih =>
    obtain ⟨depth, rfl⟩ := Category.exists_less enough (by simp [Category.levels])
    obtain ⟨names, holds⟩ := ih (Nat.zero_le depth)
    exact .print holds
  | assign nest _ _ sum =>
    cases nest
    obtain ⟨depth, rfl⟩ := Category.exists_less enough (by simp [Category.levels])
    simp only [Category.levels] at enough
    exact .assign fun look => sum.suffices (by simp only [Category.levels]; omega)
  | oneName => exact ⟨[_], rfl⟩
  | moreNames _ _ _ ih =>
    obtain ⟨names, rfl⟩ := ih (Nat.zero_le 0)
    exact ⟨_ :: names, rfl⟩
  | _ => trivial

theorem settles_lines {line : String} {lines : List String} {next : Unit → Machine β}
    (at_ : At prompt signal scene world)
    (told : scene.each Scene.writeLine (line :: lines) = (fault?, after))
    (rest : ∀ middle world', At prompt signal middle world' →
      middle.each Scene.writeLine lines = (fault?, after) →
      Settles prompt fault? signal after (next () world')) :
    Settles prompt fault? signal after ((writeLine line >>= next) world) := by
  have first := settles_writeLine at_ line
  rw [Scene.each] at told
  split at told
  · rename_i fault last wrote
    cases told
    rw [wrote] at first
    exact first.bind_failed
  · rename_i middle wrote
    rw [wrote] at first
    exact first.bind fun _ world' at_' => rest middle world' at_' told

theorem settles_lastLine {line : String} (at_ : At prompt signal scene world)
    (told : scene.each Scene.writeLine [line] = (fault?, after)) :
    Settles prompt fault? signal after (writeLine line world) := by
  have wrote := settles_writeLine at_ line
  have same : scene.each Scene.writeLine [line] = scene.writeLine line := by
    rw [Scene.each]
    split <;> rename_i known <;> rw [known]
    rfl
  rwa [← same, told] at wrote

theorem tellUnmatched_normal (at_ : At prompt .running scene world) :
    Settles prompt none .running scene (tellUnmatched world) := by
  rw [tellUnmatched, signal_bind, at_.state]
  exact .done at_

theorem tellUnmatched_one (at_ : At prompt .leaveNearest scene world)
    (told : scene.each Scene.writeLine (unmatchedLines none) = (fault?, after)) :
    Settles prompt fault? .leaveNearest after (tellUnmatched world) := by
  rw [tellUnmatched, signal_bind, at_.state]
  refine Settles.bind (settles_warn at_ _) fun _ world₁ at₁ => ?_
  refine settles_lines at₁ told fun middle world₂ at₂ ended => ?_
  cases ended
  exact .done at₂

theorem tellUnmatched_to {label : String} (given : label ≠ "")
    (at_ : At prompt (.leaveTo (.text label)) scene world)
    (told : scene.each Scene.writeLine (unmatchedLines (some label)) = (fault?, after)) :
    Settles prompt fault? (.leaveTo (.text label)) after (tellUnmatched world) := by
  have isGiven : (Node.text label).isGiven = true := by simp [Node.isGiven, given]
  rw [tellUnmatched, signal_bind, at_.state]
  refine Settles.bind (settles_warn at_ _) fun _ world₁ at₁ => ?_
  refine settles_lines at₁ told fun middle world₂ at₂ left => ?_
  change Settles prompt fault? _ after ((if (Node.text label).isGiven = true then
    writeLine ("Label " ++ label ++ ": Not Found") else pure () : Machine Unit) world₂)
  rw [if_pos isGiven]
  exact settles_lastLine at₂ left

theorem fault_of_lines {lines : List String} {fault : Fault}
    (told : scene.each Scene.writeLine lines = (some fault, after)) : fault.ofRun = fault := by
  induction lines generalizing scene with
  | nil => cases told
  | cons line rest ih =>
    rw [Scene.each] at told
    split at told
    · rename_i known
      cases told
      unfold Scene.writeLine Console.writeLine at known
      split at known
      · rename_i refused
        split at refused <;> cases refused
        cases known
        rfl
      · cases known
    · exact ih told

theorem settles_run {steps : Nat} {program : Node} {reported? : Option Fault}
    (settles : Settles prompt fault? signal after (execute steps depthLimit program world))
    (reported : reported? = fault?.map Fault.ofRun) :
    Settles prompt reported? signal after (run steps program world) := by
  subst reported
  rw [run]
  cases result : execute steps depthLimit program world with
  | ok value world' =>
    rw [result] at settles
    cases settles with
    | done at_ => exact .done at_
  | error halt world' =>
    rw [result] at settles
    cases settles with
    | failed at_ =>
      simp only [reportDepth_fault]
      exact .failed at_

section Programs

variable {body : Node} {span : Option Span} {outcome : Completion} {steps : Nat}

theorem execute_program {depth : Nat} (at_ : At prompt .running scene world) :
    execute steps (depth + 1) (.program body span) world =
      (execute steps depth body >>= fun _ => tellUnmatched) world :=
  execute_of_running (execute steps depth body >>= fun _ => tellUnmatched) at_ rfl

theorem reported_of_lines {lines : List String}
    (told : scene.each Scene.writeLine lines = (fault?, after)) :
    fault? = fault?.map Fault.ofRun := by
  cases fault? with
  | none => rfl
  | some fault => rw [Option.map_some, fault_of_lines told]

theorem settles_program (at_ : At prompt .running scene world)
    (runs : Runs prompt body scene outcome middle)
    (settles : Settles prompt outcome.fault? outcome.signal middle
      (execute steps (depthLimit - 1) body world))
    (concludes : Concludes outcome middle fault? signal after) :
    Settles prompt fault? signal after (run steps (.program body span) world) := by
  have executed : execute steps depthLimit (.program body span) world =
      (execute steps (depthLimit - 1) body >>= fun _ => tellUnmatched) world :=
    execute_program at_
  cases concludes with
  | normal =>
    have settled := Settles.bind settles fun _ _ at_' => tellUnmatched_normal at_'
    rw [← executed] at settled
    exact settles_run settled rfl
  | @failed fault =>
    have settled : Settles prompt (some fault) .running middle
        (execute steps depthLimit (.program body span) world) := by
      rw [executed]
      exact Settles.bind_failed settles
    exact settles_run settled rfl
  | breakOne told =>
    have settled := Settles.bind settles fun _ _ at_' => tellUnmatched_one at_' told
    rw [← executed] at settled
    exact settles_run settled (reported_of_lines told)
  | breakTo told =>
    have settled := Settles.bind settles fun _ _ at_' => tellUnmatched_to runs.label_given at_' told
    rw [← executed] at settled
    exact settles_run settled (reported_of_lines told)

theorem run_stopped (at_ : At prompt .running scene world) {world' : World}
    (stopped : execute steps (depthLimit - 1) body world = .error .outOfSteps world') :
    run steps (.program body span) world = .error .outOfSteps world' := by
  have executed : execute steps depthLimit (.program body span) world = .error .outOfSteps world' :=
    (execute_program at_).trans (bind_error stopped)
  rw [run, executed]
  rfl

end Programs

theorem run_sound {body : Node} {span : Option Span} (executable : Executable (depthLimit - 1) body)
    (steps : Nat) (at_ : At prompt .running scene world) :
    (∃ world', run steps (.program body span) world = .error .outOfSteps world') ∨
    ∃ fault? signal after, Finishes prompt (.program body span) scene fault? signal after ∧
      Settles prompt fault? signal after (run steps (.program body span) world) := by
  obtain ⟨world', stopped⟩ | ⟨outcome, middle, runs, settles⟩ := execute_sound executable steps at_
  · exact .inl ⟨world', run_stopped at_ stopped⟩
  · obtain ⟨fault?, signal, after, concludes⟩ := outcome.exists_concludes middle
    exact .inr ⟨fault?, signal, after, .program runs concludes,
      settles_program at_ runs settles concludes⟩

theorem run_complete {body : Node} {span : Option Span}
    (executable : Executable (depthLimit - 1) body) (at_ : At prompt .running scene world)
    (finishes : Finishes prompt (.program body span) scene fault? signal after) :
    ∃ steps, Settles prompt fault? signal after (run steps (.program body span) world) := by
  cases finishes with
  | program runs concludes =>
    obtain ⟨least, settles⟩ := (execute_complete runs executable).execute
    have settled := settles least (Nat.le_refl _) world at_
    exact ⟨least, settles_program at_ runs settled concludes⟩

theorem executable_of_parsed {limits : Limits} (runnable : limits.Runnable) {tracing : Bool}
    {source : Source} {program : Node} {reader : Reader}
    (parsed : Reading.program limits (.ofSource tracing source) = .ok program reader) :
    ∃ body span, program = .program body span ∧ Executable (depthLimit - 1) body := by
  obtain ⟨own, -, -, derived⟩ := Reading.derives_of_program parsed
  cases derived with
  | program statements =>
    refine ⟨_, _, rfl, builds_of_derives statements ?_⟩
    have less := limits.depth_le tracing
    simp only [Limits.Runnable, Category.levels] at runnable ⊢
    omega

section Ends

variable {limits : Limits} {tracing : Bool} {source : Source} {program : Node} {reader : Reader}
  {last : World} {steps : Nat}

theorem finishes_of_ends (runnable : limits.Runnable)
    (parsed : Reading.program limits (.ofSource tracing source) = .ok program reader)
    (running : world.state.signal = .running) (ends : Ends program world fault? last) :
    ∃ signal after,
      Finishes world.settings.prompt program ⟨world.state.store, world.console⟩ fault? signal
        after ∧
      At world.settings.prompt signal after last := by
  obtain ⟨steps, ended⟩ := ends
  obtain ⟨body, span, rfl, executable⟩ := executable_of_parsed runnable parsed
  rcases run_sound executable steps (at_of_running running) with
    ⟨_, stopped⟩ | ⟨_, signal, after, finishes, settles⟩
  · exact absurd (ended.symm.trans stopped) ending_ne_stopped
  · rw [ended] at settles
    refine ⟨signal, after, ?_⟩
    cases fault? with
    | none =>
      cases settles with
      | done at_ => exact ⟨finishes, at_⟩
    | some fault =>
      cases settles with
      | failed at_ => exact ⟨finishes, at_⟩

theorem Settles.ends (settles : Settles prompt fault? signal after (run steps program world)) :
    ∃ last, Ends program world fault? last ∧ At prompt signal after last := by
  generalize ran : run steps program world = result at settles
  cases settles with
  | done at_ => exact ⟨_, ⟨steps, ran⟩, at_⟩
  | failed at_ => exact ⟨_, ⟨steps, ran⟩, at_⟩

theorem ends_of_finishes (runnable : limits.Runnable)
    (parsed : Reading.program limits (.ofSource tracing source) = .ok program reader)
    (running : world.state.signal = .running)
    (finishes : Finishes world.settings.prompt program ⟨world.state.store, world.console⟩ fault?
      signal after) :
    ∃ last, Ends program world fault? last ∧ At world.settings.prompt signal after last := by
  obtain ⟨body, span, rfl, executable⟩ := executable_of_parsed runnable parsed
  obtain ⟨steps, settles⟩ := run_complete executable (at_of_running running) finishes
  exact settles.ends

end Ends

/-- A program that was read and is run with clear registers comes to a scene, a signal and a fault
or none for some number of steps exactly if that is what the program means. A run that ends
leaves the variables and the console of this scene, and the registers of this signal. It is
stopped for every number of steps exactly if the program has no meaning. -/
theorem run_iff_finishes (limits : Limits) (runnable : limits.Runnable) (tracing upcase : Bool)
    (text : String) (program : Node) (reader : Reader)
    (parsed : Reading.program limits (.ofSource tracing (.ofText upcase text)) =
      .ok program reader)
    (world : World) (clear : world.state.registers = .clear) :
    let start : Scene := ⟨world.state.store, world.console⟩
    (∀ fault? signal after,
      (∃ steps, Settles world.settings.prompt fault? signal after (run steps program world)) ↔
        Finishes world.settings.prompt program start fault? signal after) ∧
    (∀ fault? last, Ends program world fault? last →
      ∃ signal after, Finishes world.settings.prompt program start fault? signal after ∧
        last.state.store = after.store ∧ last.state.registers = signal.registers ∧
        last.console = after.console) ∧
    ((∀ steps, ∃ world', run steps program world = .error .outOfSteps world') ↔
      ¬ ∃ fault? signal after,
        Finishes world.settings.prompt program start fault? signal after) := by
  intro start
  have running := Signal.registers_eq_clear.mp clear
  obtain ⟨body, span, rfl, executable⟩ := executable_of_parsed runnable parsed
  have at_ : At world.settings.prompt .running start world := at_of_running running
  refine ⟨fun fault? signal after => ⟨?_, run_complete executable at_⟩, ?_, ?_, ?_⟩
  · rintro ⟨steps, settles⟩
    rcases run_sound executable steps at_ with ⟨world', stopped⟩ | ⟨_, _, _, finishes, settles'⟩
    · exact absurd settles (Settles.not_stopped stopped)
    · obtain ⟨rfl, rfl, rfl⟩ := settles.unique settles'
      exact finishes
  · intro fault? last ends
    obtain ⟨signal, after, finishes, at_'⟩ := finishes_of_ends runnable parsed running ends
    exact ⟨signal, after, finishes, by rw [at_'.state], at_'.registers, at_'.console⟩
  · rintro stopped ⟨fault?, signal, after, finishes⟩
    obtain ⟨steps, settles⟩ := run_complete executable at_ finishes
    obtain ⟨world', stops⟩ := stopped steps
    exact Settles.not_stopped stops settles
  · intro meaningless steps
    rcases run_sound executable steps at_ with stopped | ⟨fault?, signal, after, finishes, _⟩
    · exact stopped
    · exact absurd ⟨fault?, signal, after, finishes⟩ meaningless

/-- A break that no loop ends is told and stays pending. -/
theorem break_to_finishes :
    ∃ program reader,
      Reading.program .standard (.ofSource false (.ofText false "BREAK A.")) = .ok program reader ∧
      (⟨.initial, .ofLines [], {}, []⟩ : World).state.registers = .clear ∧
      ∃ steps, Settles "IN (\x7bname\x7d) <== : " none (.leaveTo (.text "A"))
        ⟨.empty, .queue [] ["Label A: Not Found",
          "Error! - Attempting to break, and reached the end of program"] []⟩
        (run steps program ⟨.initial, .ofLines [], {}, []⟩) := by
  refine ⟨_, _, rfl, rfl, ?_⟩
  refine ((run_iff_finishes .standard Limits.runnable_standard false false "BREAK A." _ _ rfl
    ⟨.initial, .ofLines [], {}, []⟩ rfl).1 none _ _).mpr ?_
  exact .program (.last (.exitTo (by decide))) (.breakTo rfl)

end Machine

end LoopLang
