import LoopLang.Proofs.Prompting
import LoopLang.Proofs.Sequencing

/-!
# Nesting and length

How deep the reader and the machine have to follow a program is a matter of its parentheses,
minus signs, branches and loops alone: each takes one level of the reader and three of the
machine at most. Lists and chains are gone through in place, so their length takes no level,
and neither do the rounds of a loop. Nor does anything else that a run can come to look like a
program that nests too deep.
-/
namespace LoopLang

/-- How deep parentheses, minus signs, branches and loops nest in a tree. -/
def Node.nesting : Node → Nat
  | absent | text _ | emptyList | exit .. | number .. | identifier .. => 0
  | program body _ | .otherwise body _ => body.nesting
  | item head rest => max head.nesting rest.nesting
  | sequence first rest _ => max first.nesting rest.nesting
  | branch test consequent alternate _ =>
    max test.nesting (max consequent.nesting alternate.nesting) + 1
  | loop _ body _ => body.nesting + 1
  | assign _ value _ => value.nesting
  | read names _ | print names _ => names.nesting
  | chain _ first tail _ => max first.nesting tail.nesting
  | link _ _ operand tail _ => max operand.nesting tail.nesting
  | comparison left _ right _ => max left.nesting right.nesting
  | negation operand _ => operand.nesting + 1
  | parenthesized inner _ => inner.nesting + 1

/-- The nesting states that a phrase of a category takes if nothing in it nests: one for a
statement and one for a factor in it. -/
def Category.least : Category → Nat
  | program | statements | statement | .otherwise => 2
  | chain _ | tail _ | comparison | factor => 1
  | names => 0

theorem Category.least_operand (level : Level) : (operand level).least = 1 := by
  cases level <;> rfl

theorem Category.exists_inner {category : Category} {nesting room : Nat}
    (enough : nesting + category.least ≤ room) (some_ : 0 < category.least) :
    ∃ inner, room = inner + 1 :=
  Nat.exists_eq_add_one.mpr (Nat.lt_of_lt_of_le (Nat.add_pos_right nesting some_) enough)

/-- A phrase needs nesting states for what nests in its tree, however long it is. -/
theorem Derives.within {state : Unit} {category : Category} {own : List Token} {node : Node}
    (derived : Derives unlimited state category own node) {room : Nat}
    (enough : node.nesting + category.least ≤ room) : Derives counted room category own node := by
  -- The operands of a chain and the statements of a list are all given the same states.
  induction derived generalizing room with
  | program _ isPoint ih => exact .program (ih enough) isPoint
  | oneStatement _ ih =>
    simp only [Node.nesting, Category.least] at enough ih
    exact .oneStatement (ih (by omega))
  | moreStatements _ isSemicolon _ ih ih' =>
    simp only [Node.nesting, Category.least] at enough ih ih'
    exact .moreStatements (ih (by omega)) isSemicolon (ih' (by omega))
  | branch _ isIf _ isThen _ _ ih ih' ih'' =>
    obtain ⟨inner, rfl⟩ := Category.exists_inner enough (by decide)
    simp only [Node.nesting, Category.least] at enough ih ih' ih''
    exact .branch rfl isIf (ih (by omega)) isThen (ih' (by omega)) (ih'' (by omega))
  | fi isFi => exact .fi isFi
  | otherwise isElse _ isFi ih => exact .otherwise isElse (ih enough) isFi
  | loop _ isLoop isLabel isColon _ isRepeat ih =>
    obtain ⟨inner, rfl⟩ := Category.exists_inner enough (by decide)
    simp only [Node.nesting, Category.least] at enough ih
    exact .loop rfl isLoop isLabel isColon (ih (by omega)) isRepeat
  | exit _ isBreak =>
    obtain ⟨inner, rfl⟩ := Category.exists_inner enough (by decide)
    exact .exit rfl isBreak
  | exitTo _ isBreak isLabel =>
    obtain ⟨inner, rfl⟩ := Category.exists_inner enough (by decide)
    exact .exitTo rfl isBreak isLabel
  | read _ isRead _ ih =>
    obtain ⟨inner, rfl⟩ := Category.exists_inner enough (by decide)
    simp only [Node.nesting, Category.least] at enough ih
    exact .read rfl isRead (ih (by omega))
  | print _ isPrint _ ih =>
    obtain ⟨inner, rfl⟩ := Category.exists_inner enough (by decide)
    simp only [Node.nesting, Category.least] at enough ih
    exact .print rfl isPrint (ih (by omega))
  | assign _ isName isAssign _ ih =>
    obtain ⟨inner, rfl⟩ := Category.exists_inner enough (by decide)
    simp only [Node.nesting, Category.least] at enough ih
    exact .assign rfl isName isAssign (ih (by omega))
  | oneName isName => exact .oneName isName
  | moreNames isName isComma _ ih =>
    simp only [Node.nesting, Category.least] at enough ih
    exact .moreNames isName isComma (ih (by omega))
  | chain _ _ ih ih' =>
    rw [Category.least_operand] at ih
    simp only [Node.nesting, Category.least] at enough ih'
    exact .chain (ih (by omega)) (ih' (by omega))
  | noTail => exact .noTail
  | link joins _ _ ih ih' =>
    rw [Category.least_operand] at ih
    simp only [Node.nesting, Category.least] at enough ih'
    exact .link joins (ih (by omega)) (ih' (by omega))
  | single _ ih =>
    simp only [Node.nesting, Category.least] at enough ih
    exact .single (ih (by omega))
  | relation relates _ _ ih ih' =>
    simp only [Node.nesting, Category.least] at enough ih ih'
    exact .relation relates (ih (by omega)) (ih' (by omega))
  | negation _ isMinus _ ih =>
    obtain ⟨inner, rfl⟩ := Category.exists_inner enough (by decide)
    simp only [Node.nesting, Category.least] at enough ih
    exact .negation rfl isMinus (ih (by omega))
  | parenthesized _ isOpening _ isClosing ih =>
    obtain ⟨inner, rfl⟩ := Category.exists_inner enough (by decide)
    simp only [Node.nesting, Category.least] at enough ih
    exact .parenthesized rfl isOpening (ih (by omega)) isClosing
  | number _ isNumber =>
    obtain ⟨inner, rfl⟩ := Category.exists_inner enough (by decide)
    exact .number rfl isNumber
  | name _ isName =>
    obtain ⟨inner, rfl⟩ := Category.exists_inner enough (by decide)
    exact .name rfl isName

/-- The faults that running a tree that was read can come to, in any world. -/
inductive Fault.OfStatement : Fault → Prop where
  | divisionByZero {dividend place} : OfStatement (.divisionByZero dividend place)
  | invalidInput {name line} : OfStatement (.invalidInput name line)
  | unreadableNumber : OfStatement .unreadableNumber
  | noConsole : OfStatement .noConsole
  | template {fault} (template : OfTemplate fault) : OfStatement fault

theorem Fault.OfStatement.shown {fault : Fault} (came : fault.OfStatement) :
    fault.ofRun ≠ .programTooDeep := by
  cases came with
  | template template =>
    rintro same
    unfold ofRun at same
    split at same
    · exact template
    · subst same
      exact template
  | _ => exact nofun

namespace Scene

variable {scene : Scene} {prompt text : String} {fault : Fault}

theorem fault_of_writeLine (failed : (scene.writeLine text).1 = some fault) :
    fault.OfStatement := by
  unfold writeLine at failed
  cases console : scene.console with
  | missing =>
    rw [console] at failed
    cases failed
    exact .noConsole
  | _ =>
    rw [console] at failed
    cases failed

theorem fault_of_readLine {console : Console}
    (refused : console.readLine prompt = .error fault) : fault.OfStatement := by
  cases console with
  | queue unread => cases unread <;> cases refused
  | streams unread =>
    unfold Console.readLine at refused
    dsimp only at refused
    split at refused <;> cases refused
  | missing =>
    cases refused
    exact .noConsole

theorem fault_of_readNumber {line : Option String}
    (failed : readNumber (.text text) line = .error fault) : fault.OfStatement := by
  unfold readNumber at failed
  split at failed
  · cases failed
    exact .invalidInput
  · split at failed
    · cases failed
      exact .invalidInput
    · split at failed <;> cases failed
      exact .unreadableNumber

theorem fault_of_readName (failed : (scene.readName prompt text).1 = some fault) :
    fault.OfStatement := by
  have template := Prompt.templated_fill prompt text
  unfold readName at failed
  split at failed
  · rename_i filled
    rw [filled] at template
    cases failed
    exact .template template
  · split at failed
    · rename_i refused
      cases failed
      exact fault_of_readLine refused
    · split at failed <;> cases failed
      rename_i number
      exact fault_of_readNumber number

theorem fault_of_each {act : Scene → String → Option Fault × Scene}
    (one : ∀ scene text fault, (act scene text).1 = some fault → fault.OfStatement)
    {texts : List String} {after : Scene} (did : scene.each act texts = (some fault, after)) :
    fault.OfStatement := by
  induction texts generalizing scene with
  | nil => cases did
  | cons text rest ih =>
    rw [each] at did
    split at did
    · rename_i came
      cases did
      exact one scene text fault (congrArg Prod.fst came)
    · exact ih did

end Scene

section Meaning

variable {prompt : String} {scene after : Scene} {node : Node} {outcome : Completion}
  {store : Store} {fault : Fault}

theorem fault_of_decides (typed : Typed (.chain .disjunction) node)
    (decides : node.Decides store (.error fault)) : fault.OfStatement := by
  obtain ⟨depth, deep, faulty⟩ := decides
  have judged : Judged (node.evalCondition store.get depth) := typed.evaluates depth
  rw [faulty] at judged deep
  cases judged with
  | divisionByZero => exact .divisionByZero
  | stackExhausted => exact absurd rfl deep

theorem fault_of_comesTo (typed : Typed (.chain .sum) node)
    (comesTo : node.ComesTo store (.error fault)) : fault.OfStatement := by
  obtain ⟨depth, deep, faulty⟩ := comesTo
  have valued : Valued (node.evalNumber store.get depth) := typed.evaluates depth
  cases result : node.evalNumber store.get depth with
  | ok value =>
    rw [result] at valued faulty
    obtain ⟨x, rfl⟩ := valued
    cases faulty
  | error fault' =>
    rw [result] at valued faulty deep
    cases faulty
    cases valued with
    | divisionByZero => exact .divisionByZero
    | stackExhausted => exact absurd rfl deep

/-- A tree that was read fails for nothing but these, as what it means knows no depth. -/
theorem Runs.ofStatement {category : Category} (runs : Runs prompt node scene outcome after)
    (typed : Typed category node) (failed : outcome.fault? = some fault) : fault.OfStatement := by
  induction runs generalizing category with
  | last _ ih =>
    cases typed with
    | last only => exact ih only failed
    | next head => exact ih head failed
  | next _ others _ ih' =>
    cases typed with
    | last => cases others
    | next head rest => exact ih' rest failed
  | stop _ _ ih =>
    cases typed with
    | last only => exact ih only failed
    | next head => exact ih head failed
  | consequent _ _ ih =>
    cases typed with
    | branch _ consequent => exact ih consequent failed
  | alternate _ _ ih =>
    cases typed with
    | branch _ _ alternate => exact ih alternate failed
  | undecided faulty =>
    cases typed with
    | branch condition =>
      cases failed
      exact fault_of_decides condition faulty
  | fi | exit | exitTo | assign => cases failed
  | «otherwise» runs ih =>
    cases typed with
    | fi => cases runs
    | «otherwise» statements => exact ih statements failed
  | again _ _ _ ih' => exact ih' typed failed
  | leave _ _ ih =>
    cases typed with
    | loop statements =>
      rw [Completion.fault?_afterLoop] at failed
      exact ih statements failed
  | noValue faulty =>
    cases typed with
    | assign sum =>
      cases failed
      exact fault_of_comesTo sum faulty
  | read _ reads =>
    rw [Completion.fault?_ofFault?] at failed
    subst failed
    exact Scene.fault_of_each (fun _ _ _ => Scene.fault_of_readName) reads
  | print _ prints =>
    rw [Completion.fault?_ofFault?] at failed
    subst failed
    exact Scene.fault_of_each (fun _ _ _ => Scene.fault_of_writeLine) prints

end Meaning

namespace Machine

variable {prompt : String} {scene middle : Scene} {world : World} {body : Node}
  {span : Option Span} {outcome : Completion} {depth steps : Nat}

/-- A run with a depth of its own. -/
def runWithin (depth steps : Nat) (program : Node) : Machine Unit := fun world =>
  match execute steps depth program world with
  | .ok value world => .ok value world
  | .error halt world => .error (reportDepth halt) world

theorem run_within : run = runWithin depthLimit :=
  rfl

theorem settles_execute_program (at_ : At prompt .running scene world)
    (runs : Runs prompt body scene outcome middle) (typed : Typed .statements body)
    (settles : Settles prompt outcome.fault? outcome.signal middle
      (execute steps depth body world)) :
    ∃ fault? signal after, (∀ fault, fault? = some fault → fault.OfStatement) ∧
      Settles prompt fault? signal after
        (execute steps (depth + 1) (.program body span) world) := by
  have told {lines : List String} {fault : Fault}
      (failed : (middle.each Scene.writeLine lines).1 = some fault) : fault.OfStatement :=
    Scene.fault_of_each (fun _ _ _ => Scene.fault_of_writeLine) (Prod.ext failed rfl)
  rw [execute_program at_]
  cases outcome with
  | normal =>
    exact ⟨none, _, _, nofun, Settles.bind settles fun _ _ at_' => tellUnmatched_normal at_'⟩
  | failed fault =>
    refine ⟨some fault, _, _, ?_, Settles.bind_failed settles⟩
    rintro _ ⟨⟩
    exact runs.ofStatement typed rfl
  | breakOne =>
    exact ⟨(middle.each Scene.writeLine (unmatchedLines none)).1, _,
      (middle.each Scene.writeLine (unmatchedLines none)).2, fun _ => told,
      Settles.bind settles fun _ _ at_' => tellUnmatched_one at_' rfl⟩
  | breakTo label =>
    exact ⟨(middle.each Scene.writeLine (unmatchedLines (some label))).1, _,
      (middle.each Scene.writeLine (unmatchedLines (some label))).2, fun _ => told,
      Settles.bind settles fun _ _ at_' => tellUnmatched_to runs.label_given at_' rfl⟩

/-- With a depth that suffices for a program, no run of it fails for its depth, in whatever world
and however often its loops go round. -/
theorem runWithin_ne_tooDeep (executable : Executable depth body) (typed : Typed .statements body)
    (world last : World) :
    runWithin (depth + 1) steps (.program body span) world ≠
      .error (.fault .programTooDeep) last := by
  rw [runWithin]
  by_cases breaking : world.state.signal.isBreaking = true
  · rw [idle_execute steps depth _ world breaking]
    nofun
  · have at_ := at_of_running (Signal.running_of_not_breaking breaking)
    rcases execute_sound executable steps at_ with ⟨world', stopped⟩ | ⟨_, _, runs, settles⟩
    · rw [(execute_program at_).trans (bind_error stopped)]
      nofun
    · obtain ⟨fault?, signal, after, allowed, settled⟩ :=
        @settles_execute_program _ _ _ _ _ span _ _ _ at_ runs typed settles
      generalize execute steps (depth + 1) (.program body span) world = result at settled
      cases settled with
      | done => nofun
      | @failed _ _ fault world' =>
        change EStateM.Result.error (reportDepth (.fault fault)) world' ≠ _
        rw [reportDepth_fault]
        intro same
        injection same with same
        injection same with same
        exact (allowed fault rfl).shown same

/-- A program in which nesting goes to some level is read, and runs in every world, without being
told to nest too deep, whatever the length of its lists and chains and however often its loops
go round: with any depth and any limits that suffice for the level, and so up to sixty levels
with those that the reader and the machine have. -/
theorem never_too_deep (tracing upcase : Bool) (text : String) (own : List Token) (node : Node)
    (levels : Nat) (begins : own <+: (Source.ofText upcase text).words)
    (derived : Derives unlimited () .program own node) (nests : node.nesting ≤ levels) :
    let start := Reader.ofSource tracing (.ofText upcase text)
    (∀ depth, levels + 2 ≤ depth →
      ∃ reader, Reading.programWithin depth start = .ok node reader) ∧
    (∀ depth, 3 * levels + 11 ≤ depth → ∀ steps world last,
      runWithin depth steps node world ≠ .error (.fault .programTooDeep) last) ∧
    (∀ limits : Limits, levels + 2 ≤ limits.depth tracing →
      ∃ reader, Reading.program limits start = .ok node reader) ∧
    (levels ≤ 60 → (∃ reader, Reading.program .standard start = .ok node reader) ∧
      ∀ steps world last, run steps node world ≠ .error (.fault .programTooDeep) last) := by
  intro start
  have reads : ∀ depth, levels + 2 ≤ depth →
      ∃ reader, Reading.programWithin depth start = .ok node reader := by
    intro depth enough
    refine Reading.programWithin_of_derives tracing begins (derived.within ?_)
    exact Nat.le_trans (Nat.add_le_add_right nests 2) enough
  have runs : ∀ depth, 3 * levels + 11 ≤ depth → ∀ steps world last,
      runWithin depth steps node world ≠ .error (.fault .programTooDeep) last := by
    intro depth enough steps world last
    obtain ⟨depth, rfl⟩ := Nat.exists_eq_add_one.mpr (Nat.lt_of_lt_of_le (by omega) enough)
    have typed := derived.typed fun token member => Source.proper_of_words (begins.subset member)
    cases derived with
    | program statements =>
      cases typed with
      | program typed =>
        -- Three levels for each nesting state, and those of the operators and of the list.
        have room : Category.statements.levels (levels + 2) ≤ depth := by
          simp only [Category.levels]
          omega
        exact runWithin_ne_tooDeep
          (builds_of_derives (statements.within (Nat.add_le_add_right nests 2)) room)
          typed world last
  have readsWith : ∀ limits : Limits, levels + 2 ≤ limits.depth tracing →
      ∃ reader, Reading.program limits start = .ok node reader := by
    intro limits enough
    rw [Reading.program_within]
    exact reads _ enough
  refine ⟨reads, runs, readsWith, fun few => ⟨?_, ?_⟩⟩
  · refine readsWith .standard ?_
    cases tracing
    · change levels + 2 ≤ 328
      omega
    · change levels + 2 ≤ 326
      omega
  · rw [run_within]
    refine runs depthLimit ?_
    change 3 * levels + 11 ≤ 1000
    omega

/-- Here a branch, a loop, a minus sign and parentheses nest, four levels in all. -/
theorem four_levels_never_too_deep :
    let source := Source.ofText false
      "IF A THEN LOOP L: X := -(Y + 1 - Z) * 2; PRINT X, Y; BREAK L REPEAT FI."
    ∃ own node reader, own <+: source.words ∧ Derives unlimited () .program own node ∧
      node.nesting = 4 ∧ Reading.programWithin 6 (.ofSource false source) = .ok node reader ∧
      ∀ steps world last, run steps node world ≠ .error (.fault .programTooDeep) last := by
  have nests : (((Reading.program .standard).run' (.ofSource false (.ofText false
      "IF A THEN LOOP L: X := -(Y + 1 - Z) * 2; PRINT X, Y; BREAK L REPEAT FI."))).map
        Node.nesting) = some 4 := by decide +kernel
  generalize "IF A THEN LOOP L: X := -(Y + 1 - Z) * 2; PRINT X, Y; BREAK L REPEAT FI." = text
    at nests ⊢
  intro source
  have outcome := Reading.outcome .standard false source
  rw [EStateM.run', EStateM.run] at nests
  generalize Reading.program .standard (.ofSource false source) = result at outcome nests
  cases outcome with
  | found begins derived =>
    have nests := Option.some.inj nests
    obtain ⟨reads, -, -, shallow⟩ :=
      never_too_deep false false text _ _ 4 begins derived.free (Nat.le_of_eq nests)
    obtain ⟨reader, read⟩ := reads 6 (Nat.le_refl 6)
    exact ⟨_, _, reader, begins, derived.free, nests, read, (shallow (by decide)).2⟩
  | refused | tooDeep => cases nests

end Machine

end LoopLang
