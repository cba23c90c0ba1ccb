import LoopLang.Proofs.Executing
import LoopLang.Proofs.Levels

/-!
# Executions side by side

Take a relation of worlds that cannot be noticed: related worlds have the same settings, the
same console and the same signal, and whatever a program does to both leaves them related.
Then a tree comes to the same in both, as long as the variables that it mentions have the
same values and the ones that it writes may be written. The second execution may be given
more steps than the first. So one induction over trees serves for what more steps change,
for what the values of other variables change, and for what a program leaves alone.
-/
namespace LoopLang

namespace Node

/-- The variable that a value names, if it names any. -/
def asVariable (node : Node) : List (Option String) :=
  node.named.toOption.toList

/-- The variables that a tree mentions. -/
def mentions : Node → List (Option String)
  | absent | text _ | emptyList | item .. | exit .. | number .. => []
  | program body _ | otherwise body _ | loop _ body _ => body.mentions
  | sequence first rest _ => first.mentions ++ rest.mentions
  | branch test consequent alternate _ =>
    test.mentions ++ consequent.mentions ++ alternate.mentions
  | assign name value _ => name.asVariable ++ value.mentions
  | read names _ | print names _ => names.names.flatMap asVariable
  | chain _ first tail _ => first.mentions ++ tail.mentions
  | link _ _ operand tail _ => operand.mentions ++ tail.mentions
  | comparison left _ right _ => left.mentions ++ right.mentions
  | negation operand _ => operand.mentions
  | parenthesized inner _ => inner.mentions
  | identifier name _ => name.asVariable

/-- The variables that a tree assigns to or reads values for. -/
def writes : Node → List (Option String)
  | program body _ | otherwise body _ | loop _ body _ => body.writes
  | sequence first rest _ => first.writes ++ rest.writes
  | branch _ consequent alternate _ => consequent.writes ++ alternate.writes
  | assign name _ _ => name.asVariable
  | read names _ => names.names.flatMap asVariable
  | _ => []

-- Every induction over trees below opens these two by their equations.
attribute [local simp] mentions writes

theorem mem_asVariable {node : Node} {name : Option String} (named : node.named = .ok name) :
    name ∈ node.asVariable := by
  simp [asVariable, named, Except.toOption]

theorem mentions_of_linked {node statement : Node} {name : Option String}
    (member : statement ∈ node.linked) (mentioned : name ∈ statement.mentions) :
    name ∈ node.mentions := by
  induction node with
  | sequence first rest _ _ ih =>
    rw [mentions, List.mem_append]
    rcases List.mem_cons.mp member with rfl | later
    · exact .inl mentioned
    · exact .inr (ih later)
  | _ => cases member

theorem writes_of_linked {node statement : Node} {name : Option String}
    (member : statement ∈ node.linked) (written : name ∈ statement.writes) :
    name ∈ node.writes := by
  induction node with
  | sequence first rest _ _ ih =>
    rw [writes, List.mem_append]
    rcases List.mem_cons.mp member with rfl | later
    · exact .inl written
    · exact .inr (ih later)
  | _ => cases member

section Evaluation

variable {look look' : Option String → Float} {node tail : Node}

theorem lookUp_congr (same : ∀ name ∈ node.asVariable, look' name = look name) :
    lookUp look' node = lookUp look node := by
  cases node with
  | absent => simp [lookUp, same none (mem_asVariable rfl)]
  | text name => simp [lookUp, same (some name) (mem_asVariable rfl)]
  | _ => rfl

theorem addTail_congr {eval eval' : Node → Except Fault (Option Float)}
    (same : ∀ name ∈ tail.mentions, look' name = look name)
    (each : ∀ node, (∀ name ∈ node.mentions, look' name = look name) → eval' node = eval node)
    (value : Option Float) : addTail eval' value tail = addTail eval value tail := by
  fun_induction addTail eval value tail with
  | case2 value level operand tail span terms ih | case4 value level operand tail span terms ih =>
    simp only [mentions, List.forall_mem_append] at same
    simp [addTail, terms, each operand same.1, ih _ _ same.2]
  | _ => simp [addTail, *]

theorem multiplyTail_congr {eval eval' : Node → Except Fault (Option Float)}
    (same : ∀ name ∈ tail.mentions, look' name = look name)
    (each : ∀ node, (∀ name ∈ node.mentions, look' name = look name) → eval' node = eval node)
    (value : Option Float) : multiplyTail eval' value tail = multiplyTail eval value tail := by
  fun_induction multiplyTail eval value tail with
  | case3 value level operator operand tail span terms ih ih' =>
    simp only [mentions, List.forall_mem_append] at same
    simp [multiplyTail, terms, each operand same.1, ih _ _ same.2, ih' _ same.2]
  | case5 value level first tail span terms =>
    simp only [mentions, List.forall_mem_append] at same
    simp [multiplyTail, terms, each first same.1]
  | _ => simp [multiplyTail, *]

theorem anyTail_congr {eval eval' : Node → Except Fault Bool}
    (same : ∀ name ∈ tail.mentions, look' name = look name)
    (each : ∀ node, (∀ name ∈ node.mentions, look' name = look name) → eval' node = eval node) :
    anyTail eval' tail = anyTail eval tail := by
  fun_induction anyTail eval tail with
  | case2 _ _ operand _ _ terms ih | case4 _ operand _ _ terms ih =>
    simp only [mentions, List.forall_mem_append] at same
    simp [anyTail, terms, each operand same.1, ih same.2]
  | _ => simp [anyTail, *]

theorem allTail_congr {eval eval' : Node → Except Fault Bool}
    (same : ∀ name ∈ tail.mentions, look' name = look name)
    (each : ∀ node, (∀ name ∈ node.mentions, look' name = look name) → eval' node = eval node) :
    allTail eval' tail = allTail eval tail := by
  fun_induction allTail eval tail with
  | case3 _ _ operand _ _ terms ih | case5 _ operand _ _ terms ih =>
    simp only [mentions, List.forall_mem_append] at same
    simp [allTail, terms, each operand same.1, ih same.2]
  | _ => simp [allTail, *]

theorem evalNumber_congr (depth : Nat) (same : ∀ name ∈ node.mentions, look' name = look name) :
    evalNumber look' depth node = evalNumber look depth node := by
  induction depth generalizing node with
  | zero => rfl
  | succ depth ih =>
    cases node with
    | chain level first tail span =>
      simp only [mentions, List.forall_mem_append] at same
      cases level with
      | sum =>
        simp only [evalNumber, ih same.1, addTail_congr same.2 fun _ => ih]
      | product =>
        simp only [evalNumber, ih same.1, multiplyTail_congr same.2 fun _ => ih]
      | disjunction | conjunction => rfl
    | negation operand span =>
      rw [mentions] at same
      simp only [evalNumber, ih same]
    | parenthesized inner span =>
      rw [mentions] at same
      simp only [evalNumber, ih same]
    | identifier name span => simp only [evalNumber, lookUp_congr same]
    | _ => rfl

theorem evalCondition_congr (depth : Nat)
    (same : ∀ name ∈ node.mentions, look' name = look name) :
    evalCondition look' depth node = evalCondition look depth node := by
  induction depth generalizing node with
  | zero => rfl
  | succ depth ih =>
    cases node with
    | chain level first tail span =>
      simp only [mentions, List.forall_mem_append] at same
      cases level with
      | disjunction =>
        simp only [evalCondition, ih same.1, anyTail_congr same.2 fun _ => ih]
      | conjunction =>
        simp only [evalCondition, ih same.1, allTail_congr same.2 fun _ => ih]
      | sum | product => rfl
    | comparison left operator right span =>
      simp only [mentions, List.forall_mem_append] at same
      simp only [evalCondition, evalNumber_congr depth same.1, evalNumber_congr depth same.2]
    | _ => rfl

end Evaluation

end Node

/-- Two attempts that fail with the same fault, or come to values that fit. -/
inductive Matched {α β : Type} (fits : α → β → Prop) : Except Fault α → Except Fault β → Prop where
  | ok {a b} (holds : fits a b) : Matched fits (.ok a) (.ok b)
  | error (fault) : Matched fits (.error fault) (.error fault)

theorem Matched.imp {α β : Type} {fits fits' : α → β → Prop} {a : Except Fault α}
    {b : Except Fault β} (matched : Matched fits a b) (weaker : ∀ a b, fits a b → fits' a b) :
    Matched fits' a b := by
  cases matched with
  | ok holds => exact .ok (weaker _ _ holds)
  | error fault => exact .error fault

/-- A relation of worlds that a program cannot notice, whatever it does to both, but for what
it writes into variables and reads from them. -/
structure Unnoticed (related : World → World → Prop) : Prop where
  prompt {world world'} : related world world' → world'.settings.prompt = world.settings.prompt
  signal {world world'} : related world world' → world'.state.signal = world.state.signal
  noted {world world'} (message : String) : related world world' →
    related (world.note message) (world'.note message)
  warned {world world'} (message : String) : related world world' →
    related (world.warn message) (world'.warn message)
  requested {world world'} (target : Node) : related world world' →
    related { world with state := world.state.requestBreak target }
      { world' with state := world'.state.requestBreak target }
  finished {world world'} : related world world' →
    related { world with state := world.state.finishBreak }
      { world' with state := world'.state.finishBreak }
  read {world world'} (prompt : String) : related world world' →
    Matched (fun came came' => came'.1 = came.1 ∧
        related { world with console := came.2 } { world' with console := came'.2 })
      (world.console.readLine prompt) (world'.console.readLine prompt)
  written {world world'} (line : String) : related world world' →
    Matched (fun console console' =>
        related { world with console } { world' with console := console' })
      (world.console.writeLine line) (world'.console.writeLine line)

/-- A relation of worlds with the same settings, the same console and the same signal that a
program keeps apart from what it writes into variables. -/
structure Respected (related : World → World → Prop) : Prop where
  settings {world world'} : related world world' → world'.settings = world.settings
  console {world world'} : related world world' → world'.console = world.console
  signal {world world'} : related world world' → world'.state.signal = world.state.signal
  recorded {world world'} (record : Record) : related world world' →
    related { world with log := record :: world.log } { world' with log := record :: world'.log }
  requested {world world'} (target : Node) : related world world' →
    related { world with state := world.state.requestBreak target }
      { world' with state := world'.state.requestBreak target }
  finished {world world'} : related world world' →
    related { world with state := world.state.finishBreak }
      { world' with state := world'.state.finishBreak }
  read {world world' prompt line console} : related world world' →
    world.console.readLine prompt = .ok (line, console) →
    related { world with console } { world' with console }
  written {world world' line console} : related world world' →
    world.console.writeLine line = .ok console →
    related { world with console } { world' with console }

theorem Respected.unnoticed {related : World → World → Prop} (respected : Respected related) :
    Unnoticed related where
  prompt holds := by rw [respected.settings holds]
  signal := respected.signal
  noted {world world'} message holds := by
    have tracing : world'.settings.trace = world.settings.trace := by rw [respected.settings holds]
    simp only [World.note, tracing]
    split
    · exact respected.recorded _ holds
    · exact holds
  warned message holds := respected.recorded _ holds
  requested := respected.requested
  finished := respected.finished
  read {world _} prompt holds := by
    rw [respected.console holds]
    cases came : world.console.readLine prompt with
    | ok result => exact .ok ⟨rfl, respected.read holds came⟩
    | error fault => exact .error fault
  written {world _} line holds := by
    rw [respected.console holds]
    cases wrote : world.console.writeLine line with
    | ok console => exact .ok (respected.written holds wrote)
    | error fault => exact .error fault

namespace Machine

variable {α β : Type} {sameSteps : Prop} {related : World → World → Prop} {m m' : Machine α}
  {next next' : α → Machine β} {steps steps' depth : Nat} {node : Node}

/-- What two actions come to in related worlds: the same, with related worlds again. Unless both
have the same steps, the second may go on where the first is stopped. -/
inductive Follows (sameSteps : Prop) (related : World → World → Prop) :
    EStateM.Result Halt World α → EStateM.Result Halt World α → Prop where
  | done {a last last'} (holds : related last last') :
      Follows sameSteps related (.ok a last) (.ok a last')
  | halted {halt last last'} (holds : related last last') :
      Follows sameSteps related (.error halt last) (.error halt last')
  | outlasted {last result} (more : ¬ sameSteps) :
      Follows sameSteps related (.error .outOfSteps last) result

/-- The second action does what the first one does and leaves related worlds related. -/
def Tracks (sameSteps : Prop) (related : World → World → Prop) (m m' : Machine α) : Prop :=
  ∀ world world', related world world' → Follows sameSteps related (m world) (m' world')

/-- The second number of steps is the first, or greater if it need not be the same. -/
def Enough (sameSteps : Prop) (steps steps' : Nat) : Prop :=
  steps ≤ steps' ∧ (sameSteps → steps' = steps)

theorem tracks_pure (a : α) : Tracks sameSteps related (pure a) (pure a) :=
  fun _ _ holds => .done holds

theorem tracks_fail (fault : Fault) :
    Tracks sameSteps related (fail fault : Machine α) (fail fault) :=
  fun _ _ holds => .halted holds

theorem tracks_ofExcept (result : Except Fault α) :
    Tracks sameSteps related (ofExcept result) (ofExcept result) := by
  cases result with
  | ok a => exact tracks_pure a
  | error fault => exact tracks_fail fault

theorem tracks_bind (first : Tracks sameSteps related m m')
    (rest : ∀ a, Tracks sameSteps related (next a) (next' a)) :
    Tracks sameSteps related (m >>= next) (m' >>= next') := by
  intro world world' holds
  have came := first world world' holds
  generalize result : m world = left at came
  generalize result' : m' world' = right at came
  cases came with
  | done holds' =>
    rw [bind_ok result, bind_ok result']
    exact rest _ _ _ holds'
  | halted holds' =>
    rw [bind_error result, bind_error result']
    exact .halted holds'
  | outlasted more =>
    rw [bind_error result]
    exact .outlasted more

theorem tracks_modify {change : World → World}
    (keeps : ∀ {world world'}, related world world' → related (change world) (change world')) :
    Tracks sameSteps related (modify change) (modify change) :=
  fun _ _ holds => .done (keeps holds)

section Actions

variable (unnoticed : Unnoticed related)
include unnoticed

theorem tracks_note (message : String) :
    Tracks sameSteps related (note message) (note message) :=
  tracks_modify (unnoticed.noted message)

theorem tracks_warn (message : String) :
    Tracks sameSteps related (warn message) (warn message) :=
  tracks_modify (unnoticed.warned message)

theorem tracks_signal_bind {next next' : Signal → Machine β}
    (rest : ∀ pending, Tracks sameSteps related (next pending) (next' pending)) :
    Tracks sameSteps related (Machine.signal >>= next) (Machine.signal >>= next') := by
  intro world world' holds
  rw [signal_bind, signal_bind, unnoticed.signal holds]
  exact rest _ world world' holds

theorem tracks_writeLine (line : String) :
    Tracks sameSteps related (writeLine line) (writeLine line) := by
  intro world world' holds
  have wrote := unnoticed.written line holds
  simp only [writeLine, get_bind, ofExcept_bind]
  generalize world.console.writeLine line = result at wrote
  generalize world'.console.writeLine line = result' at wrote
  cases wrote with
  | ok holds' => exact .done holds'
  | error fault => exact .halted holds

theorem tracks_readLine (name : Node) :
    Tracks sameSteps related (readLine name) (readLine name) := by
  intro world world' holds
  simp only [readLine_eq, unnoticed.prompt holds]
  cases Prompt.fill world.settings.prompt name with
  | error fault => exact .halted holds
  | ok shown =>
    have read := unnoticed.read shown holds
    dsimp only
    generalize world.console.readLine shown = result at read
    generalize world'.console.readLine shown = result' at read
    cases read with
    | @ok came came' fits =>
      obtain ⟨line, console⟩ := came
      obtain ⟨line', console'⟩ := came'
      obtain ⟨rfl, holds'⟩ := fits
      exact .done holds'
    | error fault => exact .halted holds

theorem tracks_tellUnmatched : Tracks sameSteps related tellUnmatched tellUnmatched := by
  apply tracks_signal_bind unnoticed
  intro pending
  split
  · apply tracks_bind (tracks_warn unnoticed _)
    intro _
    apply tracks_bind (tracks_writeLine unnoticed _)
    intro _
    split
    · exact tracks_writeLine unnoticed _
    · exact tracks_pure ()
  · exact tracks_pure ()

theorem tracks_unlessBreaking {action action' : Machine Unit}
    (tracks : Tracks sameSteps related action action') :
    Tracks sameSteps related
      (signal >>= fun pending => if pending.isBreaking then pure () else action)
      (signal >>= fun pending => if pending.isBreaking then pure () else action') := by
  apply tracks_signal_bind unnoticed
  intro pending
  split
  · exact tracks_pure ()
  · exact tracks

theorem tracks_runList {run run' : Node → Machine Unit}
    (each : ∀ statement ∈ node.linked,
      Tracks sameSteps related (run statement) (run' statement)) :
    Tracks sameSteps related (runList run node) (runList run' node) := by
  induction node with
  | absent => exact tracks_pure ()
  | sequence first rest span _ ih =>
    rw [Node.linked, List.forall_mem_cons] at each
    apply tracks_bind each.1
    intro _
    apply tracks_signal_bind unnoticed
    intro pending
    split
    · exact tracks_pure ()
    · exact ih each.2
  | _ => exact tracks_fail _

theorem tracks_repeatBody {label : Node} {body body' : Machine Unit} {rounds rounds' : Nat}
    (each : Tracks sameSteps related body body') (enough : Enough sameSteps rounds rounds') :
    Tracks sameSteps related (repeatBody label body rounds) (repeatBody label body' rounds') := by
  induction rounds generalizing rounds' with
  | zero =>
    intro world world' holds
    by_cases same : sameSteps
    · rw [enough.2 same]
      exact .halted holds
    · exact .outlasted same
  | succ rounds ih =>
    obtain ⟨atLeast, same⟩ := enough
    obtain ⟨rounds', rfl⟩ := Nat.exists_eq_add_one_of_ne_zero (Nat.ne_zero_of_lt atLeast)
    apply tracks_bind each
    intro _
    apply tracks_signal_bind unnoticed
    intro pending
    split
    · apply tracks_bind (tracks_note unnoticed _)
      intro _
      split
      · exact tracks_modify unnoticed.finished
      · exact tracks_pure ()
    · exact ih ⟨Nat.le_of_succ_le_succ atLeast, fun exactly => Nat.succ.inj (same exactly)⟩

end Actions

theorem tracks_forNamesOf {act act' : Node → Machine Unit}
    (each : ∀ name ∈ node.names, Tracks sameSteps related (act name) (act' name)) :
    Tracks sameSteps related (forNamesOf act node) (forNamesOf act' node) := by
  have all : Tracks sameSteps related (forNames act node.names) (forNames act' node.names) := by
    generalize node.names = names at each
    induction names with
    | nil => exact tracks_pure ()
    | cons name rest ih =>
      rw [List.forall_mem_cons] at each
      exact tracks_bind each.1 fun _ => ih each.2
  apply tracks_bind all
  intro _
  split
  · exact tracks_fail _
  · exact tracks_pure ()

/-- Related worlds have the same values for some variables. -/
def SameValues (related : World → World → Prop) (names : List (Option String)) : Prop :=
  ∀ name ∈ names, ∀ {world world'}, related world world' →
    world'.state.store.get name = world.state.store.get name

/-- Worlds stay related when some variables are written in both. -/
def Writable (related : World → World → Prop) (names : List (Option String)) : Prop :=
  ∀ name ∈ names, ∀ (value : Float) {world world'}, related world world' →
    related { world with state := world.state.assign name value }
      { world' with state := world'.state.assign name value }

theorem tracks_evalNumber (same : SameValues related node.mentions) :
    Tracks sameSteps related (evalNumber depth node) (evalNumber depth node) := by
  intro world world' holds
  have number := Node.evalNumber_congr depth fun name member => same name member holds
  simpa [evalNumber, get_bind, number] using tracks_ofExcept _ world world' holds

theorem tracks_evalCondition (same : SameValues related node.mentions) :
    Tracks sameSteps related (evalCondition depth node) (evalCondition depth node) := by
  intro world world' holds
  have decision := Node.evalCondition_congr depth fun name member => same name member holds
  simpa [evalCondition, get_bind, decision] using tracks_ofExcept _ world world' holds

theorem tracks_named_bind (writable : Writable related node.asVariable) (value : Float) :
    Tracks sameSteps related (ofExcept node.named >>= fun name => changeState (·.assign name value))
      (ofExcept node.named >>= fun name => changeState (·.assign name value)) := by
  cases named : node.named with
  | error fault => exact tracks_fail fault
  | ok name =>
    have member := Node.mem_asVariable named
    exact tracks_modify (writable name member value)

section Names

variable {name : Node} (unnoticed : Unnoticed related)
include unnoticed

theorem tracks_readName (writable : Writable related name.asVariable) :
    Tracks sameSteps related (readName name) (readName name) := by
  apply tracks_bind (tracks_readLine unnoticed name)
  intro line
  apply tracks_bind (tracks_ofExcept _)
  intro value
  exact tracks_named_bind writable value

theorem tracks_printName (same : SameValues related name.asVariable) :
    Tracks sameSteps related (printName name) (printName name) := by
  apply tracks_bind (tracks_ofExcept _)
  intro line world world' holds
  have value := Node.lookUp_congr fun other member => same other member holds
  simp only [get_bind, value]
  exact tracks_bind (tracks_ofExcept _) (fun _ => tracks_writeLine unnoticed _) world world' holds

/-- Whatever the tree, its execution in the second world follows that in the first. -/
theorem tracks_execute (enough : Enough sameSteps steps steps')
    (same : SameValues related node.mentions) (writable : Writable related node.writes) :
    Tracks sameSteps related (execute steps depth node) (execute steps' depth node) := by
  induction depth generalizing node with
  | zero => exact tracks_fail _
  | succ depth ih =>
    cases node with
    | program body span =>
      apply tracks_unlessBreaking unnoticed
      exact tracks_bind (ih same writable) fun _ => tracks_tellUnmatched unnoticed
    | sequence first rest span =>
      apply tracks_unlessBreaking unnoticed
      apply tracks_runList unnoticed
      intro statement member
      apply ih
      · exact fun name mentioned => same name (Node.mentions_of_linked member mentioned)
      · exact fun name written => writable name (Node.writes_of_linked member written)
    | branch test consequent alternate span =>
      simp only [SameValues, Node.mentions, List.forall_mem_append] at same
      simp only [Writable, Node.writes, List.forall_mem_append] at writable
      apply tracks_unlessBreaking unnoticed
      apply tracks_bind (tracks_evalCondition same.1.1)
      intro holds
      apply tracks_bind (tracks_note unnoticed _)
      intro _
      split
      · exact ih same.1.2 writable.1
      · exact ih same.2 writable.2
    | «otherwise» body span =>
      cases body with
      | absent => exact tracks_unlessBreaking unnoticed (tracks_pure ())
      | _ => exact tracks_unlessBreaking unnoticed (ih same writable)
    | loop label body span =>
      apply tracks_unlessBreaking unnoticed
      exact tracks_repeatBody unnoticed (ih same writable) enough
    | exit target span =>
      apply tracks_unlessBreaking unnoticed
      exact tracks_modify (unnoticed.requested target)
    | assign name value span =>
      simp only [SameValues, Node.mentions, List.forall_mem_append] at same
      apply tracks_unlessBreaking unnoticed
      apply tracks_bind (tracks_evalNumber same.2)
      intro number
      apply tracks_bind (tracks_ofExcept _)
      intro number
      exact tracks_named_bind writable number
    | read names span =>
      apply tracks_unlessBreaking unnoticed
      apply tracks_forNamesOf
      intro name member
      apply tracks_readName unnoticed
      exact fun other named => writable other (List.mem_flatMap_of_mem member named)
    | print names span =>
      apply tracks_unlessBreaking unnoticed
      apply tracks_forNamesOf
      intro name member
      apply tracks_printName unnoticed
      exact fun other named => same other (List.mem_flatMap_of_mem member named)
    | _ => exact tracks_unlessBreaking unnoticed (tracks_fail _)

theorem tracks_run (enough : Enough sameSteps steps steps')
    (same : SameValues related node.mentions) (writable : Writable related node.writes) :
    Tracks sameSteps related (run steps node) (run steps' node) := by
  intro world world' holds
  have executed : Tracks sameSteps related (execute steps depthLimit node)
      (execute steps' depthLimit node) :=
    tracks_execute unnoticed enough same writable
  have came := executed world world' holds
  rw [run, run]
  generalize execute steps depthLimit node world = result at came
  generalize execute steps' depthLimit node world' = result' at came
  cases came with
  | done holds' => exact .done holds'
  | halted holds' => exact .halted holds'
  | outlasted more => exact .outlasted more

end Names

section Ends

variable {program : Node} {world world' last last' : World} {fault? fault?' : Option Fault}

/-- An action that was not stopped for its steps. -/
def ending (fault? : Option Fault) (last : World) : EStateM.Result Halt World Unit :=
  match fault? with
  | none => .ok () last
  | some fault => .error (.fault fault) last

theorem ended_or_stopped (result : EStateM.Result Halt World Unit) :
    (∃ fault? last, result = ending fault? last) ∨ ∃ last, result = .error .outOfSteps last := by
  cases result with
  | ok value last => exact .inl ⟨none, last, rfl⟩
  | error halt last =>
    cases halt with
    | fault fault => exact .inl ⟨some fault, last, rfl⟩
    | outOfSteps => exact .inr ⟨last, rfl⟩

theorem ending_ne_stopped : ending fault? last ≠ .error .outOfSteps last' := by
  cases fault? <;> simp [ending]

theorem ending_inj (same : ending fault? last = ending fault?' last') :
    fault? = fault?' ∧ last = last' := by
  cases fault? <;> cases fault?' <;> simp_all [ending]

theorem Tracks.ending {m m' : Machine Unit} (tracks : Tracks sameSteps related m m')
    (holds : related world world') (ended : m world = ending fault? last) :
    ∃ last', m' world' = Machine.ending fault? last' ∧ related last last' := by
  have came := tracks world world' holds
  rw [ended] at came
  generalize m' world' = result' at came
  cases fault? with
  | none =>
    cases came with
    | done holds' => exact ⟨_, rfl, holds'⟩
  | some fault =>
    cases came with
    | halted holds' => exact ⟨_, rfl, holds'⟩

/-- What the run of a program comes to, with steps enough: a fault or none, and the world
that it leaves. -/
def Ends (program : Node) (world : World) (fault? : Option Fault) (last : World) : Prop :=
  ∃ steps, run steps program world = ending fault? last

/-- However many steps it is given, the run of a program is stopped. -/
def Diverges (program : Node) (world : World) : Prop :=
  ∀ steps, ∃ last, run steps program world = .error .outOfSteps last

theorem run_more (enough : steps ≤ steps') (ended : run steps program world = ending fault? last) :
    run steps' program world = ending fault? last := by
  have respected : Respected fun world world' : World => world' = world := by
    constructor
    all_goals
      intros
      subst_vars
      rfl
  have tracks : Tracks False (fun world world' => world' = world) (run steps program)
      (run steps' program) := by
    apply tracks_run respected.unnoticed ⟨enough, False.elim⟩
    · rintro name _ world _ rfl
      rfl
    · rintro name _ value world _ rfl
      rfl
  obtain ⟨last', ended', rfl⟩ := tracks.ending rfl ended
  exact ended'

theorem Ends.unique (ends : Ends program world fault? last)
    (ends' : Ends program world fault?' last') : fault? = fault?' ∧ last = last' := by
  obtain ⟨steps, ran⟩ := ends
  obtain ⟨steps', ran'⟩ := ends'
  apply ending_inj
  rw [← run_more (Nat.le_max_left steps steps') ran]
  exact run_more (Nat.le_max_right steps steps') ran'

theorem diverges_iff :
    Diverges program world ↔ ¬ ∃ fault? last, Ends program world fault? last := by
  constructor
  · rintro diverges ⟨fault?, last, steps, ended⟩
    obtain ⟨last', stopped⟩ := diverges steps
    rw [ended] at stopped
    exact ending_ne_stopped stopped
  · intro endless steps
    apply (ended_or_stopped _).resolve_left
    rintro ⟨fault?, last, ended⟩
    exact endless ⟨fault?, last, steps, ended⟩

theorem Follows.ended_or_stopped {result result' : EStateM.Result Halt World Unit}
    (follows : Follows True related result result') :
    (∃ fault? last last', result = Machine.ending fault? last ∧
      result' = Machine.ending fault? last' ∧ related last last') ∨
    ∃ last last', result = .error .outOfSteps last ∧ result' = .error .outOfSteps last' := by
  cases follows with
  | @done value last last' holds => exact .inl ⟨none, last, last', rfl, rfl, holds⟩
  | @halted halt last last' holds =>
    cases halt with
    | fault fault => exact .inl ⟨some fault, last, last', rfl, rfl, holds⟩
    | outOfSteps => exact .inr ⟨last, last', rfl, rfl⟩
  | outlasted more => exact absurd trivial more

/-- In related worlds the runs of a program come to the same, or both go on for ever. -/
theorem ends_tracked (unnoticed : Unnoticed related)
    (same : SameValues related program.mentions) (writable : Writable related program.writes)
    (holds : related world world') :
    (∀ fault? last, Ends program world fault? last →
      ∃ last', Ends program world' fault? last' ∧ related last last') ∧
    (∀ fault? last', Ends program world' fault? last' →
      ∃ last, Ends program world fault? last ∧ related last last') ∧
    (Diverges program world ↔ Diverges program world') := by
  have follows (steps : Nat) :
      Follows True related (run steps program world) (run steps program world') :=
    tracks_run unnoticed ⟨Nat.le_refl steps, fun _ => rfl⟩ same writable world world' holds
  have there (fault?) (last) (ends : Ends program world fault? last) :
      ∃ last', Ends program world' fault? last' ∧ related last last' := by
    obtain ⟨steps, ended⟩ := ends
    rcases (follows steps).ended_or_stopped with ⟨_, _, last', ran, ran', holds'⟩ | ⟨_, _, ran, -⟩
    · obtain ⟨rfl, rfl⟩ := ending_inj (ended.symm.trans ran)
      exact ⟨last', ⟨steps, ran'⟩, holds'⟩
    · exact absurd (ended.symm.trans ran) ending_ne_stopped
  have back (fault?) (last') (ends : Ends program world' fault? last') :
      ∃ last, Ends program world fault? last ∧ related last last' := by
    obtain ⟨steps, ended⟩ := ends
    rcases (follows steps).ended_or_stopped with ⟨_, last, _, ran, ran', holds'⟩ | ⟨_, _, -, ran'⟩
    · obtain ⟨rfl, rfl⟩ := ending_inj (ended.symm.trans ran')
      exact ⟨last, ⟨steps, ran⟩, holds'⟩
    · exact absurd (ended.symm.trans ran') ending_ne_stopped
  refine ⟨there, back, ?_⟩
  rw [diverges_iff, diverges_iff]
  apply not_congr
  constructor
  · rintro ⟨fault?, last, ends⟩
    obtain ⟨last', ends', -⟩ := there fault? last ends
    exact ⟨fault?, last', ends'⟩
  · rintro ⟨fault?, last', ends'⟩
    obtain ⟨last, ends, -⟩ := back fault? last' ends'
    exact ⟨fault?, last, ends⟩

end Ends

end Machine

end LoopLang
