import LoopLang.Proofs.Sequencing

/-!
# The order of the variables

Beside its meaning stands what a program writes to which variables, one write after the
other. Only assignments and the names of a reading write anything, each of them where it
succeeds. A run leaves the store that these writes make of the first one. So the names stand
in the order in which they were first written, after those that were there before, and each
of them has the value of its last write.
-/
namespace LoopLang

namespace Store

variable {store : Store}

def setAll (store : Store) (written : List (Option String × Float)) : Store :=
  written.foldl (fun store entry => store.set entry.1 entry.2) store

theorem setAll_cons (store : Store) (name : Option String) (value : Float)
    (later : List (Option String × Float)) :
    store.setAll ((name, value) :: later) = (store.set name value).setAll later :=
  rfl

theorem setAll_append (store : Store) (written later : List (Option String × Float)) :
    store.setAll (written ++ later) = (store.setAll written).setAll later :=
  List.foldl_append

/-- New names go to the end, in the order of their first writes. -/
theorem names_setAll (store : Store) (written : List (Option String × Float)) :
    (store.setAll written).names =
      store.names ++ ((written.map (·.1)).filter (· ∉ store.names)).eraseDups := by
  induction written generalizing store with
  | nil => simp [setAll]
  | cons entry written ih =>
    obtain ⟨name, value⟩ := entry
    rw [setAll_cons, ih, names_set, List.map_cons]
    by_cases known : name ∈ store.names
    · simp [known]
    · have others : ∀ other ∈ written.map (·.1), decide (other ∉ store.names ++ [name]) =
          (!other == name && decide (other ∉ store.names)) := by
        intro other _
        by_cases same : other = name <;> simp [same]
      rw [if_neg known, List.filter_cons_of_pos (by simpa using known), List.eraseDups_cons,
        List.filter_filter, List.filter_congr others, List.append_assoc]
      rfl

theorem find?_setAll (store : Store) (written : List (Option String × Float))
    (name : Option String) :
    (store.setAll written).find? name = (written.reverse.lookup name).or (store.find? name) := by
  induction written generalizing store with
  | nil => rfl
  | cons entry written ih =>
    obtain ⟨first, value⟩ := entry
    rw [setAll_cons, ih, find?_set, List.reverse_cons, List.lookup_append, Option.or_assoc]
    congr 1
    by_cases same : name = first
    · simp [same]
    · have differs : (name == first) = false := by simp [same]
      simp [same, List.lookup_cons, differs]

theorem nodup_setAll (nodup : store.names.Nodup) (written : List (Option String × Float)) :
    (store.setAll written).names.Nodup := by
  induction written generalizing store with
  | nil => exact nodup
  | cons entry written ih =>
    refine ih ?_
    -- a name goes to the end only if it is new
    rw [names_set]
    split
    · exact nodup
    · rename_i new
      refine List.nodup_append.mpr ⟨nodup, by simp, fun name member other single => ?_⟩
      rw [List.mem_singleton.mp single]
      rintro rfl
      exact new member

theorem names_prefix_setAll (store : Store) (written : List (Option String × Float)) :
    store.names <+: (store.setAll written).names := by
  rw [names_setAll]
  exact List.prefix_append ..

end Store

namespace Scene

variable {prompt text : String} {texts : List String} {scene after : Scene}
  {fault? : Option Fault}

theorem readName_cases (read : scene.readName prompt text = (fault?, after)) :
    (∃ fault, fault? = some fault ∧ after.store = scene.store) ∨
    ∃ shown line? console value, fault? = none ∧ Prompt.fill prompt (.text text) = .ok shown ∧
      scene.console.readLine shown = .ok (line?, console) ∧
      readNumber (.text text) line? = .ok value ∧
      after = ⟨scene.store.set (some text) value, console⟩ := by
  unfold readName at read
  split at read
  · cases read
    exact .inl ⟨_, rfl, rfl⟩
  · rename_i fills
    split at read
    · cases read
      exact .inl ⟨_, rfl, rfl⟩
    · rename_i takes
      split at read
      · cases read
        exact .inl ⟨_, rfl, rfl⟩
      · rename_i number
        cases read
        exact .inr ⟨_, _, _, _, rfl, fills, takes, number, rfl⟩

theorem store_of_writeLine (wrote : scene.writeLine text = (fault?, after)) :
    after.store = scene.store := by
  unfold writeLine at wrote
  split at wrote <;> cases wrote <;> rfl

theorem store_of_each {act : Scene → String → Option Fault × Scene}
    (keeps : ∀ {scene text fault? after}, act scene text = (fault?, after) →
      after.store = scene.store)
    (did : scene.each act texts = (fault?, after)) : after.store = scene.store := by
  induction texts generalizing scene with
  | nil =>
    cases did
    rfl
  | cons text rest ih =>
    rw [each] at did
    split at did
    · rename_i acted
      cases did
      exact keeps acted
    · rename_i acted
      rw [ih did, keeps acted]

end Scene

/-- Some names are read, up to the first fault, and written with the numbers on their lines. -/
inductive Reads (prompt : String) : List String → Scene → Option Fault → Scene →
    List (Option String × Float) → Prop where
  | nil {scene} : Reads prompt [] scene none scene []
  | failed {name rest scene fault after}
      (fails : scene.readName prompt name = (some fault, after)) :
      Reads prompt (name :: rest) scene (some fault) after []
  | next {name rest scene shown line? console value fault? after written}
      (fills : Prompt.fill prompt (.text name) = .ok shown)
      (takes : scene.console.readLine shown = .ok (line?, console))
      (number : readNumber (.text name) line? = .ok value)
      (others : Reads prompt rest ⟨scene.store.set (some name) value, console⟩ fault? after
        written) :
      Reads prompt (name :: rest) scene fault? after ((some name, value) :: written)

namespace Reads

variable {prompt : String} {names : List String} {scene after : Scene} {fault? : Option Fault}
  {written : List (Option String × Float)}

theorem store_eq (reads : Reads prompt names scene fault? after written) :
    after.store = scene.store.setAll written := by
  induction reads with
  | nil => rfl
  | failed fails =>
    obtain ⟨-, -, same⟩ | ⟨-, -, -, -, noFault, -⟩ := Scene.readName_cases fails
    · exact same
    · cases noFault
  | next _ _ _ _ ih => exact ih

theorem each (reads : Reads prompt names scene fault? after written) :
    scene.each (Scene.readName prompt) names = (fault?, after) := by
  induction reads with
  | nil => rfl
  | failed fails => rw [Scene.each, fails]
  | next fills takes number _ ih =>
    rw [Scene.each, Scene.readName, fills]
    dsimp only
    rw [takes]
    dsimp only
    rw [number]
    exact ih

theorem of_each (did : scene.each (Scene.readName prompt) names = (fault?, after)) :
    ∃ written, Reads prompt names scene fault? after written := by
  induction names generalizing scene with
  | nil =>
    cases did
    exact ⟨[], .nil⟩
  | cons name rest ih =>
    rw [Scene.each] at did
    split at did
    · rename_i fails
      cases did
      exact ⟨[], .failed fails⟩
    · rename_i read
      obtain ⟨_, isFault, -⟩ | ⟨_, _, _, value, -, fills, takes, number, rfl⟩ :=
        Scene.readName_cases read
      · cases isFault
      · obtain ⟨written, others⟩ := ih did
        exact ⟨(some name, value) :: written, .next fills takes number others⟩

theorem mem_names (reads : Reads prompt names scene fault? after written) :
    ∀ entry ∈ written, ∃ name ∈ names, entry.1 = some name := by
  induction reads with
  | nil | failed => exact fun _ member => absurd member List.not_mem_nil
  | next _ _ _ _ ih =>
    rw [List.forall_mem_cons]
    refine ⟨⟨_, List.mem_cons_self, rfl⟩, fun entry member => ?_⟩
    obtain ⟨name, isName, same⟩ := ih entry member
    exact ⟨name, List.mem_cons_of_mem _ isName, same⟩

end Reads

/-- A statement or a list of statements takes one scene to another, and writes some variables on
its way, in order. -/
inductive Writes (prompt : String) : Node → Scene → Completion → Scene →
    List (Option String × Float) → Prop where
  | last {first span scene outcome after written}
      (writes : Writes prompt first scene outcome after written) :
      Writes prompt (.sequence first .absent span) scene outcome after written
  | next {first rest span scene middle outcome after written later}
      (writes : Writes prompt first scene .normal middle written)
      (others : Writes prompt rest middle outcome after later) :
      Writes prompt (.sequence first rest span) scene outcome after (written ++ later)
  | stop {first rest span scene outcome after written}
      (writes : Writes prompt first scene outcome after written) (leaves : outcome ≠ .normal) :
      Writes prompt (.sequence first rest span) scene outcome after written
  | consequent {test body rest span scene outcome after written}
      (holds : test.Decides scene.store (.ok true))
      (writes : Writes prompt body scene outcome after written) :
      Writes prompt (.branch test body rest span) scene outcome after written
  | alternate {test body rest span scene outcome after written}
      (fails : test.Decides scene.store (.ok false))
      (writes : Writes prompt rest scene outcome after written) :
      Writes prompt (.branch test body rest span) scene outcome after written
  | undecided {test body rest span scene fault}
      (faulty : test.Decides scene.store (.error fault)) :
      Writes prompt (.branch test body rest span) scene (.failed fault) scene []
  | fi {span scene} : Writes prompt (.otherwise .absent span) scene .normal scene []
  | otherwise {body span scene outcome after written}
      (writes : Writes prompt body scene outcome after written) :
      Writes prompt (.otherwise body span) scene outcome after written
  | again {label body span scene middle outcome after written later}
      (writes : Writes prompt body scene .normal middle written)
      (repeats : Writes prompt (.loop (.text label) body span) middle outcome after later) :
      Writes prompt (.loop (.text label) body span) scene outcome after (written ++ later)
  | leave {label body span scene outcome after written}
      (writes : Writes prompt body scene outcome after written) (leaves : outcome ≠ .normal) :
      Writes prompt (.loop (.text label) body span) scene (outcome.afterLoop label) after written
  | exit {span scene} : Writes prompt (.exit (.text "") span) scene .breakOne scene []
  | exitTo {label span scene} (given : label ≠ "") :
      Writes prompt (.exit (.text label) span) scene (.breakTo label) scene []
  | assign {name value span scene number} (comesTo : value.ComesTo scene.store (.ok number)) :
      Writes prompt (.assign (.text name) value span) scene .normal
        { scene with store := scene.store.set (some name) number } [(some name, number)]
  | noValue {name value span scene fault} (faulty : value.ComesTo scene.store (.error fault)) :
      Writes prompt (.assign (.text name) value span) scene (.failed fault) scene []
  | read {list names span scene fault? after written} (holds : list = .ofNames names)
      (reads : Reads prompt names scene fault? after written) :
      Writes prompt (.read list span) scene (.ofFault? fault?) after written
  | print {list names span scene fault? after} (holds : list = .ofNames names)
      (prints : scene.each Scene.printName names = (fault?, after)) :
      Writes prompt (.print list span) scene (.ofFault? fault?) after []

section Writes

variable {prompt : String} {node : Node} {scene after : Scene} {outcome : Completion}
  {written : List (Option String × Float)}

theorem Writes.runs (writes : Writes prompt node scene outcome after written) :
    Runs prompt node scene outcome after := by
  induction writes with
  | last _ ih => exact .last ih
  | next _ _ ih ih' => exact .next ih ih'
  | stop _ leaves ih => exact .stop ih leaves
  | consequent holds _ ih => exact .consequent holds ih
  | alternate fails _ ih => exact .alternate fails ih
  | undecided faulty => exact .undecided faulty
  | fi => exact .fi
  | «otherwise» _ ih => exact .otherwise ih
  | again _ _ ih ih' => exact .again ih ih'
  | leave _ leaves ih => exact .leave ih leaves
  | exit => exact .exit
  | exitTo given => exact .exitTo given
  | assign comesTo => exact .assign comesTo
  | noValue faulty => exact .noValue faulty
  | read holds reads => exact .read holds reads.each
  | print holds prints => exact .print holds prints

theorem Runs.exists_writes (runs : Runs prompt node scene outcome after) :
    ∃ written, Writes prompt node scene outcome after written := by
  induction runs with
  | last _ ih => exact ih.imp fun _ => .last
  | next _ _ ih ih' =>
    obtain ⟨written, writes⟩ := ih
    exact ih'.imp' _ fun _ others => .next writes others
  | stop _ leaves ih => exact ih.imp fun _ writes => .stop writes leaves
  | consequent holds _ ih => exact ih.imp fun _ => .consequent holds
  | alternate fails _ ih => exact ih.imp fun _ => .alternate fails
  | undecided faulty => exact ⟨[], .undecided faulty⟩
  | fi => exact ⟨[], .fi⟩
  | «otherwise» _ ih => exact ih.imp fun _ => .otherwise
  | again _ _ ih ih' =>
    obtain ⟨written, writes⟩ := ih
    exact ih'.imp' _ fun _ repeats => .again writes repeats
  | leave _ leaves ih => exact ih.imp fun _ writes => .leave writes leaves
  | exit => exact ⟨[], .exit⟩
  | exitTo given => exact ⟨[], .exitTo given⟩
  | assign comesTo => exact ⟨_, .assign comesTo⟩
  | noValue faulty => exact ⟨[], .noValue faulty⟩
  | read holds reads => exact (Reads.of_each reads).imp fun _ => .read holds
  | print holds prints => exact ⟨[], .print holds prints⟩

theorem Writes.store_eq (writes : Writes prompt node scene outcome after written) :
    after.store = scene.store.setAll written := by
  induction writes with
  | last _ ih | stop _ _ ih | consequent _ _ ih | alternate _ _ ih | «otherwise» _ ih
  | leave _ _ ih => exact ih
  | next _ _ ih ih' | again _ _ ih ih' => rw [ih', ih, Store.setAll_append]
  | read _ reads => exact reads.store_eq
  | print _ prints => exact Scene.store_of_each Scene.store_of_writeLine prints
  | _ => rfl

theorem Writes.mem_writes (writes : Writes prompt node scene outcome after written) :
    ∀ entry ∈ written, entry.1 ∈ node.writes := by
  induction writes with
  | last _ ih | stop _ _ ih | consequent _ _ ih =>
    exact fun entry member => List.mem_append_left _ (ih entry member)
  | alternate _ _ ih => exact fun entry member => List.mem_append_right _ (ih entry member)
  | «otherwise» _ ih | leave _ _ ih => exact ih
  | next _ _ ih ih' =>
    rw [List.forall_mem_append]
    exact ⟨fun entry member => List.mem_append_left _ (ih entry member),
      fun entry member => List.mem_append_right _ (ih' entry member)⟩
  | again _ _ ih ih' => exact List.forall_mem_append.mpr ⟨ih, ih'⟩
  | assign => simp [Node.writes, Node.asVariable, Node.named, Except.toOption]
  | @read list names _ _ _ _ _ holds reads =>
    subst holds
    intro entry member
    obtain ⟨name, isName, same⟩ := reads.mem_names entry member
    rw [Node.writes, (Machine.names_ofNames _).1, same]
    exact List.mem_flatMap_of_mem (List.mem_map_of_mem isName) (Node.mem_asVariable rfl)
  | _ => exact fun _ member => absurd member List.not_mem_nil

end Writes

theorem Concludes.store_eq {outcome : Completion} {scene after : Scene} {fault? : Option Fault}
    {signal : Signal} (concludes : Concludes outcome scene fault? signal after) :
    after.store = scene.store := by
  cases concludes with
  | normal | failed => rfl
  | breakOne told | breakTo told => exact Scene.store_of_each Scene.store_of_writeLine told

namespace Machine

/-- What a program writes in a world: nothing while a break is pending, else what its statements
write. -/
inductive Wrote : Node → World → List (Option String × Float) → Prop where
  | nothing {program world} (breaking : world.state.signal.isBreaking = true) :
      Wrote program world []
  | statements {body span world outcome after written} (running : world.state.signal = .running)
      (writes : Writes world.settings.prompt body ⟨world.state.store, world.console⟩ outcome after
        written) :
      Wrote (.program body span) world written

variable {limits : Limits} {tracing : Bool} {source : Source} {program : Node} {reader : Reader}
  {world last : World} {fault? : Option Fault} {written : List (Option String × Float)}

theorem exists_wrote (runnable : limits.Runnable)
    (parsed : Reading.program limits (.ofSource tracing source) = .ok program reader)
    (ends : Ends program world fault? last) : ∃ written, Wrote program world written := by
  by_cases breaking : world.state.signal.isBreaking = true
  · exact ⟨[], .nothing breaking⟩
  · have running := Signal.running_of_not_breaking breaking
    obtain ⟨signal, after, finishes, -⟩ := finishes_of_ends runnable parsed running ends
    cases finishes with
    | program runs _ =>
      obtain ⟨written, writes⟩ := runs.exists_writes
      exact ⟨written, .statements running writes⟩

/-- A run leaves the store that its writes make. -/
theorem Wrote.store_eq (wrote : Wrote program world written) (runnable : limits.Runnable)
    (parsed : Reading.program limits (.ofSource tracing source) = .ok program reader)
    (ends : Ends program world fault? last) :
    last.state.store = world.state.store.setAll written := by
  cases wrote with
  | nothing breaking =>
    have idle : Ends program world none world := ⟨0, run_of_breaking breaking⟩
    obtain ⟨-, rfl⟩ := idle.unique ends
    rfl
  | @statements body span _ outcome after _ running writes =>
    obtain ⟨fault?', signal, final, concludes⟩ := outcome.exists_concludes after
    obtain ⟨last', ends', at_⟩ :=
      ends_of_finishes runnable parsed running (.program writes.runs concludes)
    obtain ⟨-, rfl⟩ := ends.unique ends'
    rw [at_.state, concludes.store_eq, writes.store_eq]

theorem Wrote.mem_writes (wrote : Wrote program world written) :
    ∀ entry ∈ written, entry.1 ∈ program.writes := by
  cases wrote with
  | nothing => exact fun _ member => absurd member List.not_mem_nil
  | statements _ writes => exact writes.mem_writes

/-- Whatever a program that was read is run on, and also if its run fails: there are the writes that
succeeded, and no name stands twice in the store that is left. First come the names from
before, and then the new ones in the order of their first writes; on the way no name was there
that is missing at the end or has another place. Each variable has the value of its last
write, or the one from before if it was not written. And only names that the program assigns
to or reads values for are new. -/
theorem names_in_order (limits : Limits) (runnable : limits.Runnable) (tracing upcase : Bool)
    (text : String) (program : Node) (reader : Reader)
    (parsed : Reading.program limits (.ofSource tracing (.ofText upcase text)) =
      .ok program reader)
    (world : World) (nodup : world.state.store.names.Nodup) (fault? : Option Fault) (last : World)
    (ends : Ends program world fault? last) :
    let names := world.state.store.names
    (∃ written, Wrote program world written) ∧ ∀ written, Wrote program world written →
      last.state.store.names.Nodup ∧
      last.state.store.names = names ++ ((written.map (·.1)).filter (· ∉ names)).eraseDups ∧
      (∀ earlier later, written = earlier ++ later →
        names <+: (world.state.store.setAll earlier).names ∧
        (world.state.store.setAll earlier).names <+: last.state.store.names) ∧
      (∀ name, last.state.store.find? name =
        (written.reverse.lookup name).or (world.state.store.find? name)) ∧
      ∀ name ∈ last.state.store.names, name ∈ names ∨ name ∈ program.writes := by
  intro names
  refine ⟨exists_wrote runnable parsed ends, fun written wrote => ?_⟩
  have ordered := Store.names_setAll world.state.store written
  rw [wrote.store_eq runnable parsed ends]
  refine ⟨Store.nodup_setAll nodup written, ordered, ?_, Store.find?_setAll _ _, ?_⟩
  · rintro earlier later rfl
    rw [Store.setAll_append]
    exact ⟨Store.names_prefix_setAll .., Store.names_prefix_setAll ..⟩
  · intro name member
    rw [ordered, List.mem_append, List.mem_eraseDups, List.mem_filter] at member
    rcases member with known | ⟨written, -⟩
    · exact .inl known
    · obtain ⟨entry, isWritten, rfl⟩ := List.mem_map.mp written
      exact .inr (wrote.mem_writes entry isWritten)

/-- A new name is written, then the one that was there, and the next one finds no line. -/
theorem failed_names_in_order :
    let world : World := ⟨⟨⟨[(some "A", 7)]⟩, .running⟩, .ofLines ["3"], { prompt := "?" }, []⟩
    ∃ program reader last written,
      Reading.program .standard (.ofSource false (.ofText false "X := A; READ A, B.")) =
        .ok program reader ∧
      Ends program world (some (.invalidInput "B" none)) last ∧ Wrote program world written ∧
      last.state.store.names =
        [some "A"] ++ ((written.map (·.1)).filter (· ∉ [some "A"])).eraseDups ∧
      last.state.store.names = [some "A", some "X"] := by
  intro world
  obtain ⟨program, reader, last, parsed, ends, names⟩ : ∃ program reader last,
      Reading.program .standard (.ofSource false (.ofText false "X := A; READ A, B.")) =
        .ok program reader ∧
      Ends program ⟨⟨⟨[(some "A", 7)]⟩, .running⟩, .ofLines ["3"], { prompt := "?" }, []⟩
        (some (.invalidInput "B" none)) last ∧
      last.state.store.names = [some "A", some "X"] := by
    refine ⟨_, _, _, rfl, ⟨0, rfl⟩, ?_⟩
    rfl
  have nodup : world.state.store.names.Nodup := by simp [world, Store.names]
  obtain ⟨⟨written, wrote⟩, ordered⟩ :=
    names_in_order .standard Limits.runnable_standard false false _ program reader parsed world
      nodup _ last ends
  exact ⟨program, reader, last, written, parsed, ends, wrote, (ordered written wrote).2.1, names⟩

end Machine

end LoopLang
