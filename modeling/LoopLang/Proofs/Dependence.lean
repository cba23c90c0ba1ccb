import LoopLang.Machine.Program
import LoopLang.Proofs.Tracking

/-!
# What a run depends on

A run reads variables only by the names that its program mentions, and a variable that was
never written is as good as one that holds zero. So two states that agree in the values of
these names, in whatever order they hold them and whatever else they hold, cannot be told
apart: the runs do the same to the console, end in the same way or not at all, and leave
states that agree again. What a program does not write is left alone, to its very absence.
-/
namespace LoopLang

/-- Worlds in which some variables have the same values, and which are otherwise the same
but for their other variables. -/
structure World.Alike (names : List (Option String)) (world world' : World) : Prop where
  values : ∀ name ∈ names, world'.state.store.get name = world.state.store.get name
  signal : world'.state.signal = world.state.signal
  console : world'.console = world.console
  settings : world'.settings = world.settings
  log : world'.log = world.log

theorem Store.get_set (store : Store) (name other : Option String) (value : Float) :
    (store.set name value).get other = if other = name then value else store.get other := by
  by_cases same : other = name <;> simp [get, find?_set, same]

theorem World.Alike.registers {names : List (Option String)} {world world' : World}
    (alike : World.Alike names world world') : world'.state.registers = world.state.registers :=
  Signal.registers_inj.mpr alike.signal

namespace Machine

variable {names : List (Option String)} {name : Option String} {held? : Option Float}
  {program : Node} {world world' last : World} {fault? : Option Fault}

theorem respected_alike (names : List (Option String)) : Respected (World.Alike names) where
  settings alike := alike.settings
  console alike := alike.console
  signal alike := alike.signal
  recorded record alike := { alike with log := congrArg (record :: ·) alike.log }
  requested target alike := by
    simp only [State.requestBreak, alike.signal]
    split
    · exact ⟨alike.values, alike.signal, alike.console, alike.settings, alike.log⟩
    · exact ⟨alike.values, rfl, alike.console, alike.settings, alike.log⟩
  finished alike := { alike with signal := rfl }
  read alike _ := { alike with console := rfl }
  written alike _ := { alike with console := rfl }

theorem writable_alike (names written : List (Option String)) :
    Writable (World.Alike names) written := by
  intro name _ value world world' alike
  refine { alike with values := fun other member => ?_ }
  simp only [State.assign, Store.get_set, alike.values other member]

theorem ends_alike (alike : World.Alike program.mentions world world') :
    (∀ fault? last, Ends program world fault? last →
      ∃ last', Ends program world' fault? last' ∧ World.Alike program.mentions last last') ∧
    (∀ fault? last', Ends program world' fault? last' →
      ∃ last, Ends program world fault? last ∧ World.Alike program.mentions last last') ∧
    (Diverges program world ↔ Diverges program world') :=
  ends_tracked (respected_alike _).unnoticed
    (fun name member _ _ alike => alike.values name member) (writable_alike _ _) alike

/-- A world beside itself, in which a variable has some entry or none. -/
def Spares (name : Option String) (held? : Option Float) (world world' : World) : Prop :=
  world' = world ∧ world.state.store.find? name = held?

theorem respected_spares (name : Option String) (held? : Option Float) :
    Respected (Spares name held?) where
  settings := by rintro world _ ⟨rfl, -⟩; rfl
  console := by rintro world _ ⟨rfl, -⟩; rfl
  signal := by rintro world _ ⟨rfl, -⟩; rfl
  recorded := by rintro world _ record ⟨rfl, kept⟩; exact ⟨rfl, kept⟩
  requested := by
    rintro world _ target ⟨rfl, kept⟩
    refine ⟨rfl, ?_⟩
    unfold State.requestBreak
    split <;> exact kept
  finished := by rintro world _ ⟨rfl, kept⟩; exact ⟨rfl, kept⟩
  read := by rintro world _ prompt line console ⟨rfl, kept⟩ -; exact ⟨rfl, kept⟩
  written := by rintro world _ line console ⟨rfl, kept⟩ -; exact ⟨rfl, kept⟩

theorem Ends.spares (ends : Ends program world fault? last) (notWritten : name ∉ program.writes) :
    last.state.store.find? name = world.state.store.find? name := by
  have same : SameValues (Spares name (world.state.store.find? name)) program.mentions := by
    rintro other _ world _ ⟨rfl, -⟩
    rfl
  have writable : Writable (Spares name (world.state.store.find? name)) program.writes := by
    rintro other member value world _ ⟨rfl, kept⟩
    refine ⟨rfl, ?_⟩
    have differs : name ≠ other := by
      rintro rfl
      exact notWritten member
    simpa [State.assign, Store.find?_set, differs] using kept
  have tracked := ends_tracked (respected_spares _ _).unnoticed same writable ⟨rfl, rfl⟩
  obtain ⟨_, -, -, kept⟩ := tracked.1 fault? last ends
  exact kept

/-- The run of a program depends on the values of the variables that the program mentions, not
on whether they were ever written, nor in which order, nor on any others. In two states with
the same registers and the same such values a run comes to the same fault or none, the same
console and registers and again the same such values, or goes on for ever in both. And it
leaves each variable alone that the program neither assigns to nor reads a value for. -/
theorem run_depends_on_mentions (program : Node) (state state' : State)
    (registers : state'.registers = state.registers)
    (values : ∀ name ∈ program.mentions, state'.store.get name = state.store.get name)
    (console : Console) (settings : Settings) (log : List Record) :
    let world : World := ⟨state, console, settings, log⟩
    let world' : World := ⟨state', console, settings, log⟩
    (∀ fault? last, Ends program world fault? last →
      ∃ last', Ends program world' fault? last' ∧ World.Alike program.mentions last last' ∧
        last'.state.registers = last.state.registers) ∧
    (∀ fault? last', Ends program world' fault? last' →
      ∃ last, Ends program world fault? last ∧ World.Alike program.mentions last last' ∧
        last'.state.registers = last.state.registers) ∧
    (Diverges program world ↔ Diverges program world') ∧
    ∀ name, name ∉ program.writes →
      (∀ fault? last, Ends program world fault? last →
        last.state.store.find? name = state.store.find? name) ∧
      ∀ fault? last', Ends program world' fault? last' →
        last'.state.store.find? name = state'.store.find? name := by
  intro world world'
  have alike : World.Alike program.mentions world world' :=
    ⟨values, Signal.registers_inj.mp registers, rfl, rfl, rfl⟩
  obtain ⟨there, back, endless⟩ := ends_alike alike
  refine ⟨fun fault? last ends => ?_, fun fault? last' ends' => ?_, endless, ?_⟩
  · obtain ⟨last', ends', after⟩ := there fault? last ends
    exact ⟨last', ends', after, after.registers⟩
  · obtain ⟨last, ends, after⟩ := back fault? last' ends'
    exact ⟨last, ends, after, after.registers⟩
  intro name notWritten
  exact ⟨fun _ _ ends => ends.spares notWritten, fun _ _ ends' => ends'.spares notWritten⟩

/-- A variable that holds zero and one that is absent make no difference, nor does a third one,
which is kept. -/
theorem zero_or_absent_alike :
    ∃ program reader last last',
      Reading.program .standard (.ofSource false (.ofText false "A := B; PRINT A.")) =
        .ok program reader ∧
      (∀ name ∈ program.mentions, (⟨[(some "C", 7), (some "B", 0)]⟩ : Store).get name =
        Store.empty.get name) ∧
      Ends program ⟨⟨.empty, .running⟩, .ofLines [], {}, []⟩ none last ∧
      Ends program ⟨⟨⟨[(some "C", 7), (some "B", 0)]⟩, .running⟩, .ofLines [], {}, []⟩ none last' ∧
      World.Alike program.mentions last last' ∧
      last'.state.store.find? (some "C") = some 7 := by
  obtain ⟨program, reader, last, parsed, mentions, notWritten, ends⟩ :
      ∃ program reader last,
        Reading.program .standard (.ofSource false (.ofText false "A := B; PRINT A.")) =
          .ok program reader ∧
        program.mentions = [some "A", some "B", some "A"] ∧ some "C" ∉ program.writes ∧
        Ends program ⟨⟨.empty, .running⟩, .ofLines [], {}, []⟩ none last :=
    ⟨_, _, _, rfl, rfl, by decide, 0, rfl⟩
  have values : ∀ name ∈ program.mentions,
      (⟨[(some "C", 7), (some "B", 0)]⟩ : Store).get name = Store.empty.get name := by
    simp [mentions, Store.get, Store.find?, Store.empty, List.lookup_cons]
  have depends := run_depends_on_mentions program ⟨.empty, .running⟩
    ⟨⟨[(some "C", 7), (some "B", 0)]⟩, .running⟩ rfl values (.ofLines []) {} []
  obtain ⟨last', ends', alike, -⟩ := depends.1 none last ends
  have kept := (depends.2.2.2 (some "C") notWritten).2 none last' ends'
  exact ⟨program, reader, last, last', parsed, values, ends, ends', alike, kept⟩

end Machine

end LoopLang
