import LoopLang.Machine.Execution
import LoopLang.Syntax.Rules

/-!
# Programs in a world

Reading and running share one trace: what a reader records joins what the world has
recorded before, also when reading fails.
-/
namespace LoopLang.Machine

/-- Reads from a cursor in the trace of the world, and yields the cursor after it too. -/
def ofReading {α : Type} (cursor : Cursor) (action : Reading α) : Machine (α × Cursor) :=
  fun world =>
    match action ⟨cursor, world.settings.trace, world.log⟩ with
    | .ok value reader => .ok (value, reader.cursor) { world with log := reader.log }
    | .error fault reader => .error (.fault fault) { world with log := reader.log }

def load (limits : Limits) (source : Source) : Machine Node := do
  return (← ofReading (Cursor.ofSource source) (Reading.program limits)).1

/-- Reads a program and runs it; each loop may take so many rounds. -/
def runText (limits : Limits) (steps : Nat) (text : String) : Machine Unit := do
  let program ← load limits (Source.ofText (← get).settings.upcase text)
  run steps program

end LoopLang.Machine
