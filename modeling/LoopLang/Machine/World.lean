import LoopLang.Machine.Console
import LoopLang.Machine.Store
import LoopLang.Prompt.Filling
import LoopLang.Trace

/-!
# Worlds

A program runs in a world: the state, the console, the settings and the trace. A run ends
normally, or halts with a fault in the world that it reached, or is stopped because a loop
used up the steps that it was given.
-/
namespace LoopLang

structure World where
  state : State
  console : Console
  settings : Settings
  /-- What was recorded, the latest first. -/
  log : List Record

inductive Halt where
  | fault (fault : Fault)
  | outOfSteps
  deriving DecidableEq

abbrev Machine := EStateM Halt World

namespace World

def note (world : World) (message : String) : World :=
  if world.settings.trace then { world with log := ⟨.detail, .machine, message⟩ :: world.log }
  else world

def warn (world : World) (message : String) : World :=
  { world with log := ⟨.warning, .machine, message⟩ :: world.log }

end World

namespace Machine

def note (message : String) : Machine Unit :=
  modify (·.note message)

def warn (message : String) : Machine Unit :=
  modify (·.warn message)

def fail {α : Type} (fault : Fault) : Machine α :=
  throw (.fault fault)

def ofExcept {α : Type} : Except Fault α → Machine α
  | .ok value => pure value
  | .error fault => fail fault

def signal : Machine Signal := do
  return (← get).state.signal

def changeState (change : State → State) : Machine Unit :=
  modify fun world => { world with state := change world.state }

def writeLine (line : String) : Machine Unit := do
  let console ← ofExcept ((← get).console.writeLine line)
  modify fun world => { world with console }

/-- Shows the prompt for a variable and reads a line. -/
def readLine (name : Node) : Machine (Option String) := do
  let prompt ← ofExcept (Prompt.fill (← get).settings.prompt name)
  let (line, console) ← ofExcept ((← get).console.readLine prompt)
  modify fun world => { world with console }
  return line

end Machine

end LoopLang
