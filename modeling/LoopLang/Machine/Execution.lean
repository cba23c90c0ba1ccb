import LoopLang.Machine.Evaluation
import LoopLang.Machine.World
import LoopLang.Text.Blank

/-!
# Execution

Statements change the world. While a break is pending nothing is executed: a list of
statements stops, and the loops around it end until one is the loop to leave. A break that
no loop ends is told at the end of the program. Each loop is given a number of steps for
its rounds; nesting is followed to a depth that is passed down.
-/
namespace LoopLang

/-- How deep a program may be nested to be run. -/
def depthLimit : Nat := 1000

/-- The number on an input line. Its blanks are judged twice: the line must be a numeral
without any of them, and a number with the blanks that may surround one. -/
def readNumber (name : Node) (line : Option String) : Except Fault Float :=
  match line with
  | none => .error (name.told (.invalidInput · none))
  | some text =>
    match Number.read? (Text.trim Text.isBlank text.toList) with
    | none => .error (name.told (.invalidInput · (some text)))
    | some _ =>
      match Number.read? (Text.trim Text.isNumberPadding text.toList) with
      | some value => .ok value
      | none => .error .unreadableNumber

namespace Machine

def readName (name : Node) : Machine Unit := do
  let value ← ofExcept (readNumber name (← readLine name))
  let name ← ofExcept name.named
  changeState (·.assign name value)

def printName (name : Node) : Machine Unit := do
  let line ← ofExcept name.display
  let value ← ofExcept (Node.lookUp (← get).state.store.get name)
  writeLine (line ++ "=" ++ Number.printed value)

def forNames (act : Node → Machine Unit) : List Node → Machine Unit
  | [] => return
  | name :: rest => do
    act name
    forNames act rest

/-- Does something for each of the names that a value holds. -/
def forNamesOf (act : Node → Machine Unit) (names : Node) : Machine Unit := do
  forNames act names.names
  match names.namesFault? with
  | some fault => fail fault
  | none => return

/-- Runs the statements of a linked list until one leaves a break pending. -/
def runList (run : Node → Machine Unit) : Node → Machine Unit
  | .absent => return
  | .sequence first rest _ => do
    run first
    if (← signal).isBreaking then return
    else runList run rest
  | _ => fail .missingPart

/-- Repeats the body of a loop until a break is pending, which ends at its loop. -/
def repeatBody (label : Node) (body : Machine Unit) : Nat → Machine Unit
  | 0 => throw .outOfSteps
  | steps + 1 => do
    body
    let pending ← signal
    if pending.isBreaking then
      note ("Attempting to break [Loop: " ++ label.shown ++ "] [Target: " ++
        pending.target.shown ++ "]")
      if pending.endsAt label then changeState (·.finishBreak)
    else repeatBody label body steps

/-- Tells of a break that is pending at the end of the program. -/
def tellUnmatched : Machine Unit := do
  let pending ← signal
  if pending.isBreaking then
    warn ("Reached the end of program while breaking (label " ++ pending.target.written ++ ")")
    writeLine "Error! - Attempting to break, and reached the end of program"
    if pending.target.isGiven then
      writeLine ("Label " ++ pending.target.shown ++ ": Not Found")

def evalNumber (depth : Nat) (node : Node) : Machine (Option Float) := do
  ofExcept (node.evalNumber (← get).state.store.get depth)

def evalCondition (depth : Nat) (node : Node) : Machine Bool := do
  ofExcept (node.evalCondition (← get).state.store.get depth)

/-- Executes a node, with so many steps for each loop in it. -/
def execute (steps : Nat) : Nat → Node → Machine Unit
  | 0, _ => fail .stackExhausted
  | depth + 1, node => do
    if (← signal).isBreaking then return
    match node with
    | .program body _ =>
      execute steps depth body
      tellUnmatched
    | .sequence .. => runList (execute steps depth) node
    | .branch test consequent alternate _ =>
      let holds ← evalCondition depth test
      note ("If Statement reached - Condition: " ++ flagText holds)
      if holds then execute steps depth consequent else execute steps depth alternate
    | .otherwise .absent _ => return
    | .otherwise body _ => execute steps depth body
    | .loop label body _ => repeatBody label (execute steps depth body) steps
    | .exit target _ => changeState (·.requestBreak target)
    | .assign name value _ =>
      let value ← ofExcept (needed (← evalNumber depth value))
      let name ← ofExcept name.named
      changeState (·.assign name value)
    | .read names _ => forNamesOf readName names
    | .print names _ => forNamesOf printName names
    | other => fail other.misplaced

/-- Running out of depth is reported as a fault of the program. -/
def reportDepth : Halt → Halt
  | .fault .stackExhausted => .fault .programTooDeep
  | halt => halt

def run (steps : Nat) (program : Node) : Machine Unit := fun world =>
  match execute steps depthLimit program world with
  | .ok value world => .ok value world
  | .error halt world => .error (reportDepth halt) world

end Machine

end LoopLang
