import LoopLang.CommandLine.Arguments
import LoopLang.CommandLine.Directory
import LoopLang.Machine.Program
import LoopLang.Syntax.Outline
import LoopLang.Text.Newline

/-!
# Command-line sessions

A session reads a program, lists its tokens or its tree if that was asked for, runs it
between two rules, and shows the final state. What goes wrong in the program is told on a
line of its own and ends the session with status one. The trace is shown only on request.
-/
namespace LoopLang.CommandLine

inductive Ending where
  | exit (status : Nat)
  /-- The session was given up over a fault that has no report. -/
  | failure (fault : Fault)
  | undecodable
  /-- The file was named by something that is no path. -/
  | noPath
  | outOfSteps
  deriving DecidableEq

structure Outcome where
  ending : Ending
  output : String
  trace : String
  /-- Whether a value was asked for when the input had ended. -/
  lacksInput : Bool

/-- The line above and below the output of the program. -/
def horizontalRule : String :=
  .ofList (List.replicate 32 '-')

def writeLines : List String → Machine Unit
  | [] => return
  | line :: rest => do
    Machine.writeLine line
    writeLines rest

/-- The listed tokens: the first as it is, then each that is not whitespace. -/
def tokenLines : Nat → Reading (List String)
  | 0 => return []
  | count + 1 => do
    if (← get).cursor.isDone then return []
    else
      let line := (← Reading.peek).listing
      let _ ← Reading.pass
      let rest ← tokenLines count
      return line :: rest

def tokenOutline (cursor : Cursor) : Data :=
  .list (cursor.everyToken.map fun token => .list [.text token.kind.name, .text token.text])

/-- Lists the tokens as data or line by line, with the one that stops the scan at the end. The
cursor is moved through the tokens to list them, and back to the first one. -/
def listTokens (options : Options) (cursor : Cursor) : Machine Cursor := do
  if options.json then
    Machine.writeLine (tokenOutline cursor).json
    return cursor.reset
  else
    let (lines, after) ← Machine.ofReading cursor (tokenLines cursor.source.plenty)
    writeLines lines
    Machine.writeLine ("next: " ++ after.peek.listing)
    return after.reset

def showState (options : Options) : Machine Unit := do
  let state := (← get).state
  if options.json then Machine.writeLine state.outline.indentedJson
  else writeLines state.store.listing

def showTree (levels : Nat) (program : Node) : Machine Unit := do
  let outline ← Machine.ofExcept (program.outline levels)
  Machine.writeLine outline.indentedJson

/-- Runs a program between two rules and shows the state that it leaves. -/
def runProgram (steps : Nat) (options : Options) (program : Node) : Machine Unit := do
  Machine.writeLine horizontalRule
  Machine.run steps program
  Machine.writeLine horizontalRule
  showState options

def runFrom (limits : Limits) (steps : Nat) (options : Options) (cursor : Cursor) :
    Machine Unit := do
  let (program, _) ← Machine.ofReading cursor (Reading.program limits)
  if options.tree then showTree limits.writing program
  runProgram steps options program

/-- Carries out the options on the text of a program. The program is read from the cursor that
the tokens were listed with. -/
def interpret (limits : Limits) (steps : Nat) (options : Options) (text : String) :
    Machine Unit := do
  let start := Cursor.ofSource (Source.ofText (← get).settings.upcase text)
  if options.tokens then
    let cursor ← listTokens options start
    runFrom limits steps options cursor
  else runFrom limits steps options start

/-- What the user is told about a fault of the program or its tree. -/
def complaint? : Fault → Option String
  | .stackExhausted => some "Could not dump the syntax tree: nesting too deep"
  | fault => fault.report?.map Report.message

def conclude (ending : Ending) (lastWords : List String) (world : World) : Outcome :=
  { ending
    output := world.console.transcript ++ String.join (lastWords.map (· ++ "\n"))
    trace :=
      if world.settings.trace then String.join (world.log.reverse.map (·.line ++ "\n")) else ""
    lacksInput := false }

def isEndOfInput : Fault → Bool
  | .invalidInput _ none => true
  | _ => false

/-- The outcome of a session that came to an end, on an input. One that is no text is found out
when the first line is asked for; until then it might as well be empty. -/
def concluded (input? : Option (List Char)) : EStateM.Result Halt World Unit → Outcome
  | .ok _ world => conclude (.exit 0) [] world
  | .error .outOfSteps world => conclude .outOfSteps [] world
  | .error (.fault fault) world =>
    let outcome :=
      if input?.isNone && isEndOfInput fault then conclude .undecodable [] world
      else
        match complaint? fault with
        | some message => conclude (.exit 1) [message] world
        | none => conclude (.failure fault) [] world
    { outcome with lacksInput := isEndOfInput fault }

def conclusion (input? : Option (List Char)) (session : Machine Unit) (settings : Settings) :
    Outcome :=
  concluded input? (session ⟨State.initial, .ofInput (input?.getD []), settings, []⟩)

def Options.settings (options : Options) : Settings :=
  { trace := options.debug, upcase := !options.caseSensitive }

/-- A session on a file; `read` opens a path and `input` stands on standard input, which holds
the program if the file is named by a single dash. -/
def perform (limits : Limits) (steps : Nat) (options : Options)
    (read : String → Except Unreadable ByteArray) (input : ByteArray) : Outcome :=
  let unread (ending : Ending) (lastWords : List String) : Outcome :=
    conclude ending lastWords ⟨State.initial, .ofInput [], options.settings, []⟩
  let interpreted (bytes : ByteArray) (input? : Option (List Char)) : Outcome :=
    match Text.decodeFile? bytes with
    | none => unread .undecodable []
    | some text =>
      conclusion input? (interpret limits steps options (.ofList text)) options.settings
  if options.file = "-" then interpreted input (some [])
  else
    match read options.file with
    | .error problem =>
      match problem.message? with
      | some message => unread (.exit 1) ["Could not read " ++ options.file ++ ": " ++ message]
      | none => unread .noPath []
    | .ok bytes => interpreted bytes (Text.decodeFile? input)

end LoopLang.CommandLine
