import LoopLang.Fault
import LoopLang.Syntax.Node
import LoopLang.Token.Cursor
import LoopLang.Trace

/-!
# Readers

A reader is a cursor together with the trace that reading leaves. Reading either yields a
value or fails with a fault; in both cases it leaves the reader where it stopped. The
rules of the grammar are put together from a few actions: look at the next token, take
it, take one of a given kind, and repeat while the next token is of a given kind.
-/
namespace LoopLang

structure Reader where
  cursor : Cursor
  tracing : Bool
  /-- What was recorded, the latest first. -/
  log : List Record

abbrev Reading := EStateM Fault Reader

def Reader.ofSource (tracing : Bool) (source : Source) : Reader :=
  ⟨Cursor.ofSource source, tracing, []⟩

/-- Records a detail if the reader is tracing. -/
def Reader.note (reader : Reader) (channel : Channel) (message : String) : Reader :=
  if reader.tracing then { reader with log := ⟨.detail, channel, message⟩ :: reader.log }
  else reader

/-- Passes a token for which there is not depth enough. It is passed all the same, for that takes
less depth than scanning the next one does. While tracing, it is only the record of it that goes too
deep. -/
def Reader.giveUp (reader : Reader) : Reader :=
  { reader with
    cursor := if reader.tracing then reader.cursor.advanceReal else reader.cursor.leave }

namespace Reading

def note (message : String) : Reading Unit :=
  modify fun reader => reader.note .reader message

def peek : Reading Token := do
  return (← get).cursor.peek

/-- The nearest token behind the reader that is not whitespace. -/
def current : Reading Token := do
  match (← get).cursor.lastReal? with
  | some token => return token
  | none => throw .noCurrentToken

def passMessage (cursor : Cursor) : String :=
  "next_real_token: (" ++ (cursor.lastReal?.map (·.text)).getD "" ++ ") -> (" ++
    cursor.peek.text ++ ")"

/-- Passes one token and the whitespace after it; yields the token that is then current. -/
def pass : Reading (Option Token) := do
  let cursor := (← get).cursor.advanceReal
  modify fun reader => { reader with cursor }.note .scanner (passMessage cursor)
  return cursor.lastReal?

/-- Passes a token unless it stops the scan, in which case something else was expected. -/
def advance (expected : Option String) : Reading (Option Token) := do
  let token ← peek
  if token.isValid then pass else throw (Fault.ofToken expected token)

/-- Passes a token and yields the current one. -/
def take (expected : Option String) : Reading Token := do
  match ← advance expected with
  | some token => return token
  | none => throw .noCurrentToken

/-- Takes a token of one kind. -/
def expect (kind : Kind) : Reading Token := do
  let token ← take (some kind.expected)
  if token.kind = kind then return token
  else throw (Fault.ofToken (some kind.expected) token)

/-- Repeats a step while the next token is of a kind that goes on, so many times at most. -/
def repeatWhile {α : Type} (goesOn : Kind → Bool) (step : Reading α) : Nat → Reading (List α)
  | 0 => return []
  | bound + 1 => do
    if goesOn (← peek).kind then
      let first ← step
      let rest ← repeatWhile goesOn step bound
      return first :: rest
    else return []

/-- Repeats a step that takes a token, while the next token is of a kind that goes on. The
tokens of the source bound the repetitions: after the last of them no kind goes on. -/
def many {α : Type} (goesOn : Kind → Bool) (step : Reading α) : Reading (List α) := do
  repeatWhile goesOn step (← get).cursor.source.plenty

/-- The span from a place to the end of the current token. -/
def spanFrom (start : Location) : Reading (Option Span) := do
  return some ⟨start, (← current).stop⟩

/-- Fails where there is no depth left for a rule that begins with a token. -/
def exhaust {α : Type} (expected : Option String) : Reading α := do
  let token ← peek
  if token.isValid then
    modify Reader.giveUp
    throw .stackExhausted
  else throw (Fault.ofToken expected token)

/-- Running out of depth is reported as a fault of the text, at the token that then comes next. -/
def reportDepth {α : Type} (action : Reading α) : Reading α := fun reader =>
  match action reader with
  | .error .stackExhausted reader => .error (.textTooDeep reader.cursor.peek.start) reader
  | result => result

end Reading

end LoopLang
