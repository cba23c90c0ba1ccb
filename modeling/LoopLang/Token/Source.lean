import LoopLang.Text.Upcase
import LoopLang.Token.Lexeme

/-!
# Source texts

A source is the text that is scanned together with the offsets at which its lines start.
Offsets count characters from zero; lines and columns count from one. The raw tokens of a
source follow each other without gaps up to the one that stops the scan.
-/
namespace LoopLang

structure Location where
  line : Nat
  column : Nat
  offset : Nat
  deriving DecidableEq

def Location.describe (place : Location) : String :=
  toString place.line ++ ":" ++ toString place.column

/-- How messages write a place that may be missing. -/
def Location.describeOption : Option Location → String
  | some place => place.describe
  | none => "None"

/-- A lexeme in its place: from `start` up to, not including, `stop`. -/
structure Token extends Lexeme where
  start : Location
  stop : Location
  deriving DecidableEq

def Token.describe (token : Token) : String :=
  token.describeWith (", position=" ++ token.start.describe)

/-- The offsets after each line break of a text that begins at `offset`. -/
def laterLineStarts (offset : Nat) : List Char → List Nat
  | '\r' :: '\n' :: rest => (offset + 2) :: laterLineStarts (offset + 2) rest
  | '\n' :: '\r' :: rest => (offset + 2) :: laterLineStarts (offset + 2) rest
  | '\n' :: rest => (offset + 1) :: laterLineStarts (offset + 1) rest
  | '\r' :: rest => (offset + 1) :: laterLineStarts (offset + 1) rest
  | _ :: rest => laterLineStarts (offset + 1) rest
  | [] => []

structure Source where
  /-- The text as it was given, before it was put into upper case. -/
  given : String
  text : List Char
  /-- Where the second line starts, the third, and so on. -/
  laterLines : List Nat
  laterLines_eq : laterLines = laterLineStarts 0 text

/-- The line that holds an offset, and its start, counted on from line `line` at `start`. -/
def lineAt (offset : Nat) (line start : Nat) : List Nat → Nat × Nat
  | [] => (line, start)
  | next :: later => if next ≤ offset then lineAt offset (line + 1) next later else (line, start)

namespace Source

def ofText (upcase : Bool) (given : String) : Source :=
  let text := if upcase then Text.upcase given.toList else given.toList
  ⟨given, text, laterLineStarts 0 text, rfl⟩

def lineStarts (source : Source) : List Nat :=
  0 :: source.laterLines

def location (source : Source) (offset : Nat) : Location :=
  let (line, start) := lineAt offset 1 0 source.laterLines
  ⟨line, offset - start + 1, offset⟩

def place (source : Source) (offset : Nat) (lexeme : Lexeme) : Token :=
  { lexeme with
    start := source.location offset
    stop := source.location (offset + lexeme.length) }

/-- The token at an offset, which may lie beyond the end. -/
def scan (source : Source) (offset : Nat) : Token :=
  source.place offset (Lexeme.first (source.text.drop offset))

/-- The valid tokens of `rest`, which begins at `offset`, and the token that stops the scan.
A valid token takes a character at least, so `rest.length` steps suffice. -/
def tokensFrom (source : Source) : Nat → Nat → List Char → List Token × Token
  | 0, offset, rest => ([], source.place offset (Lexeme.first rest))
  | steps + 1, offset, rest =>
    let lexeme := Lexeme.first rest
    if lexeme.isValid then
      let (tokens, stop) :=
        source.tokensFrom steps (offset + lexeme.length) (rest.drop lexeme.length)
      (source.place offset lexeme :: tokens, stop)
    else ([], source.place offset lexeme)

/-- The raw tokens of the whole text, and the one that stops the scan. -/
def tokens (source : Source) : List Token × Token :=
  source.tokensFrom source.text.length 0 source.text

end Source

end LoopLang
