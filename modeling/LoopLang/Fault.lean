import LoopLang.Number.Style
import LoopLang.Token.Source

/-!
# Faults

Everything that can go wrong, by its cause. The faults of scanning, reading, running and
input are reported to the user with an origin, a code and a text. The others have no
report: they name what a caller did that the library has no answer for.
-/
namespace LoopLang

/-- The stage that reports a fault. -/
inductive Origin where
  | scanning | reading | running | input
  deriving DecidableEq

def Origin.name : Origin → String
  | scanning => "LexerError"
  | reading => "ParserError"
  | running => "EvaluationError"
  | input => "InputError"

inductive Code where
  | unknownCharacters | mismatchedQuote | newlineInLiteral
  | unexpectedToken | unexpectedEnd | nestingTooDeep
  | divisionByZero | unknownOperator | unexpectedNode
  | invalidInput
  deriving DecidableEq

namespace Code

def all : List Code :=
  [unknownCharacters, mismatchedQuote, newlineInLiteral, unexpectedToken, unexpectedEnd,
    nestingTooDeep, divisionByZero, unknownOperator, unexpectedNode, invalidInput]

def name : Code → String
  | unknownCharacters => "UNKNOWN_CHARACTERS"
  | mismatchedQuote => "MISMATCHED_QUOTE"
  | newlineInLiteral => "NEWLINE_IN_LITERAL"
  | unexpectedToken => "UNEXPECTED_TOKEN"
  | unexpectedEnd => "UNEXPECTED_END"
  | nestingTooDeep => "NESTING_TOO_DEEP"
  | divisionByZero => "DIVISION_BY_ZERO"
  | unknownOperator => "UNKNOWN_OPERATOR"
  | unexpectedNode => "UNEXPECTED_AST_NODE"
  | invalidInput => "INVALID_INPUT"

def text : Code → String
  | unknownCharacters => "Unknown characters or symbols"
  | mismatchedQuote => "Mismatched quote"
  | newlineInLiteral => "String literal contains newlines"
  | unexpectedToken => "Unexpected token"
  | unexpectedEnd => "Unexpected end of input"
  | nestingTooDeep => "Nesting too deep"
  | divisionByZero => "Division by zero"
  | unknownOperator => "Unknown operator"
  | unexpectedNode => "Unexpected ast node"
  | invalidInput => "Invalid input"

/-- The code for a kind of token that no text may hold. -/
def ofKind? : Kind → Option Code
  | .unknownCharacter => some unknownCharacters
  | .openQuote => some mismatchedQuote
  | .brokenString => some newlineInLiteral
  | _ => none

end Code

inductive Fault where
  /-- The scan stopped at a token that no text may hold. -/
  | badToken (code : Code) (place : Location)
  | unexpectedEnd (expected : Option String) (place : Location)
  | unexpectedToken (expected : Option String) (found : Token)
  /-- The text nests deeper than the reader follows. -/
  | textTooDeep (place : Location)
  | divisionByZero (dividend : Float) (place : Option Location)
  | unknownComparison (operator : String)
  | unknownOperator (operator : String)
  | unexpectedNode (written : String)
  /-- The program nests deeper than the machine follows. -/
  | programTooDeep
  | invalidInput (name : String) (line : Option String)
  /-- A rule needs the token before the cursor, and none was passed. -/
  | noCurrentToken
  /-- A node stands where one with other parts is needed. -/
  | missingPart
  /-- A node lacks the number, the name or the names that it is made for. -/
  | missingValue
  | unreadableNumber
  | malformedPrompt
  | numberedField
  | unknownField
  | unknownAttribute
  /-- A prompt asks for an item of what has none, or has none under such a key. -/
  | unknownItem
  | itemOutOfRange
  /-- A prompt lays out what has no layout. -/
  | noLayout
  /-- A prompt asks for a character with a code that none has. -/
  | noCharacter
  | promptTooWide
  /-- The console can neither be read nor written. -/
  | noConsole
  /-- A rule, or writing a tree, went deeper than is allowed. -/
  | stackExhausted
  deriving DecidableEq

/-- What the user is told about a fault. -/
structure Report where
  origin : Origin
  code : Code
  detail : String
  deriving DecidableEq

def Report.message (report : Report) : String :=
  report.origin.name ++ ": " ++ report.code.text ++ ": " ++ report.detail

namespace Fault

def expectation (expected : Option String) (rest : String) : String :=
  match expected with
  | some what => "Expect " ++ what ++ ", " ++ rest
  | none => rest

def report? : Fault → Option Report
  | badToken code place => some ⟨.scanning, code, "at " ++ place.describe⟩
  | unexpectedEnd expected place =>
    some ⟨.reading, .unexpectedEnd, expectation expected ("at " ++ place.describe)⟩
  | unexpectedToken none found => some ⟨.reading, .unexpectedToken, found.describe⟩
  | unexpectedToken (some expected) found =>
    some ⟨.reading, .unexpectedToken,
      expectation (some expected) ("but " ++ found.describe ++ " was given")⟩
  | textTooDeep place => some ⟨.reading, .nestingTooDeep, "at " ++ place.describe⟩
  | divisionByZero dividend place =>
    some ⟨.running, .divisionByZero,
      Number.printed dividend ++ " / 0 at " ++ Location.describeOption place⟩
  | unknownComparison operator =>
    some ⟨.running, .unknownOperator, "Unknown comparison: " ++ operator⟩
  | unknownOperator operator => some ⟨.running, .unknownOperator, operator⟩
  | unexpectedNode written => some ⟨.running, .unexpectedNode, written⟩
  | programTooDeep =>
    some ⟨.running, .nestingTooDeep, "expression or statement nesting exceeds the stack"⟩
  | invalidInput name line =>
    some ⟨.input, .invalidInput,
      name ++ " requires a number, but " ++ Text.quoteOption line ++ " was given"⟩
  | _ => none

/-- The fault of finding a token where it cannot stand. -/
def ofToken (expected : Option String) (found : Token) : Fault :=
  match Code.ofKind? found.kind with
  | some code => badToken code found.start
  | none =>
    if found.kind = .endOfInput then unexpectedEnd expected found.start
    else unexpectedToken expected found

theorem ofToken_ne_stackExhausted (expected : Option String) (found : Token) :
    ofToken expected found ≠ .stackExhausted := by
  unfold ofToken
  split
  · exact nofun
  · split <;> exact nofun

end Fault

end LoopLang
