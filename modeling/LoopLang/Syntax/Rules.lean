import LoopLang.Limits
import LoopLang.Syntax.Reader

/-!
# Rules of the grammar

A program is a list of statements before a point; whatever follows the point is ignored.
Statements are separated by semicolons. Conditions join comparisons by AND and OR, and a
comparison relates two sums or is a single one. Sums, products and the two levels of
conditions are chains of operands. Parentheses, minus signs, branches and loops nest, and
each takes one from a depth that is passed down; chains and lists take none.
-/
namespace LoopLang.Reading

/-- A link of a chain: its operator, its operand, and where it ends. -/
structure Joined where
  operator : Token
  operand : Node
  stop : Location

def Joined.attach (level : Level) (joined : Joined) (tail : Node) : Node :=
  .link level (.text joined.operator.text) joined.operand tail
    (some ⟨joined.operator.start, joined.stop⟩)

def joined (operand : Reading Node) : Reading Joined := do
  let operator ← take none
  let node ← operand
  return ⟨operator, node, (← current).stop⟩

def tail (level : Level) (operand : Reading Node) : Reading Node := do
  let links ← many level.joins (joined operand)
  return links.foldr (Joined.attach level) .absent

def chain (level : Level) (operand : Reading Node) : Reading Node := do
  let start := (← peek).start
  let first ← operand
  let tail ← tail level operand
  return .chain level first tail (← spanFrom start)

def atom : Reading Node := do
  let token ← take (some "number or identifier")
  match token.kind with
  | .number =>
    note ("Atom => Const Value: " ++ token.text)
    return .number (Number.read? token.chars) (some ⟨token.start, token.stop⟩)
  | .identifier =>
    note ("Atom => Identifier: " ++ token.text)
    return .identifier (.text token.text) (some ⟨token.start, token.stop⟩)
  | _ => throw (Fault.ofToken (some "number or identifier") token)

def factor : Nat → Reading Node
  | 0 => exhaust (some "number or identifier")
  | depth + 1 => do
    let token ← peek
    match token.kind with
    | .minus =>
      let _ ← take none
      let operand ← factor depth
      return .negation operand (← spanFrom token.start)
    | .opening =>
      let _ ← take none
      let inner ← chain .sum (chain .product (factor depth))
      let _ ← expect .closing
      return .parenthesized inner (← spanFrom token.start)
    | _ => atom

def product (depth : Nat) : Reading Node :=
  chain .product (factor depth)

def sum (depth : Nat) : Reading Node :=
  chain .sum (product depth)

/-- Two sums with a relation between them, or one sum alone. -/
def comparison (depth : Nat) : Reading Node := do
  let start := (← peek).start
  let left ← sum depth
  if (← peek).kind.isRelation then
    let operator ← take none
    let right ← sum depth
    return .comparison left (.text operator.text) right (← spanFrom start)
  else return .comparison left .absent .absent (← spanFrom start)

def conjunction (depth : Nat) : Reading Node :=
  chain .conjunction (comparison depth)

def condition (depth : Nat) : Reading Node :=
  chain .disjunction (conjunction depth)

def names : Reading Node := do
  let first ← expect .identifier
  let rest ← many (· == .comma) do
    let _ ← take none
    return Node.text (← expect .identifier).text
  return .ofItems (.text first.text :: rest)

/-- The target of a break, which is empty if no name follows. -/
def exitTarget : Reading String := do
  if (← peek).kind = .identifier then return (← take none).text else return ""

def assignment (depth : Nat) : Reading Node := do
  let name ← current
  note ("========>(AssignStatement) " ++ name.text ++ " :=")
  let _ ← expect .assign
  let value ← sum depth
  return .assign (.text name.text) value (← spanFrom name.start)

/-- Statements with semicolons between them; each node of the list ends where the list
does. -/
def listOf (one : Reading Node) : Reading Node := do
  let first ← one
  let rest ← many (· == .semicolon) do
    note "Next statement"
    let _ ← take none
    one
  let stop := (← current).stop
  let place (node : Node) : Option Span := node.span?.map fun span => ⟨span.start, stop⟩
  return Node.ofStatements place (first :: rest)

/-- The end of a branch: FI alone, or ELSE with statements and FI after them. -/
def elsePart (statements : Reading Node) : Reading Node := do
  let token ← take (some "FI or ELSE")
  match token.kind with
  | .elseWord =>
    let body ← statements
    let _ ← expect .fiWord
    return .otherwise body (← spanFrom token.start)
  | .fiWord => return .otherwise .absent (← spanFrom token.start)
  | _ => throw (Fault.ofToken (some "FI or ELSE") token)

/-- A branch after its first word, which begins at `start`. -/
def branch (start : Location) (condition statements : Reading Node) : Reading Node := do
  note "========>(IfStatement)"
  let test ← condition
  let _ ← expect .thenWord
  let consequent ← statements
  let alternate ← elsePart statements
  return .branch test consequent alternate (← spanFrom start)

/-- A loop after its first word, which begins at `start`. -/
def loop (start : Location) (statements : Reading Node) : Reading Node := do
  note "========>(LoopStatement)"
  let label ← expect .identifier
  let _ ← expect .colon
  let body ← statements
  let _ ← expect .repeatWord
  return .loop (.text label.text) body (← spanFrom start)

def statement : Nat → Reading Node
  | 0 => exhaust (some "statement")
  | depth + 1 => do
    let token ← take (some "statement")
    match token.kind with
    | .ifWord => branch token.start (condition depth) (listOf (statement depth))
    | .loopWord => loop token.start (listOf (statement depth))
    | .breakWord =>
      let target ← exitTarget
      return .exit (.text target) (← spanFrom token.start)
    | .readWord =>
      let names ← names
      return .read names (← spanFrom token.start)
    | .printWord =>
      let names ← names
      return .print names (← spanFrom token.start)
    | .identifier => assignment depth
    | _ => throw (Fault.ofToken (some "statement") token)

def statements (depth : Nat) : Reading Node :=
  listOf (statement depth)

def skipWhitespace : Reading Unit :=
  modify fun reader => { reader with cursor := reader.cursor.skipWhitespace }

/-- A program from the cursor to its point, if it is not nested deeper than a depth. -/
def programWithin (depth : Nat) : Reading Node := do
  skipWhitespace
  let start := (← peek).start
  let body ← reportDepth (statements depth)
  let _ ← expect .point
  let span ← spanFrom start
  if !(← get).cursor.isDone then
    note ("Ignoring input after the end of program at " ++ (← peek).start.describe)
  return .program body span

def program (limits : Limits) : Reading Node := do
  programWithin (limits.depth (← get).tracing)

end LoopLang.Reading
