import LoopLang.Syntax.Writing

/-!
# Evaluation

Sums and products are evaluated from left to right, conditions only as far as they are
undecided. A node that cannot be evaluated is a fault, and so is a tail whose parts do not
fit; what stands before it has been evaluated by then. A number node without a number has
no value, which is a fault only where one is needed. The evaluator follows nested nodes to
a depth that is passed down, and chains to any length.
-/
namespace LoopLang

def needed : Option Float → Except Fault Float
  | some value => .ok value
  | none => .error .missingValue

def inOrder (compare : Float → Float → Bool) (left right : Option Float) : Except Fault Bool := do
  return compare (← needed left) (← needed right)

/-- The comparison that a relation stands for. Only an order needs values to compare. -/
def relation? : String → Option (Option Float → Option Float → Except Fault Bool)
  | ">" => some (inOrder fun left right => left > right)
  | ">=" => some (inOrder fun left right => left ≥ right)
  | "<" => some (inOrder fun left right => left < right)
  | "<=" => some (inOrder fun left right => left ≤ right)
  | "=" => some fun left right => .ok (left == right)
  | "<>" => some fun left right => .ok (left != right)
  | _ => none

/-- Divides by a value that must not be zero; `place` is where the division stands. -/
def divide (place : Option Location) (dividend divisor : Option Float) : Except Fault Float :=
  if divisor == some 0 then
    match dividend with
    | some value => .error (.divisionByZero value place)
    | none => .error .missingPart
  else do return (← needed dividend) / (← needed divisor)

namespace Node

/-- Adds and subtracts the operands of a tail, after the value of what stands before it. -/
def addTail (eval : Node → Except Fault (Option Float)) (value : Option Float) :
    Node → Except Fault (Option Float)
  | absent => .ok value
  | link level operator operand tail _ =>
    match operator with
    | text "+" =>
      if level.hasTerms then do
        let right ← eval operand
        addTail eval (some ((← needed value) + (← needed right))) tail
      else .error .missingPart
    | text "-" =>
      if level.hasTerms then do
        let right ← eval operand
        addTail eval (some ((← needed value) - (← needed right))) tail
      else .error .missingPart
    | _ => .error (operator.told .unknownOperator)
  | comparison _ (text "+") _ _ | comparison _ (text "-") _ _ => .error .missingPart
  | comparison _ operator _ _ => .error (operator.told .unknownOperator)
  | _ => .error .missingPart

/-- Multiplies and divides by the operands of a tail. -/
def multiplyTail (eval : Node → Except Fault (Option Float)) (value : Option Float) :
    Node → Except Fault (Option Float)
  | absent => .ok value
  | link level operator operand tail span =>
    if level.hasTerms then .error .missingPart
    else do
      let right ← eval operand
      match operator with
      | text "*" => multiplyTail eval (some ((← needed value) * (← needed right))) tail
      | text "/" =>
        let quotient ← divide (span.map (·.start)) value right
        multiplyTail eval (some quotient) tail
      | _ => .error (operator.told .unknownOperator)
  | chain level first _ _ =>
    if level.hasTerms then .error .missingPart
    else do
      let _ ← eval first
      .error .missingPart
  | _ => .error .missingPart

/-- The value of the variable that a value names. A list names nothing, and a node names a
variable of its own that was never written. -/
def lookUp (look : Option String → Float) : Node → Except Fault Float
  | text name => .ok (look (some name))
  | absent => .ok (look none)
  | emptyList | item .. => .error .missingValue
  | _ => .ok 0

/-- The value of an arithmetic node, where `look` gives the values of the variables. -/
def evalNumber (look : Option String → Float) : Nat → Node → Except Fault (Option Float)
  | 0, _ => .error .stackExhausted
  | depth + 1, node =>
    match node with
    | chain .sum first tail _ => do
      addTail (evalNumber look depth) (← evalNumber look depth first) tail
    | chain .product first tail _ => do
      multiplyTail (evalNumber look depth) (← evalNumber look depth first) tail
    | negation operand _ => do return some (-(← needed (← evalNumber look depth operand)))
    | parenthesized inner _ => evalNumber look depth inner
    | number value _ => .ok value
    | identifier name _ => do return some (← lookUp look name)
    | other => .error other.misplaced

/-- Whether an operand of a disjunction's tail holds; those after it are not evaluated. -/
def anyTail (eval : Node → Except Fault Bool) : Node → Except Fault Bool
  | absent => .ok false
  | link level _ operand tail _ =>
    if level.hasTerms then do if ← eval operand then return true else anyTail eval tail
    else .error .missingPart
  | chain level first tail _ =>
    if level.hasTerms then do if ← eval first then return true else anyTail eval tail
    else .error .missingPart
  | _ => .error .missingPart

def allTail (eval : Node → Except Fault Bool) : Node → Except Fault Bool
  | absent => .ok true
  | link level _ operand tail _ =>
    if level.hasTerms then .error .missingPart
    else do if ← eval operand then allTail eval tail else return false
  | chain level first tail _ =>
    if level.hasTerms then .error .missingPart
    else do if ← eval first then allTail eval tail else return false
  | _ => .error .missingPart

def evalCondition (look : Option String → Float) : Nat → Node → Except Fault Bool
  | 0, _ => .error .stackExhausted
  | depth + 1, node =>
    match node with
    | chain .disjunction first tail _ => do
      if ← evalCondition look depth first then return true
      else anyTail (evalCondition look depth) tail
    | chain .conjunction first tail _ => do
      if ← evalCondition look depth first then allTail (evalCondition look depth) tail
      else return false
    | comparison left operator right _ => do
      let value ← evalNumber look depth left
      match operator with
      | absent => return value != some 0
      | emptyList | item .. => .error .missingValue
      | text relation =>
        match relation? relation with
        | some compare => compare value (← evalNumber look depth right)
        | none => .error (.unknownComparison relation)
      | other => .error (other.told .unknownComparison)
    | other => .error other.misplaced

end Node

end LoopLang
