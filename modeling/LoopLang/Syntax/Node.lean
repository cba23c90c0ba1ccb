import LoopLang.Fault

/-!
# Program trees

One type holds every tree: programs, statements, conditions and arithmetic, and also the
texts and lists for names, labels and operators. The four levels of operators share one
shape. A chain has a first operand and a tail of links, each an operator with its operand,
so that a long chain is read from left to right; a list of statements is linked in the
same way. The reader builds well-formed trees only, but a tree may be put together by hand
in any way, with any value for any part.
-/
namespace LoopLang

/-- Where a node was read, from its first token to the end of its last. -/
structure Span where
  start : Location
  stop : Location
  deriving DecidableEq

/-- The levels of operators, from the loosest to the tightest. -/
inductive Level where
  | disjunction | conjunction | sum | product
  deriving DecidableEq

inductive Node where
  | absent
  | text (content : String)
  | emptyList
  | item (head rest : Node)
  | program (body : Node) (span : Option Span)
  /-- A statement and the statements after it. -/
  | sequence (first rest : Node) (span : Option Span)
  | branch (test consequent alternate : Node) (span : Option Span)
  /-- The end of a branch, with or without statements for the failing test. -/
  | otherwise (body : Node) (span : Option Span)
  | loop (label body : Node) (span : Option Span)
  /-- Leaves the loop with the target as its label, or the nearest one without a target; an
  empty target is none. -/
  | exit (target : Node) (span : Option Span)
  | assign (name value : Node) (span : Option Span)
  | read (names : Node) (span : Option Span)
  | print (names : Node) (span : Option Span)
  | chain (level : Level) (first tail : Node) (span : Option Span)
  | link (level : Level) (operator operand tail : Node) (span : Option Span)
  /-- Two sums and a relation, or one sum that is tested against zero. -/
  | comparison (left operator right : Node) (span : Option Span)
  | negation (operand : Node) (span : Option Span)
  | parenthesized (inner : Node) (span : Option Span)
  | number (value : Option Float) (span : Option Span)
  | identifier (name : Node) (span : Option Span)
  deriving DecidableEq, Inhabited

namespace Level

def chainName : Level → String
  | disjunction => "BoolExpression"
  | conjunction => "BoolTerm"
  | sum => "ArithExpression"
  | product => "ArithTerm"

def linkName : Level → String
  | disjunction => "BoolTermTail"
  | conjunction => "BoolFactorTail"
  | sum => "ArithTermTail"
  | product => "ArithFactorTail"

/-- Whether the operands of a level are called terms; otherwise they are called factors. -/
def hasTerms : Level → Bool
  | disjunction | sum => true
  | conjunction | product => false

def operandName (level : Level) : String :=
  if level.hasTerms then "term" else "factor"

/-- The kinds of token that join the operands of a level. -/
def joins : Level → Kind → Bool
  | disjunction, kind => kind == .orWord
  | conjunction, kind => kind == .andWord
  | sum, kind => kind.isAdditive
  | product, kind => kind.isMultiplicative

/-- The operator of a link that is made without one. -/
def defaultOperator : Level → Node
  | disjunction => .text "OR"
  | conjunction => .text "AND"
  | sum | product => .absent

end Level

namespace Node

/-- The name of the node's class in outlines; values that are no nodes have none. -/
def className? : Node → Option String
  | absent | text _ | emptyList | item .. => none
  | program .. => some "Program"
  | sequence .. => some "StatementList"
  | branch .. => some "IfStatement"
  | otherwise .. => some "ElsePart"
  | loop .. => some "LoopStatement"
  | exit .. => some "BreakStatement"
  | assign .. => some "AssignStatement"
  | read .. => some "ReadStatement"
  | print .. => some "PrintStatement"
  | chain level .. => some level.chainName
  | link level .. => some level.linkName
  | comparison .. => some "BoolFactor"
  | negation .. => some "UnaryFactor"
  | parenthesized .. => some "ParenthesizedFactor"
  | number .. => some "Literal"
  | identifier .. => some "Identifier"

def span? : Node → Option Span
  | absent | text _ | emptyList | item .. => none
  | program _ span | sequence _ _ span | branch _ _ _ span | otherwise _ span | loop _ _ span
  | exit _ span | assign _ _ span | read _ span | print _ span | chain _ _ _ span
  | link _ _ _ _ span | comparison _ _ _ span | negation _ span | parenthesized _ span
  | number _ span | identifier _ span => span

/-- The parts of a node in the order of its fields, without names, labels and operators. -/
def children : Node → List Node
  | absent | text _ | emptyList | exit .. | read .. | print .. | number .. | identifier .. => []
  | program body _ | otherwise body _ | loop _ body _ => [body]
  | item head rest => [head, rest]
  | sequence first rest _ => [first, rest]
  | branch test consequent alternate _ => [test, consequent, alternate]
  | assign _ value _ => [value]
  | chain _ first tail _ => [first, tail]
  | link _ _ operand tail _ => [operand, tail]
  | comparison left _ right _ => [left, right]
  | negation operand _ => [operand]
  | parenthesized inner _ => [inner]

/-- The class and span of every node with a class, each before the nodes inside it. -/
def spans (node : Node) : List (String × Option Span) :=
  let own := (node.className?.map fun name => (name, node.span?)).toList
  match node with
  | absent | text _ | emptyList | exit .. | read .. | print .. | number .. | identifier .. => own
  | program body _ | otherwise body _ | loop _ body _ => own ++ body.spans
  | item head rest => head.spans ++ rest.spans
  | sequence first rest _ => own ++ first.spans ++ rest.spans
  | branch test consequent alternate _ =>
    own ++ test.spans ++ consequent.spans ++ alternate.spans
  | assign _ value _ => own ++ value.spans
  | chain _ first tail _ => own ++ first.spans ++ tail.spans
  | link _ _ operand tail _ => own ++ operand.spans ++ tail.spans
  | comparison left _ right _ => own ++ left.spans ++ right.spans
  | negation operand _ => own ++ operand.spans
  | parenthesized inner _ => own ++ inner.spans

def elements : Node → List Node
  | item head rest => head :: rest.elements
  | _ => []

def ofItems : List Node → Node
  | [] => emptyList
  | head :: rest => item head (ofItems rest)

def linked : Node → List Node
  | sequence first rest _ => first :: rest.linked
  | _ => []

/-- What is wrong where a linked list goes on or ends. -/
def linkFault? : Node → Option Fault
  | absent => none
  | sequence _ rest _ => rest.linkFault?
  | _ => some .missingPart

/-- The names that a value holds: the characters of a text, the elements of a list, or the
statements of a linked list. -/
def names : Node → List Node
  | text content => content.toList.map fun c => text (.singleton c)
  | item head rest => head :: rest.elements
  | sequence first rest _ => first :: rest.linked
  | _ => []

/-- What is wrong with a value for names after the names that it holds. -/
def namesFault? : Node → Option Fault
  | text _ | emptyList | item .. => none
  | sequence _ rest _ => rest.linkFault?
  | _ => some .missingValue

def isText : Node → Bool
  | text _ => true
  | _ => false

/-- Whether a value says anything; an empty text and an empty list do not. -/
def isGiven : Node → Bool
  | absent | emptyList => false
  | text content => !content.isEmpty
  | _ => true

/-- The variable that a value names. -/
def named : Node → Except Fault (Option String)
  | text name => .ok (some name)
  | absent => .ok none
  | _ => .error .missingValue

/-- Whether two values are the same. A node is the same as no other. -/
def sameValue : Node → Node → Bool
  | absent, absent | emptyList, emptyList => true
  | text left, text right => left == right
  | item head rest, item head' rest' => head.sameValue head' && rest.sameValue rest'
  | _, _ => false

/-- What first stands in the way of writing a tree out, going through it in order with room
for so many levels: it is nested too deeply, a list of statements goes on with something
else, or, where `inLanguage` asks for a text in the language, a name is no text. Such a
text leaves out the second sum of a comparison without a relation, and a target that says
nothing. Lists take no more room for being long. -/
def obstacle? (inLanguage : Bool) : Nat → Node → Option Fault
  | _, absent | _, text _ | _, emptyList | _, number .. => none
  | 0, _ => some .stackExhausted
  | room + 1, node =>
    match node with
    | absent | text _ | emptyList | number .. => none
    | read names _ | print names _ =>
      if inLanguage then
        names.namesFault? <|> if names.names.all isText then none else some .missingValue
      else names.obstacle? inLanguage room
    | identifier name _ =>
      if inLanguage && !name.isText then some .missingValue else name.obstacle? inLanguage room
    | item head rest => head.obstacle? inLanguage room <|> rest.obstacle? inLanguage (room + 1)
    | sequence first rest _ =>
      first.obstacle? inLanguage room <|>
        match rest with
        | absent => none
        | sequence .. => rest.obstacle? inLanguage (room + 1)
        | _ => some .missingPart
    | program body _ | otherwise body _ => body.obstacle? inLanguage room
    | branch test consequent alternate _ =>
      test.obstacle? inLanguage room <|> consequent.obstacle? inLanguage room <|>
        alternate.obstacle? inLanguage room
    | loop label body _ => label.obstacle? inLanguage room <|> body.obstacle? inLanguage room
    | exit target _ =>
      if inLanguage && !target.isGiven then none else target.obstacle? inLanguage room
    | assign name value _ => name.obstacle? inLanguage room <|> value.obstacle? inLanguage room
    | chain _ first tail _ =>
      first.obstacle? inLanguage room <|> tail.obstacle? inLanguage room
    | link _ operator operand tail _ =>
      operator.obstacle? inLanguage room <|> operand.obstacle? inLanguage room <|>
        tail.obstacle? inLanguage room
    | comparison left operator right _ =>
      left.obstacle? inLanguage room <|>
        if inLanguage && operator == absent then none
        else operator.obstacle? inLanguage room <|> right.obstacle? inLanguage room
    | negation operand _ => operand.obstacle? inLanguage room
    | parenthesized inner _ => inner.obstacle? inLanguage room

/-- How many levels a node may have to be written out where it is in the way of a run. -/
def levelLimit : Nat := 950

def statementCount : Node → Nat
  | sequence _ rest _ => rest.statementCount + 1
  | _ => 0

/-- Links statements into a list, each node with the span that `place` gives it. -/
def ofStatements (place : Node → Option Span) : List Node → Node
  | [] => absent
  | first :: rest => sequence first (ofStatements place rest) (place first)

end Node

end LoopLang
