import LoopLang.Data
import LoopLang.Syntax.Node

/-!
# Outlines of trees

The outline of a tree is a data value that holds its classes and fields, but not where
the nodes were read. Linked lists of statements become plain lists. Nothing else is lost.
-/
namespace LoopLang.Node

/-- A record whose first field names the class of a node. -/
def classRecord (name : String) (fields : List (String × Data)) : Data :=
  .record (("type", .text name) :: fields)

mutual

def outlined : Node → Data
  | absent => .null
  | text content => .text content
  | emptyList => .list []
  | item head rest => .list (head.outlined :: rest.outlinedRest)
  | program body _ => classRecord "Program" [("statements", body.outlined)]
  | sequence first rest _ =>
    classRecord "StatementList" [("statements", .list (first.outlined :: rest.outlinedRest))]
  | branch test consequent alternate _ =>
    classRecord "IfStatement" [("test", test.outlined), ("consequent", consequent.outlined),
      ("alternate", alternate.outlined)]
  | otherwise body _ => classRecord "ElsePart" [("body", body.outlined)]
  | loop label body _ =>
    classRecord "LoopStatement" [("label", label.outlined), ("body", body.outlined)]
  | exit target _ => classRecord "BreakStatement" [("target", target.outlined)]
  | assign name value _ =>
    classRecord "AssignStatement" [("name", name.outlined), ("value", value.outlined)]
  | read names _ => classRecord "ReadStatement" [("names", names.outlined)]
  | print names _ => classRecord "PrintStatement" [("names", names.outlined)]
  | chain level first tail _ =>
    classRecord level.chainName [(level.operandName, first.outlined), ("tail", tail.outlined)]
  | link level operator operand tail _ =>
    classRecord level.linkName [("operator", operator.outlined),
      (level.operandName, operand.outlined), ("tail", tail.outlined)]
  | comparison left operator right _ =>
    classRecord "BoolFactor" [("left", left.outlined), ("operator", operator.outlined),
      ("right", right.outlined)]
  | negation operand _ => classRecord "UnaryFactor" [("argument", operand.outlined)]
  | parenthesized inner _ => classRecord "ParenthesizedFactor" [("expression", inner.outlined)]
  | number value _ =>
    classRecord "Literal" [("value", match value with | some x => .number x | none => .null)]
  | identifier name _ => classRecord "Identifier" [("name", name.outlined)]

/-- The outlines of the elements of a list after its first. -/
def outlinedRest : Node → List Data
  | item head rest => head.outlined :: rest.outlinedRest
  | sequence first rest _ => first.outlined :: rest.outlinedRest
  | _ => []

end

/-- The outline of a tree, or what stands in its way, with room for so many levels. -/
def outline (levels : Nat) (node : Node) : Except Fault Data :=
  match node.obstacle? false levels with
  | some fault => .error fault
  | none => .ok node.outlined

end LoopLang.Node
