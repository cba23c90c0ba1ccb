import LoopLang.Syntax.Node

/-!
# Written trees

A tree is written back in the language itself, in one line. A tree that was put together
by hand is written too, with a word for each missing part, unless it nests too deeply, a
list of statements goes on with something else, or a name is no text. Where a text is
asked for, a text stands for itself; elsewhere it is quoted.
-/
namespace LoopLang.Node

/-- A value within a line, where `written` is how it is written alone. -/
def inLine (value : Node) (written : String) : String :=
  match value with
  | text content => content
  | _ => written

/-- A part that may be missing, where `written` is how it is written. -/
def ifPresent (part : Node) (written : String) : String :=
  match part with
  | absent => ""
  | _ => written

def commaSeparated (names : Node) : String :=
  ", ".intercalate (names.names.map fun name => name.inLine "")

mutual

def written : Node → String
  | absent => "None"
  | text content => Text.quote content
  | emptyList => "[]"
  | item head rest => "[" ++ head.written ++ rest.writtenItems ++ "]"
  | program body _ => body.written ++ " ."
  | sequence first rest _ => first.written ++ rest.ifPresent ("; " ++ rest.written)
  | branch test consequent alternate _ =>
    "IF " ++ test.written ++ " THEN " ++ consequent.written ++ " " ++ alternate.written
  | otherwise absent _ => "FI"
  | otherwise body _ => "ELSE " ++ body.written ++ " FI"
  | loop label body _ =>
    "LOOP " ++ label.inLine label.written ++ ": " ++ body.written ++ " REPEAT"
  | exit target _ =>
    if target.isGiven then "BREAK " ++ target.inLine target.written else "BREAK"
  | assign name value _ => name.inLine name.written ++ " := " ++ value.written
  | read names _ => "READ " ++ commaSeparated names
  | print names _ => "PRINT " ++ commaSeparated names
  | chain _ first tail _ => first.written ++ tail.ifPresent tail.written
  | link _ operator operand tail _ =>
    " " ++ operator.inLine operator.written ++ " " ++ operand.written ++
      tail.ifPresent tail.written
  | comparison left absent _ _ => left.written
  | comparison left operator right _ =>
    left.written ++ " " ++ operator.inLine operator.written ++ " " ++ right.written
  | negation operand _ => "-" ++ operand.written
  | parenthesized inner _ => "(" ++ inner.written ++ ")"
  | number none _ => "None"
  | number (some value) _ => Number.write Number.standard value
  | identifier name _ => name.inLine name.written

def writtenItems : Node → String
  | item head rest => ", " ++ head.written ++ rest.writtenItems
  | _ => ""

end

/-- The written tree, or what stands in its way, with room for so many levels. -/
def write (levels : Nat) (node : Node) : Except Fault String :=
  match node.obstacle? true levels with
  | some fault => .error fault
  | none => .ok node.written

def shown (value : Node) : String :=
  value.inLine value.written

/-- A shown value, or what stands in its way. -/
def display (value : Node) : Except Fault String :=
  match value with
  | text content => .ok content
  | other => other.write levelLimit

/-- A fault that shows a value. -/
def told (value : Node) (fault : String → Fault) : Fault :=
  match value.display with
  | .ok line => fault line
  | .error obstacle => obstacle

/-- How one node may be told where another was needed. -/
def misplaced (node : Node) : Fault :=
  match node.write levelLimit with
  | .ok line => .unexpectedNode line
  | .error fault => fault

end LoopLang.Node
