import LoopLang.Proofs.Flattening

/-!
# The same in other places

The places of a token, a tree or a fault can be changed throughout and all else kept. Names,
labels, targets and operators are values without places of their own and stay as they are.
What is written of a tree does not change, and of a report only the place that it tells.
-/
namespace LoopLang

variable (move : Location → Location)

def Span.moved (span : Span) : Span :=
  ⟨move span.start, move span.stop⟩

def Token.moved (token : Token) : Token :=
  { token with start := move token.start, stop := move token.stop }

namespace Node

def moved : Node → Node
  | program body span => program body.moved (span.map (Span.moved move))
  | sequence first rest span => sequence first.moved rest.moved (span.map (Span.moved move))
  | branch test consequent alternate span =>
    branch test.moved consequent.moved alternate.moved (span.map (Span.moved move))
  | .otherwise body span => .otherwise body.moved (span.map (Span.moved move))
  | loop label body span => loop label body.moved (span.map (Span.moved move))
  | exit target span => exit target (span.map (Span.moved move))
  | assign name value span => assign name value.moved (span.map (Span.moved move))
  | read names span => read names (span.map (Span.moved move))
  | print names span => print names (span.map (Span.moved move))
  | chain level first tail span => chain level first.moved tail.moved (span.map (Span.moved move))
  | link level operator operand tail span =>
    link level operator operand.moved tail.moved (span.map (Span.moved move))
  | comparison left operator right span =>
    comparison left.moved operator right.moved (span.map (Span.moved move))
  | negation operand span => negation operand.moved (span.map (Span.moved move))
  | parenthesized inner span => parenthesized inner.moved (span.map (Span.moved move))
  | number value span => number value (span.map (Span.moved move))
  | identifier name span => identifier name (span.map (Span.moved move))
  | other => other

theorem moved_id (node : Node) : node.moved id = node := by
  have same : Span.moved id = id := rfl
  induction node <;> simp_all [moved]

theorem bare_moved (node : Node) : (node.moved move).bare = node.bare := by
  induction node <;> simp_all [moved, bare]

theorem span?_moved (node : Node) :
    (node.moved move).span? = node.span?.map (Span.moved move) := by
  cases node <;> rfl

end Node

namespace Fault

def moved : Fault → Fault
  | badToken code place => badToken code (move place)
  | unexpectedEnd expected place => unexpectedEnd expected (move place)
  | unexpectedToken expected found => unexpectedToken expected (found.moved move)
  | textTooDeep place => textTooDeep (move place)
  | divisionByZero dividend place => divisionByZero dividend (place.map move)
  | other => other

theorem moved_id (fault : Fault) : fault.moved id = fault := by
  cases fault <;> simp [moved, Token.moved]

theorem moved_ofToken (expected : Option String) (found : Token) :
    (ofToken expected found).moved move = ofToken expected (found.moved move) := by
  have kind : (found.moved move).kind = found.kind := rfl
  unfold ofToken
  rw [kind]
  split
  · rfl
  · split <;> rfl

end Fault

end LoopLang
