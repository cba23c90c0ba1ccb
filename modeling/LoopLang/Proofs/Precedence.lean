import LoopLang.Proofs.Refinement
import LoopLang.Proofs.RoundTrip

/-!
# Precedence

Arithmetic as a tree of operations, written with no more parentheses than it needs: a
minus sign binds tightest, then products, then sums, and operators of one rank are taken
from left to right. Read again, the operators of one rank stand in one chain, whose links
are taken in order; so a chain comes to what the operations come to, and an assignment of
the written text keeps that value, or fails where something is divided by zero.
-/
namespace LoopLang

/-- A text that is scanned as one token of a kind. -/
structure Scanned (kind : Kind) where
  chars : List Char
  scanned : Lexeme.first chars = ⟨kind, chars⟩

namespace Scanned

def text {kind : Kind} (scanned : Scanned kind) : String :=
  .ofList scanned.chars

def value (literal : Scanned .number) : Float :=
  (Number.read? literal.chars).getD 0

theorem proper {kind : Kind} (scanned : Scanned kind) : Lexeme.Proper ⟨kind, scanned.chars⟩ := by
  rw [← scanned.scanned]
  exact Lexeme.proper_first scanned.chars

theorem read (literal : Scanned .number) : Number.read? literal.chars = some literal.value := by
  obtain ⟨digits, exponent, read⟩ := literal.proper.readable rfl
  rw [value, read]
  rfl

end Scanned

inductive Operator where
  | plus | minus | star | slash

namespace Operator

def kind : Operator → Kind
  | plus => .plus
  | minus => .minus
  | star => .star
  | slash => .slash

def sign : Operator → Char
  | plus => '+'
  | minus => '-'
  | star => '*'
  | slash => '/'

def level : Operator → Level
  | plus | minus => .sum
  | star | slash => .product

/-- How tight an operator binds. -/
def rank : Operator → Nat
  | plus | minus => 0
  | star | slash => 1

/-- What an operator makes of two numbers; if it divides by a zero, the number that would be
divided. -/
def apply : Operator → Float → Float → Except Float Float
  | plus, x, y => .ok (x + y)
  | minus, x, y => .ok (x - y)
  | star, x, y => .ok (x * y)
  | slash, x, y => if y == 0 then .error x else .ok (x / y)

theorem spelling (operator : Operator) : operator.kind.spelling? = some [operator.sign] := by
  cases operator <;> rfl

theorem joins (operator : Operator) : operator.level.joins operator.kind = true := by
  cases operator <;> rfl

end Operator

/-- Arithmetic over literals and variables. -/
inductive Expr where
  | number (literal : Scanned .number)
  | name (word : Scanned .identifier)
  | negate (operand : Expr)
  | binary (operator : Operator) (left right : Expr)

namespace Expr

/-- The value of an expression from left to right, or the first number that is to be divided
by zero. -/
def eval (look : String → Float) : Expr → Except Float Float
  | number literal => .ok literal.value
  | name word => .ok (look word.text)
  | negate operand => do return -(← operand.eval look)
  | binary operator left right => do operator.apply (← left.eval look) (← right.eval look)

/-- An expression where operators of a least rank may stand; an operator of a lower rank
stands in parentheses. -/
def written (least : Nat) : Expr → List Char
  | number literal => literal.chars
  | name word => word.chars
  | negate operand => '-' :: operand.written 2
  | binary operator left right =>
    let inside := left.written operator.rank ++ ' ' :: operator.sign :: ' ' ::
      right.written (operator.rank + 1)
    if operator.rank < least then '(' :: inside ++ [')'] else inside

def symbols (least : Nat) : Expr → List Symbol
  | number literal => [.number (some literal.value)]
  | name word => [.name word.text]
  | negate operand => .word .minus :: operand.symbols 2
  | binary operator left right =>
    let inside := left.symbols operator.rank ++ .word operator.kind ::
      right.symbols (operator.rank + 1)
    if operator.rank < least then .word .opening :: inside ++ [.word .closing] else inside

/-- How many minus signs and parentheses stand around a literal or a variable at most. -/
def nesting (least : Nat) : Expr → Nat
  | number _ | name _ => 0
  | negate operand => operand.nesting 2 + 1
  | binary operator left right =>
    let inside := max (left.nesting operator.rank) (right.nesting (operator.rank + 1))
    if operator.rank < least then inside + 1 else inside

/-- An assignment of the written expression. -/
def assignment (expr : Expr) (target : Scanned .identifier) : String :=
  target.text ++ " := " ++ .ofList (expr.written 0) ++ " ."

end Expr

section Cutting

open Lexeme

variable {rest : List Char} {symbols : List Symbol}

theorem Cuts.between (operator : Operator) (cuts : Cuts rest symbols) :
    Cuts (operator.sign :: ' ' :: rest) (.word operator.kind :: symbols) :=
  .spelled operator.spelling (first_word operator.spelling (loose_blank rest)) (.blank cuts)

/-- A written expression is cut into its symbols, whatever separates it from what follows. -/
theorem Expr.cuts (expr : Expr) (least : Nat) (loose : Loose rest) (cuts : Cuts rest symbols) :
    Cuts (expr.written least ++ rest) (expr.symbols least ++ symbols) := by
  induction expr generalizing least rest symbols with
  | number literal =>
    have taken := (isNumber_of_first literal.scanned).first loose
    have cut := Cuts.word taken rfl rfl cuts
    rw [symbol_of_number rfl, literal.read] at cut
    exact cut
  | name word => exact .name (word.proper.named rfl) loose cuts
  | negate operand ih =>
    have minus : Kind.minus.spelling? = some ['-'] := rfl
    have cut := Cuts.spelled minus (first_prefix_sign minus (by decide) _) (ih 2 loose cuts)
    exact cut
  | binary operator left right ih ih' =>
    -- The operands and the operator without parentheses, before anything that separates.
    have inside {rest : List Char} {symbols : List Symbol} (loose : Loose rest)
        (cuts : Cuts rest symbols) :
        Cuts (left.written operator.rank ++ ' ' :: operator.sign :: ' ' ::
            right.written (operator.rank + 1) ++ rest)
          (left.symbols operator.rank ++ .word operator.kind ::
            right.symbols (operator.rank + 1) ++ symbols) := by
      have second := ih' (operator.rank + 1) loose cuts
      have first := ih operator.rank (loose_blank _) (.blank (.between operator second))
      simpa using first
    rw [written, Expr.symbols]
    split
    · have opening : Kind.opening.spelling? = some ['('] := rfl
      have closing : Kind.closing.spelling? = some [')'] := rfl
      have closed := Cuts.spelled closing (first_word closing loose) cuts
      have opened := inside (loose_cons (by decide) rest) closed
      have cut := Cuts.spelled opening (first_prefix_sign opening (by decide) _) opened
      simpa using cut
    · exact inside loose cuts

theorem Expr.cuts_assignment (expr : Expr) (target : Scanned .identifier) :
    Cuts (expr.assignment target).toList
      (.name target.text :: .word .assign :: (expr.symbols 0 ++ [.word .point])) := by
  have point : Kind.point.spelling? = some ['.'] := rfl
  have assign : Kind.assign.spelling? = some [':', '='] := rfl
  have ends := Cuts.spelled point (first_word point loose_nil) .done
  have value := expr.cuts 0 (loose_blank _) (.blank ends)
  have assigned := Cuts.spelled assign (first_word assign (loose_blank _)) (.blank value)
  have whole := Cuts.name (target.proper.named rfl) (loose_blank _) (.blank assigned)
  simpa [assignment, Scanned.text] using whole

end Cutting

/-- An evaluation comes to a value, or to the fault of a division by zero, as it should. -/
def Agrees : Except Float Float → Except Fault (Option Float) → Prop
  | .ok value, result => result = .ok (some value)
  | .error dividend, result => ∃ place, result = .error (.divisionByZero dividend place)

theorem Agrees.bind {value : Except Float Float} {result : Except Fault (Option Float)}
    {then_ : Float → Except Float Float} {next : Option Float → Except Fault (Option Float)}
    (agrees : Agrees value result) (rest : ∀ x, Agrees (then_ x) (next (some x))) :
    Agrees (value >>= then_) (result >>= next) := by
  cases value with
  | ok x =>
    cases agrees
    exact rest x
  | error dividend =>
    obtain ⟨place, rfl⟩ := agrees
    exact ⟨place, rfl⟩

/-- A tail with a link, or with a tail, after its last link. -/
def Node.extended : Node → Node → Node
  | absent, last => last
  | link level operator operand tail span, last =>
    link level operator operand (tail.extended last) span
  | other, _ => other

section Tails

variable {eval : Node → Except Fault (Option Float)} {value : Option Float} {tail last : Node}

/-- What stands at the end of a tail is taken after everything before it. -/
theorem Node.addTail_extended : addTail eval value (tail.extended last) =
    addTail eval value tail >>= fun value => addTail eval value last := by
  fun_induction addTail eval value tail with
  | case1 => rfl
  | case2 _ _ _ _ _ terms ih | case4 _ _ _ _ _ terms ih =>
    simp only [extended, addTail, terms, if_true, bind_assoc, ih]
  | _ =>
    simp only [extended, addTail, *]
    rfl

theorem Node.multiplyTail_extended : multiplyTail eval value (tail.extended last) =
    multiplyTail eval value tail >>= fun value => multiplyTail eval value last := by
  fun_induction multiplyTail eval value tail with
  | case1 => rfl
  | case3 _ _ operator operand _ _ terms ih ih' =>
    simp only [extended, multiplyTail, terms, Bool.false_eq_true, if_false, bind_assoc]
    congr 1
    funext right
    split
    · simp only [bind_assoc, ih]
    · simp only [bind_assoc, ih']
    · rfl
  | case5 _ _ _ _ _ terms =>
    simp only [extended, multiplyTail, terms, Bool.false_eq_true, if_false, bind_assoc]
    rfl
  | _ =>
    simp only [extended, multiplyTail, *]
    rfl

end Tails

theorem Derives.extended {ρ : Type} {inside : ρ → ρ → Prop} {room : ρ} {level : Level}
    {own others : List Token} {tail last : Node}
    (derived : Derives inside room (.tail level) own tail)
    (more : Derives inside room (.tail level) others last) :
    Derives inside room (.tail level) (own ++ others) (tail.extended last) := by
  generalize is : Category.tail level = category at derived
  induction derived with
  | noTail =>
    cases is
    exact more
  | link joins head _ _ ih =>
    cases is
    rw [List.append_assoc]
    exact .link joins head (ih more rfl)
  | _ => cases is

namespace Operator

/-- The tail of a chain of the operator's level. -/
def tail (operator : Operator) (eval : Node → Except Fault (Option Float))
    (value : Option Float) (node : Node) : Except Fault (Option Float) :=
  match operator.level with
  | .product => node.multiplyTail eval value
  | _ => node.addTail eval value

variable {operator : Operator} {eval : Node → Except Fault (Option Float)} {value : Option Float}
  {look : Option String → Float} {depth : Nat} {first operand rest last : Node}
  {span : Option Span}

theorem evalNumber_chain :
    (Node.chain operator.level first rest span).evalNumber look (depth + 1) =
      first.evalNumber look depth >>= fun value =>
        operator.tail (Node.evalNumber look depth) value rest := by
  cases operator <;> rfl

theorem tail_absent : operator.tail eval value .absent = .ok value := by
  cases operator <;> rfl

theorem tail_extended : operator.tail eval value (rest.extended last) =
    operator.tail eval value rest >>= fun value => operator.tail eval value last := by
  cases operator with
  | plus | minus => exact Node.addTail_extended
  | star | slash => exact Node.multiplyTail_extended

theorem agrees_link {right : Except Float Float} (agrees : Agrees right (eval operand))
    (x : Float) :
    Agrees (right >>= operator.apply x) (operator.tail eval (some x)
      (.link operator.level (.text (.ofList [operator.sign])) operand .absent span)) := by
  cases operator with
  | plus | minus | star => exact agrees.bind fun y => rfl
  | slash =>
    refine agrees.bind fun y => ?_
    change Agrees (if y == 0 then .error x else .ok (x / y))
      (divide (span.map (·.start)) (some x) (some y) >>= fun quotient => .ok (some quotient))
    by_cases zero : (y == 0) = true
    · have isZero : (some y == some (0 : Float)) = true := zero
      rw [if_pos zero, divide, if_pos isZero]
      exact ⟨_, rfl⟩
    · have notZero : ¬ (some y == some (0 : Float)) = true := zero
      rw [if_neg zero, divide, if_neg notZero]
      rfl

end Operator

def Category.ofRank : Nat → Category
  | 0 => chain .sum
  | 1 => chain .product
  | _ => factor

/-- Some tokens are derived as arithmetic that comes to a value. -/
structure Denotes (room : Nat) (category : Category) (own : List Token) (node : Node)
    (value : (String → Float) → Except Float Float) : Prop where
  derived : Derives counted room category own node
  agrees : ∀ look : Option String → Float, ∀ depth, category.levels room ≤ depth →
    Agrees (value fun name => look (some name)) (node.evalNumber look depth)

namespace Denotes

variable {room inner least : Nat} {category : Category} {own own' : List Token} {node node' : Node}
  {operator : Operator} {token : Token} {value value' : (String → Float) → Except Float Float}

theorem ofRank (operator : Operator) : Category.ofRank operator.rank = .chain operator.level ∧
    Category.ofRank (operator.rank + 1) = .operand operator.level := by
  cases operator <;> exact ⟨rfl, rfl⟩

theorem levels_chain (operator : Operator) (room : Nat) :
    (Category.chain operator.level).levels room =
      (Category.operand operator.level).levels room + 1 := by
  cases operator <;> rfl

theorem chain (operator : Operator)
    (operand : Denotes room (.operand operator.level) own node value) :
    Denotes room (.chain operator.level) own
      (.chain operator.level node .absent (Span.covering own)) value where
  derived := by simpa using Derives.chain operand.derived .noTail
  agrees look depth enough := by
    rw [levels_chain] at enough
    obtain ⟨depth, rfl⟩ := Nat.exists_eq_add_one.mpr (Nat.lt_of_lt_of_le (Nat.succ_pos _) enough)
    have head := operand.agrees look depth (Nat.le_of_succ_le_succ enough)
    have alone : (node.evalNumber look depth >>= fun value => .ok value) =
        node.evalNumber look depth := bind_pure _
    simpa only [Operator.evalNumber_chain, Operator.tail_absent, alone] using head

theorem link (left : Denotes room (.chain operator.level) own node value)
    (right : Denotes room (.operand operator.level) own' node' value')
    (isOperator : token.kind = operator.kind) (proper : token.Proper) :
    ∃ whole, Denotes room (.chain operator.level) (own ++ token :: own') whole
      fun look => value look >>= fun x => value' look >>= operator.apply x := by
  have joins : operator.level.joins token.kind = true := by
    rw [isOperator]
    exact operator.joins
  have text : token.text = .ofList [operator.sign] := by
    apply proper.text_eq
    rw [isOperator]
    exact operator.spelling
  obtain ⟨derived, agrees⟩ := left
  cases derived with
  | chain head links =>
    have last := Derives.link joins right.derived .noTail
    rw [List.append_nil] at last
    have whole := Derives.chain head (links.extended last)
    rw [← List.append_assoc] at whole
    refine ⟨_, whole, fun look depth enough => ?_⟩
    have before := agrees look depth enough
    rw [levels_chain] at enough
    obtain ⟨depth, rfl⟩ := Nat.exists_eq_add_one.mpr (Nat.lt_of_lt_of_le (Nat.succ_pos _) enough)
    have operand := right.agrees look depth (Nat.le_of_succ_le_succ enough)
    rw [Operator.evalNumber_chain] at before ⊢
    simp only [Operator.tail_extended, ← bind_assoc]
    refine before.bind fun x => ?_
    rw [text]
    exact Operator.agrees_link operand x

theorem lower {rank : Nat} (denotes : Denotes room (.ofRank rank) own node value)
    (least_le : least ≤ rank) : ∃ node', Denotes room (.ofRank least) own node' value := by
  induction rank generalizing node with
  | zero =>
    obtain rfl := Nat.le_zero.mp least_le
    exact ⟨node, denotes⟩
  | succ rank ih =>
    by_cases same : least = rank + 1
    · exact ⟨node, same ▸ denotes⟩
    · have below : least ≤ rank := by omega
      match rank with
      | 0 => exact ih (chain .plus denotes) below
      | 1 => exact ih (chain .star denotes) below
      | _ + 2 => exact ih denotes below

theorem number (literal : Scanned .number) (isNumber : token.kind = .number)
    (read : Number.read? token.chars = some literal.value) :
    Denotes (inner + 1) .factor [token] (.number (some literal.value) (Span.covering [token]))
      fun _ => .ok literal.value where
  derived := by
    rw [← read]
    exact .number rfl isNumber
  agrees look depth enough := by
    obtain ⟨depth, rfl⟩ := Category.exists_less enough (by simp [Category.levels])
    rfl

theorem name {text : String} (isName : token.kind = .identifier) (same : token.text = text) :
    Denotes (inner + 1) .factor [token] (.identifier (.text token.text) (Span.covering [token]))
      fun look => .ok (look text) where
  derived := .name rfl isName
  agrees look depth enough := by
    obtain ⟨depth, rfl⟩ := Category.exists_less enough (by simp [Category.levels])
    rw [← same]
    rfl

theorem negate (operand : Denotes inner .factor own node value) (isMinus : token.kind = .minus) :
    Denotes (inner + 1) .factor (token :: own) (.negation node (Span.covering (token :: own)))
      fun look => do return -(← value look) where
  derived := .negation rfl isMinus operand.derived
  agrees look depth enough := by
    obtain ⟨depth, rfl⟩ := Category.exists_less enough (by simp [Category.levels])
    have inside := operand.agrees look depth (by
      simp only [Category.levels] at enough ⊢
      omega)
    exact inside.bind fun x => rfl

theorem parenthesized {opening closing : Token} (sum : Denotes inner (.chain .sum) own node value)
    (isOpening : opening.kind = .opening) (isClosing : closing.kind = .closing) :
    Denotes (inner + 1) .factor (opening :: own ++ [closing])
      (.parenthesized node (Span.covering (opening :: own ++ [closing]))) value where
  derived := .parenthesized rfl isOpening sum.derived isClosing
  agrees look depth enough := by
    obtain ⟨depth, rfl⟩ := Category.exists_less enough (by simp [Category.levels])
    exact sum.agrees look depth (by
      simp only [Category.levels] at enough ⊢
      omega)

theorem ofFactor (factor : Denotes room .factor own node value) (least : Nat) :
    ∃ node', Denotes room (.ofRank least) own node' value := by
  have top : Denotes room (.ofRank (least + 2)) own node value := factor
  exact top.lower (Nat.le_add_right least 2)

end Denotes

theorem Lexeme.kind_of_symbol {lexeme : Lexeme} {symbol : Symbol} (same : lexeme.symbol = symbol) :
    lexeme.kind = symbol.kind := by
  rw [← same, Lexeme.kind_symbol]

/-- Tokens with the symbols of a written expression come to the value of the expression. -/
theorem Expr.denotes (expr : Expr) {least room : Nat} {own : List Token}
    (bounded : expr.nesting least < room) (symbols : own.map (·.symbol) = expr.symbols least)
    (proper : ∀ token ∈ own, token.Proper) :
    ∃ node, Denotes room (.ofRank least) own node fun look => expr.eval look := by
  obtain ⟨inner, rfl⟩ := Nat.exists_eq_add_one.mpr (Nat.lt_of_le_of_lt (Nat.zero_le _) bounded)
  induction expr generalizing least inner own with
  | number literal =>
    obtain ⟨token, rfl, symbol⟩ := List.map_eq_singleton_iff.mp symbols
    have isNumber := Lexeme.kind_of_symbol symbol
    rw [Lexeme.symbol_of_number isNumber, Symbol.number.injEq] at symbol
    exact (Denotes.number literal isNumber symbol).ofFactor least
  | name word =>
    obtain ⟨token, rfl, symbol⟩ := List.map_eq_singleton_iff.mp symbols
    have isName := Lexeme.kind_of_symbol symbol
    rw [Lexeme.symbol_of_name isName, Symbol.name.injEq] at symbol
    exact (Denotes.name isName symbol).ofFactor least
  | negate operand ih =>
    obtain ⟨token, own, rfl, symbol, symbols⟩ := List.map_eq_cons_iff.mp symbols
    have less : operand.nesting 2 < inner := Nat.lt_of_succ_lt_succ bounded
    obtain ⟨inner, rfl⟩ := Nat.exists_eq_add_one.mpr (Nat.lt_of_le_of_lt (Nat.zero_le _) less)
    obtain ⟨node, denotes⟩ := ih symbols (List.forall_mem_cons.mp proper).2 inner less
    exact (denotes.negate (Lexeme.kind_of_symbol symbol)).ofFactor least
  | binary operator left right ih ih' =>
    obtain ⟨isChain, isOperand⟩ := Denotes.ofRank operator
    -- The operands and the operator without parentheses, with so many levels left.
    have inside {inner : Nat} {own : List Token}
        (bounded : max (left.nesting operator.rank) (right.nesting (operator.rank + 1)) < inner + 1)
        (symbols : own.map (·.symbol) = left.symbols operator.rank ++ .word operator.kind ::
          right.symbols (operator.rank + 1)) (proper : ∀ token ∈ own, token.Proper) :
        ∃ node, Denotes (inner + 1) (.ofRank operator.rank) own node
          fun look => (binary operator left right).eval look := by
      obtain ⟨u, v, rfl, first, rest⟩ := List.map_eq_append_iff.mp symbols
      obtain ⟨token, w, rfl, symbol, second⟩ := List.map_eq_cons_iff.mp rest
      simp only [List.forall_mem_append, List.forall_mem_cons] at proper
      obtain ⟨node, denotes⟩ := ih first proper.1 inner (by omega)
      obtain ⟨node', denotes'⟩ := ih' second proper.2.2 inner (by omega)
      rw [isChain] at denotes ⊢
      rw [isOperand] at denotes'
      exact denotes.link denotes' (Lexeme.kind_of_symbol symbol) proper.2.1
    rw [nesting] at bounded
    rw [Expr.symbols] at symbols
    by_cases low : operator.rank < least
    · rw [if_pos low] at bounded symbols
      obtain ⟨v, last, rfl, front, ends⟩ := List.map_eq_append_iff.mp symbols
      obtain ⟨opening, own, rfl, begins, within⟩ := List.map_eq_cons_iff.mp front
      obtain ⟨closing, rfl, closes⟩ := List.map_eq_singleton_iff.mp ends
      simp only [List.forall_mem_append, List.forall_mem_cons] at proper
      have less := Nat.lt_of_succ_lt_succ bounded
      obtain ⟨inner, rfl⟩ := Nat.exists_eq_add_one.mpr (Nat.lt_of_le_of_lt (Nat.zero_le _) less)
      obtain ⟨node, denotes⟩ := inside less within proper.1.2
      obtain ⟨node, sum⟩ := denotes.lower (Nat.zero_le _)
      exact (sum.parenthesized (Lexeme.kind_of_symbol begins)
        (Lexeme.kind_of_symbol closes)).ofFactor least
    · rw [if_neg low] at bounded symbols
      obtain ⟨node, denotes⟩ := inside bounded symbols proper
      exact denotes.lower (Nat.le_of_not_lt low)

theorem Reading.program_of_assignment (limits : Limits) (tracing : Bool) (expr : Expr)
    (target : Scanned .identifier) (bounded : expr.nesting 0 + 2 ≤ limits.depth tracing) :
    ∃ node program reader own span span' span'',
      Denotes (limits.depth tracing - 1) (.chain .sum) own node (fun look => expr.eval look) ∧
      program = .program (.sequence (.assign (.text target.text) node span) .absent span') span'' ∧
      Reading.program limits (.ofSource tracing (.ofText false (expr.assignment target))) =
        .ok program reader := by
  have symbols := Source.symbols_of_cuts (expr.cuts_assignment target)
  have proper : ∀ token ∈ (Source.ofText false (expr.assignment target)).words, token.Proper :=
    fun token member => Source.proper_of_words member
  obtain ⟨name, front, words, isName, assigns⟩ := List.map_eq_cons_iff.mp symbols
  obtain ⟨sign, rest, rfl, isAssign, sum⟩ := List.map_eq_cons_iff.mp assigns
  obtain ⟨own, last, rfl, value, ends⟩ := List.map_eq_append_iff.mp sum
  obtain ⟨point, rfl, isPoint⟩ := List.map_eq_singleton_iff.mp ends
  simp only [words, List.forall_mem_cons, List.forall_mem_append] at proper
  obtain ⟨node, denotes⟩ := expr.denotes (Nat.lt_sub_of_add_lt bounded) value proper.2.2.1
  have named := Lexeme.kind_of_symbol isName
  rw [Lexeme.symbol_of_name named, Symbol.name.injEq] at isName
  have nest : counted (limits.depth tracing) (limits.depth tracing - 1) := by
    unfold counted
    omega
  have assigned : Derives counted (limits.depth tracing) .statement (name :: sign :: own) _ :=
    .assign nest named (Lexeme.kind_of_symbol isAssign) denotes.derived
  have derived := Derives.program (.oneStatement assigned) (Lexeme.kind_of_symbol isPoint)
  rw [isName, List.cons_append, List.cons_append, ← words] at derived
  obtain ⟨reader, parsed⟩ := program_of_derives tracing List.prefix_rfl derived
  exact ⟨_, _, _, _, _, _, _, denotes, rfl, parsed⟩

namespace Machine

section Assignment

variable {name : String} {value : Node} {span span' span'' : Option Span} {world : World}

theorem execute_assignment (running : world.state.signal = .running) (steps depth : Nat) :
    execute steps (depth + 3)
        (.program (.sequence (.assign (.text name) value span) .absent span') span'') world =
      match value.evalNumber world.state.store.get depth >>= needed with
      | .ok number => .ok () { world with state := world.state.assign (some name) number }
      | .error fault => .error (.fault fault) world := by
  have at_ := at_of_running running
  have assigns : execute steps (depth + 1) (.assign (.text name) value span) world = _ :=
    execute_assign at_
  rw [execute_program at_]
  cases result : value.evalNumber world.state.store.get depth >>= needed with
  | error fault =>
    rw [result] at assigns
    have listed : execute steps (depth + 2)
        (.sequence (.assign (.text name) value span) .absent span') world = _ :=
      (execute_sequence at_).trans (bind_error assigns)
    exact bind_error listed
  | ok number =>
    rw [result] at assigns
    have listed : execute steps (depth + 2)
        (.sequence (.assign (.text name) value span) .absent span') world =
          .ok () { world with state := world.state.assign (some name) number } := by
      rw [execute_sequence at_, runList, bind_ok assigns, signal_bind]
      change (if world.state.signal.isBreaking then pure ()
        else runList (execute steps (depth + 1)) .absent : Machine Unit) _ = _
      rw [running]
      rfl
    rw [bind_ok listed, tellUnmatched, signal_bind]
    change (if world.state.signal.isBreaking then _ else pure () : Machine Unit) _ = _
    rw [running]
    rfl

end Assignment

/-- An expression within the limits of nesting, written with no more parentheses than it needs,
is read again in an assignment. Run while no break is pending, that keeps the value of the
expression from left to right under the name, and changes nothing else; it fails, and changes
nothing at all, exactly if the expression divides by a zero of either sign. -/
theorem run_written (limits : Limits) (runnable : limits.Runnable) (tracing : Bool) (expr : Expr)
    (target : Scanned .identifier) (bounded : expr.nesting 0 + 2 ≤ limits.depth tracing) :
    ∃ program reader,
      Reading.program limits (.ofSource tracing (.ofText false (expr.assignment target))) =
        .ok program reader ∧
      ∀ (steps : Nat) (world : World), world.state.signal = .running →
        match expr.eval fun name => world.state.store.get (some name) with
        | .ok value => run steps program world =
            .ok () { world with state := world.state.assign (some target.text) value }
        | .error dividend => ∃ place,
            run steps program world = .error (.fault (.divisionByZero dividend place)) world := by
  obtain ⟨node, program, reader, own, span, span', span'', denotes, rfl, parsed⟩ :=
    Reading.program_of_assignment limits tracing expr target bounded
  refine ⟨_, reader, parsed, fun steps world running => ?_⟩
  have enough : (Category.chain .sum).levels (limits.depth tracing - 1) ≤ depthLimit - 3 := by
    have less := limits.depth_le tracing
    simp only [Limits.Runnable, Category.levels] at runnable ⊢
    omega
  have agrees := denotes.agrees world.state.store.get (depthLimit - 3) enough
  have executed : execute steps depthLimit (.program
      (.sequence (.assign (.text target.text) node span) .absent span') span'') world = _ :=
    execute_assignment running steps (depthLimit - 3)
  rw [run, executed]
  cases value : expr.eval fun name => world.state.store.get (some name) with
  | ok number =>
    rw [value] at agrees
    have result : node.evalNumber world.state.store.get (depthLimit - 3) = .ok (some number) :=
      agrees
    rw [result]
    rfl
  | error dividend =>
    rw [value] at agrees
    obtain ⟨place, result⟩ := agrees
    rw [result]
    exact ⟨place, rfl⟩

/-- Two differences and a product with a negated sum, and a quotient by a variable that was
never written. -/
theorem difference_written :
    let eight : Scanned .number := ⟨['8'], rfl⟩
    let name : Scanned .identifier := ⟨['A'], rfl⟩
    let target : Scanned .identifier := ⟨['X'], rfl⟩
    let difference : Expr := .binary .minus
      (.binary .minus (.number eight) (.number ⟨['2'], rfl⟩))
      (.binary .star (.negate (.binary .plus (.name name) (.number ⟨['3'], rfl⟩)))
        (.number ⟨['4'], rfl⟩))
    let quotient : Expr := .binary .slash (.number eight) (.name name)
    let world : World := ⟨.initial, .ofLines [], {}, []⟩
    (difference.nesting 0 + 2 ≤ Limits.standard.depth false ∧
      difference.assignment target = "X := 8 - 2 - -(A + 3) * 4 ." ∧
      ∃ program reader,
        Reading.program .standard (.ofSource false (.ofText false (difference.assignment target))) =
          .ok program reader ∧
        run 0 program world = .ok () { world with state := State.initial.assign (some "X") 18 }) ∧
    quotient.nesting 0 + 2 ≤ Limits.standard.depth false ∧
    ∃ program reader place,
      Reading.program .standard (.ofSource false (.ofText false (quotient.assignment target))) =
        .ok program reader ∧
      run 0 program world = .error (.fault (.divisionByZero 8 place)) world := by
  intro eight name target difference quotient world
  refine ⟨⟨by decide, rfl, ?_⟩, by decide, ?_⟩
  · obtain ⟨program, reader, parsed, runs⟩ := run_written .standard Limits.runnable_standard false
      difference target (by decide)
    have value : difference.eval (fun name => world.state.store.get (some name)) = .ok 18 := by
      decide +kernel
    have ran := runs 0 world rfl
    rw [value] at ran
    exact ⟨program, reader, parsed, ran⟩
  · obtain ⟨program, reader, parsed, runs⟩ := run_written .standard Limits.runnable_standard false
      quotient target (by decide)
    have value : quotient.eval (fun name => world.state.store.get (some name)) = .error 8 := by
      decide +kernel
    have ran := runs 0 world rfl
    rw [value] at ran
    obtain ⟨place, ran⟩ := ran
    exact ⟨program, reader, place, parsed, ran⟩

end Machine

end LoopLang
