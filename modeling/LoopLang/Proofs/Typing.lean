import LoopLang.Machine.Evaluation
import LoopLang.Proofs.Fixed
import LoopLang.Proofs.Flattening

/-!
# The shape of trees that were read

The reader builds trees of one shape only: no part is missing, every operator is one of
its level, a comparison has a second sum exactly if it has a relation, and numbers are
there and have no sign. Such a tree comes to a value or a decision wherever it is
evaluated, unless it divides by zero or goes too deep.
-/
namespace LoopLang

def Level.operators : Level → List String
  | disjunction => ["OR"]
  | conjunction => ["AND"]
  | sum => ["+", "-"]
  | product => ["*", "/"]

/-- The operators that compare two sums. -/
def relationTexts : List String :=
  ["<>", ">=", "<=", ">", "=", "<"]

/-- The trees of a category. -/
inductive Typed : Category → Node → Prop where
  | program {body span} (statements : Typed .statements body) : Typed .program (.program body span)
  | last {first span} (only : Typed .statement first) :
      Typed .statements (.sequence first .absent span)
  | next {first rest span} (head : Typed .statement first) (others : Typed .statements rest) :
      Typed .statements (.sequence first rest span)
  | branch {test body rest span} (condition : Typed (.chain .disjunction) test)
      (consequent : Typed .statements body) (alternate : Typed .otherwise rest) :
      Typed .statement (.branch test body rest span)
  | fi {span} : Typed .otherwise (.otherwise .absent span)
  | otherwise {body span} (statements : Typed .statements body) :
      Typed .otherwise (.otherwise body span)
  | loop {label body span} (statements : Typed .statements body) :
      Typed .statement (.loop (.text label) body span)
  | exit {label span} : Typed .statement (.exit (.text label) span)
  | read {names span} (list : Typed .names names) : Typed .statement (.read names span)
  | print {names span} (list : Typed .names names) : Typed .statement (.print names span)
  | assign {name value span} (sum : Typed (.chain .sum) value) :
      Typed .statement (.assign (.text name) value span)
  | oneName {name} : Typed .names (.item (.text name) .emptyList)
  | moreNames {name rest} (list : Typed .names rest) : Typed .names (.item (.text name) rest)
  | chain {level first rest span} (head : Typed (.operand level) first)
      (links : Typed (.tail level) rest) : Typed (.chain level) (.chain level first rest span)
  | noTail {level} : Typed (.tail level) .absent
  | link {level operator operand rest span} (joins : operator ∈ level.operators)
      (head : Typed (.operand level) operand) (links : Typed (.tail level) rest) :
      Typed (.tail level) (.link level (.text operator) operand rest span)
  | single {value span} (sum : Typed (.chain .sum) value) :
      Typed .comparison (.comparison value .absent .absent span)
  | relation {left relation right span} (relates : relation ∈ relationTexts)
      (leftSum : Typed (.chain .sum) left) (rightSum : Typed (.chain .sum) right) :
      Typed .comparison (.comparison left (.text relation) right span)
  | negation {operand span} (factor : Typed .factor operand) :
      Typed .factor (.negation operand span)
  | parenthesized {value span} (sum : Typed (.chain .sum) value) :
      Typed .factor (.parenthesized value span)
  | number {value span} (isNumber : value.isNaN = false) (unsigned : 0 ≤ value) :
      Typed .factor (.number (some value) span)
  | name {name span} : Typed .factor (.identifier (.text name) span)

section Reading

variable {lexeme : Lexeme}

theorem Lexeme.Proper.text_mem_operators (proper : lexeme.Proper) {level : Level}
    (joins : level.joins lexeme.kind = true) : lexeme.text ∈ level.operators := by
  obtain ⟨-, -, chars, spelled⟩ := Kind.operator_spelling (.inl ⟨level, joins⟩)
  rw [proper.text_eq spelled]
  generalize lexeme.kind = kind at joins spelled
  cases level <;> cases kind <;> first
    | cases joins; done
    | cases spelled; decide

theorem Lexeme.Proper.text_mem_relationTexts (proper : lexeme.Proper)
    (relates : lexeme.kind.isRelation = true) : lexeme.text ∈ relationTexts := by
  obtain ⟨-, -, chars, spelled⟩ := Kind.operator_spelling (.inr relates)
  rw [proper.text_eq spelled]
  generalize lexeme.kind = kind at relates spelled
  cases kind <;> first
    | cases relates; done
    | cases spelled; decide

theorem Derives.typed {ρ : Type} {inside : ρ → ρ → Prop} {room : ρ} {category : Category}
    {own : List Token} {node : Node} (derived : Derives inside room category own node)
    (proper : ∀ token ∈ own, token.Proper) : Typed category node := by
  induction derived with
  | program _ _ ih =>
    simp only [List.forall_mem_append] at proper
    exact .program (ih proper.1)
  | oneStatement _ ih => exact .last (ih proper)
  | moreStatements _ _ _ ih ih' =>
    simp only [List.forall_mem_append, List.forall_mem_cons] at proper
    exact .next (ih proper.1) (ih' proper.2.2)
  | branch _ _ _ _ _ _ ih ih' ih'' =>
    simp only [List.forall_mem_append, List.forall_mem_cons] at proper
    obtain ⟨⟨⟨-, condition⟩, -, consequent⟩, alternate⟩ := proper
    exact .branch (ih condition) (ih' consequent) (ih'' alternate)
  | fi => exact .fi
  | otherwise _ _ _ ih =>
    simp only [List.forall_mem_append, List.forall_mem_cons] at proper
    exact .otherwise (ih proper.1.2)
  | loop _ _ _ _ _ _ ih =>
    simp only [List.forall_mem_append, List.forall_mem_cons] at proper
    exact .loop (ih proper.1.2.2.2)
  | exit => exact .exit
  | exitTo => exact .exit
  | read _ _ _ ih => exact .read (ih (List.forall_mem_cons.mp proper).2)
  | print _ _ _ ih => exact .print (ih (List.forall_mem_cons.mp proper).2)
  | assign _ _ _ _ ih =>
    simp only [List.forall_mem_cons] at proper
    exact .assign (ih proper.2.2)
  | oneName => exact .oneName
  | moreNames _ _ _ ih =>
    simp only [List.forall_mem_cons] at proper
    exact .moreNames (ih proper.2.2)
  | chain _ _ ih ih' =>
    simp only [List.forall_mem_append] at proper
    exact .chain (ih proper.1) (ih' proper.2)
  | noTail => exact .noTail
  | link joins _ _ ih ih' =>
    simp only [List.forall_mem_append, List.forall_mem_cons] at proper
    exact .link (proper.1.1.text_mem_operators joins) (ih proper.1.2) (ih' proper.2)
  | single _ ih => exact .single (ih proper)
  | relation relates _ _ ih ih' =>
    simp only [List.forall_mem_append, List.forall_mem_cons] at proper
    exact .relation (proper.2.1.text_mem_relationTexts relates) (ih proper.1) (ih' proper.2.2)
  | negation _ _ _ ih => exact .negation (ih (List.forall_mem_cons.mp proper).2)
  | parenthesized _ _ _ _ ih =>
    simp only [List.forall_mem_append, List.forall_mem_cons] at proper
    exact .parenthesized (ih proper.1.2)
  | @number _ _ token _ isNumber =>
    obtain ⟨digits, exponent, read⟩ := (proper token (by simp)).readable isNumber
    rw [read]
    exact .number (Number.isNaN_ofDecimal digits exponent) (Number.ofDecimal_nonneg digits exponent)
  | name => exact .name

end Reading

/-- The faults of expressions that were read. -/
inductive Fault.OfExpression : Fault → Prop where
  | divisionByZero {dividend place} : OfExpression (.divisionByZero dividend place)
  | stackExhausted : OfExpression .stackExhausted

/-- The faults of trees that were read. -/
inductive Fault.Expected : Fault → Prop where
  | expression {fault} (evaluated : OfExpression fault) : Expected fault
  | invalidInput {name line} : Expected (.invalidInput name line)
  | unreadableNumber : Expected .unreadableNumber

/-- A result that is as it should be, or a fault that can be expected. -/
def Safe {α : Type} (faults : Fault → Prop) (holds : α → Prop) : Except Fault α → Prop
  | .ok a => holds a
  | .error fault => faults fault

theorem Safe.mono {α : Type} {faults faults' : Fault → Prop} {holds : α → Prop}
    {result : Except Fault α} (safe : Safe faults holds result)
    (weaker : ∀ fault, faults fault → faults' fault) : Safe faults' holds result := by
  cases result with
  | ok a => exact safe
  | error fault => exact weaker fault safe

section Evaluation

variable {α β : Type} {faults : Fault → Prop} {holds : α → Prop} {holds' : β → Prop}

theorem Safe.bind {result : Except Fault α} {next : α → Except Fault β}
    (first : Safe faults holds result) (rest : ∀ a, holds a → Safe faults holds' (next a)) :
    Safe faults holds' (result >>= next) := by
  cases result with
  | ok a => exact rest a first
  | error fault => exact first

abbrev Judged (result : Except Fault Bool) : Prop :=
  Safe Fault.OfExpression (fun _ => True) result

abbrev Valued (result : Except Fault (Option Float)) : Prop :=
  Safe Fault.OfExpression (fun value => ∃ number, value = some number) result

theorem valued_some (value : Float) : Valued (.ok (some value)) :=
  ⟨value, rfl⟩

theorem Valued.bind {result : Except Fault (Option Float)} {next : Option Float → Except Fault β}
    (first : Valued result) (rest : ∀ x, Safe Fault.OfExpression holds' (next (some x))) :
    Safe Fault.OfExpression holds' (result >>= next) := by
  apply Safe.bind first
  rintro value ⟨x, rfl⟩
  exact rest x

section Depths

variable {look : Option String → Float} {node : Node}

theorem valued_of_succ (each : ∀ depth, Valued (node.evalNumber look (depth + 1))) (depth : Nat) :
    Valued (node.evalNumber look depth) := by
  cases depth with
  | zero => exact .stackExhausted
  | succ depth => exact each depth

theorem judged_of_succ (each : ∀ depth, Judged (node.evalCondition look (depth + 1)))
    (depth : Nat) : Judged (node.evalCondition look depth) := by
  cases depth with
  | zero => exact .stackExhausted
  | succ depth => exact each depth

end Depths

theorem divide_eq_ok {place : Option Location} {dividend divisor : Option Float} {quotient : Float}
    (divides : divide place dividend divisor = .ok quotient) :
    ∃ x y, dividend = some x ∧ divisor = some y ∧ (y == 0) = false ∧ quotient = x / y := by
  unfold divide at divides
  split at divides
  · split at divides <;> cases divides
  · rename_i notZero
    cases dividend with
    | none => cases divides
    | some x =>
      cases divisor with
      | none => cases divides
      | some y =>
        cases divides
        exact ⟨x, y, rfl, rfl, Bool.eq_false_iff.mpr notZero, rfl⟩

theorem safe_divide (place : Option Location) (x y : Float) :
    Safe Fault.OfExpression (fun _ => True) (divide place (some x) (some y)) := by
  unfold divide
  split
  · exact .divisionByZero
  · trivial

theorem judged_relation {relation : String} (relates : relation ∈ relationTexts) :
    ∃ compare, relation? relation = some compare ∧
      ∀ x y, Judged (compare (some x) (some y)) := by
  simp only [relationTexts, List.mem_cons, List.not_mem_nil, or_false] at relates
  rcases relates with rfl | rfl | rfl | rfl | rfl | rfl <;>
    exact ⟨_, rfl, fun _ _ => trivial⟩

namespace Typed

/-- What a tree of a category comes to, however deep it may go. -/
def Evaluates (look : Option String → Float) (node : Node) : Category → Prop
  | .factor | .chain .sum | .chain .product => ∀ depth, Valued (node.evalNumber look depth)
  | .tail .sum => ∀ depth x, Valued (Node.addTail (Node.evalNumber look depth) (some x) node)
  | .tail .product =>
    ∀ depth x, Valued (Node.multiplyTail (Node.evalNumber look depth) (some x) node)
  | .comparison | .chain .conjunction | .chain .disjunction =>
    ∀ depth, Judged (node.evalCondition look depth)
  | .tail .conjunction => ∀ depth, Judged (Node.allTail (Node.evalCondition look depth) node)
  | .tail .disjunction => ∀ depth, Judged (Node.anyTail (Node.evalCondition look depth) node)
  | _ => True

variable {look : Option String → Float} {level : Level} {first operand rest : Node}
  {operator : String} {span : Option Span}

theorem evaluates_chain (head : Evaluates look first (.operand level))
    (links : Evaluates look rest (.tail level)) :
    Evaluates look (.chain level first rest span) (.chain level) := by
  cases level with
  | disjunction =>
    refine judged_of_succ fun depth => (head depth).bind fun decision _ => ?_
    split
    · trivial
    · exact links depth
  | conjunction =>
    refine judged_of_succ fun depth => (head depth).bind fun decision _ => ?_
    split
    · exact links depth
    · trivial
  | sum | product => exact valued_of_succ fun depth => (head depth).bind fun x => links depth x

theorem evaluates_link (joins : operator ∈ level.operators)
    (head : Evaluates look operand (.operand level)) (links : Evaluates look rest (.tail level)) :
    Evaluates look (.link level (.text operator) operand rest span) (.tail level) := by
  cases level with
  | disjunction =>
    intro depth
    refine (head depth).bind fun decision _ => ?_
    split
    · trivial
    · exact links depth
  | conjunction =>
    intro depth
    refine (head depth).bind fun decision _ => ?_
    split
    · exact links depth
    · trivial
  | sum =>
    intro depth x
    simp only [Level.operators, List.mem_cons, List.not_mem_nil, or_false] at joins
    rcases joins with rfl | rfl
    · exact (head depth).bind fun y => links depth (x + y)
    · exact (head depth).bind fun y => links depth (x - y)
  | product =>
    intro depth x
    simp only [Level.operators, List.mem_cons, List.not_mem_nil, or_false] at joins
    refine (head depth).bind fun y => ?_
    rcases joins with rfl | rfl
    · exact links depth (x * y)
    · exact (safe_divide _ x y).bind fun quotient _ => links depth quotient

/-- Every part of an expression comes to what is needed from it. -/
theorem evaluates {category : Category} {node : Node} (typed : Typed category node) :
    Evaluates look node category := by
  -- A tail is evaluated from the value of what stands before it, so its statement is for every
  -- such value; statements and lists of names are not evaluated.
  induction typed with
  | chain _ _ ih ih' => exact evaluates_chain ih ih'
  | @noTail level =>
    cases level with
    | disjunction | conjunction => exact fun _ => trivial
    | sum | product => exact fun _ => valued_some
  | link joins _ _ ih ih' => exact evaluates_link joins ih ih'
  | single _ ih => exact judged_of_succ fun depth => (ih depth).bind fun _ => trivial
  | relation relates _ _ ih ih' =>
    obtain ⟨compare, known, compares⟩ := judged_relation relates
    refine judged_of_succ fun depth => (ih depth).bind fun x => ?_
    simp only [known]
    exact (ih' depth).bind fun y => compares x y
  | negation _ ih => exact valued_of_succ fun depth => (ih depth).bind fun x => valued_some (-x)
  | parenthesized _ ih => exact valued_of_succ ih
  | @number value => exact valued_of_succ fun depth => valued_some value
  | @name name => exact valued_of_succ fun depth => valued_some (look (some name))
  | _ => trivial

end Typed

end Evaluation

end LoopLang
