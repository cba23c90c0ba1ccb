import LoopLang.Machine.Evaluation
import LoopLang.Proofs.Derivation

/-!
# How deep evaluation goes

With more depth an evaluation comes to the same, unless it ran out of depth before. A tree
that nests within a bound needs three levels for each nesting state at most, and a few more
for the levels of operators around a factor, so it can be evaluated with a depth that is
known beforehand.
-/
namespace LoopLang

/-- A result that says more than that the depth was used up. -/
def Deep {α : Type} (result : Except Fault α) : Prop :=
  result ≠ .error .stackExhausted

/-- A second result that is the same as the first, unless that used up its depth. -/
def Refines {α : Type} (result result' : Except Fault α) : Prop :=
  Deep result → result' = result

theorem Deep.ok {α : Type} (a : α) : Deep (.ok a) := by
  rintro ⟨⟩

theorem Deep.error {α : Type} {fault : Fault} (other : fault ≠ .stackExhausted) :
    Deep (.error fault : Except Fault α) :=
  fun same => other (Except.error.inj same)

theorem Deep.bind {α β : Type} {result : Except Fault α} {next : α → Except Fault β}
    (first : Deep result) (rest : ∀ a, Deep (next a)) : Deep (result >>= next) := by
  cases result with
  | ok a => exact rest a
  | error fault =>
    rintro ⟨⟩
    exact first rfl

namespace Refines

variable {α β : Type} {result result' : Except Fault α} {next next' : α → Except Fault β}

theorem refl (result : Except Fault α) : Refines result result :=
  fun _ => rfl

theorem bind (first : Refines result result') (rest : ∀ a, Refines (next a) (next' a)) :
    Refines (result >>= next) (result' >>= next') := by
  intro deep
  cases result with
  | ok a =>
    rw [first nofun]
    exact rest a deep
  | error fault =>
    have deep' : Deep (.error fault : Except Fault α) := by
      rintro ⟨⟩
      exact deep rfl
    rw [first deep']
    rfl

end Refines

namespace Node

variable {look : Option String → Float}

section Tails

variable {eval eval' : Node → Except Fault (Option Float)} {holds holds' : Node → Except Fault Bool}

theorem addTail_refines (refines : ∀ node, Refines (eval node) (eval' node)) (tail : Node)
    (value : Option Float) : Refines (addTail eval value tail) (addTail eval' value tail) := by
  fun_induction addTail eval value tail with
  | case2 value level operand tail span terms ih =>
    simp only [addTail, terms, if_true]
    exact (refines operand).bind fun right =>
      .bind (.refl _) fun a => .bind (.refl _) fun b => ih a b
  | case4 value level operand tail span terms ih =>
    simp only [addTail, terms, if_true]
    exact (refines operand).bind fun right =>
      .bind (.refl _) fun a => .bind (.refl _) fun b => ih a b
  | _ =>
    simp only [addTail, *]
    exact .refl _

theorem multiplyTail_refines (refines : ∀ node, Refines (eval node) (eval' node)) (tail : Node)
    (value : Option Float) :
    Refines (multiplyTail eval value tail) (multiplyTail eval' value tail) := by
  fun_induction multiplyTail eval value tail with
  | case3 value level operator operand tail span terms ih ih' =>
    simp only [multiplyTail, terms]
    refine (refines operand).bind fun right => ?_
    split
    · exact .bind (.refl _) fun a => .bind (.refl _) fun b => ih a b
    · exact .bind (.refl _) fun quotient => ih' quotient
    · exact .refl _
  | case5 value level first tail span terms =>
    simp only [multiplyTail, terms]
    exact (refines first).bind fun _ => .refl _
  | _ =>
    simp only [multiplyTail, *]
    exact .refl _

theorem anyTail_refines (refines : ∀ node, Refines (holds node) (holds' node)) (tail : Node) :
    Refines (anyTail holds tail) (anyTail holds' tail) := by
  fun_induction anyTail holds tail with
  | case2 _ _ operand _ _ terms ih | case4 _ operand _ _ terms ih =>
    simp only [anyTail, terms, if_true]
    refine (refines operand).bind fun first => ?_
    split
    · exact .refl _
    · exact ih
  | _ =>
    simp only [anyTail, *]
    exact .refl _

theorem allTail_refines (refines : ∀ node, Refines (holds node) (holds' node)) (tail : Node) :
    Refines (allTail holds tail) (allTail holds' tail) := by
  fun_induction allTail holds tail with
  | case3 _ _ operand _ _ terms ih | case5 _ operand _ _ terms ih =>
    simp only [allTail, terms]
    refine (refines operand).bind fun first => ?_
    split
    · exact ih
    · exact .refl _
  | _ =>
    simp only [allTail, *]
    exact .refl _

end Tails

/-- More depth changes no number that was found. -/
theorem evalNumber_refines (look : Option String → Float) (depth more : Nat) (node : Node) :
    Refines (evalNumber look depth node) (evalNumber look (depth + more) node) := by
  induction depth generalizing node with
  | zero => exact fun deep => absurd rfl deep
  | succ depth ih =>
    rw [Nat.add_right_comm]
    simp only [evalNumber]
    split
    · exact .bind (ih _) fun value => addTail_refines ih _ value
    · exact .bind (ih _) fun value => multiplyTail_refines ih _ value
    · exact .bind (ih _) fun value => .refl _
    · exact ih _
    · exact .refl _
    · exact .refl _
    · exact .refl _

theorem evalCondition_refines (look : Option String → Float) (depth more : Nat) (node : Node) :
    Refines (evalCondition look depth node) (evalCondition look (depth + more) node) := by
  induction depth generalizing node with
  | zero => exact fun deep => absurd rfl deep
  | succ depth ih =>
    rw [Nat.add_right_comm]
    simp only [evalCondition]
    split
    · refine .bind (ih _) fun holds => ?_
      split
      · exact .refl _
      · exact anyTail_refines ih _
    · refine .bind (ih _) fun holds => ?_
      split
      · exact allTail_refines ih _
      · exact .refl _
    · refine .bind (evalNumber_refines look depth more _) fun value => ?_
      split
      · exact .refl _
      · exact .refl _
      · exact .refl _
      · split
        · exact .bind (evalNumber_refines look depth more _) fun _ => .refl _
        · exact .refl _
      · exact .refl _
    · exact .refl _

theorem evalNumber_unique {depth depth' : Nat} {node : Node}
    (deep : Deep (evalNumber look depth node)) (deep' : Deep (evalNumber look depth' node)) :
    evalNumber look depth node = evalNumber look depth' node := by
  rw [← evalNumber_refines look depth depth' node deep, Nat.add_comm,
    evalNumber_refines look depth' depth node deep']

theorem evalCondition_unique {depth depth' : Nat} {node : Node}
    (deep : Deep (evalCondition look depth node)) (deep' : Deep (evalCondition look depth' node)) :
    evalCondition look depth node = evalCondition look depth' node := by
  rw [← evalCondition_refines look depth depth' node deep, Nat.add_comm,
    evalCondition_refines look depth' depth node deep']

end Node

/-- The levels that a tree of a category takes with so many nesting states. -/
def Category.levels (room : Nat) : Category → Nat
  | names => 0
  | factor | tail .product => 3 * room
  | chain .product | tail .sum => 3 * room + 1
  | chain .sum => 3 * room + 2
  | comparison | tail .conjunction | statement => 3 * room + 3
  | chain .conjunction | tail .disjunction | statements => 3 * room + 4
  | chain .disjunction | otherwise | program => 3 * room + 5

theorem Category.exists_less {category : Category} {room depth : Nat}
    (enough : category.levels room ≤ depth) (some_ : 0 < category.levels room) :
    ∃ less, depth = less + 1 :=
  Nat.exists_eq_add_one.mpr (Nat.lt_of_lt_of_le some_ enough)

/-- The depth suffices to evaluate a tree of the category. -/
def Suffices (look : Option String → Float) (depth : Nat) (node : Node) : Category → Prop
  | .factor | .chain .sum | .chain .product => Deep (node.evalNumber look depth)
  | .tail .sum => ∀ value, Deep (Node.addTail (Node.evalNumber look depth) value node)
  | .tail .product => ∀ value, Deep (Node.multiplyTail (Node.evalNumber look depth) value node)
  | .comparison | .chain .conjunction | .chain .disjunction =>
    Deep (node.evalCondition look depth)
  | .tail .conjunction => Deep (Node.allTail (Node.evalCondition look depth) node)
  | .tail .disjunction => Deep (Node.anyTail (Node.evalCondition look depth) node)
  | _ => True

theorem deep_needed (value : Option Float) : Deep (needed value) := by
  cases value with
  | none => exact .error (by decide)
  | some value => exact .ok value

theorem deep_divide (place : Option Location) (dividend divisor : Option Float) :
    Deep (divide place dividend divisor) := by
  unfold divide
  split
  · split <;> exact .error (by simp)
  · exact (deep_needed _).bind fun a => (deep_needed _).bind fun b => .ok _

theorem deep_relation {text : String}
    {compare : Option Float → Option Float → Except Fault Bool}
    (known : relation? text = some compare) (left right : Option Float) :
    Deep (compare left right) := by
  have ordered : ∀ order, Deep (inOrder order left right) := fun order =>
    (deep_needed left).bind fun a => (deep_needed right).bind fun b => .ok _
  unfold relation? at known
  split at known <;> cases known
  · exact ordered _
  · exact ordered _
  · exact ordered _
  · exact ordered _
  · exact .ok _
  · exact .ok _

theorem Derives.suffices {look : Option String → Float} {room : Nat} {category : Category}
    {own : List Token} {node : Node} (derived : Derives counted room category own node)
    {depth : Nat} (enough : category.levels room ≤ depth) : Suffices look depth node category := by
  induction derived generalizing depth with
  | @chain room level u v first rest _ _ ih ih' =>
    obtain ⟨depth, rfl⟩ := Category.exists_less enough (by cases level <;> simp [Category.levels])
    have less : (Category.operand level).levels room ≤ depth ∧
        (Category.tail level).levels room ≤ depth := by
      cases level <;> simp only [Category.levels, Category.operand] at enough ⊢ <;> omega
    have head := ih less.1
    have links := ih' less.2
    cases level with
    | disjunction =>
      refine head.bind fun holds => ?_
      split
      · exact .ok _
      · exact links
    | conjunction =>
      refine head.bind fun holds => ?_
      split
      · exact links
      · exact .ok _
    | sum => exact head.bind fun value => links value
    | product => exact head.bind fun value => links value
  | @noTail _ level =>
    cases level with
    | disjunction | conjunction => exact .ok _
    | sum | product => exact fun value => .ok _
  | @link room level u v operand rest operator joins _ _ ih ih' =>
    have less : (Category.operand level).levels room ≤ depth := by
      cases level <;> exact enough
    have head := ih less
    have links := ih' enough
    cases level with
    | disjunction =>
      refine head.bind fun holds => ?_
      split
      · exact .ok _
      · exact links
    | conjunction =>
      refine head.bind fun holds => ?_
      split
      · exact links
      · exact .ok _
    | sum =>
      intro value
      unfold Node.addTail
      split
      · exact head.bind fun right => (deep_needed _).bind fun a => (deep_needed _).bind fun b =>
          links _
      · exact head.bind fun right => (deep_needed _).bind fun a => (deep_needed _).bind fun b =>
          links _
      · exact .error (by rintro ⟨⟩)
    | product =>
      intro value
      refine head.bind fun right => ?_
      split
      · exact (deep_needed _).bind fun a => (deep_needed _).bind fun b => links _
      · exact (deep_divide _ _ _).bind fun quotient => links _
      · exact .error (by rintro ⟨⟩)
  | single _ ih =>
    obtain ⟨depth, rfl⟩ := Category.exists_less enough (by simp [Category.levels])
    exact (ih (Nat.le_of_succ_le_succ enough)).bind fun value => .ok _
  | @relation _ _ _ _ _ operator _ _ _ ih ih' =>
    obtain ⟨depth, rfl⟩ := Category.exists_less enough (by simp [Category.levels])
    have less := Nat.le_of_succ_le_succ enough
    refine (ih less).bind fun value => ?_
    cases known : relation? operator.text with
    | none =>
      simp only [known]
      exact .error (by simp)
    | some compare =>
      simp only [known]
      exact (ih' less).bind fun other => deep_relation known value other
  | negation nest _ _ ih =>
    cases nest
    obtain ⟨depth, rfl⟩ := Category.exists_less enough (by simp [Category.levels])
    refine (ih ?_).bind fun value => (deep_needed _).bind fun _ => .ok _
    simp only [Category.levels] at enough ⊢
    omega
  | parenthesized nest _ _ _ ih =>
    cases nest
    obtain ⟨depth, rfl⟩ := Category.exists_less enough (by simp [Category.levels])
    refine ih ?_
    simp only [Category.levels] at enough ⊢
    omega
  | number nest =>
    cases nest
    obtain ⟨depth, rfl⟩ := Category.exists_less enough (by simp [Category.levels])
    exact .ok _
  | name nest =>
    cases nest
    obtain ⟨depth, rfl⟩ := Category.exists_less enough (by simp [Category.levels])
    exact .ok _
  | _ => trivial

end LoopLang
