import LoopLang.Machine.Store
import LoopLang.Proofs.Levels
import LoopLang.Proofs.Spans
import LoopLang.Proofs.Typing

/-!
# Conditions are decided from left to right

A condition is a list of terms and a term is a list of comparisons. The terms are asked in
order until one holds, and the comparisons of a term until one fails; what is asked after that
makes no difference, whatever it is. So a condition divides by zero exactly if this order gets
to a comparison that does.
-/
namespace LoopLang

section Asking

variable {α β : Type} {onward : Bool} {answer : α → Except Fault Bool} {elements : List α}
  {result : Except Fault Bool}

/-- Asks in order for as long as the answer is the one to go on with. -/
def ask (onward : Bool) (answer : α → Except Fault Bool) : List α → Except Fault Bool
  | [] => .ok onward
  | first :: rest => do
    if (← answer first) = onward then ask onward answer rest else return !onward

/-- The order gets to an element that answers so: all before it answer to go on. -/
def GetsTo (onward : Bool) (answer : α → Except Fault Bool) (result : Except Fault Bool)
    (elements : List α) : Prop :=
  ∃ before element after, elements = before ++ element :: after ∧
    (∀ earlier ∈ before, answer earlier = .ok onward) ∧ answer element = result

theorem not_getsTo_nil : ¬ GetsTo onward answer result [] := by
  rintro ⟨before, element, after, split, -⟩
  exact absurd split.symm (by simp)

theorem getsTo_cons {first : α} {rest : List α} : GetsTo onward answer result (first :: rest) ↔
    answer first = result ∨ answer first = .ok onward ∧ GetsTo onward answer result rest := by
  constructor
  · rintro ⟨before, element, after, split, goesOn, stops⟩
    cases before with
    | nil =>
      obtain ⟨rfl, rfl⟩ := List.cons.inj split
      exact .inl stops
    | cons head before =>
      obtain ⟨rfl, rfl⟩ := List.cons.inj split
      rw [List.forall_mem_cons] at goesOn
      exact .inr ⟨goesOn.1, before, element, after, rfl, goesOn.2, stops⟩
  · rintro (stops | ⟨goesOn, before, element, after, rfl, others, stops⟩)
    · exact ⟨[], first, rest, rfl, nofun, stops⟩
    · exact ⟨first :: before, element, after, rfl, List.forall_mem_cons.mpr ⟨goesOn, others⟩, stops⟩

theorem ask_cons_of_onward {first : α} {rest : List α} (goesOn : answer first = .ok onward) :
    ask onward answer (first :: rest) = ask onward answer rest := by
  rw [ask, goesOn]
  exact if_pos rfl

theorem ask_cons_of_ne {first : α} {rest : List α} (stops : answer first ≠ .ok onward) :
    ask onward answer (first :: rest) = answer first := by
  rw [ask]
  cases result : answer first with
  | error fault => rfl
  | ok holds =>
    rw [result] at stops
    have other : holds ≠ onward := fun same => stops (congrArg _ same)
    have decided : holds = !onward := by cases holds <;> cases onward <;> simp_all
    exact (if_neg other).trans (congrArg _ decided.symm)

theorem ask_eq_onward :
    ask onward answer elements = .ok onward ↔
      ∀ element ∈ elements, answer element = .ok onward := by
  induction elements with
  | nil => simp [ask]
  | cons first rest ih =>
    rw [List.forall_mem_cons, ← ih]
    by_cases goesOn : answer first = .ok onward
    · simp [ask_cons_of_onward goesOn, goesOn]
    · simp [ask_cons_of_ne goesOn, goesOn]

theorem ask_eq (other : result ≠ .ok onward) :
    ask onward answer elements = result ↔ GetsTo onward answer result elements := by
  induction elements with
  | nil =>
    simp only [ask, not_getsTo_nil, iff_false]
    exact other.symm
  | cons first rest ih =>
    rw [getsTo_cons, ← ih]
    by_cases goesOn : answer first = .ok onward
    · simp [ask_cons_of_onward goesOn, goesOn, other.symm]
    · simp [ask_cons_of_ne goesOn, goesOn]

theorem ask_map (f : β → α) (elements : List β) :
    ask onward answer (elements.map f) =
      ask onward (fun element => answer (f element)) elements := by
  induction elements with
  | nil => rfl
  | cons first rest ih => simp only [List.map_cons, ask, ih]

theorem ask_congr {answer' : α → Except Fault Bool}
    (same : ∀ element ∈ elements, answer' element = answer element) :
    ask onward answer' elements = ask onward answer elements := by
  induction elements with
  | nil => rfl
  | cons first rest ih =>
    rw [List.forall_mem_cons] at same
    simp only [ask, same.1, ih same.2]

theorem ask_mapIdx {change : Nat → α → α}
    (same : ∀ index element, elements[index]? = some element →
      (∀ earlier ∈ elements.take index, answer earlier = .ok onward) →
        answer (change index element) = answer element) :
    ask onward answer (elements.mapIdx change) = ask onward answer elements := by
  induction elements generalizing change with
  | nil => rfl
  | cons first rest ih =>
    have head : answer (change 0 first) = answer first := same 0 first rfl nofun
    rw [List.mapIdx_cons]
    by_cases goesOn : answer first = .ok onward
    · rw [ask_cons_of_onward (head.trans goesOn), ask_cons_of_onward goesOn]
      refine ih fun index element at_ earlier => same (index + 1) element at_ ?_
      rw [List.take_succ_cons, List.forall_mem_cons]
      exact ⟨goesOn, earlier⟩
    · rw [ask_cons_of_ne (head ▸ goesOn), ask_cons_of_ne goesOn, head]

section Terms

variable {terms : List (List α)} {fault : Fault}

/-- Terms are asked until one holds, in which all is asked until something fails. -/
theorem ask_terms_eq_true : ask false (ask true answer) terms = .ok true ↔
    ∃ earlier term later, terms = earlier ++ term :: later ∧
      (∀ other ∈ earlier, GetsTo true answer (.ok false) other) ∧
      ∀ element ∈ term, answer element = .ok true := by
  rw [ask_eq (by simp), GetsTo]
  simp only [ask_eq_onward, ask_eq (show (.ok false : Except Fault Bool) ≠ .ok true by simp)]

theorem ask_terms_eq_false : ask false (ask true answer) terms = .ok false ↔
    ∀ term ∈ terms, GetsTo true answer (.ok false) term := by
  rw [ask_eq_onward]
  simp only [ask_eq (show (.ok false : Except Fault Bool) ≠ .ok true by simp)]

theorem ask_terms_eq_error : ask false (ask true answer) terms = .error fault ↔
    ∃ earlier term later, terms = earlier ++ term :: later ∧
      (∀ other ∈ earlier, GetsTo true answer (.ok false) other) ∧
      GetsTo true answer (.error fault) term := by
  rw [ask_eq (by simp), GetsTo]
  simp only [ask_eq (show (.ok false : Except Fault Bool) ≠ .ok true by simp),
    ask_eq (show (.error fault : Except Fault Bool) ≠ .ok true by simp)]

/-- Whether the order gets to a place in a term: each term before fails at the first of its
elements that does not hold, and the elements before that place in the term hold. -/
def Reached (answer : α → Except Fault Bool) (terms : List (List α)) (index place : Nat) : Prop :=
  (∀ other ∈ terms.take index, GetsTo true answer (.ok false) other) ∧
    ∀ term, terms[index]? = some term → ∀ earlier ∈ term.take place, answer earlier = .ok true

theorem ask_terms_change {change : Nat → Nat → α → α}
    (keeps : ∀ index place term element, terms[index]? = some term → term[place]? = some element →
      Reached answer terms index place → change index place element = element) :
    ask false (ask true answer) (terms.mapIdx fun index term => term.mapIdx (change index)) =
      ask false (ask true answer) terms := by
  refine ask_mapIdx fun index term isTerm fail => ask_mapIdx fun place element isElement hold => ?_
  have reached : Reached answer terms index place := by
    refine ⟨fun other member => (ask_eq (by simp)).mp (fail other member), ?_⟩
    intro term' isTerm'
    obtain rfl := Option.some.inj (isTerm.symm.trans isTerm')
    exact hold
  rw [keeps index place term element isTerm isElement reached]

end Terms

end Asking

namespace Node

def operands : Node → List Node
  | chain _ first tail _ => first :: tail.operands
  | link _ _ operand tail _ => operand :: tail.operands
  | _ => []

/-- The comparisons in each term of a condition. -/
def terms (condition : Node) : List (List Node) :=
  condition.operands.map operands

/-- A chain with its operands exchanged, by their places. -/
def changeOperands (change : Nat → Node → Node) : Node → Node
  | chain level first tail span =>
    chain level (change 0 first) (tail.changeOperands fun index => change (index + 1)) span
  | link level operator operand tail span =>
    link level operator (change 0 operand)
      (tail.changeOperands fun index => change (index + 1)) span
  | other => other

/-- A condition with its comparisons exchanged, by their terms and their places there. -/
def changeComparisons (change : Nat → Nat → Node → Node) (condition : Node) : Node :=
  condition.changeOperands fun index term => term.changeOperands (change index)

theorem operands_changeOperands (change : Nat → Node → Node) (node : Node) :
    (node.changeOperands change).operands = node.operands.mapIdx change := by
  induction node generalizing change with
  | chain level first tail span _ ih | link level operator first tail span _ _ ih =>
    rw [changeOperands, operands, operands, List.mapIdx_cons, ih]
  | _ => rfl

theorem terms_changeComparisons (change : Nat → Nat → Node → Node) (condition : Node) :
    (condition.changeComparisons change).terms =
      condition.terms.mapIdx fun index term => term.mapIdx (change index) := by
  rw [terms, terms, changeComparisons, operands_changeOperands]
  refine List.ext_getElem (by simp) fun index _ _ => ?_
  simp [operands_changeOperands]

inductive Linked (level : Level) (fits : Node → Prop) : Node → Prop where
  | absent : Linked level fits .absent
  | link {operator operand tail span} (head : fits operand) (others : Linked level fits tail) :
      Linked level fits (.link level operator operand tail span)

inductive Chained (level : Level) (fits : Node → Prop) : Node → Prop where
  | chain {first tail span} (head : fits first) (links : Linked level fits tail) :
      Chained level fits (.chain level first tail span)

section Shapes

variable {level : Level} {fits fits' : Node → Prop} {node : Node}

theorem Linked.operands (linked : Linked level fits node) :
    ∀ operand ∈ node.operands, fits operand := by
  induction linked with
  | absent => exact nofun
  | link head _ ih => exact List.forall_mem_cons.mpr ⟨head, ih⟩

theorem Chained.operands (chained : Chained level fits node) :
    ∀ operand ∈ node.operands, fits operand := by
  cases chained with
  | chain head links => exact List.forall_mem_cons.mpr ⟨head, links.operands⟩

theorem Linked.mono (linked : Linked level fits node) (weaker : ∀ node, fits node → fits' node) :
    Linked level fits' node := by
  induction linked with
  | absent => exact .absent
  | link head _ ih => exact .link (weaker _ head) ih

theorem Chained.mono (chained : Chained level fits node) (weaker : ∀ node, fits node → fits' node) :
    Chained level fits' node := by
  cases chained with
  | chain head links => exact .chain (weaker _ head) (links.mono weaker)

theorem Linked.changeOperands (linked : Linked level fits node) {change : Nat → Node → Node}
    (keeps : ∀ index operand, fits operand → fits' (change index operand)) :
    Linked level fits' (node.changeOperands change) := by
  induction linked generalizing change with
  | absent => exact .absent
  | link head _ ih => exact .link (keeps 0 _ head) (ih fun index => keeps (index + 1))

theorem Chained.changeOperands (chained : Chained level fits node) {change : Nat → Node → Node}
    (keeps : ∀ index operand, fits operand → fits' (change index operand)) :
    Chained level fits' (node.changeOperands change) := by
  cases chained with
  | chain head links =>
    exact .chain (keeps 0 _ head) (links.changeOperands fun index => keeps (index + 1))

end Shapes

/-- A disjunction of conjunctions of nodes of a kind. -/
abbrev IsCondition (fits : Node → Prop) : Node → Prop :=
  Chained .disjunction (Chained .conjunction fits)

section Evaluation

variable {look : Option String → Float} {fits : Node → Prop} {node : Node}
  {eval : Node → Except Fault Bool}

theorem Linked.anyTail (linked : Linked .disjunction fits node) :
    anyTail eval node = ask false eval node.operands := by
  induction linked with
  | absent => rfl
  | @link operator operand tail span _ _ ih =>
    rw [Node.anyTail, Node.operands, ask, if_pos (by decide), ih]
    cases eval operand with
    | error fault => rfl
    | ok holds => cases holds <;> rfl

theorem Linked.allTail (linked : Linked .conjunction fits node) :
    allTail eval node = ask true eval node.operands := by
  induction linked with
  | absent => rfl
  | @link operator operand tail span _ _ ih =>
    rw [Node.allTail, Node.operands, ask, if_neg (by decide), ih]
    cases eval operand with
    | error fault => rfl
    | ok holds => cases holds <;> rfl

theorem Chained.conjunction (chained : Chained .conjunction fits node) (depth : Nat) :
    node.evalCondition look (depth + 1) = ask true (evalCondition look depth) node.operands := by
  cases chained with
  | @chain first tail span head links =>
    rw [evalCondition, links.allTail, Node.operands, ask]
    cases evalCondition look depth first with
    | error fault => rfl
    | ok holds => cases holds <;> rfl

theorem Chained.disjunction (chained : Chained .disjunction fits node) (depth : Nat) :
    node.evalCondition look (depth + 1) = ask false (evalCondition look depth) node.operands := by
  cases chained with
  | @chain first tail span head links =>
    rw [evalCondition, links.anyTail, Node.operands, ask]
    cases evalCondition look depth first with
    | error fault => rfl
    | ok holds => cases holds <;> rfl

/-- A condition asks its terms until one holds, and a term its comparisons until one fails. -/
theorem evalCondition_terms (condition : IsCondition fits node) (depth : Nat) :
    node.evalCondition look (depth + 2) =
      ask false (ask true (evalCondition look depth)) node.terms := by
  rw [condition.disjunction, terms, ask_map]
  exact ask_congr fun term member => (condition.operands term member).conjunction depth

end Evaluation

end Node

theorem Derives.child {room : Nat} {category : Category} {own : List Token} {node child : Node}
    (derived : Derives counted room category own node) (notNames : category ≠ .names)
    (isChild : child ∈ node.children) (given : child ≠ .absent) :
    ∃ room' category' own', Derives counted room' category' own' child ∧ room' ≤ room ∧
      category' ≠ .names ∧ own' ⊆ own := by
  cases derived with
  | program statements =>
    obtain rfl := List.mem_singleton.mp isChild
    exact ⟨_, _, _, statements, Nat.le_refl _, by simp, by simp⟩
  | oneStatement only =>
    obtain rfl := (List.mem_pair.mp isChild).resolve_right given
    exact ⟨_, _, _, only, Nat.le_refl _, by simp, by simp⟩
  | moreStatements first _ rest =>
    obtain rfl | rfl := List.mem_pair.mp isChild
    · exact ⟨_, _, _, first, Nat.le_refl _, by simp, by simp⟩
    · exact ⟨_, _, _, rest, Nat.le_refl _, by simp, by simp⟩
  | branch nest _ condition _ consequent alternate =>
    cases nest
    obtain rfl | later := List.mem_cons.mp isChild
    · exact ⟨_, _, _, condition, Nat.le_succ _, by simp, by simp⟩
    obtain rfl | rfl := List.mem_pair.mp later
    · exact ⟨_, _, _, consequent, Nat.le_succ _, by simp, fun token member => by simp [member]⟩
    · exact ⟨_, _, _, alternate, Nat.le_succ _, by simp, fun token member => by simp [member]⟩
  | fi => exact absurd (List.mem_singleton.mp isChild) given
  | «otherwise» _ statements =>
    obtain rfl := List.mem_singleton.mp isChild
    exact ⟨_, _, _, statements, Nat.le_refl _, by simp, by simp⟩
  | loop nest _ _ _ statements =>
    cases nest
    obtain rfl := List.mem_singleton.mp isChild
    exact ⟨_, _, _, statements, Nat.le_succ _, by simp, fun token member => by simp [member]⟩
  | exit | exitTo | read | print | number | name | noTail => cases isChild
  | assign nest _ _ sum =>
    cases nest
    obtain rfl := List.mem_singleton.mp isChild
    exact ⟨_, _, _, sum, Nat.le_succ _, by simp, by simp⟩
  | oneName | moreNames => exact absurd rfl notNames
  | @chain _ level _ _ _ _ head links =>
    obtain rfl | rfl := List.mem_pair.mp isChild
    · exact ⟨_, _, _, head, Nat.le_refl _, by cases level <;> simp [Category.operand], by simp⟩
    · exact ⟨_, _, _, links, Nat.le_refl _, by simp, by simp⟩
  | @link _ level _ _ _ _ _ _ head links =>
    obtain rfl | rfl := List.mem_pair.mp isChild
    · exact ⟨_, _, _, head, Nat.le_refl _, by cases level <;> simp [Category.operand], by simp⟩
    · exact ⟨_, _, _, links, Nat.le_refl _, by simp, by simp⟩
  | single sum =>
    obtain rfl := (List.mem_pair.mp isChild).resolve_right given
    exact ⟨_, _, _, sum, Nat.le_refl _, by simp, by simp⟩
  | relation _ leftSum rightSum =>
    obtain rfl | rfl := List.mem_pair.mp isChild
    · exact ⟨_, _, _, leftSum, Nat.le_refl _, by simp, by simp⟩
    · exact ⟨_, _, _, rightSum, Nat.le_refl _, by simp, by simp⟩
  | negation nest _ factor =>
    cases nest
    obtain rfl := List.mem_singleton.mp isChild
    exact ⟨_, _, _, factor, Nat.le_succ _, by simp, by simp⟩
  | parenthesized nest _ sum =>
    cases nest
    obtain rfl := List.mem_singleton.mp isChild
    exact ⟨_, _, _, sum, Nat.le_succ _, by simp, by simp⟩

/-- A node in a tree that was derived was derived as well. -/
theorem Derives.inside {room : Nat} {category : Category} {own : List Token} {tree node : Node}
    (derived : Derives counted room category own tree) (notNames : category ≠ .names)
    (inside : Node.Inside tree node) (given : node ≠ .absent) :
    ∃ room' category' own', Derives counted room' category' own' node ∧ room' ≤ room ∧
      category' ≠ .names ∧ own' ⊆ own := by
  induction inside with
  | refl => exact ⟨_, _, _, derived, Nat.le_refl _, notNames, List.Subset.refl _⟩
  | @tail parent child _ isChild ih =>
    have given' : parent ≠ .absent := by
      rintro rfl
      cases isChild
    obtain ⟨room', category', own', derived', less, notNames', within⟩ := ih given'
    obtain ⟨room'', category'', own'', derived'', less', notNames'', within'⟩ :=
      derived'.child notNames' isChild given
    exact ⟨room'', category'', own'', derived'', less'.trans less, notNames'',
      List.Subset.trans within' within⟩

/-- Read from words of a text, with some room to nest. -/
def ReadAs (room : Nat) (category : Category) (node : Node) : Prop :=
  ∃ own, (∀ token ∈ own, token.Proper) ∧ Derives counted room category own node

namespace ReadAs

variable {room : Nat} {category : Category} {level : Level} {node child : Node}

theorem linked (read : ReadAs room (.tail level) node) :
    Node.Linked level (ReadAs room (.operand level)) node := by
  obtain ⟨own, proper, derived⟩ := read
  generalize same : Category.tail level = category at derived
  induction derived with
  | noTail => exact .absent
  | link _ head _ _ ih =>
    cases same
    simp only [List.forall_mem_append, List.forall_mem_cons] at proper
    exact .link ⟨_, proper.1.2, head⟩ (ih proper.2 rfl)
  | _ => cases same

theorem chained (read : ReadAs room (.chain level) node) :
    Node.Chained level (ReadAs room (.operand level)) node := by
  obtain ⟨own, proper, derived⟩ := read
  cases derived with
  | chain head links =>
    rw [List.forall_mem_append] at proper
    exact .chain ⟨_, proper.1, head⟩ (linked ⟨_, proper.2, links⟩)

theorem isCondition (read : ReadAs room (.chain .disjunction) node) :
    node.IsCondition (ReadAs room .comparison) :=
  read.chained.mono fun _ term => term.chained

theorem typed (read : ReadAs room category node) : Typed category node := by
  obtain ⟨own, proper, derived⟩ := read
  exact derived.typed proper

theorem sum_cases (look : Option String → Float) {depth : Nat}
    (read : ReadAs room (.chain .sum) node) (enough : (Category.chain .sum).levels room ≤ depth) :
    node.evalNumber look (depth + 1) = node.evalNumber look depth ∧
      ((∃ x, node.evalNumber look depth = .ok (some x)) ∨
        ∃ fault, node.evalNumber look depth = .error fault) := by
  have valued : Valued (node.evalNumber look depth) := read.typed.evaluates depth
  obtain ⟨own, proper, derived⟩ := read
  have deep : Deep (node.evalNumber look depth) := derived.suffices enough
  refine ⟨Node.evalNumber_refines look depth 1 node deep, ?_⟩
  cases result : node.evalNumber look depth with
  | error fault => exact .inr ⟨fault, rfl⟩
  | ok value =>
    rw [result] at valued
    obtain ⟨x, rfl⟩ := valued
    exact .inl ⟨x, rfl⟩

end ReadAs

/-- What a comparison comes to, if its sums have these values: without a relation whether the
value is not zero; otherwise what the relation says of the values, where the left one is found
first. -/
inductive Compares (value : Node → Except Fault (Option Float)) (result : Except Fault Bool) :
    Node → Prop where
  | single {sum span} (fails : ∀ fault, result = .error fault ↔ value sum = .error fault)
      (holds : ∀ b, result = .ok b ↔ ∃ x, value sum = .ok (some x) ∧ b = (x != 0)) :
      Compares value result (.comparison sum .absent .absent span)
  | relation {left relation compare right span} (known : relation? relation = some compare)
      (fails : ∀ fault, result = .error fault ↔ value left = .error fault ∨
        ∃ x, value left = .ok (some x) ∧ value right = .error fault)
      (holds : ∀ b, result = .ok b ↔ ∃ x y, value left = .ok (some x) ∧
        value right = .ok (some y) ∧ compare (some x) (some y) = .ok b) :
      Compares value result (.comparison left (.text relation) right span)

theorem relation_total {relation : String} (relates : relation ∈ relationTexts) :
    ∃ compare, relation? relation = some compare ∧
      ∀ x y, ∃ b, compare (some x) (some y) = .ok b := by
  simp only [relationTexts, List.mem_cons, List.not_mem_nil, or_false] at relates
  rcases relates with rfl | rfl | rfl | rfl | rfl | rfl <;>
    exact ⟨_, rfl, fun _ _ => ⟨_, rfl⟩⟩

theorem ReadAs.compares {room depth : Nat} {node : Node} (read : ReadAs room .comparison node)
    (look : Option String → Float) (enough : Category.comparison.levels room ≤ depth) :
    Compares (Node.evalNumber look depth) (node.evalCondition look depth) node := by
  obtain ⟨depth, rfl⟩ := Category.exists_less enough (by simp [Category.levels])
  have enough' : (Category.chain .sum).levels room ≤ depth := Nat.le_of_succ_le_succ enough
  obtain ⟨own, proper, derived⟩ := read
  cases derived with
  | @single _ _ sum derived' =>
    obtain ⟨same, ⟨x, value⟩ | ⟨fault, value⟩⟩ :=
      sum_cases look ⟨own, proper, derived'⟩ enough'
    · have result : (Node.comparison sum .absent .absent (Span.covering own)).evalCondition look
          (depth + 1) = .ok (x != 0) := by
        rw [Node.evalCondition, value]
        rfl
      apply Compares.single <;> simp [result, same, value, eq_comm]
    · have result : (Node.comparison sum .absent .absent (Span.covering own)).evalCondition look
          (depth + 1) = .error fault := by
        rw [Node.evalCondition, value]
        rfl
      apply Compares.single <;> simp [result, same, value]
  | @relation _ u v left right operator relates leftSum rightSum =>
    simp only [List.forall_mem_append, List.forall_mem_cons] at proper
    obtain ⟨compare, known, total⟩ := relation_total (proper.2.1.text_mem_relationTexts relates)
    obtain ⟨same, isValue⟩ := sum_cases look ⟨u, proper.1, leftSum⟩ enough'
    obtain ⟨same', isValue'⟩ := sum_cases look ⟨v, proper.2.2, rightSum⟩ enough'
    generalize Span.covering (u ++ operator :: v) = span
    have result : (Node.comparison left (.text operator.text) right span).evalCondition look
        (depth + 1) = left.evalNumber look depth >>= fun value =>
          right.evalNumber look depth >>= fun value' => compare value value' := by
      rw [Node.evalCondition]
      simp only [known]
    rcases isValue with ⟨x, value⟩ | ⟨fault, value⟩
    · rcases isValue' with ⟨y, value'⟩ | ⟨fault, value'⟩
      · obtain ⟨b, decided⟩ := total x y
        have result : (Node.comparison left (.text operator.text) right span).evalCondition look
            (depth + 1) = .ok b := by rw [result, value, value', ← decided]; rfl
        apply Compares.relation known <;> simp [result, same, same', value, value', decided]
      · have result : (Node.comparison left (.text operator.text) right span).evalCondition look
            (depth + 1) = .error fault := by rw [result, value, value']; rfl
        apply Compares.relation known <;> simp [result, same, same', value, value']
    · have result : (Node.comparison left (.text operator.text) right span).evalCondition look
          (depth + 1) = .error fault := by rw [result, value]; rfl
      apply Compares.relation known <;> simp [result, same, value]

/-- How a condition is decided, where `answer` says what its comparisons come to and `value`
what their sums come to. -/
structure ShortCircuits (answer : Node → Except Fault Bool)
    (value : Node → Except Fault (Option Float)) (condition : Node) : Prop where
  /-- It holds if a term holds, and every term before that fails at a first comparison. -/
  holds : answer condition = .ok true ↔ ∃ earlier term later,
    condition.terms = earlier ++ term :: later ∧
    (∀ other ∈ earlier, GetsTo true answer (.ok false) other) ∧
    ∀ comparison ∈ term, answer comparison = .ok true
  fails : answer condition = .ok false ↔
    ∀ term ∈ condition.terms, GetsTo true answer (.ok false) term
  /-- It has a fault that this order gets to. -/
  faulty : ∀ fault, answer condition = .error fault ↔ ∃ earlier term later,
    condition.terms = earlier ++ term :: later ∧
    (∀ other ∈ earlier, GetsTo true answer (.ok false) other) ∧
    GetsTo true answer (.error fault) term
  /-- Nothing can go wrong but a division by zero. -/
  comes : (∃ b, answer condition = .ok b) ∨
    ∃ dividend place, answer condition = .error (.divisionByZero dividend place)
  /-- What is put in the place of comparisons that the order does not get to does not matter. -/
  skips : ∀ change : Nat → Nat → Node → Node,
    (∀ index place term comparison, condition.terms[index]? = some term →
      term[place]? = some comparison → Reached answer condition.terms index place →
        change index place comparison = comparison) →
    answer (condition.changeComparisons change) = answer condition
  compares : ∀ term ∈ condition.terms, ∀ comparison ∈ term,
    Compares value (answer comparison) comparison

section Deciding

variable {room depth : Nat} {node : Node} {look : Option String → Float}

theorem GetsTo.mono {α : Type} {onward b : Bool} {answer answer' : α → Except Fault Bool}
    {elements : List α} (gets : GetsTo onward answer (.ok b) elements)
    (same : ∀ element b, answer element = .ok b → answer' element = .ok b) :
    GetsTo onward answer' (.ok b) elements := by
  obtain ⟨before, element, after, rfl, goesOn, stops⟩ := gets
  exact ⟨before, element, after, rfl, fun earlier member => same _ _ (goesOn earlier member),
    same _ _ stops⟩

theorem Reached.mono {α : Type} {answer answer' : α → Except Fault Bool} {terms : List (List α)}
    {index place : Nat} (reached : Reached answer terms index place)
    (same : ∀ element b, answer element = .ok b → answer' element = .ok b) :
    Reached answer' terms index place :=
  ⟨fun other member => (reached.1 other member).mono same,
    fun term isTerm earlier member => same _ _ (reached.2 term isTerm earlier member)⟩

theorem ReadAs.comparisons (read : ReadAs room (.chain .disjunction) node) :
    ∀ term ∈ node.terms, ∀ comparison ∈ term, ReadAs room .comparison comparison := by
  intro term isTerm
  obtain ⟨operand, member, rfl⟩ := List.mem_map.mp isTerm
  exact (read.isCondition.operands operand member).operands

/-- A condition that was read is decided in this way, with any depth that suffices for it. -/
theorem ReadAs.shortCircuits (read : ReadAs room (.chain .disjunction) node)
    (look : Option String → Float) (enough : (Category.chain .disjunction).levels room ≤ depth) :
    ShortCircuits (Node.evalCondition look depth) (Node.evalNumber look depth) node := by
  -- The comparisons are evaluated with a depth that is less by two, which suffices for them.
  obtain ⟨less, rfl⟩ : ∃ less, depth = less + 2 :=
    ⟨depth - 2, by simp only [Category.levels] at enough; omega⟩
  have enough' : Category.comparison.levels room ≤ less := by
    simp only [Category.levels] at enough ⊢
    omega
  have condition := read.isCondition
  have refined : ∀ (comparison : Node) b, comparison.evalCondition look less = .ok b →
      comparison.evalCondition look (less + 2) = .ok b := by
    intro comparison b decided
    rw [Node.evalCondition_refines look less 2 comparison (decided ▸ .ok b), decided]
  have same : ∀ term ∈ node.terms, ∀ comparison ∈ term,
      comparison.evalCondition look (less + 2) = comparison.evalCondition look less := by
    intro term isTerm comparison member
    obtain ⟨own, -, derived⟩ := read.comparisons term isTerm comparison member
    have deep : Deep (comparison.evalCondition look less) := derived.suffices enough'
    exact Node.evalCondition_refines look less 2 comparison deep
  have asks : node.evalCondition look (less + 2) =
      ask false (ask true (Node.evalCondition look (less + 2))) node.terms := by
    rw [Node.evalCondition_terms condition]
    exact (ask_congr fun term isTerm => ask_congr (same term isTerm)).symm
  constructor
  case holds => rw [asks, ask_terms_eq_true]
  case fails => rw [asks, ask_terms_eq_false]
  case faulty =>
    intro fault
    rw [asks, ask_terms_eq_error]
  case comes =>
    have judged : Judged (node.evalCondition look (less + 2)) := read.typed.evaluates _
    obtain ⟨own, -, derived⟩ := read
    have deep : Deep (node.evalCondition look (less + 2)) := derived.suffices enough
    cases result : node.evalCondition look (less + 2) with
    | ok b => exact .inl ⟨b, rfl⟩
    | error fault =>
      rw [result] at judged deep
      cases judged with
      | divisionByZero => exact .inr ⟨_, _, rfl⟩
      | stackExhausted => exact absurd rfl deep
  case skips =>
    intro change keeps
    have shaped : (node.changeComparisons change).IsCondition fun _ => True :=
      condition.changeOperands fun _ _ term => term.changeOperands fun _ _ _ => trivial
    rw [Node.evalCondition_terms shaped, Node.terms_changeComparisons,
      Node.evalCondition_terms condition]
    refine ask_terms_change fun index place term comparison isTerm isComparison reached => ?_
    exact keeps index place term comparison isTerm isComparison (reached.mono refined)
  case compares =>
    intro term isTerm comparison member
    refine (read.comparisons term isTerm comparison member).compares look ?_
    exact Nat.le_trans enough' (Nat.le_add_right less 2)

end Deciding

/-- Every condition in a program that was read is decided from left to right, in every state
and with any depth that suffices for what the limits let be read. It holds if there is a term
of which all comparisons hold and every term before that has a first comparison that does not
hold; it fails if every term has one; and it divides by zero if this order gets to a comparison
that does.
Comparisons that it does not get to may be exchanged for anything. A comparison without a
relation holds if its value is not zero, and one with a relation evaluates its left side first. -/
theorem Reading.condition_shortCircuits (limits : Limits) (tracing upcase : Bool) (text : String)
    (program : Node) (reader : Reader)
    (parsed : Reading.program limits (.ofSource tracing (.ofText upcase text)) =
      .ok program reader)
    (first tail : Node) (span : Option Span)
    (inside : Node.Inside program (.chain .disjunction first tail span)) (state : State)
    (depth : Nat)
    (enough : (Category.chain .disjunction).levels (limits.depth tracing) ≤ depth) :
    ShortCircuits (Node.evalCondition state.store.get depth)
      (Node.evalNumber state.store.get depth) (.chain .disjunction first tail span) := by
  obtain ⟨whole, -, proper, derived⟩ := derives_of_program parsed
  obtain ⟨room, category, own, derived', less, -, within⟩ :=
    derived.inside (by simp) inside (by simp)
  have proper' : ∀ token ∈ own, token.Proper := fun token member => proper token (within member)
  cases derived' with
  | chain head links =>
    refine ReadAs.shortCircuits ⟨_, proper', .chain head links⟩ _ (Nat.le_trans ?_ enough)
    simp only [Category.levels]
    omega

/-- The second term, which would divide by zero, is not evaluated. -/
theorem Reading.quotient_shortCircuits :
    ∃ program reader first tail span,
      Reading.program .standard (.ofSource false (.ofText false "IF 1 OR 1/A THEN BREAK FI.")) =
        .ok program reader ∧
      Node.Inside program (.chain .disjunction first tail span) ∧
      (Category.chain .disjunction).levels (Limits.standard.depth false) ≤ 1000 ∧
      Node.evalCondition State.initial.store.get 1000 (.chain .disjunction first tail span) =
        .ok true ∧
      ShortCircuits (Node.evalCondition State.initial.store.get 1000)
        (Node.evalNumber State.initial.store.get 1000) (.chain .disjunction first tail span) := by
  obtain ⟨program, reader, first, tail, span, body, rest, inner, outer, whole, parsed, tree,
      holds⟩ :
      ∃ program reader first tail span body rest inner outer whole,
        Reading.program .standard (.ofSource false
          (.ofText false "IF 1 OR 1/A THEN BREAK FI.")) = .ok program reader ∧
        program = .program (.sequence (.branch (.chain .disjunction first tail span) body rest
          inner) .absent outer) whole ∧
        Node.evalCondition State.initial.store.get 1000 (.chain .disjunction first tail span) =
          .ok true :=
    ⟨_, _, _, _, _, _, _, _, _, _, rfl, rfl, rfl⟩
  have inside : Node.Inside program (.chain .disjunction first tail span) := by
    subst tree
    have list {body : Node} : body ∈ (Node.program body whole).children := List.mem_cons_self
    have statement {first : Node} : first ∈ (Node.sequence first .absent outer).children :=
      List.mem_cons_self
    have test {test : Node} : test ∈ (Node.branch test body rest inner).children :=
      List.mem_cons_self
    exact .head list (.head statement (.single test))
  exact ⟨program, reader, first, tail, span, parsed, inside, by decide, holds,
    Reading.condition_shortCircuits .standard false false _ program reader parsed first tail span
      inside State.initial 1000 (by decide)⟩

end LoopLang
