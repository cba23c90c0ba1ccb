import LoopLang.Proofs.Endings

/-!
# Trees from their outlines

The outline of a tree that was read says all that there is to say of it but the places of its
nodes: the tree is put together again from the classes and the fields alone, the linked list of
statements from the plain one. Nothing depends on the order of the fields or on the sign of a
zero, so two such trees have the same outline exactly if they are the same but for places.
-/
namespace LoopLang

namespace Number

open Float.Model Float.Model.UnpackedFloat

variable {x y : Float}

theorem eq_of_unpack (same : x.toModel.unpack = y.toModel.unpack) : x = y := by
  have packed := pack_unpack x.toModel
  rw [same, pack_unpack] at packed
  exact congrArg Float.ofModel packed.symm

/-- A number, without the sign if it is zero. -/
def plainZero (x : Float) : Float :=
  if x == 0 then 0 else x

theorem plainZero_of_unpack {sign : Sign} (zero : x.toModel.unpack = .zero sign) :
    plainZero x = 0 := by
  have same : (x == 0) = true := by
    change UnpackedFloat.beq x.toModel.unpack (.zero .positive) = true
    rw [zero]
    cases sign <;> rfl
  rw [plainZero, if_pos same]

theorem plainZero_congr (equal : (x == y) = true) : plainZero x = plainZero y := by
  have same : UnpackedFloat.beq x.toModel.unpack y.toModel.unpack = true := equal
  rw [beq_iff_ne_notANumber_and_eq] at same
  rcases same with ⟨-, -, same | ⟨left, right⟩ | ⟨left, right⟩⟩
  · rw [eq_of_unpack same]
  · rw [plainZero_of_unpack left, plainZero_of_unpack right]
  · rw [plainZero_of_unpack left, plainZero_of_unpack right]

theorem plainZero_ofDecimal (n : ℕ) (k : ℤ) : plainZero (ofDecimal n k) = ofDecimal n k := by
  unfold plainZero
  split
  · rename_i zero
    obtain ⟨sign, unpack⟩ := unpack_of_zero zero
    obtain rfl := unpack_ofDecimal_zero unpack
    exact (eq_of_unpack unpack).symm
  · rfl

end Number

namespace Data

/-- Two values that cannot be told apart by what stands in lists and under the names of fields:
the order of fields and the sign of a zero do not count. -/
inductive Same : Data → Data → Prop where
  | refl (data) : Same data data
  | number {x y} (equal : (x == y) = true) : Same (number x) (number y)
  | cons {first first' rest rest'} (head : Same first first')
      (others : Same (list rest) (list rest')) :
      Same (list (first :: rest)) (list (first' :: rest'))
  | record {fields fields'}
      (names : ∀ name, (fields.lookup name).isSome = (fields'.lookup name).isSome)
      (values : ∀ name data data', fields.lookup name = some data →
        fields'.lookup name = some data' → Same data data') :
      Same (record fields) (record fields')

end Data

namespace Node

/-- The node of a class with such parts, without a place. -/
@[simp] def ofParts? (part? : String → Option Node) : String → Option Node
  | "Program" => return program (← part? "statements") none
  | "StatementList" => return ofStatements (fun _ => none) (← part? "statements").elements
  | "IfStatement" =>
    return branch (← part? "test") (← part? "consequent") (← part? "alternate") none
  | "ElsePart" => return otherwise (← part? "body") none
  | "LoopStatement" => return loop (← part? "label") (← part? "body") none
  | "BreakStatement" => return exit (← part? "target") none
  | "AssignStatement" => return assign (← part? "name") (← part? "value") none
  | "ReadStatement" => return read (← part? "names") none
  | "PrintStatement" => return print (← part? "names") none
  | "BoolExpression" => chainOf .disjunction
  | "BoolTerm" => chainOf .conjunction
  | "ArithExpression" => chainOf .sum
  | "ArithTerm" => chainOf .product
  | "BoolTermTail" => linkOf .disjunction
  | "BoolFactorTail" => linkOf .conjunction
  | "ArithTermTail" => linkOf .sum
  | "ArithFactorTail" => linkOf .product
  | "BoolFactor" =>
    return comparison (← part? "left") (← part? "operator") (← part? "right") none
  | "UnaryFactor" => return negation (← part? "argument") none
  | "ParenthesizedFactor" => return parenthesized (← part? "expression") none
  | "Literal" =>
    match part? "value" with
    | some (number value _) => some (number value none)
    | some absent => some (number none none)
    | _ => none
  | "Identifier" => return identifier (← part? "name") none
  | _ => none
where
  chainOf (level : Level) : Option Node :=
    return chain level (← part? level.operandName) (← part? "tail") none
  linkOf (level : Level) : Option Node :=
    return link level (← part? "operator") (← part? level.operandName) (← part? "tail") none

end Node

namespace Data

mutual

/-- The tree whose outline a value is, if there is one. A number that stands alone is taken for
the literal with its value. -/
@[simp] def node? : Data → Option Node
  | null => some .absent
  | bool _ => none
  | number value => some (.number (some (Number.plainZero value)) none)
  | text content => some (.text content)
  | list items => items? items
  | record fields =>
    match part? fields "type" with
    | some (.text name) => Node.ofParts? (part? fields) name
    | _ => none

@[simp] def items? : List Data → Option Node
  | [] => some .emptyList
  | first :: rest => do
    let head ← node? first
    let others ← items? rest
    return .item head others

@[simp] def part? : List (String × Data) → String → Option Node
  | [], _ => none
  | (name, first) :: rest, wanted => if wanted == name then node? first else part? rest wanted

end

theorem part?_eq (fields : List (String × Data)) (name : String) :
    part? fields name = (fields.lookup name).bind node? := by
  induction fields with
  | nil => rfl
  | cons field rest ih =>
    obtain ⟨other, first⟩ := field
    rw [part?, List.lookup_cons, ih]
    cases name == other <;> rfl

theorem Same.node?_eq {data data' : Data} (same : Same data data') : data.node? = data'.node? := by
  induction same with
  | refl => rfl
  | number equal => simp only [node?, Number.plainZero_congr equal]
  | cons _ _ ih ih' =>
    simp only [node?] at ih'
    simp only [node?, items?, ih, ih']
  | @record fields fields' names values ih =>
    have parts : part? fields = part? fields' := by
      funext name
      rw [part?_eq, part?_eq]
      have given := names name
      cases value : fields.lookup name with
      | none =>
        rw [value] at given
        have none_ : fields'.lookup name = none := by simpa using given.symm
        rw [none_]
      | some data =>
        rw [value] at given
        obtain ⟨data', value'⟩ := Option.isSome_iff_exists.mp given.symm
        rw [value']
        exact ih name data data' value value'
    simp only [node?, parts]

end Data

@[simp] theorem Data.node?_classRecord (name : String) (fields : List (String × Data)) :
    (Node.classRecord name fields).node? =
      Node.ofParts? (part? (("type", .text name) :: fields)) name :=
  rfl

/-- What the outline of a tree of a category says: the tree without its places. A list of
statements says its elements, as those after the first have no outline of their own. -/
@[simp] def Category.Restores (node : Node) : Category → Prop
  | statements => ∃ list, Data.items? node.outlinedRest = some list ∧
      Node.ofStatements (fun _ => none) list.elements = node.bare
  | names => Data.items? node.outlinedRest = some node.bare
  | _ => node.outlined.node? = some node.bare

theorem Category.restores_operand {level : Level} {node : Node} :
    (Category.operand level).Restores node ↔ node.outlined.node? = some node.bare := by
  cases level <;> rfl

namespace Derives

variable {ρ : Type} {inside : ρ → ρ → Prop} {room : ρ} {own : List Token} {node : Node}

theorem restored_statements (derived : Derives inside room .statements own node)
    (restores : Category.statements.Restores node) : node.outlined.node? = some node.bare := by
  obtain ⟨list, items, linked⟩ := restores
  have outlined : node.outlined =
      Node.classRecord "StatementList" [("statements", .list node.outlinedRest)] := by
    cases derived <;> rfl
  simp [outlined, items, linked]

theorem restored_names (derived : Derives inside room .names own node)
    (restores : Category.names.Restores node) : node.outlined.node? = some node.bare := by
  cases derived <;> exact restores

/-- The outline of a tree that was read says everything but the places. -/
theorem restores {category : Category} (derived : Derives inside room category own node)
    (proper : ∀ token ∈ own, token.Proper) : category.Restores node := by
  -- Each field is restored by the induction, and the class tells which fields there are.
  induction derived with
  | program statements _ ih =>
    simp only [List.forall_mem_append] at proper
    have body := statements.restored_statements (ih proper.1)
    simp [Node.outlined, Node.bare, body]
  | oneStatement _ ih =>
    have first := ih proper
    refine ⟨.item _ .emptyList, ?_, rfl⟩
    simp only [Node.outlinedRest, Data.items?]
    rw [first]
    rfl
  | moreStatements _ _ _ ih ih' =>
    simp only [List.forall_mem_append, List.forall_mem_cons] at proper
    have first := ih proper.1
    obtain ⟨list, items, linked⟩ := ih' proper.2.2
    refine ⟨.item _ list, ?_, congrArg (Node.sequence _ · none) linked⟩
    simp only [Node.outlinedRest, Data.items?]
    rw [first, items]
    rfl
  | branch _ _ _ _ statements _ ih ih' ih'' =>
    simp only [List.forall_mem_append, List.forall_mem_cons] at proper
    obtain ⟨⟨⟨-, condition⟩, -, consequent⟩, alternate⟩ := proper
    have test : _ = _ := ih condition
    have body := statements.restored_statements (ih' consequent)
    have rest : _ = _ := ih'' alternate
    simp [Node.outlined, Node.bare, test, body, rest]
  | fi => rfl
  | otherwise _ statements _ ih =>
    simp only [List.forall_mem_append, List.forall_mem_cons] at proper
    have body := statements.restored_statements (ih proper.1.2)
    simp [Node.outlined, Node.bare, body]
  | loop _ _ _ _ statements _ ih =>
    simp only [List.forall_mem_append, List.forall_mem_cons] at proper
    have body := statements.restored_statements (ih proper.1.2.2.2)
    simp [Node.outlined, Node.bare, body]
  | exit | exitTo | name | noTail => rfl
  | read _ _ list ih | print _ _ list ih =>
    simp only [List.forall_mem_cons] at proper
    have names := list.restored_names (ih proper.2)
    simp [Node.outlined, Node.bare, names]
  | assign _ _ _ _ ih =>
    simp only [List.forall_mem_cons] at proper
    have value : _ = _ := ih proper.2.2
    simp [Node.outlined, Node.bare, value]
  | oneName => rfl
  | moreNames _ _ _ ih =>
    simp only [List.forall_mem_cons] at proper
    have rest : _ = _ := ih proper.2.2
    simp [Node.outlined, Node.outlinedRest, Node.bare, rest]
  | @chain _ level _ _ _ _ _ _ ih ih' =>
    simp only [List.forall_mem_append] at proper
    have first := Category.restores_operand.mp (ih proper.1)
    have tail : _ = _ := ih' proper.2
    cases level <;> simp [Node.outlined, Node.bare, Level.chainName, Level.operandName,
      Level.hasTerms, Node.ofParts?.chainOf, first, tail]
  | @link _ level _ _ _ _ _ _ _ _ ih ih' =>
    simp only [List.forall_mem_append, List.forall_mem_cons] at proper
    have operand := Category.restores_operand.mp (ih proper.1.2)
    have tail : _ = _ := ih' proper.2
    cases level <;> simp [Node.outlined, Node.bare, Level.linkName, Level.operandName,
      Level.hasTerms, Node.ofParts?.linkOf, operand, tail]
  | single _ ih =>
    have left : _ = _ := ih proper
    simp [Node.outlined, Node.bare, left]
  | relation _ _ _ ih ih' =>
    simp only [List.forall_mem_append, List.forall_mem_cons] at proper
    have left : _ = _ := ih proper.1
    have right : _ = _ := ih' proper.2.2
    simp [Node.outlined, Node.bare, left, right]
  | negation _ _ _ ih =>
    have operand : _ = _ := ih (List.forall_mem_cons.mp proper).2
    simp [Node.outlined, Node.bare, operand]
  | parenthesized _ _ _ _ ih =>
    simp only [List.forall_mem_append, List.forall_mem_cons] at proper
    have inner : _ = _ := ih proper.1.2
    simp [Node.outlined, Node.bare, inner]
  | @number _ _ token _ isNumber =>
    obtain ⟨digits, exponent, read⟩ := (proper token (by simp)).readable isNumber
    simp [Node.outlined, Node.bare, read, Number.plainZero_ofDecimal]

end Derives

namespace Node

variable {node : Node} {data : Data}

theorem outlined_bare (node : Node) :
    node.bare.outlined = node.outlined ∧ node.bare.outlinedRest = node.outlinedRest := by
  induction node <;> simp_all [bare, outlined, outlinedRest]

theorem outlined_of_bare {node' : Node} (same : node.bare = node'.bare) :
    node.outlined = node'.outlined := by
  rw [← (outlined_bare node).1, same, (outlined_bare node').1]

theorem outline_of_ok {levels : Nat} (shown : node.outline levels = .ok data) :
    data = node.outlined := by
  rw [outline] at shown
  split at shown <;> cases shown
  rfl

end Node

namespace Reading

section Outlines

variable {limits : Limits} {tracing : Bool} {source : Source} {program : Node} {reader : Reader}

theorem outline_cases
    (parsed : Reading.program limits (.ofSource tracing source) = .ok program reader)
    (levels : Nat) :
    program.outline levels = .error .stackExhausted ∨
      program.outline levels = .ok program.outlined := by
  rw [Node.outline]
  cases found : program.obstacle? false levels with
  | none => exact .inr rfl
  | some fault =>
    rw [(typed_of_ok parsed).unhindered _ fault found]
    exact .inl rfl

theorem outlined_restores
    (parsed : Reading.program limits (.ofSource tracing source) = .ok program reader) :
    program.outlined.node? = some program.bare := by
  obtain ⟨own, -, proper, derived⟩ := derives_of_program parsed
  exact derived.restores proper

end Outlines

/-- The outline of a program that was read restores it but for the places, unless it takes too
many levels to be shown. So two programs have the same outline exactly if they are the same but
for places, however deep each was let go. -/
theorem outline_restores (limits : Limits) (tracing upcase : Bool) (text : String)
    (program : Node) (reader : Reader)
    (parsed : Reading.program limits (.ofSource tracing (.ofText upcase text)) =
      .ok program reader) :
    (program.outline limits.writing = .error .stackExhausted ∨
      program.outline limits.writing = .ok program.outlined) ∧
    ∀ data, program.outline limits.writing = .ok data →
      (∀ data', data.Same data' → data'.node? = some program.bare) ∧
      ∀ (limits' : Limits) (tracing' upcase' : Bool) (text' : String) (program' : Node)
        (reader' : Reader),
        Reading.program limits' (.ofSource tracing' (.ofText upcase' text')) =
          .ok program' reader' →
        ∀ data', program'.outline limits'.writing = .ok data' →
          (data = data' ↔ program.bare = program'.bare) ∧
          (data.Same data' ↔ program.bare = program'.bare) := by
  refine ⟨outline_cases parsed _, fun data shown => ?_⟩
  obtain rfl := Node.outline_of_ok shown
  have restores : ∀ data', program.outlined.Same data' → data'.node? = some program.bare :=
    fun data' same => same.node?_eq ▸ outlined_restores parsed
  refine ⟨restores, fun limits' tracing' upcase' text' program' reader' parsed' data' shown' => ?_⟩
  obtain rfl := Node.outline_of_ok shown'
  have bare_of_same (same : program.outlined.Same program'.outlined) :
      program.bare = program'.bare :=
    Option.some.inj ((restores _ same).symm.trans (outlined_restores parsed'))
  refine ⟨⟨fun same => bare_of_same (same ▸ .refl _), Node.outlined_of_bare⟩, bare_of_same,
    fun same => ?_⟩
  rw [Node.outlined_of_bare same]
  exact .refl _

/-- Blanks, cases and zeros in front of a number give other places but the same outline. -/
theorem assignment_restored :
    ∃ program reader program' reader' data,
      Reading.program .standard (.ofSource false (.ofText true " x:=07;break.")) =
        .ok program reader ∧
      Reading.program .standard (.ofSource false (.ofText false "X := 7; BREAK.")) =
        .ok program' reader' ∧
      program.span? ≠ program'.span? ∧ program.outline 950 = .ok data ∧
      program'.outline 950 = .ok data ∧ data.node? = some program'.bare := by
  obtain ⟨program, reader, program', reader', data, data', parsed, parsed', differ, bare, shown,
      shown'⟩ : ∃ program reader program' reader' data data',
      Reading.program .standard (.ofSource false (.ofText true " x:=07;break.")) =
        .ok program reader ∧
      Reading.program .standard (.ofSource false (.ofText false "X := 7; BREAK.")) =
        .ok program' reader' ∧
      program.span? ≠ program'.span? ∧ program.bare = program'.bare ∧
      program.outline 950 = .ok data ∧ program'.outline 950 = .ok data' :=
    ⟨_, _, _, _, _, _, rfl, rfl, by decide, by decide +kernel, rfl, rfl⟩
  obtain ⟨-, restores⟩ :=
    outline_restores .standard false true " x:=07;break." program reader parsed
  obtain ⟨restored, compared⟩ := restores data shown
  obtain ⟨same, -⟩ :=
    compared .standard false false "X := 7; BREAK." program' reader' parsed' data' shown'
  refine ⟨program, reader, program', reader', data, parsed, parsed', differ, shown, ?_, ?_⟩
  · rw [same.mpr bare]
    exact shown'
  · rw [← bare]
    exact restored data (.refl data)

end Reading

end LoopLang
