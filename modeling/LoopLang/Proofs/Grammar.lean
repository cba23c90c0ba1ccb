import LoopLang.Syntax.Node

/-!
# The grammar

The phrases of the language are sequences of token kinds. A chain is an operand followed
by any number of operators of its level, each with an operand of its own; lists of
statements and of names are built in the same way. The grammar says nothing about how
deeply phrases may nest, and nothing about how a reader finds its way through a text.
-/
namespace LoopLang

/-- The categories of phrases. -/
inductive Category where
  | program | statements | statement | otherwise | names
  | chain (level : Level)
  /-- The operators of a chain with their operands. -/
  | tail (level : Level)
  | comparison | factor

/-- What stands between the operators of a level. -/
def Category.operand : Level → Category
  | .disjunction => chain .conjunction
  | .conjunction => comparison
  | .sum => chain .product
  | .product => factor

inductive Sentence : Category → List Kind → Prop where
  | program {u} (body : Sentence .statements u) : Sentence .program (u ++ [.point])
  | oneStatement {u} (only : Sentence .statement u) : Sentence .statements u
  | moreStatements {u v} (first : Sentence .statement u) (rest : Sentence .statements v) :
      Sentence .statements (u ++ .semicolon :: v)
  | branch {u v w} (test : Sentence (.chain .disjunction) u)
      (consequent : Sentence .statements v) (alternate : Sentence .otherwise w) :
      Sentence .statement (.ifWord :: u ++ .thenWord :: v ++ w)
  | fi : Sentence .otherwise [.fiWord]
  | otherwise {u} (body : Sentence .statements u) :
      Sentence .otherwise (.elseWord :: u ++ [.fiWord])
  | loop {u} (body : Sentence .statements u) :
      Sentence .statement (.loopWord :: .identifier :: .colon :: u ++ [.repeatWord])
  | exit : Sentence .statement [.breakWord]
  | exitTo : Sentence .statement [.breakWord, .identifier]
  | read {u} (names : Sentence .names u) : Sentence .statement (.readWord :: u)
  | print {u} (names : Sentence .names u) : Sentence .statement (.printWord :: u)
  | assign {u} (value : Sentence (.chain .sum) u) :
      Sentence .statement (.identifier :: .assign :: u)
  | oneName : Sentence .names [.identifier]
  | moreNames {u} (rest : Sentence .names u) : Sentence .names (.identifier :: .comma :: u)
  | chain {level u v} (first : Sentence (.operand level) u) (rest : Sentence (.tail level) v) :
      Sentence (.chain level) (u ++ v)
  | noTail {level} : Sentence (.tail level) []
  | link {level kind u v} (joins : level.joins kind = true)
      (operand : Sentence (.operand level) u) (rest : Sentence (.tail level) v) :
      Sentence (.tail level) (kind :: u ++ v)
  | single {u} (value : Sentence (.chain .sum) u) : Sentence .comparison u
  | relation {kind u v} (relation : kind.isRelation = true)
      (left : Sentence (.chain .sum) u) (right : Sentence (.chain .sum) v) :
      Sentence .comparison (u ++ kind :: v)
  | negation {u} (operand : Sentence .factor u) : Sentence .factor (.minus :: u)
  | parenthesized {u} (inner : Sentence (.chain .sum) u) :
      Sentence .factor (.opening :: u ++ [.closing])
  | number : Sentence .factor [.number]
  | name : Sentence .factor [.identifier]

/-- Kinds that can be gone on from to a program. -/
def Viable (kinds : List Kind) : Prop :=
  ∃ rest, Sentence .program (kinds ++ rest)

theorem Viable.of_append {kinds more : List Kind} (viable : Viable (kinds ++ more)) :
    Viable kinds := by
  obtain ⟨rest, sentence⟩ := viable
  exact ⟨more ++ rest, by rwa [← List.append_assoc]⟩

theorem Viable.first_unique {own own' rest rest' : List Kind} {kind kind' : Kind}
    (same : own ++ kind :: rest = own' ++ kind' :: rest') (viable : Viable own)
    (ends : ¬ Viable (own ++ [kind])) (viable' : Viable own') (ends' : ¬ Viable (own' ++ [kind'])) :
    own = own' := by
  rcases List.append_eq_append_iff.mp same with ⟨left, rfl, tail⟩ | ⟨left, rfl, tail⟩
  · cases left with
    | nil => exact (List.append_nil own).symm
    | cons first left =>
      obtain ⟨rfl, -⟩ := List.cons.inj tail
      rw [List.append_cons] at viable'
      exact absurd viable'.of_append ends
  · cases left with
    | nil => exact List.append_nil own'
    | cons first left =>
      obtain ⟨rfl, -⟩ := List.cons.inj tail
      rw [List.append_cons] at viable
      exact absurd viable.of_append ends'

end LoopLang
