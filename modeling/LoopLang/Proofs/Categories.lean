import LoopLang.Proofs.Deciding

/-!
# The phrases of a category

A rule decides a category if it decides the phrases of that category, with the bound on
their depth that the rule is given. What is said here serves all rules: which kinds make
a phrase of a category longer, how a rule records a note or the span of what it read, and
that there is one inner nesting state.
-/
namespace LoopLang

/-- The kinds that can make a phrase of a category longer. -/
def Category.more : Category → Kind → Bool
  | program | otherwise | factor => fun _ => false
  | chain .product | tail .product => Level.product.joins
  | chain .sum | tail .sum => fun kind => Level.product.joins kind || Level.sum.joins kind
  | comparison => fun kind =>
    (Level.product.joins kind || Level.sum.joins kind) || kind.isRelation
  | chain .conjunction | tail .conjunction => fun kind =>
    ((Level.product.joins kind || Level.sum.joins kind) || kind.isRelation) ||
      Level.conjunction.joins kind
  | chain .disjunction | tail .disjunction => fun kind =>
    (((Level.product.joins kind || Level.sum.joins kind) || kind.isRelation) ||
      Level.conjunction.joins kind) || Level.disjunction.joins kind
  | names => (· == .comma)
  | statement => fun kind =>
    (Level.product.joins kind || Level.sum.joins kind) || kind == .identifier || kind == .comma
  | statements => fun kind =>
    ((Level.product.joins kind || Level.sum.joins kind) || kind == .identifier ||
      kind == .comma) || kind == .semicolon

namespace Category

theorem more_chain (level : Level) :
    (chain level).more = fun kind => (operand level).more kind || level.joins kind := by
  cases level <;> rfl

theorem more_tail (level : Level) : (tail level).more = (chain level).more := by
  cases level <;> rfl

theorem apart (level : Level) (kind : Kind) (joins : level.joins kind = true) :
    (operand level).more kind = false := by
  cases level <;> cases kind <;> first | rfl | cases joins

end Category

theorem Level.isValid_of_joins (level : Level) {kind : Kind} (joins : level.joins kind = true) :
    kind.isValid = true := by
  cases level <;> cases kind <;> first | rfl | cases joins

/-- The phrases of a category, and those that nest at most so deep. -/
def Phrases.of (category : Category) (depth : Nat) : Phrases Node where
  all := Derives unlimited () category
  within := Derives counted depth category
  all_of_within derived := derived.free
  inhabited := Derives.exists_derives category

namespace Reading
open Phrases

/-- The rule decides the phrases of a category. -/
def Decides (category : Category) (depth : Nat) (rule : Reading Node) : Prop :=
  ∀ reader : Reader, reader.cursor.Ready →
    Decided (.of category depth) category.more reader.cursor (rule reader)

theorem stops_of_word {more : Kind → Bool} {kind : Kind} {own : List Token} {token : Token}
    (phrase : (word kind).all own token) (stops : more kind = false) (rest : List Token) :
    Stops more (own ++ rest) := by
  obtain ⟨rfl, rfl⟩ := phrase
  rintro _ ⟨⟩
  exact stops

theorem decided_note {α : Type} {phrases : Phrases α} {more : Kind → Bool} {message : String}
    {next : Unit → Reading α} {reader : Reader}
    (decided : ∀ after : Reader, after.cursor = reader.cursor →
      Decided phrases more after.cursor (next () after)) :
    Decided phrases more reader.cursor ((note message >>= next) reader) := by
  obtain ⟨after, same, result⟩ := note_bind message next reader
  rw [result, ← same]
  exact decided after same

theorem ends_with_span {α : Type} {reader after : Reader} {own : List Token}
    (ready : reader.cursor.Ready) (passed : reader.cursor.Passed own after.cursor)
    (some_ : own ≠ []) (build : Option Span → α) :
    ∃ after' : Reader, (spanFrom reader.cursor.peek.start >>= fun span => pure (build span)) after =
      .ok (build (Span.covering own)) after' ∧ after'.cursor = after.cursor :=
  ⟨after, by rw [spanFrom_bind ready passed some_]; rfl, rfl⟩

theorem current_of_passed {cursor after : Cursor} {own : List Token}
    (passed : cursor.Passed own after) (some_ : own ≠ []) :
    ∃ token, after.lastReal? = some token ∧ Span.stopOf own = token.stop := by
  have last := passed.last
  rw [List.getLast?_eq_some_getLast some_, Option.some_or] at last
  exact ⟨_, last, by rw [Span.stopOf, List.getLast?_eq_some_getLast some_]; rfl⟩

/-- There is one inner nesting state. -/
def Nests {ρ : Type} (inside : ρ → ρ → Prop) (room inner : ρ) : Prop :=
  ∀ other, inside room other ↔ other = inner

theorem nests_unlimited : Nests unlimited () () :=
  fun _ => ⟨fun _ => rfl, fun _ => trivial⟩

theorem nests_counted (depth : Nat) : Nests counted (depth + 1) depth :=
  fun other => ⟨fun nest => (Nat.succ.inj nest).symm, fun same => by rw [same]; rfl⟩

end Reading

end LoopLang
