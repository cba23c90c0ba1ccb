import LoopLang.Proofs.Categories
import LoopLang.Syntax.Rules

/-!
# The rules for expressions

Each rule for arithmetic and for conditions decides its category. The proof for factors
goes by induction on the depth, as only they nest; all others are put together from the
parts of a phrase, one after another.
-/
namespace LoopLang.Reading
open Phrases

section Chains

variable {ρ : Type} {inside : ρ → ρ → Prop} {room : ρ} {level : Level} {depth : Nat}
  {operand : Reading Node} {own : List Token} {node : Node}

structure Linked (inside : ρ → ρ → Prop) (room : ρ) (level : Level) (own : List Token)
    (joined : Joined) : Prop where
  joins : level.joins joined.operator.kind = true
  covers : Span.covering own = some ⟨joined.operator.start, joined.stop⟩
  operand : ∃ u, own = joined.operator :: u ∧
    Derives inside room (Category.operand level) u joined.operand

theorem linked_cons {operator : Token} {u : List Token} {joined : Joined}
    (joins : level.joins operator.kind = true) :
    (∃ node, Derives inside room (Category.operand level) u node ∧
      joined = ⟨operator, node, Span.stopOf (operator :: u)⟩) ↔
    Linked inside room level (operator :: u) joined := by
  constructor
  · rintro ⟨node, derived, rfl⟩
    exact ⟨joins, Span.covering_cons operator u, u, rfl, derived⟩
  · rintro ⟨-, covers, u', equal, derived⟩
    obtain ⟨operator', node, stop⟩ := joined
    obtain ⟨rfl, rfl⟩ := List.cons.inj equal
    rw [Span.covering_cons] at covers
    obtain ⟨-, rfl⟩ := Span.mk.inj (Option.some.inj covers)
    exact ⟨node, derived, rfl⟩

theorem tail_parts : (∃ links, Chained (Linked inside room level) own links ∧
      node = links.foldr (Joined.attach level) .absent) ↔
    Derives inside room (.tail level) own node := by
  constructor
  · rintro ⟨links, chain, rfl⟩
    induction chain with
    | nil => exact .noTail
    | cons first _ ih =>
      obtain ⟨u, rfl, derived⟩ := first.operand
      have linked := Derives.link first.joins derived ih
      rwa [first.covers] at linked
  · intro derived
    generalize isTail : Category.tail level = category at derived
    induction derived with
    | noTail => exact ⟨[], .nil, rfl⟩
    | @link _ level' u v operand rest operator joins head _ _ ih =>
      cases isTail
      obtain ⟨links, chain, rfl⟩ := ih rfl
      refine ⟨⟨operator, operand, Span.stopOf (operator :: u)⟩ :: links, ?_,
        by rw [Span.covering_cons]; rfl⟩
      exact .cons (u := operator :: u) ((linked_cons joins).mp ⟨operand, head, rfl⟩) chain
    | _ => cases isTail

/-- The links of a level, and those that keep within a bound. -/
def links (level : Level) (depth : Nat) : Phrases Joined where
  all := Linked unlimited () level
  within := Linked counted depth level
  all_of_within := fun ⟨joins, covers, u, own, derived⟩ => ⟨joins, covers, u, own, derived.free⟩
  inhabited := by
    obtain ⟨kind, joins⟩ : ∃ kind, level.joins kind = true := by
      cases level with
      | disjunction => exact ⟨.orWord, rfl⟩
      | conjunction => exact ⟨.andWord, rfl⟩
      | sum => exact ⟨.plus, rfl⟩
      | product => exact ⟨.star, rfl⟩
    obtain ⟨u, node, derived⟩ := Derives.exists_derives (Category.operand level)
    have joins' : level.joins (Token.ofKind kind).kind = true := joins
    exact ⟨_, _, (linked_cons joins').mp ⟨node, derived, rfl⟩⟩

theorem decided_joined (each : Decides (Category.operand level) depth operand) {reader : Reader}
    (ready : reader.cursor.Ready) (joins : level.joins reader.cursor.peek.kind = true) :
    Decided (links level depth) (Category.operand level).more reader.cursor
      (joined operand reader) := by
  refine decided_take level.joins none ready (fun _ => level.isValid_of_joins) ?_ ?_ ?_
  · intro own joined linked
    obtain ⟨u, rfl, -⟩ := linked.operand
    exact ⟨joined.operator, u, rfl, linked.joins⟩
  · intro after joins'
    rw [joins] at joins'
    cases joins'
  · intro after _ passed
    refine ⟨(of (Category.operand level) depth).map fun u node =>
      ⟨reader.cursor.peek, node, Span.stopOf (reader.cursor.peek :: u)⟩,
      ⟨fun _ _ => linked_cons joins, fun _ _ => linked_cons joins⟩, ?_⟩
    · refine decided_map passed.ready (each after passed.ready) ?_
      intro u node after' passed' _
      obtain ⟨token, last, stop⟩ := current_of_passed (passed.trans passed') (List.cons_ne_nil _ _)
      rw [List.singleton_append] at stop
      exact ⟨after', by rw [current_bind last, stop]; rfl, rfl⟩

theorem decides_tail (each : Decides (Category.operand level) depth operand) :
    Decides (.tail level) depth (tail level operand) := by
  intro reader ready
  have decided : Decided ((chained (links level depth)).map fun _ links =>
      links.foldr (Joined.attach level) .absent) (Category.tail level).more reader.cursor
      (tail level operand reader) := by
    rw [Category.more_tail, Category.more_chain]
    refine decided_map ready (decided_many (fun _ => level.isValid_of_joins)
      (Category.apart level) ?_ (fun _ => decided_joined each) ready)
      fun _ _ after _ _ => ⟨after, rfl, rfl⟩
    intro own joined linked
    obtain ⟨u, rfl, -⟩ := linked.operand
    exact ⟨joined.operator, u, rfl, linked.joins⟩
  exact decided.congr ready (fun _ _ => tail_parts) (fun _ _ => tail_parts)

theorem chain_parts : (∃ u v first, own = u ++ v ∧
      Derives inside room (Category.operand level) u first ∧
      ∃ rest, Derives inside room (.tail level) v rest ∧
        node = .chain level first rest (Span.covering (u ++ v))) ↔
    Derives inside room (.chain level) own node := by
  constructor
  · rintro ⟨u, v, first, rfl, head, rest, links, rfl⟩
    exact .chain head links
  · rintro ⟨⟩
    rename_i head links
    exact ⟨_, _, _, rfl, head, _, links, rfl⟩

theorem tail_begins (derived : Derives inside room (.tail level) own node) :
    own = [] ∨ ∃ first rest, own = first :: rest ∧ level.joins first.kind = true := by
  cases derived with
  | noTail => exact .inl rfl
  | link joins => exact .inr ⟨_, _, rfl, joins⟩

theorem operand_ne_nil (derived : Derives inside room (Category.operand level) own node) :
    own ≠ [] := by
  rcases derived.ne_nil with ⟨level', isTail⟩ | some_
  · cases level <;> cases isTail
  · exact some_

theorem decides_chain (each : Decides (Category.operand level) depth operand) :
    Decides (.chain level) depth (chain level operand) := by
  intro reader ready
  have decided : Decided ((of (Category.operand level) depth).andThen fun u first =>
      (of (.tail level) depth).map fun v rest =>
        .chain level first rest (Span.covering (u ++ v)))
      (Category.chain level).more reader.cursor (chain level operand reader) := by
    unfold chain
    rw [peek_bind]
    refine decided_bind (each reader ready) ?_ ?_
    · intro u first after passed head
      rw [← Category.more_tail]
      refine decided_map passed.ready (decides_tail each after passed.ready) ?_
      intro v rest after' passed' links
      exact ends_with_span ready (passed.trans passed') (by simp [operand_ne_nil head]) _
    · rintro u first v _ rest _ ⟨node, links, rfl⟩ stops
      rw [Category.more_chain] at stops
      rcases tail_begins links with rfl | ⟨token, others, rfl, joins⟩
      · exact fun token head => (Bool.or_eq_false_iff.mp (stops token head)).1
      · rintro _ ⟨⟩
        exact Category.apart level _ joins
  exact decided.congr ready (fun _ _ => chain_parts) (fun _ _ => chain_parts)

end Chains

section Factors

variable {ρ : Type} {inside : ρ → ρ → Prop} {room inner : ρ} {depth : Nat} {own : List Token}
  {node : Node} {token : Token} {operand : Reading Node}

def startsFactor (kind : Kind) : Bool :=
  kind == .minus || kind == .opening || kind == .number || kind == .identifier

theorem isValid_of_startsFactor {kind : Kind} (starts : startsFactor kind = true) :
    kind.isValid = true := by
  cases kind <;> first | rfl | cases starts

theorem factor_begins (derived : Derives inside room .factor own node) :
    ∃ first rest, own = first :: rest ∧ startsFactor first.kind = true := by
  cases derived with
  | negation _ isMinus => exact ⟨_, _, rfl, by rw [isMinus]; rfl⟩
  | parenthesized _ isOpening => exact ⟨_, _, rfl, by rw [isOpening]; rfl⟩
  | number _ isNumber => exact ⟨_, _, rfl, by rw [isNumber]; rfl⟩
  | name _ isName => exact ⟨_, _, rfl, by rw [isName]; rfl⟩

/-- How a factor goes on after its first token. -/
def AfterFactor (inside : ρ → ρ → Prop) (inner : ρ) (token : Token) (own : List Token)
    (node : Node) : Prop :=
  match token.kind with
  | .minus => ∃ operand, Derives inside inner .factor own operand ∧
      node = .negation operand (Span.covering (token :: own))
  | .opening => ∃ u v value, own = u ++ v ∧ Derives inside inner (.chain .sum) u value ∧
      ∃ closing, (v = [closing] ∧ closing.kind = .closing) ∧
        node = .parenthesized value (Span.covering (token :: (u ++ v)))
  | .number => own = [] ∧
      node = .number (Number.read? token.chars) (some ⟨token.start, token.stop⟩)
  | .identifier => own = [] ∧ node = .identifier (.text token.text) (some ⟨token.start, token.stop⟩)
  | _ => False

theorem afterFactor (nests : Nests inside room inner) :
    AfterFactor inside inner token own node ↔
      Derives inside room .factor (token :: own) node := by
  constructor
  · have nest : inside room inner := (nests inner).mpr rfl
    unfold AfterFactor
    split
    · rintro ⟨operand, derived, rfl⟩
      exact .negation nest ‹_› derived
    · rintro ⟨u, _, value, rfl, derived, closing, ⟨rfl, isClosing⟩, rfl⟩
      exact .parenthesized nest ‹_› derived isClosing
    · rintro ⟨rfl, rfl⟩
      exact .number nest ‹_›
    · rintro ⟨rfl, rfl⟩
      exact .name nest ‹_›
    · exact False.elim
  · intro derived
    generalize whole : token :: own = tokens at derived
    cases derived with
    | negation nest isMinus factor =>
      obtain ⟨rfl, rfl⟩ := List.cons.inj whole
      cases (nests _).mp nest
      simp only [AfterFactor, isMinus]
      exact ⟨_, factor, rfl⟩
    | parenthesized nest isOpening sum isClosing =>
      obtain ⟨rfl, rfl⟩ := List.cons.inj whole
      cases (nests _).mp nest
      simp only [AfterFactor, isOpening]
      exact ⟨_, _, _, rfl, sum, _, ⟨rfl, isClosing⟩, rfl⟩
    | number _ isNumber =>
      obtain ⟨rfl, rfl⟩ := List.cons.inj whole
      simp only [AfterFactor, isNumber, true_and]
      rfl
    | name _ isName =>
      obtain ⟨rfl, rfl⟩ := List.cons.inj whole
      simp only [AfterFactor, isName, true_and]
      rfl

theorem follow_factor {phrases : Phrases Node}
    (all : ∀ own node, phrases.all own node ↔ AfterFactor unlimited () token own node)
    (within : ∀ own node, phrases.within own node ↔ AfterFactor counted depth token own node) :
    phrases.Follow token (of .factor (depth + 1)) :=
  ⟨fun own node => (all own node).trans (afterFactor nests_unlimited),
    fun own node => (within own node).trans (afterFactor (nests_counted depth))⟩

theorem decided_atom {reader : Reader} (ready : reader.cursor.Ready)
    (noMinus : reader.cursor.peek.kind ≠ .minus) (noOpening : reader.cursor.peek.kind ≠ .opening) :
    Decided (of .factor (depth + 1)) (Category.factor).more reader.cursor (atom reader) := by
  refine decided_take startsFactor _ ready (fun _ => isValid_of_startsFactor)
    (fun _ _ => factor_begins) ?_ ?_
  · intro after starts
    cases kind : reader.cursor.peek.kind <;> simp only [kind] at starts ⊢ <;>
      first | rfl | cases starts
  · intro after starts passed
    have starts' : reader.cursor.peek.kind = .number ∨ reader.cursor.peek.kind = .identifier := by
      simpa [startsFactor, noMinus, noOpening] using starts
    rcases starts' with isNumber | isName
    · refine ⟨done (.number (Number.read? reader.cursor.peek.chars)
        (some ⟨reader.cursor.peek.start, reader.cursor.peek.stop⟩)), ?_, ?_⟩
      · refine follow_factor ?_ ?_ <;> simp [AfterFactor, isNumber, done]
      · simp only [isNumber]
        exact decided_note fun after' same => decided_done (same ▸ passed.ready) rfl rfl
    · refine ⟨done (.identifier (.text reader.cursor.peek.text)
        (some ⟨reader.cursor.peek.start, reader.cursor.peek.stop⟩)), ?_, ?_⟩
      · refine follow_factor ?_ ?_ <;> simp [AfterFactor, isName, done]
      · simp only [isName]
        exact decided_note fun after' same => decided_done (same ▸ passed.ready) rfl rfl

theorem decided_negation {reader : Reader} (ready : reader.cursor.Ready)
    (isMinus : reader.cursor.peek.kind = .minus) (each : Decides .factor depth operand) :
    Decided (of .factor (depth + 1)) Category.factor.more reader.cursor
      ((take none >>= fun _ => operand >>= fun node =>
        spanFrom reader.cursor.peek.start >>= fun span => pure (.negation node span)) reader) := by
  refine decided_take startsFactor none ready (fun _ => isValid_of_startsFactor)
    (fun _ _ => factor_begins) ?_ ?_
  · intro after starts
    rw [isMinus] at starts
    cases starts
  · intro after _ passed
    refine ⟨(of .factor depth).map fun u node =>
      .negation node (Span.covering (reader.cursor.peek :: u)), ?_, ?_⟩
    · refine follow_factor ?_ ?_ <;> simp [AfterFactor, isMinus, map, of]
    · refine decided_map passed.ready (each after passed.ready) ?_
      intro u node after' passed' _
      exact ends_with_span ready (passed.trans passed') (List.cons_ne_nil _ _) _

theorem decided_parenthesized {reader : Reader} (ready : reader.cursor.Ready)
    (isOpening : reader.cursor.peek.kind = .opening) (each : Decides (.chain .sum) depth operand) :
    Decided (of .factor (depth + 1)) Category.factor.more reader.cursor
      ((take none >>= fun _ => operand >>= fun inner => expect .closing >>= fun _ =>
        spanFrom reader.cursor.peek.start >>= fun span => pure (.parenthesized inner span))
        reader) := by
  refine decided_take startsFactor none ready (fun _ => isValid_of_startsFactor)
    (fun _ _ => factor_begins) ?_ ?_
  · intro after starts
    rw [isOpening] at starts
    cases starts
  · intro after _ passed
    refine ⟨(of (.chain .sum) depth).andThen fun u inner => (word .closing).map fun v _ =>
      .parenthesized inner (Span.covering (reader.cursor.peek :: (u ++ v))), ?_, ?_⟩
    · refine follow_factor ?_ ?_ <;> simp [AfterFactor, isOpening, andThen, map, of, word]
    · refine decided_bind (each after passed.ready) ?_ ?_
      · intro u inner after' passed' _
        refine decided_map passed'.ready (decided_expect rfl passed'.ready) ?_
        intro v _ after'' passed'' _
        exact ends_with_span ready (passed.trans (passed'.trans passed''))
          (List.cons_ne_nil _ _) _
      · rintro u inner v _ rest _ ⟨_, isClosing, rfl⟩ -
        exact stops_of_word isClosing rfl rest

theorem decides_factor (depth : Nat) : Decides .factor depth (factor depth) := by
  induction depth with
  | zero =>
    refine fun reader ready => decided_exhaust startsFactor _ ready
      (fun _ => isValid_of_startsFactor) (fun _ _ => factor_begins) ?_
    intro own node derived
    cases derived with
    | negation nest | parenthesized nest | number nest | name nest => cases nest
  | succ depth ih =>
    intro reader ready
    unfold factor
    rw [peek_bind]
    cases kind : reader.cursor.peek.kind with
    | minus => exact decided_negation ready kind ih
    | opening => exact decided_parenthesized ready kind (decides_chain (decides_chain ih))
    | _ => exact decided_atom ready (by simp [kind]) (by simp [kind])

end Factors

section Comparisons

variable {ρ : Type} {inside : ρ → ρ → Prop} {room : ρ} {depth : Nat} {own : List Token}
  {node : Node}

theorem decides_product (depth : Nat) : Decides (.chain .product) depth (product depth) :=
  decides_chain (decides_factor depth)

theorem decides_sum (depth : Nat) : Decides (.chain .sum) depth (sum depth) :=
  decides_chain (decides_product depth)

/-- How a comparison goes on after its first sum. -/
def Related (inside : ρ → ρ → Prop) (room : ρ) (u : List Token) (left : Node)
    (own : List Token) (node : Node) : Prop :=
  ∃ operator v right, own = operator :: v ∧ operator.kind.isRelation = true ∧
    Derives inside room (.chain .sum) v right ∧
    node = .comparison left (.text operator.text) right (Span.covering (u ++ operator :: v))

def related (depth : Nat) (u : List Token) (left : Node) : Phrases Node where
  all := Related unlimited () u left
  within := Related counted depth u left
  all_of_within := fun ⟨operator, v, right, own, relates, derived, node⟩ =>
    ⟨operator, v, right, own, relates, derived.free, node⟩
  inhabited := by
    obtain ⟨v, right, derived⟩ := Derives.exists_derives (.chain .sum)
    exact ⟨_, _, Token.ofKind .less, v, right, rfl, rfl, derived, rfl⟩

theorem comparison_parts : (∃ u v left, own = u ++ v ∧ Derives inside room (.chain .sum) u left ∧
      (v = [] ∧ node = .comparison left .absent .absent (Span.covering u) ∨
        Related inside room u left v node)) ↔
    Derives inside room .comparison own node := by
  constructor
  · rintro ⟨u, _, left, rfl, sum, ⟨rfl, rfl⟩ | ⟨operator, v, right, rfl, relates, sum', rfl⟩⟩
    · rw [List.append_nil]
      exact .single sum
    · exact .relation relates sum sum'
  · intro derived
    cases derived with
    | single sum => exact ⟨own, [], _, (List.append_nil own).symm, sum, .inl ⟨rfl, rfl⟩⟩
    | relation relates sum sum' =>
      exact ⟨_, _, _, rfl, sum, .inr ⟨_, _, _, rfl, relates, sum', rfl⟩⟩

theorem isValid_of_isRelation {kind : Kind} (relates : kind.isRelation = true) :
    kind.isValid = true := by
  cases kind <;> first | rfl | cases relates

theorem sum_ne_nil {level : Level} (derived : Derives inside room (.chain level) own node) :
    own ≠ [] := by
  rcases derived.ne_nil with ⟨level', isTail⟩ | some_
  · cases isTail
  · exact some_

theorem related_cons {operator : Token} {u : List Token} {left : Node}
    (relates : operator.kind.isRelation = true) :
    (∃ right, Derives inside room (.chain .sum) own right ∧
      node = .comparison left (.text operator.text) right (Span.covering (u ++ operator :: own))) ↔
    Related inside room u left (operator :: own) node := by
  constructor
  · rintro ⟨right, derived, rfl⟩
    exact ⟨operator, own, right, rfl, relates, derived, rfl⟩
  · rintro ⟨operator', v, right, equal, -, derived, rfl⟩
    obtain ⟨rfl, rfl⟩ := List.cons.inj equal
    exact ⟨right, derived, rfl⟩

theorem related_begins {depth : Nat} (u : List Token) (left : Node) (own : List Token)
    (node : Node) (phrase : (related depth u left).all own node) :
    ∃ first rest, own = first :: rest ∧ first.kind.isRelation = true := by
  obtain ⟨operator, v, right, rfl, relates, -⟩ := phrase
  exact ⟨operator, v, rfl, relates⟩

theorem decided_related {reader after : Reader} {u : List Token} {left : Node}
    (ready : reader.cursor.Ready) (passed : reader.cursor.Passed u after.cursor)
    (some_ : u ≠ []) (relates : after.cursor.peek.kind.isRelation = true) :
    Decided (related depth u left) (Category.chain .sum).more after.cursor
      ((take none >>= fun operator => sum depth >>= fun right =>
        spanFrom reader.cursor.peek.start >>= fun span =>
          pure (.comparison left (.text operator.text) right span)) after) := by
  refine decided_take Kind.isRelation none passed.ready (fun _ => isValid_of_isRelation)
    (related_begins u left) ?_ ?_
  · intro _ relates'
    rw [relates] at relates'
    cases relates'
  · intro after' _ passed'
    refine ⟨(of (.chain .sum) depth).map fun v right =>
      .comparison left (.text after.cursor.peek.text) right
        (Span.covering (u ++ after.cursor.peek :: v)),
      ⟨fun _ _ => related_cons relates, fun _ _ => related_cons relates⟩, ?_⟩
    refine decided_map passed'.ready (decides_sum depth after' passed'.ready) ?_
    intro v right after'' passed'' _
    have passed := passed.trans (passed'.trans passed'')
    exact ends_with_span ready passed (List.append_ne_nil_of_left_ne_nil some_ _) _

theorem decides_comparison (depth : Nat) : Decides .comparison depth (comparison depth) := by
  intro reader ready
  have decided : Decided ((of (.chain .sum) depth).andThen fun u left =>
      orNone (.comparison left .absent .absent (Span.covering u)) (related depth u left))
      Category.comparison.more reader.cursor (comparison depth reader) := by
    unfold comparison
    rw [peek_bind]
    refine decided_bind (decides_sum depth reader ready) ?_ ?_
    · intro u left after passed sum
      refine decided_orNone Kind.isRelation passed.ready (related_begins u left) ?_ ?_
      · intro relates
        rw [peek_bind, if_pos relates]
        exact decided_related ready passed (sum_ne_nil sum) relates
      · intro alone
        rw [peek_bind, if_neg (by simp [alone])]
        exact ends_with_span ready passed (sum_ne_nil sum) _
    · rintro u left v node rest _ (⟨rfl, rfl⟩ | ⟨operator, v, right, rfl, relates, -⟩) stops
      · exact fun token head => (Bool.or_eq_false_iff.mp (stops token head)).1
      · rintro _ ⟨⟩
        cases kind : operator.kind <;> rw [kind] at relates <;> first | rfl | cases relates
  exact decided.congr ready (fun _ _ => comparison_parts) (fun _ _ => comparison_parts)

theorem decides_conjunction (depth : Nat) :
    Decides (.chain .conjunction) depth (conjunction depth) :=
  decides_chain (decides_comparison depth)

theorem decides_condition (depth : Nat) : Decides (.chain .disjunction) depth (condition depth) :=
  decides_chain (decides_conjunction depth)

end Comparisons

end LoopLang.Reading
