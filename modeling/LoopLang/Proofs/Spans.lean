import LoopLang.Proofs.Parsing
import LoopLang.Proofs.Tiling

/-!
# Spans

Each node of a tree that was read is placed from the start of its first token to the end of
its last one, and between these lie its own tokens and no others. A list of statements owns
all that follows in the list; a link owns its operator and its operand, but not the links
after it. So the parts of a node lie inside its span, in the order of the text and apart from
each other, and the next link of a chain begins where the one before it ends, or later.
-/
namespace LoopLang

/-- Tokens one after the other, none of them empty. -/
structure Ordered (tokens : List Token) : Prop where
  apart : tokens.Pairwise fun token next => token.stop.offset ≤ next.start.offset
  forward : ∀ token ∈ tokens, token.start.offset < token.stop.offset

theorem Ordered.sublist {tokens tokens' : List Token} (ordered : Ordered tokens)
    (sublist : tokens'.Sublist tokens) : Ordered tokens' :=
  ⟨ordered.apart.sublist sublist, fun token member => ordered.forward token (sublist.subset member)⟩

theorem Source.Tiles.ordered {source : Source} {offset stop : Nat} {tokens : List Token}
    (tiles : Tiles source offset tokens stop) :
    Ordered tokens ∧ ∀ token ∈ tokens, offset ≤ token.start.offset := by
  induction tiles with
  | nil => exact ⟨⟨.nil, nofun⟩, nofun⟩
  | @cons offset rest stop valid others ih =>
    have start : (source.scan offset).start.offset = offset := rfl
    have stop : (source.scan offset).stop.offset = offset + (source.scan offset).length := rfl
    have taken : 0 < (source.scan offset).length := Lexeme.length_first_pos valid
    obtain ⟨ordered, later⟩ := ih
    refine ⟨⟨List.pairwise_cons.mpr ⟨?_, ordered.apart⟩, ?_⟩, ?_⟩
    · intro token member
      rw [stop]
      exact later token member
    · simp only [List.forall_mem_cons]
      exact ⟨by omega, ordered.forward⟩
    · simp only [List.forall_mem_cons]
      refine ⟨by omega, fun token member => ?_⟩
      have bound := later token member
      omega

theorem Source.ordered_words (source : Source) : Ordered source.words := by
  obtain ⟨stop, tiles, -⟩ := source.tokens_tiles
  exact tiles.ordered.1.sublist List.filter_sublist

namespace Span

variable {own words : List Token} {span : Span}

/-- Whether a token lies within a span. -/
def holds (span : Span) (token : Token) : Bool :=
  span.start.offset ≤ token.start.offset && token.stop.offset ≤ span.stop.offset

theorem ends_of_covering (covers : covering own = some span) :
    own.head?.map (·.start) = some span.start ∧ own.getLast?.map (·.stop) = some span.stop := by
  unfold covering at covers
  split at covers
  · rename_i head last
    cases covers
    simp [head, last]
  · cases covers

theorem exists_covering (some_ : own ≠ []) : ∃ span, covering own = some span := by
  cases own with
  | nil => exact absurd rfl some_
  | cons first rest => exact ⟨_, covering_cons first rest⟩

theorem mem_of_covering (covers : covering own = some span) :
    ∃ first ∈ own, ∃ last ∈ own, first.start = span.start ∧ last.stop = span.stop := by
  obtain ⟨starts, stops⟩ := ends_of_covering covers
  obtain ⟨first, isFirst, start⟩ := Option.map_eq_some_iff.mp starts
  obtain ⟨last, isLast, stop⟩ := Option.map_eq_some_iff.mp stops
  exact ⟨first, List.mem_of_head? isFirst, last, List.mem_of_getLast? isLast, start, stop⟩

theorem within_covering (ordered : Ordered own) (covers : covering own = some span) {token : Token}
    (member : token ∈ own) :
    span.start.offset ≤ token.start.offset ∧ token.stop.offset ≤ span.stop.offset := by
  obtain ⟨starts, stops⟩ := ends_of_covering covers
  obtain ⟨first, isFirst, start⟩ := Option.map_eq_some_iff.mp starts
  obtain ⟨last, isLast, stop⟩ := Option.map_eq_some_iff.mp stops
  rw [← start, ← stop]
  constructor
  · obtain ⟨rest, rfl⟩ := List.head?_eq_some_iff.mp isFirst
    rcases List.mem_cons.mp member with rfl | later
    · exact Nat.le_refl _
    · have apart := (List.pairwise_cons.mp ordered.apart).1 token later
      have forward := ordered.forward first List.mem_cons_self
      omega
  · obtain ⟨before, rfl⟩ := List.getLast?_eq_some_iff.mp isLast
    rcases List.mem_append.mp member with earlier | isLast
    · have apart := (List.pairwise_append.mp ordered.apart).2.2 token earlier last
        (List.mem_singleton_self last)
      have forward := ordered.forward last (List.mem_append_right _ (List.mem_singleton_self last))
      omega
    · rw [List.mem_singleton.mp isLast]

theorem filter_holds_outside {tokens : List Token}
    (forward : ∀ token ∈ tokens, token.start.offset < token.stop.offset)
    (outside : ∀ token ∈ tokens, token.stop.offset ≤ span.start.offset ∨
      span.stop.offset ≤ token.start.offset) : tokens.filter span.holds = [] := by
  rw [List.filter_eq_nil_iff]
  intro token member
  have forward := forward token member
  have outside := outside token member
  simp only [holds, Bool.and_eq_true, decide_eq_true_eq]
  omega

theorem filter_holds (ordered : Ordered words) (within : own <:+: words)
    (covers : covering own = some span) : words.filter span.holds = own ∧
      ∀ token ∈ words, span.holds token = true ∨ token.stop.offset ≤ span.start.offset ∨
        span.stop.offset ≤ token.start.offset := by
  obtain ⟨before, after, rfl⟩ := within
  obtain ⟨first, isFirst, last, isLast, start, stop⟩ := mem_of_covering covers
  obtain ⟨apart, -, apart'⟩ := List.pairwise_append.mp ordered.apart
  obtain ⟨-, -, apart''⟩ := List.pairwise_append.mp apart
  have mine : ∀ token ∈ own, span.holds token = true := by
    intro token member
    have ordered' := ordered.sublist ((List.infix_append before own after).sublist)
    simpa [holds] using within_covering ordered' covers member
  have earlier : ∀ token ∈ before, token.stop.offset ≤ span.start.offset := by
    intro token member
    rw [← start]
    exact apart'' token member first isFirst
  have later : ∀ token ∈ after, span.stop.offset ≤ token.start.offset := by
    intro token member
    rw [← stop]
    exact apart' last (List.mem_append_right _ isLast) token member
  have forward := ordered.forward
  simp only [List.forall_mem_append] at forward ⊢
  refine ⟨?_, ⟨?_, ?_⟩, ?_⟩
  · rw [List.filter_append, List.filter_append, List.filter_eq_self.mpr mine,
      filter_holds_outside forward.1.1 fun token member => .inl (earlier token member),
      filter_holds_outside forward.2 fun token member => .inr (later token member),
      List.nil_append, List.append_nil]
  · exact fun token member => .inr (.inl (earlier token member))
  · exact fun token member => .inl (mine token member)
  · exact fun token member => .inr (.inr (later token member))

end Span

namespace Node

/-- What stands inside the span of a node: its children, but of a link only its operand. -/
def inner : Node → List Node
  | link _ _ operand _ _ => [operand]
  | node => node.children

def next : Node → Node
  | link _ _ _ tail _ => tail
  | _ => absent

/-- The tokens that a node was read from. A link was read from its operator and its operand. -/
inductive ReadFrom : List Token → Node → Prop where
  | phrase {category own node} (whole : ∀ level, category ≠ .tail level)
      (derived : Derives unlimited () category own node) : ReadFrom own node
  | link {level operator own operand tail span} (joins : level.joins operator.kind = true)
      (head : Derives unlimited () (.operand level) own operand) :
      ReadFrom (operator :: own) (.link level (.text operator.text) operand tail span)

/-- A part of a tree that some tokens derive, or one that is absent. -/
def Placed (own : List Token) (node : Node) : Prop :=
  (own = [] ∧ node = absent) ∨
    ∃ category, category ≠ .names ∧ Derives unlimited () category own node

/-- Nodes that stand one after the other among some tokens. -/
inductive Laid : List Node → List Token → Prop where
  | gap (tokens : List Token) : Laid [] tokens
  | part (before : List Token) {own node nodes after} (placed : Placed own node)
      (others : Laid nodes after) : Laid (node :: nodes) (before ++ own ++ after)

/-- The own tokens of a node, and those of the links after it. -/
structure Arranged (own others : List Token) (node : Node) : Prop where
  given : own ≠ []
  readFrom : node.ReadFrom own
  span : node.span? = Span.covering own
  inner : Laid node.inner own
  children : Laid node.children (own ++ others)
  next : Placed others node.next

theorem placed_absent : Placed [] absent :=
  .inl ⟨rfl, rfl⟩

theorem Placed.of {category : Category} {own : List Token} {node : Node}
    (derived : Derives unlimited () category own node) (notNames : category ≠ .names) :
    Placed own node :=
  .inr ⟨category, notNames, derived⟩

theorem placed_operand {level : Level} {own : List Token} {node : Node}
    (derived : Derives unlimited () (.operand level) own node) : Placed own node :=
  .of derived (by cases level <;> nofun)

section Arrangement

variable {category : Category} {own others : List Token} {node : Node} {nodes : List Node}

theorem arranged_phrase (derived : Derives unlimited () category own node)
    (whole : ∀ level, category ≠ .tail level) (span : node.span? = Span.covering own)
    (inner : node.inner = node.children) (next : node.next = absent)
    (children : Laid node.children own) :
    ∃ own' others, own = own' ++ others ∧ Arranged own' others node := by
  refine ⟨own, [], (List.append_nil own).symm, ?_⟩
  constructor
  case given =>
    rcases derived.ne_nil with ⟨level, isTail⟩ | given
    · exact absurd isTail (whole level)
    · exact given
  case readFrom => exact .phrase whole derived
  case span => exact span
  case inner => rwa [inner]
  case children => rwa [List.append_nil]
  case next => rw [next]; exact placed_absent

/-- A part of a tree that is there has its parts in order among its tokens. -/
theorem Placed.arranged (placed : Placed own node) (given : node ≠ absent) :
    ∃ own' others, own = own' ++ others ∧ Arranged own' others node := by
  rcases placed with ⟨-, isAbsent⟩ | ⟨category, notNames, derived⟩
  · exact absurd isAbsent given
  have whole := derived
  cases derived with
  | program statements =>
    apply arranged_phrase whole nofun rfl rfl rfl
    simpa [children] using Laid.part [] (.of statements nofun) (.gap [_])
  | oneStatement only =>
    apply arranged_phrase whole nofun rfl rfl rfl
    simpa [children] using Laid.part [] (.of only nofun) (.part [] placed_absent (.gap []))
  | moreStatements first _ rest =>
    apply arranged_phrase whole nofun rfl rfl rfl
    simpa [children] using Laid.part [] (.of first nofun) (.part [_] (.of rest nofun) (.gap []))
  | branch _ _ condition _ consequent alternate =>
    apply arranged_phrase whole nofun rfl rfl rfl
    simpa [children] using Laid.part [_] (.of condition nofun)
      (.part [_] (.of consequent nofun) (.part [] (.of alternate nofun) (.gap [])))
  | fi =>
    apply arranged_phrase whole nofun rfl rfl rfl
    simpa [children] using Laid.part [] placed_absent (.gap [_])
  | otherwise _ statements =>
    apply arranged_phrase whole nofun rfl rfl rfl
    simpa [children] using Laid.part [_] (.of statements nofun) (.gap [_])
  | loop _ _ _ _ statements =>
    apply arranged_phrase whole nofun rfl rfl rfl
    simpa [children] using Laid.part [_, _, _] (.of statements nofun) (.gap [_])
  | exit | exitTo | read | print | number | name =>
    exact arranged_phrase whole nofun rfl rfl rfl (.gap _)
  | assign _ _ _ sum =>
    apply arranged_phrase whole nofun rfl rfl rfl
    simpa [children] using Laid.part [_, _] (.of sum nofun) (.gap [])
  | oneName | moreNames => exact absurd rfl notNames
  | chain head links =>
    apply arranged_phrase whole nofun rfl rfl rfl
    simpa [children] using Laid.part [] (placed_operand head) (.part [] (.of links nofun) (.gap []))
  | noTail => exact absurd rfl given
  | link joins head links =>
    refine ⟨_, _, rfl, ?_⟩
    constructor
    case given => exact List.cons_ne_nil _ _
    case readFrom => exact .link joins head
    case span => rfl
    case inner => simpa [inner] using Laid.part [_] (placed_operand head) (.gap [])
    case children =>
      simpa [children] using Laid.part [_] (placed_operand head)
        (.part [] (.of links nofun) (.gap []))
    case next => exact .of links nofun
  | single sum =>
    apply arranged_phrase whole nofun rfl rfl rfl
    simpa [children] using Laid.part [] (.of sum nofun) (.part [] placed_absent (.gap []))
  | relation _ leftSum rightSum =>
    apply arranged_phrase whole nofun rfl rfl rfl
    simpa [children] using Laid.part [] (.of leftSum nofun)
      (.part [_] (.of rightSum nofun) (.gap []))
  | negation _ _ factor =>
    apply arranged_phrase whole nofun rfl rfl rfl
    simpa [children] using Laid.part [_] (.of factor nofun) (.gap [])
  | parenthesized _ _ sum =>
    apply arranged_phrase whole nofun rfl rfl rfl
    simpa [children] using Laid.part [_] (.of sum nofun) (.gap [_])

theorem Placed.bounds {span : Span} (placed : Placed own node) (isSpan : node.span? = some span) :
    ∃ first ∈ own, ∃ last ∈ own, first.start = span.start ∧ last.stop = span.stop := by
  have given : node ≠ absent := by
    rintro rfl
    cases isSpan
  obtain ⟨own', others, rfl, arranged⟩ := placed.arranged given
  rw [arranged.span] at isSpan
  obtain ⟨first, isFirst, last, isLast, start, stop⟩ := Span.mem_of_covering isSpan
  exact ⟨first, List.mem_append_left _ isFirst, last, List.mem_append_left _ isLast, start, stop⟩

theorem Laid.placed (laid : Laid nodes own) (member : node ∈ nodes) :
    ∃ own', own' <:+: own ∧ Placed own' node := by
  induction laid with
  | gap => cases member
  | part before placed _ ih =>
    rcases List.mem_cons.mp member with rfl | later
    · exact ⟨_, List.infix_append before _ _, placed⟩
    · obtain ⟨own', within, placed'⟩ := ih later
      exact ⟨own', within.trans (List.suffix_append _ _).isInfix, placed'⟩

theorem Laid.apart (laid : Laid nodes own) (ordered : Ordered own) :
    (nodes.filterMap span?).Pairwise fun span next => span.stop.offset ≤ next.start.offset := by
  induction laid with
  | gap => exact .nil
  | @part before own node nodes after placed others ih =>
    have later := ih (ordered.sublist (List.sublist_append_right _ _))
    cases isSpan : node.span? with
    | none => rwa [List.filterMap_cons_none isSpan]
    | some span =>
      rw [List.filterMap_cons_some isSpan, List.pairwise_cons]
      refine ⟨fun span' member => ?_, later⟩
      obtain ⟨other, isOther, isSpan'⟩ := List.mem_filterMap.mp member
      obtain ⟨own', within, placed'⟩ := others.placed isOther
      obtain ⟨-, -, last, isLast, -, stop⟩ := placed.bounds isSpan
      obtain ⟨first, isFirst, -, -, start, -⟩ := placed'.bounds isSpan'
      rw [← stop, ← start]
      exact (List.pairwise_append.mp ordered.apart).2.2 last (List.mem_append_right _ isLast)
        first (within.subset isFirst)

end Arrangement

/-- A node in a tree: the tree itself, or a child of a node in it. -/
def Inside (tree : Node) : Node → Prop :=
  Relation.ReflTransGen (fun node child => child ∈ node.children) tree

theorem placed_of_inside {tree node : Node} {own : List Token} (placed : Placed own tree)
    (inside : Inside tree node) : ∃ own', own' <:+: own ∧ Placed own' node := by
  induction inside with
  | refl => exact ⟨own, List.infix_refl own, placed⟩
  | @tail node child _ isChild ih =>
    obtain ⟨own', within, placed'⟩ := ih
    have given : node ≠ absent := by
      rintro rfl
      cases isChild
    obtain ⟨mine, others, rfl, arranged⟩ := placed'.arranged given
    obtain ⟨own'', within', placed''⟩ := arranged.children.placed isChild
    exact ⟨own'', within'.trans within, placed''⟩

/-- How the span of a node lies among the words of a text, and how the spans of its children
lie in it. -/
structure Spanned (words own : List Token) (span : Span) (node : Node) : Prop where
  isSpan : node.span? = some span
  readFrom : node.ReadFrom own
  starts : own.head?.map (·.start) = some span.start
  stops : own.getLast?.map (·.stop) = some span.stop
  holds : words.filter span.holds = own
  outside : ∀ token ∈ words, span.holds token = true ∨
    token.stop.offset ≤ span.start.offset ∨ span.stop.offset ≤ token.start.offset
  forward : span.start.offset < span.stop.offset
  inner : ∀ child ∈ node.inner, ∀ span', child.span? = some span' →
    span.start.offset ≤ span'.start.offset ∧ span'.stop.offset ≤ span.stop.offset
  next : ∀ span', node.next.span? = some span' → span.stop.offset ≤ span'.start.offset
  siblings : (node.children.filterMap span?).Pairwise fun span next =>
    span.stop.offset ≤ next.start.offset

theorem Arranged.spanned {own others words : List Token} {node : Node}
    (arranged : Arranged own others node) (ordered : Ordered words)
    (within : own ++ others <:+: words) : ∃ span, Spanned words own span node := by
  obtain ⟨span, covers⟩ := Span.exists_covering arranged.given
  have isSpan : node.span? = some span := arranged.span.trans covers
  have ordered' : Ordered (own ++ others) := ordered.sublist within.sublist
  have mine : Ordered own := ordered'.sublist (List.sublist_append_left _ _)
  have within' : own <:+: words := (List.prefix_append own others).isInfix.trans within
  obtain ⟨starts, stops⟩ := Span.ends_of_covering covers
  obtain ⟨holds, outside⟩ := Span.filter_holds ordered within' covers
  obtain ⟨first, isFirst, last, isLast, start, stop⟩ := Span.mem_of_covering covers
  refine ⟨span, isSpan, arranged.readFrom, starts, stops, holds, outside, ?_, ?_, ?_,
    arranged.children.apart ordered'⟩
  · have bound := (Span.within_covering mine covers isFirst).2
    have forward := mine.forward first isFirst
    rw [start] at forward
    omega
  · intro child isChild span' isSpan'
    obtain ⟨own', infix_, placed⟩ := arranged.inner.placed isChild
    obtain ⟨first', isFirst', last', isLast', start', stop'⟩ := placed.bounds isSpan'
    rw [← start', ← stop']
    exact ⟨(Span.within_covering mine covers (infix_.subset isFirst')).1,
      (Span.within_covering mine covers (infix_.subset isLast')).2⟩
  · intro span' isSpan'
    obtain ⟨first', isFirst', -, -, start', -⟩ := arranged.next.bounds isSpan'
    rw [← stop, ← start']
    exact (List.pairwise_append.mp ordered'.apart).2.2 last isLast first' isFirst'

end Node

/-- Each node of a tree that was read from a text has a span that holds the words that it was
read from and no others, from the start of the first to the end of the last one. Its children
have spans inside its own, but for the next link of a chain, which comes after it; and they
stand in the order of the text, apart from each other. -/
theorem Reading.program_spanned (limits : Limits) (tracing upcase : Bool) (text : String)
    (program : Node) (reader : Reader)
    (parsed : Reading.program limits (.ofSource tracing (.ofText upcase text)) =
      .ok program reader)
    (node : Node) (inside : Node.Inside program node) (given : node ≠ .absent) :
    ∃ own span, own <:+: (Source.ofText upcase text).words ∧
      Node.Spanned (Source.ofText upcase text).words own span node := by
  have ordered := (Source.ofText upcase text).ordered_words
  obtain ⟨whole, begins, -, derived⟩ := derives_of_program parsed
  have placed := Node.Placed.of derived.free nofun
  obtain ⟨own', within, placed'⟩ := Node.placed_of_inside placed inside
  obtain ⟨own, others, rfl, arranged⟩ := placed'.arranged given
  have within' := within.trans begins.isInfix
  obtain ⟨span, spanned⟩ := arranged.spanned ordered within'
  exact ⟨own, span, (List.prefix_append own others).isInfix.trans within', spanned⟩

/-- Of two links, the first one spans its operator and its operand. -/
theorem Reading.link_spanned :
    ∃ program reader operand tail place,
      Reading.program .standard (.ofSource false (.ofText false "X := A + B - C.")) =
        .ok program reader ∧
      Node.Inside program (.link .sum (.text "+") operand tail place) ∧
      place = some ⟨⟨1, 8, 7⟩, ⟨1, 11, 10⟩⟩ ∧
      ∃ own span, own <:+: (Source.ofText false "X := A + B - C.").words ∧
        Node.Spanned (Source.ofText false "X := A + B - C.").words own span
          (.link .sum (.text "+") operand tail place) := by
  obtain ⟨program, reader, name, first, operand, tail, place, inner, outer, all, whole, parsed,
      tree, isPlace⟩ :
      ∃ program reader name first operand tail place inner outer all whole,
        Reading.program .standard (.ofSource false (.ofText false "X := A + B - C.")) =
          .ok program reader ∧
        program = .program (.sequence (.assign name (.chain .sum first
          (.link .sum (.text "+") operand tail place) inner) outer) .absent all) whole ∧
        place = some ⟨⟨1, 8, 7⟩, ⟨1, 11, 10⟩⟩ :=
    ⟨_, _, _, _, _, _, _, _, _, _, _, rfl, rfl, rfl⟩
  have inside : Node.Inside program (.link .sum (.text "+") operand tail place) := by
    subst tree
    have list {body : Node} : body ∈ (Node.program body whole).children := List.mem_cons_self
    have statement {first : Node} : first ∈ (Node.sequence first .absent all).children :=
      List.mem_cons_self
    have value {sum : Node} : sum ∈ (Node.assign name sum outer).children := List.mem_cons_self
    have link {tail : Node} : tail ∈ (Node.chain .sum first tail inner).children :=
      List.mem_cons_of_mem _ List.mem_cons_self
    exact .head list (.head statement (.head value (.single link)))
  exact ⟨program, reader, operand, tail, place, parsed, inside, isPlace,
    Reading.program_spanned .standard false false _ program reader parsed _ inside nofun⟩

end LoopLang
