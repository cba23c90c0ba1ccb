import LoopLang.Proofs.Moving
import LoopLang.Proofs.Parsing
import Mathlib.Data.List.Forall2

/-!
# Reading in a mirror

Take two readers that stand before the same token, except for its place, and that still do so when
both have passed it. Every action does the same to both: it yields values that are the same except
for their places, or fails with faults that are, and leaves two such readers again. So reading
depends neither on where the tokens stand nor on whitespace and on what was recorded, except for
what it tells of places. The second reader may have passed tokens before the first one has; that
makes a difference only where the first would need a token that it has not passed, and no program is
read in that way. It may also have more depth, and then it may go on where the first one is at the
end of its own.
-/
namespace LoopLang

/-- How two readers are compared. -/
structure Mirror where
  /-- What the places of the first reader are compared as. -/
  move : Location → Location
  /-- What the places of the second reader are compared as. -/
  move' : Location → Location
  alike : Reader → Reader → Prop
  /-- What is left of both where both run out of depth at once. -/
  fallen : Reader → Reader → Prop
  /-- The first reader may run out of depth where the second does not. -/
  uneven : Prop

namespace Mirror

variable (mirror : Mirror)

def tokens (token token' : Token) : Prop :=
  token'.moved mirror.move' = token.moved mirror.move

def spans (span? span'? : Option Span) : Prop :=
  span'?.map (Span.moved mirror.move') = span?.map (Span.moved mirror.move)

def nodes (node node' : Node) : Prop :=
  node'.moved mirror.move' = node.moved mirror.move

def faults (fault fault' : Fault) : Prop :=
  fault'.moved mirror.move' = fault.moved mirror.move

/-- The depth of the second reader is that of the first, or more where that makes a difference. -/
def Allows (depth depth' : Nat) : Prop :=
  depth ≤ depth' ∧ (mirror.uneven ∨ depth' = depth)

/-- What is alike for a mirror is alike as far as actions can notice. -/
structure Faithful : Prop where
  ready {reader image} : mirror.alike reader image → reader.cursor.Ready ∧ image.cursor.Ready
  peek {reader image} : mirror.alike reader image →
    mirror.tokens reader.cursor.peek image.cursor.peek
  last {reader image token} : mirror.alike reader image → reader.cursor.lastReal? = some token →
    ∃ token', image.cursor.lastReal? = some token' ∧ mirror.tokens token token'
  noted {reader image} (channel : Channel) (message message' : String) :
    mirror.alike reader image →
      mirror.alike (reader.note channel message) (image.note channel message')
  passed {reader image} : mirror.alike reader image → reader.cursor.peek.isValid = true →
    mirror.alike { reader with cursor := reader.cursor.advanceReal }
      { image with cursor := image.cursor.advanceReal }
  fell {reader image} : mirror.alike reader image → reader.cursor.peek.isValid = true →
    mirror.uneven ∨ mirror.fallen reader.giveUp image.giveUp

variable {mirror}

theorem tokens.kind {token token' : Token} (same : mirror.tokens token token') :
    token'.kind = token.kind :=
  congrArg (·.kind) same

theorem tokens.text {token token' : Token} (same : mirror.tokens token token') :
    token'.text = token.text :=
  congrArg (·.text) same

theorem tokens.start {token token' : Token} (same : mirror.tokens token token') :
    mirror.move' token'.start = mirror.move token.start :=
  congrArg Token.start same

theorem tokens.stop {token token' : Token} (same : mirror.tokens token token') :
    mirror.move' token'.stop = mirror.move token.stop :=
  congrArg Token.stop same

theorem tokens.fault {token token' : Token} (same : mirror.tokens token token')
    (expected : Option String) :
    mirror.faults (.ofToken expected token) (.ofToken expected token') := by
  rw [faults, Fault.moved_ofToken, Fault.moved_ofToken, same]

theorem faults.exhausted {fault fault' : Fault} (same : mirror.faults fault fault')
    (other : fault ≠ .stackExhausted) : fault' ≠ .stackExhausted := by
  rintro rfl
  cases fault <;> first | exact other rfl | cases same

theorem spans_of_places {start start' stop stop' : Location}
    (starts : mirror.move' start' = mirror.move start)
    (stops : mirror.move' stop' = mirror.move stop) :
    mirror.spans (some ⟨start, stop⟩) (some ⟨start', stop'⟩) := by
  simp only [spans, Option.map_some, Span.moved, starts, stops]

theorem Allows.of_succ {depth depth' : Nat} (allows : mirror.Allows (depth + 1) (depth' + 1)) :
    mirror.Allows depth depth' :=
  ⟨Nat.le_of_succ_le_succ allows.1, allows.2.imp_right Nat.succ.inj⟩

end Mirror

namespace Reading

/-- What an action comes to for two readers. -/
inductive Reflected (mirror : Mirror) {α β : Type} (like : α → β → Prop) :
    EStateM.Result Fault Reader α → EStateM.Result Fault Reader β → Prop where
  | ok {a b reader image} (values : like a b) (holds : mirror.alike reader image) :
    Reflected mirror like (.ok a reader) (.ok b image)
  | error {fault fault' reader image} (faults : mirror.faults fault fault')
    (other : fault ≠ .stackExhausted) (holds : mirror.alike reader image) :
    Reflected mirror like (.error fault reader) (.error fault' image)
  /-- The first reader needs a token that it has not passed. -/
  | lost {reader result} : Reflected mirror like (.error .noCurrentToken reader) result
  | fell {reader image} (holds : mirror.fallen reader image) :
    Reflected mirror like (.error .stackExhausted reader) (.error .stackExhausted image)
  | deeper {reader result} (uneven : mirror.uneven) :
    Reflected mirror like (.error .stackExhausted reader) result

/-- The second action does to one reader what the first one does to another that is alike. -/
def Reflects (mirror : Mirror) {α β : Type} (like : α → β → Prop) (action : Reading α)
    (action' : Reading β) : Prop :=
  ∀ reader image, mirror.alike reader image →
    Reflected mirror like (action reader) (action' image)

section Actions

variable {mirror : Mirror} {α α' β β' : Type} {like : α → α' → Prop} {like' : β → β' → Prop}

theorem reflects_pure {a : α} {a' : α'} (values : like a a') :
    Reflects mirror like (pure a) (pure a') :=
  fun _ _ holds => .ok values holds

theorem reflects_refuse {token token' : Token} (same : mirror.tokens token token')
    (expected : Option String) :
    Reflects mirror like (throw (.ofToken expected token)) (throw (.ofToken expected token')) :=
  fun _ _ holds => .error (same.fault expected) (Fault.ofToken_ne_stackExhausted _ _) holds

theorem Reflected.bind {action : Reading α} {action' : Reading α'} {next : α → Reading β}
    {next' : α' → Reading β'} {reader image : Reader}
    (came : Reflected mirror like (action reader) (action' image))
    (rest : ∀ a a' middle middle', action reader = .ok a middle → action' image = .ok a' middle' →
      like a a' → mirror.alike middle middle' →
        Reflected mirror like' (next a middle) (next' a' middle')) :
    Reflected mirror like' ((action >>= next) reader) ((action' >>= next') image) := by
  generalize result : action reader = left at came
  generalize result' : action' image = right at came
  cases came with
  | ok values holds =>
    rw [bind_ok result, bind_ok result']
    exact rest _ _ _ _ result result' values holds
  | error faults other holds =>
    rw [bind_error result, bind_error result']
    exact .error faults other holds
  | lost =>
    rw [bind_error result]
    exact .lost
  | fell holds =>
    rw [bind_error result, bind_error result']
    exact .fell holds
  | deeper uneven =>
    rw [bind_error result]
    exact .deeper uneven

theorem reflects_bind {action : Reading α} {action' : Reading α'} {next : α → Reading β}
    {next' : α' → Reading β'} (first : Reflects mirror like action action')
    (rest : ∀ a a', like a a' → Reflects mirror like' (next a) (next' a')) :
    Reflects mirror like' (action >>= next) (action' >>= next') :=
  fun reader image holds =>
    (first reader image holds).bind fun a a' middle middle' _ _ values =>
      rest a a' values middle middle'

variable (faithful : mirror.Faithful)
include faithful

theorem reflects_note (message message' : String) :
    Reflects mirror (· = ·) (note message) (note message') :=
  fun _ _ holds => .ok rfl (faithful.noted .reader message message' holds)

theorem reflects_peek : Reflects mirror mirror.tokens peek peek :=
  fun _ _ holds => .ok (faithful.peek holds) holds

theorem reflects_current : Reflects mirror mirror.tokens current current := by
  intro reader image holds
  rw [current, get_bind, get_bind]
  cases found : reader.cursor.lastReal? with
  | none => exact .lost
  | some token =>
    obtain ⟨token', found', same⟩ := faithful.last holds found
    rw [found']
    exact .ok same holds

theorem reflects_take (expected : Option String) :
    Reflects mirror mirror.tokens (take expected) (take expected) := by
  intro reader image holds
  have peek := faithful.peek holds
  obtain ⟨ready, ready'⟩ := faithful.ready holds
  have valid' : image.cursor.peek.isValid = reader.cursor.peek.isValid :=
    congrArg Kind.isValid peek.kind
  cases valid : reader.cursor.peek.isValid with
  | true =>
    rw [take_eq expected ready valid, take_eq expected ready' (valid'.trans valid)]
    exact .ok peek (faithful.noted .scanner _ _ (faithful.passed holds valid))
  | false =>
    rw [take_of_invalid expected valid, take_of_invalid expected (valid'.trans valid)]
    exact .error (peek.fault expected) (Fault.ofToken_ne_stackExhausted _ _) holds

theorem reflects_expect (kind : Kind) :
    Reflects mirror mirror.tokens (expect kind) (expect kind) := by
  apply reflects_bind (reflects_take faithful _)
  intro token token' same
  rw [same.kind]
  split
  · exact reflects_pure same
  · exact reflects_refuse same _

theorem reflects_spanFrom {start start' : Location}
    (starts : mirror.move' start' = mirror.move start) :
    Reflects mirror mirror.spans (spanFrom start) (spanFrom start') := by
  apply reflects_bind (reflects_current faithful)
  intro token token' same
  exact reflects_pure (Mirror.spans_of_places starts same.stop)

/-- A node is put together at last, with the span from its first token. -/
theorem reflects_placed {start start' : Location}
    (starts : mirror.move' start' = mirror.move start) {build build' : Option Span → Node}
    (alike : ∀ span? span'?, span'?.map (Span.moved mirror.move') =
        span?.map (Span.moved mirror.move) →
      (build' span'?).moved mirror.move' = (build span?).moved mirror.move) :
    Reflects mirror mirror.nodes (spanFrom start >>= fun span? => pure (build span?))
      (spanFrom start' >>= fun span'? => pure (build' span'?)) :=
  reflects_bind (reflects_spanFrom faithful starts) fun span? span'? spans =>
    reflects_pure (alike span? span'? spans)

/-- Where the first reader has no depth left, the second either has none or may go on, unless both
stop before a token that cannot be passed. -/
theorem reflects_exhaust (expected : Option String) {action : Reading α'}
    (refuses : ∀ reader : Reader, reader.cursor.peek.isValid = false →
      action reader = .error (.ofToken expected reader.cursor.peek) reader)
    (even : mirror.uneven ∨ action = exhaust expected) :
    Reflects mirror like (exhaust expected) action := by
  intro reader image holds
  have peek := faithful.peek holds
  have valid' : image.cursor.peek.isValid = reader.cursor.peek.isValid :=
    congrArg Kind.isValid peek.kind
  rw [exhaust_eq]
  cases valid : reader.cursor.peek.isValid with
  | true =>
    rw [if_pos rfl]
    rcases even with uneven | rfl
    · exact .deeper uneven
    · rw [exhaust_eq, valid', valid, if_pos rfl]
      rcases faithful.fell holds valid with uneven | fallen
      · exact .deeper uneven
      · exact .fell fallen
  | false =>
    rw [refuses image (valid'.trans valid), if_neg Bool.false_ne_true]
    exact .error (peek.fault expected) (Fault.ofToken_ne_stackExhausted _ _) holds

/-- A step that leaves fewer tokens ahead, where the next token goes on. -/
def Shortens (goesOn : Kind → Bool) (step : Reading α) : Prop :=
  ∀ reader : Reader, reader.cursor.Ready → goesOn reader.cursor.peek.kind = true →
    ∀ a after, step reader = .ok a after →
      after.cursor.ahead.length < reader.cursor.ahead.length

omit faithful in
theorem shortens_of_decided {goesOn more : Kind → Bool} {phrases : Phrases α} {step : Reading α}
    (decided : ∀ reader : Reader, reader.cursor.Ready → goesOn reader.cursor.peek.kind = true →
      Phrases.Decided phrases more reader.cursor (step reader))
    (some_ : ∀ own a, phrases.all own a → own ≠ []) : Shortens goesOn step := by
  intro reader ready on a after result
  have decided := decided reader ready on
  rw [result] at decided
  cases decided with
  | found passed phrase => exact passed.shorter (some_ _ _ (phrases.all_of_within phrase))

omit faithful in
theorem exists_bound {goesOn : Kind → Bool}
    (valid : ∀ kind, goesOn kind = true → kind.isValid = true) {reader : Reader} {bound : Nat}
    (on : goesOn reader.cursor.peek.kind = true) (enough : reader.cursor.ahead.length ≤ bound) :
    ∃ rest, bound = rest + 1 := by
  rw [Cursor.ahead_of_valid (valid _ on), List.length_cons] at enough
  exact Nat.exists_eq_add_one.mpr (Nat.zero_lt_of_lt enough)

/-- The repetitions end at the same token, though each is bounded by the tokens of its own
reader. -/
theorem reflects_repeatWhile {goesOn : Kind → Bool} {step : Reading α} {step' : Reading α'}
    (valid : ∀ kind, goesOn kind = true → kind.isValid = true)
    (each : Reflects mirror like step step') (shortens : Shortens goesOn step)
    (shortens' : Shortens goesOn step') (bound bound' : Nat) (reader image : Reader)
    (holds : mirror.alike reader image) (enough : reader.cursor.ahead.length ≤ bound)
    (enough' : image.cursor.ahead.length ≤ bound') :
    Reflected mirror (List.Forall₂ like) (repeatWhile goesOn step bound reader)
      (repeatWhile goesOn step' bound' image) := by
  induction bound generalizing bound' reader image with
  | zero =>
    cases on : goesOn reader.cursor.peek.kind with
    | true =>
      obtain ⟨_, absurd_⟩ := exists_bound valid on enough
      cases absurd_
    | false =>
      have off : goesOn image.cursor.peek.kind = false := by
        rw [(faithful.peek holds).kind]
        exact on
      rw [repeatWhile_of_off step _ on, repeatWhile_of_off step' _ off]
      exact .ok .nil holds
  | succ bound ih =>
    obtain ⟨ready, ready'⟩ := faithful.ready holds
    have same : goesOn image.cursor.peek.kind = goesOn reader.cursor.peek.kind := by
      rw [(faithful.peek holds).kind]
    cases on : goesOn reader.cursor.peek.kind with
    | true =>
      rw [on] at same
      obtain ⟨bound', rfl⟩ := exists_bound valid same enough'
      rw [repeatWhile, repeatWhile, peek_bind, peek_bind, on, same, if_pos rfl, if_pos rfl]
      refine (each reader image holds).bind
        fun first first' middle middle' result result' values holds' => ?_
      have shorter := shortens reader ready on _ _ result
      have shorter' := shortens' image ready' same _ _ result'
      refine (ih bound' middle middle' holds' ?_ ?_).bind
        fun rest rest' _ _ _ _ others holds'' => ?_
      · omega
      · omega
      · exact .ok (.cons values others) holds''
    | false =>
      rw [on] at same
      rw [repeatWhile_of_off step _ on, repeatWhile_of_off step' _ same]
      exact .ok .nil holds

theorem reflects_many {goesOn : Kind → Bool} {step : Reading α} {step' : Reading α'}
    (valid : ∀ kind, goesOn kind = true → kind.isValid = true)
    (each : Reflects mirror like step step') (shortens : Shortens goesOn step)
    (shortens' : Shortens goesOn step') :
    Reflects mirror (List.Forall₂ like) (many goesOn step) (many goesOn step') := by
  intro reader image holds
  exact reflects_repeatWhile faithful valid each shortens shortens' _ _ reader image holds
    reader.cursor.length_ahead_lt.le image.cursor.length_ahead_lt.le

end Actions

section Rules

variable {mirror : Mirror} {operand operand' one one' : Reading Node} {depth depth' : Nat}

/-- Links that are the same but for their places. -/
structure LinksAlike (mirror : Mirror) (joined joined' : Joined) : Prop where
  operator : mirror.tokens joined.operator joined'.operator
  operand : mirror.nodes joined.operand joined'.operand
  stop : mirror.move' joined'.stop = mirror.move joined.stop

theorem nodes_links (level : Level) {links links' : List Joined}
    (same : List.Forall₂ (LinksAlike mirror) links links') :
    mirror.nodes (links.foldr (Joined.attach level) .absent)
      (links'.foldr (Joined.attach level) .absent) := by
  induction same with
  | nil => rfl
  | @cons joined joined' links links' first _ ih =>
    have spans := Mirror.spans_of_places first.operator.start first.stop
    have text := first.operator.text
    have operand := first.operand
    simp only [Mirror.nodes, Mirror.spans] at ih spans operand
    simp only [Mirror.nodes, List.foldr_cons, Joined.attach, Node.moved, ih, spans, operand, text]

theorem nodes_ofStatements {place place' : Node → Option Span}
    (spans : ∀ node node', mirror.nodes node node' → mirror.spans (place node) (place' node'))
    {statements statements' : List Node}
    (same : List.Forall₂ mirror.nodes statements statements') :
    mirror.nodes (Node.ofStatements place statements) (Node.ofStatements place' statements') := by
  induction same with
  | nil => rfl
  | cons first _ ih =>
    have span := spans _ _ first
    simp only [Mirror.nodes, Mirror.spans] at first ih span
    simp only [Mirror.nodes, Node.ofStatements, Node.moved, first, ih, span]

variable (faithful : mirror.Faithful)
include faithful

theorem reflects_tail {level : Level} (decides : Decides (Category.operand level) depth operand)
    (decides' : Decides (Category.operand level) depth' operand')
    (each : Reflects mirror mirror.nodes operand operand') :
    Reflects mirror mirror.nodes (tail level operand) (tail level operand') := by
  have one : Reflects mirror (LinksAlike mirror) (joined operand) (joined operand') :=
    reflects_bind (reflects_take faithful _) fun _ _ operator => reflects_bind each
      fun _ _ node => reflects_bind (reflects_current faithful) fun _ _ last =>
        reflects_pure ⟨operator, node, last.stop⟩
  have shortens {depth : Nat} {operand : Reading Node}
      (decides : Decides (Category.operand level) depth operand) :
      Shortens level.joins (joined operand) := by
    refine shortens_of_decided (fun reader ready on => decided_joined decides ready on) ?_
    intro own joined linked
    obtain ⟨u, rfl, -⟩ := linked.operand
    exact List.cons_ne_nil _ _
  apply reflects_bind (reflects_many faithful (fun _ => level.isValid_of_joins) one
    (shortens decides) (shortens decides'))
  intro links links' same
  exact reflects_pure (nodes_links level same)

theorem reflects_chain (level : Level) (decides : Decides (Category.operand level) depth operand)
    (decides' : Decides (Category.operand level) depth' operand')
    (each : Reflects mirror mirror.nodes operand operand') :
    Reflects mirror mirror.nodes (chain level operand) (chain level operand') := by
  apply reflects_bind (reflects_peek faithful)
  intro token token' begins
  apply reflects_bind each
  intro first first' firsts
  apply reflects_bind (reflects_tail faithful decides decides' each)
  intro links links' tails
  refine reflects_placed faithful begins.start fun span? span'? spans => ?_
  simp only [Mirror.nodes] at firsts tails
  simp only [Node.moved, firsts, tails, spans]

theorem reflects_atom : Reflects mirror mirror.nodes atom atom := by
  apply reflects_bind (reflects_take faithful _)
  intro token token' same
  have spans := Mirror.spans_of_places same.start same.stop
  have chars : token'.chars = token.chars := congrArg (·.chars) same
  simp only [Mirror.spans] at spans
  rw [same.kind]
  split
  · refine reflects_bind (reflects_note faithful _ _) fun _ _ _ => reflects_pure ?_
    simp only [Mirror.nodes, Node.moved, chars, spans]
  · refine reflects_bind (reflects_note faithful _ _) fun _ _ _ => reflects_pure ?_
    simp only [Mirror.nodes, Node.moved, same.text, spans]
  · exact reflects_refuse same _

omit faithful in
theorem factor_of_invalid (depth : Nat) {reader : Reader}
    (invalid : reader.cursor.peek.isValid = false) :
    factor depth reader =
      .error (.ofToken (some "number or identifier") reader.cursor.peek) reader := by
  cases depth with
  | zero => rw [factor, exhaust_eq, invalid, if_neg Bool.false_ne_true]
  | succ depth =>
    have refused : atom reader =
        .error (.ofToken (some "number or identifier") reader.cursor.peek) reader :=
      bind_error (take_of_invalid _ invalid)
    rw [factor, peek_bind, ← refused]
    rw [Lexeme.isValid] at invalid
    generalize reader.cursor.peek.kind = kind at invalid
    cases kind <;> first | rfl | cases invalid

omit faithful in
theorem statement_of_invalid (depth : Nat) {reader : Reader}
    (invalid : reader.cursor.peek.isValid = false) :
    statement depth reader = .error (.ofToken (some "statement") reader.cursor.peek) reader := by
  cases depth with
  | zero => rw [statement, exhaust_eq, invalid, if_neg Bool.false_ne_true]
  | succ depth => rw [statement, bind_error (take_of_invalid _ invalid)]

theorem reflects_factor (allows : mirror.Allows depth depth') :
    Reflects mirror mirror.nodes (factor depth) (factor depth') := by
  induction depth generalizing depth' with
  | zero =>
    refine reflects_exhaust faithful _ (fun _ => factor_of_invalid depth') ?_
    refine allows.2.imp_right ?_
    rintro rfl
    rfl
  | succ depth ih =>
    obtain ⟨depth', rfl⟩ : ∃ less, depth' = less + 1 :=
      Nat.exists_eq_add_one.mpr (Nat.zero_lt_of_lt allows.1)
    have each := ih allows.of_succ
    apply reflects_bind (reflects_peek faithful)
    intro token token' same
    rw [same.kind]
    split
    · refine reflects_bind (reflects_take faithful _) fun _ _ _ => ?_
      refine reflects_bind each fun operand operand' operands => ?_
      refine reflects_placed faithful same.start fun span? span'? spans => ?_
      simp only [Mirror.nodes] at operands
      simp only [Node.moved, operands, spans]
    · have product := reflects_chain faithful .product (decides_factor depth)
        (decides_factor depth') each
      have sum := reflects_chain faithful .sum (decides_product depth) (decides_product depth')
        product
      refine reflects_bind (reflects_take faithful _) fun _ _ _ => ?_
      refine reflects_bind sum fun inner inner' inners => ?_
      refine reflects_bind (reflects_expect faithful _) fun _ _ _ => ?_
      refine reflects_placed faithful same.start fun span? span'? spans => ?_
      simp only [Mirror.nodes] at inners
      simp only [Node.moved, inners, spans]
    · exact reflects_atom faithful

theorem reflects_sum (allows : mirror.Allows depth depth') :
    Reflects mirror mirror.nodes (sum depth) (sum depth') :=
  reflects_chain faithful .sum (decides_product depth) (decides_product depth')
    (reflects_chain faithful .product (decides_factor depth) (decides_factor depth')
      (reflects_factor faithful allows))

theorem reflects_comparison (allows : mirror.Allows depth depth') :
    Reflects mirror mirror.nodes (comparison depth) (comparison depth') := by
  apply reflects_bind (reflects_peek faithful)
  intro first first' begins
  apply reflects_bind (reflects_sum faithful allows)
  intro left left' lefts
  apply reflects_bind (reflects_peek faithful)
  intro token token' same
  simp only [Mirror.nodes] at lefts
  rw [same.kind]
  split
  · refine reflects_bind (reflects_take faithful _) fun operator operator' operators => ?_
    refine reflects_bind (reflects_sum faithful allows) fun right right' rights => ?_
    refine reflects_placed faithful begins.start fun span? span'? spans => ?_
    simp only [Mirror.nodes] at rights
    simp only [Node.moved, lefts, operators.text, rights, spans]
  · refine reflects_placed faithful begins.start fun span? span'? spans => ?_
    simp only [Node.moved, lefts, spans]

theorem reflects_condition (allows : mirror.Allows depth depth') :
    Reflects mirror mirror.nodes (condition depth) (condition depth') :=
  reflects_chain faithful .disjunction (decides_conjunction depth) (decides_conjunction depth')
    (reflects_chain faithful .conjunction (decides_comparison depth) (decides_comparison depth')
      (reflects_comparison faithful allows))

theorem reflects_names : Reflects mirror (· = ·) names names := by
  apply reflects_bind (reflects_expect faithful _)
  intro first first' firsts
  have next : Reflects mirror (· = ·)
      (take none >>= fun _ => expect .identifier >>= fun name => pure (Node.text name.text))
      (take none >>= fun _ => expect .identifier >>= fun name => pure (Node.text name.text)) := by
    refine reflects_bind (reflects_take faithful _) fun _ _ _ => ?_
    refine reflects_bind (reflects_expect faithful _) fun name name' names => ?_
    exact reflects_pure (by rw [names.text])
  have shortens : Shortens (· == .comma)
      (take none >>= fun _ => expect .identifier >>= fun name => pure (Node.text name.text)) := by
    refine shortens_of_decided (fun _ ready on => decided_nextName ready on) ?_
    intro own name phrase
    obtain ⟨first, rest, rfl, -⟩ := word_begins own name phrase
    exact List.cons_ne_nil _ _
  apply reflects_bind (reflects_many faithful (isValid_of_beq rfl) next shortens shortens)
  intro rest rest' rests
  rw [List.forall₂_eq_eq_eq] at rests
  exact reflects_pure (by rw [rests, firsts.text])

theorem reflects_exitTarget : Reflects mirror (· = ·) exitTarget exitTarget := by
  apply reflects_bind (reflects_peek faithful)
  intro token token' same
  rw [same.kind]
  split
  · refine reflects_bind (reflects_take faithful _) fun target target' targets => ?_
    exact reflects_pure targets.text.symm
  · exact reflects_pure rfl

theorem reflects_assignment (allows : mirror.Allows depth depth') :
    Reflects mirror mirror.nodes (assignment depth) (assignment depth') := by
  apply reflects_bind (reflects_current faithful)
  intro name name' names
  refine reflects_bind (reflects_note faithful _ _) fun _ _ _ => ?_
  refine reflects_bind (reflects_expect faithful _) fun _ _ _ => ?_
  refine reflects_bind (reflects_sum faithful allows) fun value value' values => ?_
  refine reflects_placed faithful names.start fun span? span'? spans => ?_
  simp only [Mirror.nodes] at values
  simp only [Node.moved, names.text, values, spans]

theorem reflects_listOf (decides : Decides .statement depth one)
    (decides' : Decides .statement depth' one') (each : Reflects mirror mirror.nodes one one') :
    Reflects mirror mirror.nodes (listOf one) (listOf one') := by
  apply reflects_bind each
  intro first first' firsts
  have next : Reflects mirror mirror.nodes
      (note "Next statement" >>= fun _ => take none >>= fun _ => one)
      (note "Next statement" >>= fun _ => take none >>= fun _ => one') :=
    reflects_bind (reflects_note faithful _ _) fun _ _ _ =>
      reflects_bind (reflects_take faithful _) fun _ _ _ => each
  have shortens {depth : Nat} {one : Reading Node} (decides : Decides .statement depth one) :
      Shortens (· == .semicolon)
        (note "Next statement" >>= fun _ => take none >>= fun _ => one) := by
    refine shortens_of_decided (fun _ ready on => decided_nextStatement decides ready on) ?_
    intro own node phrase
    obtain ⟨first, rest, rfl, -⟩ := word_begins own node phrase
    exact List.cons_ne_nil _ _
  apply reflects_bind (reflects_many faithful (isValid_of_beq rfl) next (shortens decides)
    (shortens decides'))
  intro rest rest' rests
  apply reflects_bind (reflects_current faithful)
  intro last last' lasts
  refine reflects_pure (nodes_ofStatements (fun node node' same => ?_) (.cons firsts rests))
  have spans := congrArg Node.span? same
  rw [Node.span?_moved, Node.span?_moved] at spans
  cases span : node.span? with
  | none =>
    rw [span, Option.map_none, Option.map_eq_none_iff] at spans
    rw [spans]
    rfl
  | some ends =>
    rw [span, Option.map_some, Option.map_eq_some_iff] at spans
    obtain ⟨ends', span', moved⟩ := spans
    rw [span']
    exact Mirror.spans_of_places (congrArg Span.start moved) lasts.stop

theorem reflects_elsePart (each : Reflects mirror mirror.nodes one one') :
    Reflects mirror mirror.nodes (elsePart one) (elsePart one') := by
  apply reflects_bind (reflects_take faithful _)
  intro token token' same
  rw [same.kind]
  split
  · refine reflects_bind each fun body body' bodies => ?_
    refine reflects_bind (reflects_expect faithful _) fun _ _ _ => ?_
    refine reflects_placed faithful same.start fun span? span'? spans => ?_
    simp only [Mirror.nodes] at bodies
    simp only [Node.moved, bodies, spans]
  · refine reflects_placed faithful same.start fun span? span'? spans => ?_
    simp only [Node.moved, spans]
  · exact reflects_refuse same _

theorem reflects_branch {start start' : Location}
    (starts : mirror.move' start' = mirror.move start) {condition condition' : Reading Node}
    (test : Reflects mirror mirror.nodes condition condition')
    (each : Reflects mirror mirror.nodes one one') :
    Reflects mirror mirror.nodes (branch start condition one) (branch start' condition' one') := by
  refine reflects_bind (reflects_note faithful _ _) fun _ _ _ => ?_
  refine reflects_bind test fun test test' tests => ?_
  refine reflects_bind (reflects_expect faithful _) fun _ _ _ => ?_
  refine reflects_bind each fun body body' bodies => ?_
  refine reflects_bind (reflects_elsePart faithful each) fun rest rest' rests => ?_
  refine reflects_placed faithful starts fun span? span'? spans => ?_
  simp only [Mirror.nodes] at tests bodies rests
  simp only [Node.moved, tests, bodies, rests, spans]

theorem reflects_loop {start start' : Location}
    (starts : mirror.move' start' = mirror.move start)
    (each : Reflects mirror mirror.nodes one one') :
    Reflects mirror mirror.nodes (loop start one) (loop start' one') := by
  refine reflects_bind (reflects_note faithful _ _) fun _ _ _ => ?_
  refine reflects_bind (reflects_expect faithful _) fun label label' labels => ?_
  refine reflects_bind (reflects_expect faithful _) fun _ _ _ => ?_
  refine reflects_bind each fun body body' bodies => ?_
  refine reflects_bind (reflects_expect faithful _) fun _ _ _ => ?_
  refine reflects_placed faithful starts fun span? span'? spans => ?_
  simp only [Mirror.nodes] at bodies
  simp only [Node.moved, labels.text, bodies, spans]

theorem reflects_statement (allows : mirror.Allows depth depth') :
    Reflects mirror mirror.nodes (statement depth) (statement depth') := by
  induction depth generalizing depth' with
  | zero =>
    refine reflects_exhaust faithful _ (fun _ => statement_of_invalid depth') ?_
    refine allows.2.imp_right ?_
    rintro rfl
    rfl
  | succ depth ih =>
    obtain ⟨depth', rfl⟩ : ∃ less, depth' = less + 1 :=
      Nat.exists_eq_add_one.mpr (Nat.zero_lt_of_lt allows.1)
    have less := allows.of_succ
    have inner := reflects_listOf faithful (decides_statement depth) (decides_statement depth')
      (ih less)
    apply reflects_bind (reflects_take faithful _)
    intro token token' same
    rw [same.kind]
    split
    · exact reflects_branch faithful same.start (reflects_condition faithful less) inner
    · exact reflects_loop faithful same.start inner
    · refine reflects_bind (reflects_exitTarget faithful) fun target target' targets => ?_
      refine reflects_placed faithful same.start fun span? span'? spans => ?_
      simp only [Node.moved, targets, spans]
    · refine reflects_bind (reflects_names faithful) fun names names' same_ => ?_
      refine reflects_placed faithful same.start fun span? span'? spans => ?_
      simp only [Node.moved, same_, spans]
    · refine reflects_bind (reflects_names faithful) fun names names' same_ => ?_
      refine reflects_placed faithful same.start fun span? span'? spans => ?_
      simp only [Node.moved, same_, spans]
    · exact reflects_assignment faithful less
    · exact reflects_refuse same _

omit faithful in
theorem ending_eq (program : Node) (reader : Reader) :
    ending program reader = .ok program (if reader.cursor.isDone then reader else
      reader.note .reader ("Ignoring input after the end of program at " ++
        reader.cursor.peek.start.describe)) := by
  change (if !reader.cursor.isDone then _ else _ : Reading Node) reader = _
  cases reader.cursor.isDone <;> rfl

theorem reflects_ending {program program' : Node} (programs : mirror.nodes program program') :
    Reflects mirror mirror.nodes (ending program) (ending program') := by
  intro reader image holds
  have done : image.cursor.isDone = reader.cursor.isDone := by
    rw [Cursor.isDone, Cursor.isDone, Lexeme.isValid, Lexeme.isValid, (faithful.peek holds).kind]
  rw [ending_eq, ending_eq, done]
  cases reader.cursor.isDone with
  | true => exact .ok programs holds
  | false => exact .ok programs (faithful.noted .reader _ _ holds)

theorem reflects_wholeWithin (allows : mirror.Allows depth depth') :
    Reflects mirror mirror.nodes (wholeWithin depth) (wholeWithin depth') := by
  apply reflects_bind (reflects_peek faithful)
  intro first first' firsts
  apply reflects_bind (reflects_listOf faithful (decides_statement depth)
    (decides_statement depth') (reflects_statement faithful allows))
  intro body body' bodies
  refine reflects_bind (reflects_expect faithful _) fun _ _ _ => ?_
  refine reflects_bind (reflects_spanFrom faithful firsts.start) fun span span' spans => ?_
  refine reflects_ending faithful ?_
  simp only [Mirror.nodes, Mirror.spans] at bodies spans
  simp only [Mirror.nodes, Node.moved, bodies, spans]

end Rules

/-- What reading a program comes to for two readers. -/
inductive Compared (mirror : Mirror) :
    EStateM.Result Fault Reader Node → EStateM.Result Fault Reader Node → Prop where
  | read {node node' reader image} (trees : mirror.nodes node node')
    (holds : mirror.alike reader image) : Compared mirror (.ok node reader) (.ok node' image)
  | refused {expected expected' token token' reader image}
    (faults : mirror.faults (.ofToken expected token) (.ofToken expected' token'))
    (holds : mirror.alike reader image) :
    Compared mirror (.error (.ofToken expected token) reader)
      (.error (.ofToken expected' token') image)
  | fell {reader image} (holds : mirror.fallen reader image) :
    Compared mirror (.error (.textTooDeep reader.cursor.peek.start) reader)
      (.error (.textTooDeep image.cursor.peek.start) image)
  | deeper {reader result} (uneven : mirror.uneven) :
    Compared mirror (.error (.textTooDeep reader.cursor.peek.start) reader) result

theorem ofToken_ne_noCurrentToken (expected : Option String) (token : Token) :
    Fault.ofToken expected token ≠ .noCurrentToken := by
  unfold Fault.ofToken
  split
  · exact nofun
  · split <;> exact nofun

/-- Two readers that are alike once they have skipped whitespace read the same program. The first
one never needs a token that it has not passed. -/
theorem compared_programWithin {mirror : Mirror} (faithful : mirror.Faithful) {depth depth' : Nat}
    (allows : mirror.Allows depth depth') {reader image : Reader}
    (holds : mirror.alike { reader with cursor := reader.cursor.skipWhitespace }
      { image with cursor := image.cursor.skipWhitespace }) :
    Compared mirror (programWithin depth reader) (programWithin depth' image) := by
  obtain ⟨ready, ready'⟩ := faithful.ready holds
  have came := reflects_wholeWithin faithful allows _ _ holds
  have decided := decides_programWithin depth _ ready
  have decided' := decides_programWithin depth' _ ready'
  rw [programWithin_eq, programWithin_eq]
  generalize result : wholeWithin depth _ = left at came decided
  generalize result' : wholeWithin depth' _ = right at came decided'
  cases came with
  | ok trees holds =>
    rw [reportDepth_ok result, reportDepth_ok result']
    exact .read trees holds
  | error faults other holds =>
    have other' := faults.exhausted other
    rw [reportDepth_error result other, reportDepth_error result' other']
    cases decided with
    | exhausted => exact absurd rfl other
    | refused =>
      cases decided' with
      | refused => exact .refused faults holds
      | exhausted => exact absurd rfl other'
  | lost =>
    generalize lost : Fault.noCurrentToken = fault at decided
    cases decided with
    | refused => exact absurd lost.symm (ofToken_ne_noCurrentToken _ _)
    | exhausted => cases lost
  | fell holds =>
    rw [reportDepth_exhausted result, reportDepth_exhausted result']
    exact .fell holds
  | deeper uneven =>
    rw [reportDepth_exhausted result]
    exact .deeper uneven

end Reading

end LoopLang
