import LoopLang.Proofs.Expressions

/-!
# The rules for statements

Each rule for lists and for statements decides its category. The proof for statements goes
by induction on the depth; a branch and a loop hold statements of a depth less by one.
-/
namespace LoopLang.Reading
open Phrases

section Lists

variable {ρ : Type} {inside : ρ → ρ → Prop} {room inner : ρ} {depth : Nat} {own : List Token}
  {node : Node} {token : Token} {one : Reading Node}

def nextName : Phrases Node :=
  (word .comma).andThen fun _ _ => (word .identifier).map fun _ name => .text name.text

theorem decided_nextName {reader : Reader} (ready : reader.cursor.Ready)
    (isComma : (reader.cursor.peek.kind == .comma) = true) :
    Decided nextName (fun _ => false) reader.cursor
      ((take none >>= fun _ => expect .identifier >>= fun name =>
        pure (.text name.text)) reader) := by
  refine decided_take (· == .comma) none ready (isValid_of_beq rfl) word_begins ?_ ?_
  · intro _ other
    rw [isComma] at other
    cases other
  · intro after _ passed
    exact ⟨_, follow_word (eq_of_beq isComma) _,
      decided_map passed.ready (decided_expect rfl passed.ready)
        fun _ _ after' _ _ => ⟨after', rfl, rfl⟩⟩

theorem names_parts : (∃ u v first, own = u ++ v ∧ (u = [first] ∧ first.kind = .identifier) ∧
      ∃ rest, Chained nextName.all v rest ∧ node = .ofItems (.text first.text :: rest)) ↔
    Derives inside room .names own node := by
  constructor
  · rintro ⟨_, v, first, rfl, ⟨rfl, isName⟩, rest, chain, rfl⟩
    induction chain generalizing first with
    | nil => exact .oneName isName
    | cons head _ ih =>
      obtain ⟨_, _, comma, rfl, ⟨rfl, isComma⟩, name, ⟨rfl, isName'⟩, rfl⟩ := head
      exact .moreNames isName isComma (ih name isName')
  · intro derived
    generalize isNames : Category.names = category at derived
    induction derived with
    | oneName isName => exact ⟨_, [], _, rfl, ⟨rfl, isName⟩, [], .nil, rfl⟩
    | @moreNames _ u rest name comma isName isComma _ ih =>
      obtain ⟨_, v, first, rfl, ⟨rfl, isName'⟩, names, chain, rfl⟩ := ih isNames
      refine ⟨[name], _, name, rfl, ⟨rfl, isName⟩, .text first.text :: names, ?_, rfl⟩
      exact .cons (u := [comma, first])
        ⟨[comma], [first], comma, rfl, ⟨rfl, isComma⟩, first, ⟨rfl, isName'⟩, rfl⟩ chain
    | _ => cases isNames

theorem decides_names (depth : Nat) : Decides .names depth names := by
  intro reader ready
  have decided : Decided ((word .identifier).andThen fun _ first =>
      (chained nextName).map fun _ rest => .ofItems (.text first.text :: rest))
      Category.names.more reader.cursor (names reader) := by
    refine decided_expect_bind rfl ready ?_
    intro u first after passed _
    refine decided_map passed.ready ?_ fun _ _ after' _ _ => ⟨after', rfl, rfl⟩
    exact decided_many (isValid_of_beq rfl) (fun _ _ => rfl) word_begins
      (fun _ ready comma => decided_nextName ready comma) passed.ready
  exact decided.congr ready (fun _ _ => names_parts)
    fun _ _ => names_parts

theorem statement_span (derived : Derives inside room .statement own node) :
    node.span? = Span.covering own := by
  cases derived <;> rfl

/-- Where a node stands in a list of statements that ends there. -/
def placed (stop : Location) (node : Node) : Option Span :=
  node.span?.map fun span => ⟨span.start, stop⟩

def nextStatement (depth : Nat) : Phrases Node :=
  (word .semicolon).andThen fun _ _ => of .statement depth

/-- The same for any nesting states. -/
def NextStatement (inside : ρ → ρ → Prop) (room : ρ) (own : List Token) (node : Node) : Prop :=
  ∃ u v token, own = u ++ v ∧ (u = [token] ∧ token.kind = .semicolon) ∧
    Derives inside room .statement v node

theorem statement_ne_nil (derived : Derives inside room .statement own node) : own ≠ [] := by
  rcases derived.ne_nil with ⟨_, ⟨⟩⟩ | some_
  exact some_

theorem placed_of_derives (derived : Derives inside room .statement own node)
    (others : List Token) :
    placed (Span.stopOf (own ++ others)) node = Span.covering (own ++ others) := by
  obtain ⟨first, rest, rfl⟩ := List.exists_cons_of_ne_nil (statement_ne_nil derived)
  rw [placed, statement_span derived, Span.covering_cons, List.cons_append, Span.covering_cons]
  rfl

theorem statements_parts : (∃ u v first, own = u ++ v ∧ Derives inside room .statement u first ∧
      ∃ rest, Chained (NextStatement inside room) v rest ∧
        node = .ofStatements (placed (Span.stopOf (u ++ v))) (first :: rest)) ↔
    Derives inside room .statements own node := by
  constructor
  · rintro ⟨u, v, first, rfl, head, rest, chain, rfl⟩
    induction chain generalizing u first with
    | nil =>
      rw [Node.ofStatements, placed_of_derives head, List.append_nil]
      exact .oneStatement head
    | @cons _ w second rest next _ ih =>
      obtain ⟨_, v, semicolon, rfl, ⟨rfl, isSemicolon⟩, next⟩ := next
      have same := Span.stopOf_append (u ++ [semicolon])
        (List.append_ne_nil_of_left_ne_nil (statement_ne_nil next) w)
      have list := Derives.moreStatements head isSemicolon (ih v second next)
      rw [← same] at list
      rw [Node.ofStatements, placed_of_derives head]
      simpa using list
  · intro derived
    generalize isList : Category.statements = category at derived
    induction derived with
    | @oneStatement _ u first only =>
      refine ⟨u, [], first, (List.append_nil u).symm, only, [], .nil, ?_⟩
      rw [Node.ofStatements, placed_of_derives only, List.append_nil]
      rfl
    | @moreStatements _ u v first next semicolon head isSemicolon _ _ ih =>
      obtain ⟨u', v', second, rfl, next, rest, chain, rfl⟩ := ih isList
      refine ⟨u, _, first, rfl, head, second :: rest, ?_, ?_⟩
      · exact .cons (u := semicolon :: u')
          ⟨[semicolon], u', semicolon, rfl, ⟨rfl, isSemicolon⟩, next⟩ chain
      · have same := Span.stopOf_append (u ++ [semicolon])
          (List.append_ne_nil_of_left_ne_nil (statement_ne_nil next) v')
        rw [List.append_assoc, List.singleton_append] at same
        rw [← placed_of_derives head (semicolon :: (u' ++ v')), same]
        rfl
    | _ => cases isList

theorem decided_nextStatement (each : Decides .statement depth one) {reader : Reader}
    (ready : reader.cursor.Ready) (isSemicolon : (reader.cursor.peek.kind == .semicolon) = true) :
    Decided (nextStatement depth) Category.statement.more reader.cursor
      ((note "Next statement" >>= fun _ => take none >>= fun _ => one) reader) := by
  refine decided_note fun reader' same => ?_
  rw [← same] at ready isSemicolon
  refine decided_take (· == .semicolon) none ready (isValid_of_beq rfl) word_begins ?_ ?_
  · intro _ other
    rw [isSemicolon] at other
    cases other
  · intro after _ passed
    exact ⟨_, follow_word (eq_of_beq isSemicolon) _, each after passed.ready⟩

theorem decides_listOf (each : Decides .statement depth one) :
    Decides .statements depth (listOf one) := by
  intro reader ready
  have decided : Decided ((of .statement depth).andThen fun u first =>
      (chained (nextStatement depth)).map fun v rest =>
        .ofStatements (placed (Span.stopOf (u ++ v))) (first :: rest))
      Category.statements.more reader.cursor (listOf one reader) := by
    refine decided_bind (each reader ready) ?_ ?_
    · intro u first after passed head
      refine decided_map passed.ready (decided_many (isValid_of_beq rfl) ?_
        word_begins (fun _ => decided_nextStatement each) passed.ready) ?_
      · intro kind isSemicolon
        rw [eq_of_beq isSemicolon]
        rfl
      · intro v rest after' passed' _
        have some_ := List.append_ne_nil_of_left_ne_nil (statement_ne_nil head) v
        obtain ⟨token, last, stop⟩ := current_of_passed (passed.trans passed') some_
        exact ⟨after', by rw [current_bind last, stop]; rfl, rfl⟩
    · rintro u first v _ rest _ ⟨nodes, chain, rfl⟩ stops
      obtain ⟨rfl, rfl⟩ | ⟨token, others, rfl, isSemicolon⟩ :=
        chained_begins (· == .semicolon) word_begins chain
      · exact fun token head => (Bool.or_eq_false_iff.mp (stops token head)).1
      · rintro _ ⟨⟩
        rw [eq_of_beq isSemicolon]
        rfl
  exact decided.congr ready (fun _ _ => statements_parts) fun _ _ => statements_parts

end Lists

section Statements

variable {ρ : Type} {inside : ρ → ρ → Prop} {room inner : ρ} {depth : Nat} {own : List Token}
  {node : Node} {token : Token} {list condition : Reading Node}

def endsBranch (kind : Kind) : Bool :=
  kind == .elseWord || kind == .fiWord

theorem isValid_of_endsBranch (kind : Kind) (ends : endsBranch kind = true) :
    kind.isValid = true := by
  cases kind <;> first | rfl | cases ends

theorem otherwise_begins (own : List Token) (node : Node)
    (derived : Derives inside room .otherwise own node) :
    ∃ first rest, own = first :: rest ∧ endsBranch first.kind = true := by
  cases derived with
  | fi isFi => exact ⟨_, _, rfl, by rw [isFi]; rfl⟩
  | otherwise isElse => exact ⟨_, _, rfl, by rw [isElse]; rfl⟩

/-- How the end of a branch goes on after its first token. -/
def AfterOtherwise (inside : ρ → ρ → Prop) (room : ρ) (token : Token) (own : List Token)
    (node : Node) : Prop :=
  match token.kind with
  | .elseWord => ∃ u v body, own = u ++ v ∧ Derives inside room .statements u body ∧
      ∃ fi, (v = [fi] ∧ fi.kind = .fiWord) ∧
        node = .otherwise body (Span.covering (token :: (u ++ v)))
  | .fiWord => own = [] ∧ node = .otherwise .absent (Span.covering [token])
  | _ => False

theorem afterOtherwise : AfterOtherwise inside room token own node ↔
    Derives inside room .otherwise (token :: own) node := by
  constructor
  · unfold AfterOtherwise
    split
    · rintro ⟨u, _, body, rfl, derived, fi, ⟨rfl, isFi⟩, rfl⟩
      exact .otherwise ‹_› derived isFi
    · rintro ⟨rfl, rfl⟩
      exact .fi ‹_›
    · exact False.elim
  · intro derived
    generalize whole : token :: own = tokens at derived
    cases derived with
    | fi isFi =>
      obtain ⟨rfl, rfl⟩ := List.cons.inj whole
      simp only [AfterOtherwise, isFi, true_and]
    | otherwise isElse derived isFi =>
      obtain ⟨rfl, rfl⟩ := List.cons.inj whole
      simp only [AfterOtherwise, isElse]
      exact ⟨_, _, _, rfl, derived, _, ⟨rfl, isFi⟩, rfl⟩

theorem follow_otherwise {phrases : Phrases Node}
    (all : ∀ own node, phrases.all own node ↔ AfterOtherwise unlimited () token own node)
    (within : ∀ own node, phrases.within own node ↔ AfterOtherwise counted depth token own node) :
    phrases.Follow token (of .otherwise depth) :=
  ⟨fun own node => (all own node).trans afterOtherwise,
    fun own node => (within own node).trans afterOtherwise⟩

theorem decides_elsePart (each : Decides .statements depth list) :
    Decides .otherwise depth (elsePart list) := by
  intro reader ready
  refine decided_take endsBranch _ ready isValid_of_endsBranch otherwise_begins ?_ ?_
  · intro after ends
    cases kind : reader.cursor.peek.kind <;> simp only [kind] at ends ⊢ <;>
      first | rfl | cases ends
  · intro after ends passed
    have ends' : reader.cursor.peek.kind = .elseWord ∨ reader.cursor.peek.kind = .fiWord := by
      simpa [endsBranch] using ends
    rcases ends' with isElse | isFi
    · refine ⟨(of .statements depth).andThen fun u body => (word .fiWord).map fun v _ =>
        .otherwise body (Span.covering (reader.cursor.peek :: (u ++ v))), ?_, ?_⟩
      · refine follow_otherwise ?_ ?_ <;> simp [AfterOtherwise, isElse, andThen, map, of, word]
      · simp only [isElse]
        refine decided_bind (each after passed.ready) ?_ ?_
        · intro u body after' passed' _
          refine decided_map passed'.ready (decided_expect rfl passed'.ready) ?_
          intro v _ after'' passed'' _
          exact ends_with_span ready (passed.trans (passed'.trans passed''))
            (List.cons_ne_nil _ _) _
        · rintro u body v _ rest _ ⟨_, isFi, rfl⟩ -
          exact stops_of_word isFi rfl rest
    · refine ⟨done (.otherwise .absent (Span.covering [reader.cursor.peek])), ?_, ?_⟩
      · refine follow_otherwise ?_ ?_ <;> simp [AfterOtherwise, isFi, done]
      · simp only [isFi]
        obtain ⟨after', result, same⟩ := ends_with_span ready passed (List.cons_ne_nil _ _)
          (Node.otherwise .absent)
        exact decided_done passed.ready result same

def startsStatement (kind : Kind) : Bool :=
  kind == .ifWord || kind == .loopWord || kind == .breakWord || kind == .readWord ||
    kind == .printWord || kind == .identifier

theorem isValid_of_startsStatement (kind : Kind) (starts : startsStatement kind = true) :
    kind.isValid = true := by
  cases kind <;> first | rfl | cases starts

theorem statement_begins (own : List Token) (node : Node)
    (derived : Derives inside room .statement own node) :
    ∃ first rest, own = first :: rest ∧ startsStatement first.kind = true := by
  cases derived with
  | branch _ is | loop _ is | exit _ is | exitTo _ is | read _ is | print _ is | assign _ is =>
    exact ⟨_, _, rfl, by rw [is]; rfl⟩

/-- How a statement goes on after its first token. -/
def AfterStatement (inside : ρ → ρ → Prop) (inner : ρ) (token : Token) (own : List Token)
    (node : Node) : Prop :=
  match token.kind with
  | .ifWord => ∃ u o test, own = u ++ o ∧ Derives inside inner (.chain .disjunction) u test ∧
      ∃ v o' word, o = v ++ o' ∧ (v = [word] ∧ word.kind = .thenWord) ∧
        ∃ w x body, o' = w ++ x ∧ Derives inside inner .statements w body ∧
          ∃ rest, Derives inside inner .otherwise x rest ∧
            node = .branch test body rest (Span.covering (token :: (u ++ (v ++ (w ++ x)))))
  | .loopWord => ∃ u o label, own = u ++ o ∧ (u = [label] ∧ label.kind = .identifier) ∧
      ∃ v o' colon, o = v ++ o' ∧ (v = [colon] ∧ colon.kind = .colon) ∧
        ∃ w x body, o' = w ++ x ∧ Derives inside inner .statements w body ∧
          ∃ word, (x = [word] ∧ word.kind = .repeatWord) ∧
            node = .loop (.text label.text) body
              (Span.covering (token :: (u ++ (v ++ (w ++ x)))))
  | .breakWord => ∃ target, (own = [] ∧ target = "" ∨
      ∃ label, (own = [label] ∧ label.kind = .identifier) ∧ target = label.text) ∧
        node = .exit (.text target) (Span.covering (token :: own))
  | .readWord => ∃ names, Derives inside inner .names own names ∧
      node = .read names (Span.covering (token :: own))
  | .printWord => ∃ names, Derives inside inner .names own names ∧
      node = .print names (Span.covering (token :: own))
  | .identifier => ∃ u v sign, own = u ++ v ∧ (u = [sign] ∧ sign.kind = .assign) ∧
      ∃ value, Derives inside inner (.chain .sum) v value ∧
        node = .assign (.text token.text) value (Span.covering (token :: (u ++ v)))
  | _ => False

theorem afterStatement (nests : Nests inside room inner) :
    AfterStatement inside inner token own node ↔
      Derives inside room .statement (token :: own) node := by
  constructor
  · have nest : inside room inner := (nests inner).mpr rfl
    unfold AfterStatement
    split
    · rintro ⟨u, _, test, rfl, condition, _, _, thenWord, rfl, ⟨rfl, isThen⟩, w, x, body, rfl,
        consequent, rest, alternate, rfl⟩
      have derived := Derives.branch nest ‹_› condition isThen consequent alternate
      simpa using derived
    · rintro ⟨_, _, label, rfl, ⟨rfl, isLabel⟩, _, _, colon, rfl, ⟨rfl, isColon⟩, w, _, body, rfl,
        statements, word, ⟨rfl, isRepeat⟩, rfl⟩
      exact .loop nest ‹_› isLabel isColon statements isRepeat
    · rintro ⟨_, ⟨rfl, rfl⟩ | ⟨label, ⟨rfl, isLabel⟩, rfl⟩, rfl⟩
      · exact .exit nest ‹_›
      · exact .exitTo nest ‹_› isLabel
    · rintro ⟨names, derived, rfl⟩
      exact .read nest ‹_› derived
    · rintro ⟨names, derived, rfl⟩
      exact .print nest ‹_› derived
    · rintro ⟨_, v, sign, rfl, ⟨rfl, isAssign⟩, value, derived, rfl⟩
      exact .assign nest ‹_› isAssign derived
    · exact False.elim
  · intro derived
    generalize whole : token :: own = tokens at derived
    cases derived with
    | branch nest isIf condition isThen consequent alternate =>
      obtain ⟨rfl, rfl⟩ := List.cons.inj whole
      cases (nests _).mp nest
      simp only [AfterStatement, isIf]
      refine ⟨_, _, _, List.append_assoc .., condition, [_], _, _, rfl, ⟨rfl, isThen⟩, _, _, _, rfl,
        consequent, _, alternate, ?_⟩
      simp
    | loop nest isLoop isLabel isColon statements isRepeat =>
      obtain ⟨rfl, rfl⟩ := List.cons.inj whole
      cases (nests _).mp nest
      simp only [AfterStatement, isLoop]
      exact ⟨[_], _, _, rfl, ⟨rfl, isLabel⟩, [_], _, _, rfl, ⟨rfl, isColon⟩, _, _, _, rfl,
        statements, _, ⟨rfl, isRepeat⟩, rfl⟩
    | exit _ isBreak =>
      obtain ⟨rfl, rfl⟩ := List.cons.inj whole
      simp only [AfterStatement, isBreak]
      exact ⟨"", .inl ⟨trivial, rfl⟩, rfl⟩
    | exitTo _ isBreak isLabel =>
      obtain ⟨rfl, rfl⟩ := List.cons.inj whole
      simp only [AfterStatement, isBreak]
      exact ⟨_, .inr ⟨_, ⟨rfl, isLabel⟩, rfl⟩, rfl⟩
    | read nest isRead derived =>
      obtain ⟨rfl, rfl⟩ := List.cons.inj whole
      cases (nests _).mp nest
      simp only [AfterStatement, isRead]
      exact ⟨_, derived, rfl⟩
    | print nest isPrint derived =>
      obtain ⟨rfl, rfl⟩ := List.cons.inj whole
      cases (nests _).mp nest
      simp only [AfterStatement, isPrint]
      exact ⟨_, derived, rfl⟩
    | assign nest isName isAssign derived =>
      obtain ⟨rfl, rfl⟩ := List.cons.inj whole
      cases (nests _).mp nest
      simp only [AfterStatement, isName]
      exact ⟨[_], _, _, rfl, ⟨rfl, isAssign⟩, _, derived, rfl⟩

theorem follow_statement {phrases : Phrases Node}
    (all : ∀ own node, phrases.all own node ↔ AfterStatement unlimited () token own node)
    (within : ∀ own node, phrases.within own node ↔ AfterStatement counted depth token own node) :
    phrases.Follow token (of .statement (depth + 1)) :=
  ⟨fun own node => (all own node).trans (afterStatement nests_unlimited),
    fun own node => (within own node).trans (afterStatement (nests_counted depth))⟩

variable {reader after : Reader}

theorem decided_branch (ready : reader.cursor.Ready)
    (passed : reader.cursor.Passed [reader.cursor.peek] after.cursor)
    (isIf : reader.cursor.peek.kind = .ifWord)
    (test : Decides (.chain .disjunction) depth condition)
    (each : Decides .statements depth list) :
    ∃ rest : Phrases Node, rest.Follow reader.cursor.peek (of .statement (depth + 1)) ∧
      Decided rest Category.statement.more after.cursor
        (branch reader.cursor.peek.start condition list after) := by
  refine ⟨(of (.chain .disjunction) depth).andThen fun u test => (word .thenWord).andThen fun v _ =>
    (of .statements depth).andThen fun w body => (of .otherwise depth).map fun x rest =>
      .branch test body rest (Span.covering (reader.cursor.peek :: (u ++ (v ++ (w ++ x))))), ?_, ?_⟩
  · refine follow_statement ?_ ?_ <;>
      simp only [AfterStatement, isIf, andThen, map, of, word, exists_and_left, exists_and_right,
        implies_true]
  · refine decided_note fun after' same => ?_
    rw [← same] at passed
    refine decided_bind (test after' passed.ready) ?_ ?_
    · intro u node reader₁ passed₁ _
      refine decided_expect_bind rfl passed₁.ready ?_
      intro v _ reader₂ passed₂ _
      refine decided_bind (each reader₂ passed₂.ready) ?_ ?_
      · intro w body reader₃ passed₃ _
        have alternate := decides_elsePart each reader₃ passed₃.ready
        refine decided_map passed₃.ready (alternate.mono fun _ _ => rfl) ?_
        intro x rest reader₄ passed₄ _
        have whole := passed.trans (passed₁.trans (passed₂.trans (passed₃.trans passed₄)))
        exact ends_with_span ready whole (List.cons_ne_nil _ _) _
      · rintro w body x _ rest _ ⟨_, alternate, rfl⟩ -
        obtain ⟨first, others, rfl, ends⟩ := otherwise_begins _ _ alternate
        rintro _ ⟨⟩
        cases kind : first.kind <;> rw [kind] at ends <;> first | rfl | cases ends
    · rintro u test _ _ rest _ ⟨v, _, word, rfl, isThen, -⟩ -
      rw [List.append_assoc]
      exact stops_of_word isThen rfl _

theorem decided_loop (ready : reader.cursor.Ready)
    (passed : reader.cursor.Passed [reader.cursor.peek] after.cursor)
    (isLoop : reader.cursor.peek.kind = .loopWord) (each : Decides .statements depth list) :
    ∃ rest : Phrases Node, rest.Follow reader.cursor.peek (of .statement (depth + 1)) ∧
      Decided rest Category.statement.more after.cursor
        (loop reader.cursor.peek.start list after) := by
  refine ⟨(word .identifier).andThen fun u label => (word .colon).andThen fun v _ =>
    (of .statements depth).andThen fun w body => (word .repeatWord).map fun x _ =>
      .loop (.text label.text) body
        (Span.covering (reader.cursor.peek :: (u ++ (v ++ (w ++ x))))), ?_, ?_⟩
  · refine follow_statement ?_ ?_ <;>
      simp only [AfterStatement, isLoop, andThen, map, of, word, exists_and_left,
        exists_and_right, implies_true]
  · refine decided_note fun after' same => ?_
    rw [← same] at passed
    refine decided_expect_bind rfl passed.ready ?_
    intro u label reader₁ passed₁ _
    refine decided_expect_bind rfl passed₁.ready ?_
    intro v _ reader₂ passed₂ _
    refine decided_bind (each reader₂ passed₂.ready) ?_ ?_
    · intro w body reader₃ passed₃ _
      have valid : Kind.repeatWord.isValid = true := rfl
      have word := decided_expect valid passed₃.ready
      refine decided_map passed₃.ready (word.mono fun _ _ => rfl) ?_
      intro x _ reader₄ passed₄ _
      have whole := passed.trans (passed₁.trans (passed₂.trans (passed₃.trans passed₄)))
      exact ends_with_span ready whole (List.cons_ne_nil _ _) _
    · rintro w body x _ rest _ ⟨_, isRepeat, rfl⟩ -
      exact stops_of_word isRepeat rfl rest

theorem label_begins (own : List Token) (label : String)
    (phrase : ((word .identifier).map fun _ label => label.text).all own label) :
    ∃ first rest, own = first :: rest ∧ (first.kind == .identifier) = true := by
  obtain ⟨token, ⟨rfl, isLabel⟩, -⟩ := phrase
  exact ⟨token, [], rfl, by rw [isLabel]; rfl⟩

theorem decided_exitTarget (ready : reader.cursor.Ready) :
    Decided (orNone "" ((word .identifier).map fun _ label => label.text)) (· == .identifier)
      reader.cursor (exitTarget reader) := by
  have taken : (reader.cursor.peek.kind == .identifier) = true →
      Decided ((word .identifier).map fun _ label => label.text) (fun _ => false) reader.cursor
        (exitTarget reader) := by
    intro isLabel
    rw [exitTarget, peek_bind, if_pos (eq_of_beq isLabel)]
    refine decided_take (· == .identifier) none ready ?_ label_begins ?_ ?_
    · intro kind is
      rw [eq_of_beq is]
      rfl
    · intro _ other
      rw [isLabel] at other
      cases other
    · intro after _ passed
      refine ⟨done reader.cursor.peek.text, ?_, decided_done passed.ready rfl rfl⟩
      constructor
      all_goals
        intro own label
        constructor
        · rintro ⟨rfl, rfl⟩
          exact ⟨_, ⟨rfl, eq_of_beq isLabel⟩, rfl⟩
        · rintro ⟨token, ⟨equal, -⟩, rfl⟩
          obtain ⟨rfl, rfl⟩ := List.cons.inj equal
          exact ⟨rfl, rfl⟩
  refine decided_orNone (· == .identifier) ready label_begins taken fun other => ?_
  rw [exitTarget, peek_bind, if_neg (by simpa using other)]
  exact ⟨reader, rfl, rfl⟩

theorem decided_exit (ready : reader.cursor.Ready)
    (passed : reader.cursor.Passed [reader.cursor.peek] after.cursor)
    (isBreak : reader.cursor.peek.kind = .breakWord) :
    ∃ rest : Phrases Node, rest.Follow reader.cursor.peek (of .statement (depth + 1)) ∧
      Decided rest Category.statement.more after.cursor
        ((exitTarget >>= fun target => spanFrom reader.cursor.peek.start >>= fun span =>
          pure (.exit (.text target) span)) after) := by
  refine ⟨(orNone "" ((word .identifier).map fun _ label => label.text)).map fun v target =>
    .exit (.text target) (Span.covering (reader.cursor.peek :: v)), ?_, ?_⟩
  · refine follow_statement ?_ ?_ <;> simp [AfterStatement, isBreak, map, orNone, word]
  · refine decided_map passed.ready ((decided_exitTarget passed.ready).mono ?_) ?_
    · simp +contextual [Category.more]
    · intro v target reader₁ passed₁ _
      exact ends_with_span ready (passed.trans passed₁) (List.cons_ne_nil _ _) _

theorem decided_names (ready : reader.cursor.Ready)
    (passed : reader.cursor.Passed [reader.cursor.peek] after.cursor)
    {build : Node → Option Span → Node} (follow : ∀ own node,
      AfterStatement unlimited () reader.cursor.peek own node ↔
        ∃ names, Derives unlimited () .names own names ∧
          node = build names (Span.covering (reader.cursor.peek :: own)))
    (follow' : ∀ own node,
      AfterStatement counted depth reader.cursor.peek own node ↔
        ∃ names, Derives counted depth .names own names ∧
          node = build names (Span.covering (reader.cursor.peek :: own))) :
    ∃ rest : Phrases Node, rest.Follow reader.cursor.peek (of .statement (depth + 1)) ∧
      Decided rest Category.statement.more after.cursor
        ((names >>= fun list => spanFrom reader.cursor.peek.start >>= fun span =>
          pure (build list span)) after) := by
  refine ⟨(of .names depth).map fun own list =>
      build list (Span.covering (reader.cursor.peek :: own)),
    follow_statement (fun own node => (follow own node).symm)
      (fun own node => (follow' own node).symm), ?_⟩
  have list := decides_names depth after passed.ready
  refine decided_map passed.ready (list.mono ?_) ?_
  · simp +contextual [Category.more]
  · intro own list reader₁ passed₁ _
    exact ends_with_span ready (passed.trans passed₁) (List.cons_ne_nil _ _) _

theorem decided_assignment (ready : reader.cursor.Ready)
    (passed : reader.cursor.Passed [reader.cursor.peek] after.cursor)
    (isName : reader.cursor.peek.kind = .identifier) :
    ∃ rest : Phrases Node, rest.Follow reader.cursor.peek (of .statement (depth + 1)) ∧
      Decided rest Category.statement.more after.cursor (assignment depth after) := by
  refine ⟨(word .assign).andThen fun u _ => (of (.chain .sum) depth).map fun v value =>
    .assign (.text reader.cursor.peek.text) value
      (Span.covering (reader.cursor.peek :: (u ++ v))), ?_, ?_⟩
  · refine follow_statement ?_ ?_ <;> simp [AfterStatement, isName, andThen, map, of, word]
  · have last : after.cursor.lastReal? = some reader.cursor.peek := passed.last
    rw [assignment, current_bind last]
    refine decided_note fun after' same => ?_
    rw [← same] at passed
    refine decided_expect_bind rfl passed.ready ?_
    intro u _ reader₁ passed₁ _
    have sum := decides_sum depth reader₁ passed₁.ready
    refine decided_map passed₁.ready (sum.mono ?_) ?_
    · simp +contextual [Category.more]
    · intro v value reader₂ passed₂ _
      exact ends_with_span ready (passed.trans (passed₁.trans passed₂)) (List.cons_ne_nil _ _) _

theorem decides_statement (depth : Nat) : Decides .statement depth (statement depth) := by
  induction depth with
  | zero =>
    refine fun reader ready =>
      decided_exhaust startsStatement _ ready isValid_of_startsStatement statement_begins ?_
    intro own node derived
    cases derived with
    | branch nest | loop nest | exit nest | exitTo nest | read nest | print nest | assign nest =>
      cases nest
  | succ depth ih =>
    intro reader ready
    have list := decides_listOf ih
    refine decided_take startsStatement _ ready isValid_of_startsStatement statement_begins ?_ ?_
    · intro after starts
      cases kind : reader.cursor.peek.kind <;> simp only [kind] at starts ⊢ <;>
        first | rfl | cases starts
    · intro after starts passed
      cases kind : reader.cursor.peek.kind with
      | ifWord => exact decided_branch ready passed kind (decides_condition depth) list
      | loopWord => exact decided_loop ready passed kind list
      | breakWord => exact decided_exit ready passed kind
      | readWord =>
        exact decided_names ready passed (by simp [AfterStatement, kind])
          (by simp [AfterStatement, kind])
      | printWord =>
        exact decided_names ready passed (by simp [AfterStatement, kind])
          (by simp [AfterStatement, kind])
      | identifier => exact decided_assignment ready passed kind
      | _ => rw [kind] at starts; cases starts

theorem decides_statements (depth : Nat) : Decides .statements depth (statements depth) :=
  decides_listOf (decides_statement depth)

end Statements

end LoopLang.Reading
