import LoopLang.Proofs.Cutting
import LoopLang.Proofs.Parsing
import LoopLang.Syntax.Writing

/-!
# Reading what was written

A written tree is cut into the symbols of the tree, and tokens with the same symbols have
the same tree but for the places of its nodes. So a program that was read and written can
be read again.
-/
namespace LoopLang

open Lexeme

theorem Lexeme.text_of_name {lexeme : Lexeme} (isName : lexeme.kind = .identifier) :
    lexeme.text = .ofList lexeme.chars := by
  simp [Lexeme.text, isName, Kind.complaint?]

/-- A token that can be written: if it is a number it is written without an exponent. -/
structure Token.Writable (token : Token) : Prop where
  proper : token.Proper
  fixed : ∀ value, token.symbol = .number (some value) → Number.Fixed value

/-- How a phrase stands in a written tree. -/
def Category.written : Category → Node → String
  | .names, node => node.commaSeparated
  | .tail _, node => node.ifPresent node.written
  | _, node => node.written

@[simp] theorem Category.written_operand (level : Level) (node : Node) :
    Category.written (.operand level) node = node.written := by
  cases level <;> rfl

theorem Lexeme.loose_blank (rest : List Char) : Loose (' ' :: rest) :=
  loose_cons (by decide) rest

namespace Cuts

variable {rest : List Char} {symbols : List Symbol}

theorem taken {token : Token} {kind : Kind} (is : token.kind = kind) {chars : List Char}
    (spelled : kind.spelling? = some chars) (taken : first (chars ++ rest) = ⟨kind, chars⟩)
    (cuts : Cuts rest symbols) : Cuts (chars ++ rest) (token.symbol :: symbols) := by
  have cut := cuts.spelled spelled taken
  have symbol : token.symbol = .word kind := by
    apply Token.symbol_of_kind is
    · rintro rfl
      cases spelled
    · rintro rfl
      cases spelled
  rwa [symbol]

theorem token {token : Token} {kind : Kind} (is : token.kind = kind) {chars : List Char}
    (spelled : kind.spelling? = some chars) (loose : Loose rest) (cuts : Cuts rest symbols) :
    Cuts (chars ++ rest) (token.symbol :: symbols) :=
  cuts.taken is spelled (first_word spelled loose)

theorem sign {token : Token} {kind : Kind} (is : token.kind = kind) {c : Char}
    (spelled : kind.spelling? = some [c]) (sign : kind ∈ [.opening, .minus])
    (cuts : Cuts rest symbols) : Cuts (c :: rest) (token.symbol :: symbols) :=
  cuts.taken is spelled (first_prefix_sign spelled sign rest)

theorem nameToken {token : Token} (is : token.kind = .identifier) (proper : token.Proper)
    (loose : Loose rest) (cuts : Cuts rest symbols) :
    Cuts (token.text.toList ++ rest) (token.symbol :: symbols) := by
  have cut := Cuts.name (proper.named is) loose cuts
  rw [Lexeme.symbol_of_name is, Lexeme.text_of_name is, String.toList_ofList]
  exact cut

theorem operator {token : Token} (proper : token.Proper)
    (joins : (∃ level : Level, level.joins token.kind = true) ∨ token.kind.isRelation = true)
    (loose : Loose rest) (cuts : Cuts rest symbols) :
    Cuts (token.text.toList ++ rest) (token.symbol :: symbols) := by
  obtain ⟨-, -, chars, spelled⟩ := Kind.operator_spelling joins
  have cut := Cuts.token rfl spelled loose cuts
  rwa [proper.text_eq spelled, String.toList_ofList]

theorem numberToken {token : Token} (is : token.kind = .number) (writable : token.Writable)
    (loose : Loose rest) (cuts : Cuts rest symbols) (span : Option Span) :
    Cuts ((Node.number (Number.read? token.chars) span).written.toList ++ rest)
      (token.symbol :: symbols) := by
  obtain ⟨n, k, read⟩ := writable.proper.readable is
  have symbol := Lexeme.symbol_of_number is
  rw [read] at symbol
  have cut := Cuts.number (writable.fixed _ symbol) loose cuts
  rw [symbol, read, Node.written, Number.write, String.toList_ofList]
  exact cut

end Cuts

namespace Derives

variable {ρ : Type} {inside : ρ → ρ → Prop} {room : ρ} {category : Category} {own : List Token}
  {node : Node}

theorem ifPresent_statements (derived : Derives inside room .statements own node)
    (written : String) : node.ifPresent written = written := by
  cases derived <;> rfl

theorem loose_tail {level : Level} (derived : Derives inside room (.tail level) own node)
    {rest : List Char} (loose : Loose rest) :
    Loose ((Category.written (.tail level) node).toList ++ rest) := by
  cases derived with
  | noTail => exact loose
  | link =>
    simp only [Category.written, Node.ifPresent, Node.written, String.toList_append]
    exact loose_blank _

/-- A written tree is cut into the symbols of the tokens that it was derived from. -/
theorem cuts (derived : Derives inside room category own node)
    (writable : ∀ token ∈ own, token.Writable) {rest : List Char} {symbols : List Symbol}
    (loose : Loose rest) (cuts : Cuts rest symbols) :
    Cuts ((category.written node).toList ++ rest) (own.map (·.symbol) ++ symbols) := by
  induction derived generalizing rest symbols with
  | program _ isPoint ih =>
    simp only [List.forall_mem_append] at writable
    have point := Cuts.token isPoint rfl loose cuts
    have body := ih writable.1 (loose_blank _) point.blank
    simpa [Category.written, Node.written] using body
  | oneStatement _ ih =>
    have first := ih writable loose cuts
    simpa [Category.written, Node.written, Node.ifPresent] using first
  | moreStatements _ isSemicolon others ih ih' =>
    simp only [List.forall_mem_append, List.forall_mem_cons] at writable
    have later := ih' writable.2.2 loose cuts
    have semicolon := Cuts.token isSemicolon rfl (loose_blank _) later.blank
    have first := ih writable.1 (loose_cons (by decide) _) semicolon
    simpa [Category.written, Node.written, others.ifPresent_statements] using first
  | branch _ isIf _ isThen _ _ ih ih' ih'' =>
    simp only [List.forall_mem_append, List.forall_mem_cons] at writable
    obtain ⟨⟨⟨-, condition⟩, -, consequent⟩, alternate⟩ := writable
    have alternate := ih'' alternate loose cuts
    have body := ih' consequent (loose_blank _) alternate.blank
    have thenWord := Cuts.token isThen rfl (loose_blank _) body.blank
    have test := ih condition (loose_blank _) thenWord.blank
    have ifWord := Cuts.token isIf rfl (loose_blank _) test.blank
    simpa [Category.written, Node.written] using ifWord
  | fi isFi =>
    have fiWord := Cuts.token isFi rfl loose cuts
    simpa [Category.written, Node.written] using fiWord
  | otherwise isElse list isFi ih =>
    simp only [List.forall_mem_append, List.forall_mem_cons] at writable
    have fiWord := Cuts.token isFi rfl loose cuts
    have body := ih writable.1.2 (loose_blank _) fiWord.blank
    have elseWord := Cuts.token isElse rfl (loose_blank _) body.blank
    cases list <;> simpa [Category.written, Node.written] using elseWord
  | loop _ isLoop isLabel isColon _ isRepeat ih =>
    simp only [List.forall_mem_append, List.forall_mem_cons] at writable
    obtain ⟨⟨-, label, -, body⟩, -⟩ := writable
    have repeatWord := Cuts.token isRepeat rfl loose cuts
    have body := ih body (loose_blank _) repeatWord.blank
    have colon := Cuts.token isColon rfl (loose_blank _) body.blank
    have label := Cuts.nameToken isLabel label.proper (loose_cons (by decide) _) colon
    have loopWord := Cuts.token isLoop rfl (loose_blank _) label.blank
    simpa [Category.written, Node.written, Node.inLine] using loopWord
  | exit _ isBreak =>
    have breakWord := Cuts.token isBreak rfl loose cuts
    simpa [Category.written, Node.written, Node.isGiven] using breakWord
  | @exitTo _ _ _ label _ isBreak isLabel =>
    have proper := (writable label (by simp)).proper
    have target := Cuts.nameToken isLabel proper loose cuts
    have breakWord := Cuts.token isBreak rfl (loose_blank _) target.blank
    simpa [Category.written, Node.written, Node.isGiven, Node.inLine,
      proper.text_ne_empty isLabel] using breakWord
  | read _ isRead _ ih =>
    simp only [List.forall_mem_cons] at writable
    have names := ih writable.2 loose cuts
    have readWord := Cuts.token isRead rfl (loose_blank _) names.blank
    simpa [Category.written, Node.written] using readWord
  | print _ isPrint _ ih =>
    simp only [List.forall_mem_cons] at writable
    have names := ih writable.2 loose cuts
    have printWord := Cuts.token isPrint rfl (loose_blank _) names.blank
    simpa [Category.written, Node.written] using printWord
  | assign _ isName isAssign _ ih =>
    simp only [List.forall_mem_cons] at writable
    have value := ih writable.2.2 loose cuts
    have assign := Cuts.token isAssign rfl (loose_blank _) value.blank
    have name := Cuts.nameToken isName writable.1.proper (loose_blank _) assign.blank
    simpa [Category.written, Node.written, Node.inLine] using name
  | @oneName _ name isName =>
    have name := Cuts.nameToken isName (writable name (by simp)).proper loose cuts
    simpa [Category.written, Node.commaSeparated, Node.names, Node.elements, Node.inLine] using name
  | moreNames isName isComma list ih =>
    simp only [List.forall_mem_cons] at writable
    have others := ih writable.2.2 loose cuts
    have comma := Cuts.token isComma rfl (loose_blank _) others.blank
    have name := Cuts.nameToken isName writable.1.proper (loose_cons (by decide) _) comma
    cases list <;> simpa [Category.written, Node.commaSeparated, Node.names, Node.elements,
      Node.inLine] using name
  | chain _ links ih ih' =>
    simp only [List.forall_mem_append] at writable
    have tail := ih' writable.2 loose cuts
    have first := ih writable.1 (links.loose_tail loose) tail
    rw [Category.written_operand] at first
    simpa [Category.written, Node.written] using first
  | noTail => exact cuts
  | link joins _ links ih ih' =>
    simp only [List.forall_mem_append, List.forall_mem_cons] at writable
    have tail := ih' writable.2 loose cuts
    have operand := ih writable.1.2 (links.loose_tail loose) tail
    rw [Category.written_operand] at operand
    have operator :=
      Cuts.operator writable.1.1.proper (.inl ⟨_, joins⟩) (loose_blank _) operand.blank
    simpa [Category.written, Node.ifPresent, Node.written, Node.inLine] using operator.blank
  | single _ ih =>
    have sum := ih writable loose cuts
    simpa [Category.written, Node.written] using sum
  | relation relates _ _ ih ih' =>
    simp only [List.forall_mem_append, List.forall_mem_cons] at writable
    have right := ih' writable.2.2 loose cuts
    have operator := Cuts.operator writable.2.1.proper (.inr relates) (loose_blank _) right.blank
    have left := ih writable.1 (loose_blank _) operator.blank
    simpa [Category.written, Node.written, Node.inLine] using left
  | negation _ isMinus _ ih =>
    simp only [List.forall_mem_cons] at writable
    have operand := ih writable.2 loose cuts
    have minus := Cuts.sign isMinus rfl (by decide) operand
    simpa [Category.written, Node.written] using minus
  | parenthesized _ isOpening _ isClosing ih =>
    simp only [List.forall_mem_append, List.forall_mem_cons] at writable
    have closing := Cuts.token isClosing rfl loose cuts
    have inner := ih writable.1.2 (loose_cons (by decide) _) closing
    have opening := Cuts.sign isOpening rfl (by decide) inner
    simpa [Category.written, Node.written] using opening
  | @number _ _ token _ isNumber =>
    exact Cuts.numberToken isNumber (writable token (by simp)) loose cuts _
  | @name _ _ token _ isName =>
    have name := Cuts.nameToken isName (writable token (by simp)).proper loose cuts
    simpa [Category.written, Node.written, Node.inLine] using name

end Derives

/-- Nothing but the levels stands in the way. -/
def OnlyLevels (obstacle? : Option Fault) : Prop :=
  ∀ fault, obstacle? = some fault → fault = .stackExhausted

namespace OnlyLevels

variable {first second : Option Fault}

theorem none_ : OnlyLevels none := by
  intro fault found
  cases found

theorem exhausted : OnlyLevels (some .stackExhausted) := by
  intro fault found
  cases found
  rfl

theorem orElse (one : OnlyLevels first) (other : OnlyLevels second) :
    OnlyLevels (first <|> second) := by
  cases first with
  | none => exact other
  | some fault => exact one

theorem of_succ {inLanguage : Bool} {node : Node}
    (succ : ∀ levels, OnlyLevels (node.obstacle? inLanguage (levels + 1))) (levels : Nat) :
    OnlyLevels (node.obstacle? inLanguage levels) := by
  cases levels with
  | zero => cases node <;> first | exact none_ | exact exhausted
  | succ levels => exact succ levels

end OnlyLevels

/-- What a phrase has to be for its tree to be written. -/
def Category.Unhindered (node : Node) : Category → Prop
  | .names => node.namesFault? = none ∧ node.names.all Node.isText = true
  | _ => ∀ levels, OnlyLevels (node.obstacle? true levels)

theorem Category.unhindered_operand {level : Level} {node : Node}
    (operand : (Category.operand level).Unhindered node) (levels : Nat) :
    OnlyLevels (node.obstacle? true levels) := by
  cases level <;> exact operand levels

theorem Derives.unhindered {ρ : Type} {inside : ρ → ρ → Prop} {room : ρ} {category : Category}
    {own : List Token} {node : Node} (derived : Derives inside room category own node) :
    category.Unhindered node := by
  induction derived with
  | oneName => exact ⟨rfl, rfl⟩
  | moreNames _ _ list ih =>
    refine ⟨rfl, ?_⟩
    cases list <;> exact ih.2
  | noTail | number => exact fun _ => .none_
  | program _ _ ih | otherwise _ _ _ ih | negation _ _ _ ih | parenthesized _ _ _ _ ih =>
    exact .of_succ ih
  | fi | exit | name => exact .of_succ fun _ => .none_
  | oneStatement _ ih | single _ ih => exact .of_succ fun levels => (ih levels).orElse .none_
  | moreStatements _ _ others ih ih' =>
    refine .of_succ fun levels => ?_
    have rest := ih' (levels + 1)
    cases others <;> exact (ih levels).orElse rest
  | branch _ _ _ _ _ _ ih ih' ih'' =>
    exact .of_succ fun levels => (ih levels).orElse ((ih' levels).orElse (ih'' levels))
  | loop _ _ _ _ _ _ ih | assign _ _ _ _ ih =>
    exact .of_succ fun levels => .orElse .none_ (ih levels)
  | @exitTo _ _ _ label =>
    refine .of_succ fun levels => ?_
    rw [Node.obstacle?]
    split <;> exact .none_
  | read _ _ _ ih | print _ _ _ ih =>
    refine .of_succ fun levels => ?_
    rw [Node.obstacle?, if_pos rfl, ih.1, ih.2]
    exact .none_
  | chain _ _ ih ih' =>
    exact .of_succ fun levels => .orElse (Category.unhindered_operand ih levels) (ih' levels)
  | link _ _ _ ih ih' =>
    exact .of_succ fun levels =>
      .orElse .none_ (.orElse (Category.unhindered_operand ih levels) (ih' levels))
  | relation _ _ _ ih ih' =>
    exact .of_succ fun levels => .orElse (ih levels) (.orElse .none_ (ih' levels))

theorem Source.symbols_of_cuts {written : String} {symbols : List Symbol}
    (cuts : Cuts written.toList symbols) :
    (Source.ofText false written).words.map (·.symbol) = symbols :=
  cuts.tokensFrom (Source.ofText false written) _ 0 (Nat.le_refl _)

namespace Reading

theorem write_of_parsed {limits : Limits} {tracing : Bool} {source : Source} {node : Node}
    {reader : Reader} (parsed : program limits (.ofSource tracing source) = .ok node reader)
    (levels : Nat) :
    node.write levels = .error .stackExhausted ∨ node.write levels = .ok node.written := by
  obtain ⟨own, -, -, derived⟩ := derives_of_program parsed
  rw [Node.write]
  split
  · rename_i fault found
    rw [derived.unhindered _ fault found]
    exact .inl rfl
  · exact .inr rfl

/-- A written program whose numbers are written without an exponent can be read again with no
less depth, and all but the places of its nodes is the same. -/
theorem read_written {limits limits' : Limits} {tracing tracing' : Bool}
    (noLess : limits.depth tracing ≤ limits'.depth tracing') {source : Source} {node : Node}
    {reader : Reader} (parsed : program limits (.ofSource tracing source) = .ok node reader)
    (fixed : ∀ value, .number (some value) ∈ node.symbols → Number.Fixed value) :
    ∃ node' reader',
      program limits' (.ofSource tracing' (.ofText false node.written)) = .ok node' reader' ∧
        node'.bare = node.bare := by
  obtain ⟨own, -, proper, derived⟩ := derives_of_program parsed
  have writable : ∀ token ∈ own, token.Writable := by
    intro token member
    refine ⟨proper token member, fun value isNumber => fixed value ?_⟩
    rw [derived.symbols proper, ← isNumber]
    exact List.mem_map_of_mem member
  have cuts := derived.cuts writable loose_nil .done
  rw [List.append_nil, List.append_nil] at cuts
  have alike : Alike own (Source.ofText false node.written).words :=
    ⟨Source.symbols_of_cuts cuts, proper, fun token member => Source.proper_of_words member⟩
  obtain ⟨node', derived', bare⟩ := derived.alike alike
  obtain ⟨reader', parsed'⟩ :=
    program_of_derives tracing' List.prefix_rfl (derived'.deepen noLess)
  exact ⟨node', reader', parsed', bare⟩

/-- A program that was read, and whose numbers are written without an exponent, can be
written and read again with no less depth, unless it takes too many levels to be written; all
but the places of its nodes is the same. -/
theorem program_write (limits limits' : Limits) (tracing tracing' upcase : Bool)
    (noLess : limits.depth tracing ≤ limits'.depth tracing') (text : String) (node : Node)
    (reader : Reader)
    (parsed : program limits (.ofSource tracing (.ofText upcase text)) = .ok node reader)
    (fixed : ∀ value, .number (some value) ∈ node.symbols → Number.Fixed value) :
    node.write limits.writing = .error .stackExhausted ∨
      ∃ written node' reader', node.write limits.writing = .ok written ∧
        program limits' (.ofSource tracing' (.ofText false written)) = .ok node' reader' ∧
          node'.bare = node.bare := by
  rcases write_of_parsed parsed limits.writing with exhausted | writes
  · exact .inl exhausted
  · obtain ⟨node', reader', parsed', bare⟩ := read_written noLess parsed fixed
    exact .inr ⟨node.written, node', reader', writes, parsed', bare⟩

/-- A product with a number that is written in another way than it was read. -/
theorem product_write : ∃ node reader,
    program .standard (.ofSource false (.ofText true "x:=007*(y-0.250).")) = .ok node reader ∧
      (∀ value, .number (some value) ∈ node.symbols → Number.Fixed value) ∧
      node.write Limits.standard.writing = .ok "X := 7.0 * (Y - 0.25) ." ∧
      ∃ node' reader',
        program .standard (.ofSource false (.ofText false "X := 7.0 * (Y - 0.25) .")) =
          .ok node' reader' ∧ node'.bare = node.bare := by
  obtain ⟨node, reader, parsed, writes, symbols⟩ : ∃ node reader,
      program .standard (.ofSource false (.ofText true "x:=007*(y-0.250).")) = .ok node reader ∧
        node.write Limits.standard.writing = .ok "X := 7.0 * (Y - 0.25) ." ∧
        node.symbols = [.name "X", .word .assign, .number (some (Number.ofDecimal 7 0)),
          .word .star, .word .opening, .name "Y", .word .minus,
          .number (some (Number.ofDecimal 250 (-3))), .word .closing, .word .point] :=
    ⟨_, _, rfl, by rfl, by rfl⟩
  have seven : Number.Fixed (Number.ofDecimal 7 0) := .inr ⟨by decide, by decide⟩
  have quarter : Number.Fixed (Number.ofDecimal 250 (-3)) := .inr ⟨by decide, by decide⟩
  have fixed : ∀ value, .number (some value) ∈ node.symbols → Number.Fixed value := by
    intro value member
    simp only [symbols, List.mem_cons, Symbol.number.injEq, Option.some.injEq, reduceCtorEq,
      false_or, List.not_mem_nil, or_false] at member
    rcases member with rfl | rfl
    · exact seven
    · exact quarter
  refine ⟨node, reader, parsed, fixed, writes, ?_⟩
  rcases program_write .standard .standard false false true (Nat.le_refl _) _ node reader parsed
    fixed with
    exhausted | ⟨written, node', reader', writes', again⟩
  · cases writes.symm.trans exhausted
  · cases writes.symm.trans writes'
    exact ⟨node', reader', again⟩

end Reading

end LoopLang
