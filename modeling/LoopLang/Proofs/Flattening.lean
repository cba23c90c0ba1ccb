import LoopLang.Proofs.Derivation
import LoopLang.Proofs.Scanning

/-!
# Trees and their symbols

A symbol is what a token says, whatever its place. The symbols of a tree, written out in
order, are those of the tokens that the tree was derived from. So two texts with the same
symbols have the same trees but for the places of their nodes.
-/
namespace LoopLang

inductive Symbol where
  | word (kind : Kind)
  | name (text : String)
  | number (value : Option Float)
  deriving DecidableEq

namespace Symbol

def ofOperator (text : String) : Symbol :=
  match Kind.all.find? fun kind => kind.spelling? == some text.toList with
  | some kind => word kind
  | none => name text

def kind : Symbol → Kind
  | word kind => kind
  | name _ => .identifier
  | number _ => .number

end Symbol

namespace Lexeme

def symbol (lexeme : Lexeme) : Symbol :=
  match lexeme.kind with
  | .identifier => .name lexeme.text
  | .number => .number (Number.read? lexeme.chars)
  | kind => .word kind

@[simp] theorem kind_symbol (lexeme : Lexeme) : lexeme.symbol.kind = lexeme.kind := by
  unfold symbol
  split <;> simp_all [Symbol.kind]

theorem symbol_of_word {lexeme : Lexeme} (notName : lexeme.kind ≠ .identifier)
    (notNumber : lexeme.kind ≠ .number) : lexeme.symbol = .word lexeme.kind := by
  unfold symbol
  split <;> first | contradiction | rfl

theorem symbol_of_name {lexeme : Lexeme} (isName : lexeme.kind = .identifier) :
    lexeme.symbol = .name lexeme.text := by
  simp only [symbol, isName]

theorem symbol_of_number {lexeme : Lexeme} (isNumber : lexeme.kind = .number) :
    lexeme.symbol = .number (Number.read? lexeme.chars) := by
  simp only [symbol, isNumber]

end Lexeme

namespace Node

/-- A part of a list after its separator, unless the list ends before it. -/
def following (rest : Node) (separator : Kind) (symbols : List Symbol) : List Symbol :=
  match rest with
  | absent | emptyList => []
  | _ => .word separator :: symbols

def operatorSymbols : Node → List Symbol
  | text content => [.ofOperator content]
  | _ => []

def symbols : Node → List Symbol
  | absent | emptyList => []
  | text content => [.name content]
  | item head rest => head.symbols ++ rest.following .comma rest.symbols
  | program body _ => body.symbols ++ [.word .point]
  | sequence first rest _ => first.symbols ++ rest.following .semicolon rest.symbols
  | branch test consequent alternate _ =>
    .word .ifWord :: test.symbols ++ .word .thenWord :: consequent.symbols ++ alternate.symbols
  | otherwise absent _ => [.word .fiWord]
  | otherwise body _ => .word .elseWord :: body.symbols ++ [.word .fiWord]
  | loop label body _ =>
    .word .loopWord :: label.symbols ++ .word .colon :: body.symbols ++ [.word .repeatWord]
  | exit target _ => .word .breakWord :: if target.isGiven then target.symbols else []
  | assign name value _ => name.symbols ++ .word .assign :: value.symbols
  | read names _ => .word .readWord :: names.symbols
  | print names _ => .word .printWord :: names.symbols
  | chain _ first tail _ => first.symbols ++ tail.symbols
  | link _ operator operand tail _ =>
    operator.operatorSymbols ++ operand.symbols ++ tail.symbols
  | comparison left operator right _ =>
    left.symbols ++ operator.operatorSymbols ++ right.symbols
  | negation operand _ => .word .minus :: operand.symbols
  | parenthesized inner _ => .word .opening :: inner.symbols ++ [.word .closing]
  | number value _ => [.number value]
  | identifier name _ => name.symbols

/-- A tree without the places of its nodes. -/
def bare : Node → Node
  | absent => absent
  | text content => text content
  | emptyList => emptyList
  | item head rest => item head.bare rest.bare
  | program body _ => program body.bare none
  | sequence first rest _ => sequence first.bare rest.bare none
  | branch test consequent alternate _ => branch test.bare consequent.bare alternate.bare none
  | otherwise body _ => otherwise body.bare none
  | loop label body _ => loop label.bare body.bare none
  | exit target _ => exit target.bare none
  | assign name value _ => assign name.bare value.bare none
  | read names _ => read names.bare none
  | print names _ => print names.bare none
  | chain level first tail _ => chain level first.bare tail.bare none
  | link level operator operand tail _ =>
    link level operator.bare operand.bare tail.bare none
  | comparison left operator right _ => comparison left.bare operator.bare right.bare none
  | negation operand _ => negation operand.bare none
  | parenthesized inner _ => parenthesized inner.bare none
  | number value _ => number value none
  | identifier name _ => identifier name.bare none

end Node

theorem Lexeme.Proper.text_eq {lexeme : Lexeme} (proper : lexeme.Proper) {chars : List Char}
    (spelled : lexeme.kind.spelling? = some chars) : lexeme.text = .ofList chars := by
  have valid := Kind.isValid_of_spelling? spelled
  have notString : lexeme.kind ≠ .string := by
    intro isString
    rw [isString] at spelled
    cases spelled
  rw [Lexeme.text, if_neg notString, proper.spelled chars spelled]
  split
  · rename_i complaint found
    rw [Kind.isValid, found] at valid
    cases valid
  · rfl

theorem Symbol.ofOperator_spelling {kind : Kind} {chars : List Char}
    (spelled : kind.spelling? = some chars) : ofOperator (.ofList chars) = .word kind := by
  cases kind <;> first | cases spelled; rfl | cases spelled

theorem Token.symbol_of_kind {token : Token} {kind : Kind} (is : token.kind = kind)
    (notName : kind ≠ .identifier) (notNumber : kind ≠ .number) : token.symbol = .word kind := by
  subst is
  exact Lexeme.symbol_of_word notName notNumber

theorem Kind.operator_spelling {kind : Kind}
    (operator : (∃ level : Level, level.joins kind = true) ∨ kind.isRelation = true) :
    kind ≠ .identifier ∧ kind ≠ .number ∧ ∃ chars, kind.spelling? = some chars := by
  rcases operator with ⟨level, joins⟩ | relates
  · cases level <;> cases kind <;> first | cases joins; done | exact ⟨nofun, nofun, _, rfl⟩
  · cases kind <;> first | cases relates; done | exact ⟨nofun, nofun, _, rfl⟩

theorem Token.operatorSymbols {token : Token} (proper : token.Proper)
    (operator : (∃ level : Level, level.joins token.kind = true) ∨ token.kind.isRelation = true) :
    (Node.text token.text).operatorSymbols = [token.symbol] := by
  obtain ⟨notName, notNumber, chars, spelled⟩ := Kind.operator_spelling operator
  rw [Node.operatorSymbols, proper.text_eq spelled, Symbol.ofOperator_spelling spelled,
    Lexeme.symbol_of_word notName notNumber]

theorem Lexeme.Proper.text_ne_empty {lexeme : Lexeme} (proper : lexeme.Proper)
    (isName : lexeme.kind = .identifier) : lexeme.text.isEmpty = false := by
  have text : lexeme.text = .ofList lexeme.chars := by
    simp [Lexeme.text, isName, Kind.complaint?]
  obtain ⟨c, rest, some_, -⟩ := (proper.named isName).start
  rw [text]
  simp [some_]

namespace Derives

variable {ρ : Type} {inside : ρ → ρ → Prop} {room : ρ} {category : Category} {own : List Token}
  {node : Node}

theorem following_statements (derived : Derives inside room .statements own node)
    (symbols : List Symbol) :
    node.following .semicolon symbols = .word .semicolon :: symbols := by
  cases derived <;> rfl

theorem following_names (derived : Derives inside room .names own node)
    (symbols : List Symbol) : node.following .comma symbols = .word .comma :: symbols := by
  cases derived <;> rfl

/-- The symbols of a tree are those of the tokens that it was derived from. -/
theorem symbols (derived : Derives inside room category own node)
    (proper : ∀ token ∈ own, token.Proper) : node.symbols = own.map (·.symbol) := by
  induction derived with
  | program _ isPoint ih =>
    simp only [List.forall_mem_append] at proper
    simp [Node.symbols, ih proper.1, Token.symbol_of_kind isPoint]
  | oneStatement _ ih => simp [Node.symbols, ih proper, Node.following]
  | moreStatements _ isSemicolon rest ih ih' =>
    simp only [List.forall_mem_append, List.forall_mem_cons] at proper
    simp [Node.symbols, ih proper.1, ih' proper.2.2, rest.following_statements,
      Token.symbol_of_kind isSemicolon]
  | branch _ isIf _ isThen _ _ ih ih' ih'' =>
    simp only [List.forall_mem_append, List.forall_mem_cons] at proper
    obtain ⟨⟨⟨-, condition⟩, -, consequent⟩, alternate⟩ := proper
    simp [Node.symbols, ih condition, ih' consequent, ih'' alternate, Token.symbol_of_kind isIf,
      Token.symbol_of_kind isThen]
  | fi isFi => simp [Node.symbols, Token.symbol_of_kind isFi]
  | otherwise isElse list isFi ih =>
    simp only [List.forall_mem_append, List.forall_mem_cons] at proper
    have body := ih proper.1.2
    cases list <;> simp_all [Node.symbols, Token.symbol_of_kind]
  | loop _ isLoop isLabel isColon _ isRepeat ih =>
    simp only [List.forall_mem_append, List.forall_mem_cons] at proper
    simp [Node.symbols, ih proper.1.2.2.2, Token.symbol_of_kind isLoop,
      Token.symbol_of_kind isColon, Token.symbol_of_kind isRepeat, Lexeme.symbol_of_name isLabel]
  | exit _ isBreak => simp [Node.symbols, Token.symbol_of_kind isBreak, Node.isGiven]
  | @exitTo _ _ _ label _ isBreak isLabel =>
    have given := (proper label (by simp)).text_ne_empty isLabel
    simp [Node.symbols, Token.symbol_of_kind isBreak, Lexeme.symbol_of_name isLabel, Node.isGiven,
      given]
  | read _ isRead _ ih =>
    simp only [List.forall_mem_cons] at proper
    simp [Node.symbols, ih proper.2, Token.symbol_of_kind isRead]
  | print _ isPrint _ ih =>
    simp only [List.forall_mem_cons] at proper
    simp [Node.symbols, ih proper.2, Token.symbol_of_kind isPrint]
  | assign _ isName isAssign _ ih =>
    simp only [List.forall_mem_cons] at proper
    simp [Node.symbols, ih proper.2.2, Token.symbol_of_kind isAssign,
      Lexeme.symbol_of_name isName]
  | oneName isName => simp [Node.symbols, Node.following, Lexeme.symbol_of_name isName]
  | moreNames isName isComma list ih =>
    simp only [List.forall_mem_cons] at proper
    simp [Node.symbols, ih proper.2.2, list.following_names, Token.symbol_of_kind isComma,
      Lexeme.symbol_of_name isName]
  | chain _ _ ih ih' =>
    simp only [List.forall_mem_append] at proper
    simp [Node.symbols, ih proper.1, ih' proper.2]
  | noTail => rfl
  | link joins _ _ ih ih' =>
    simp only [List.forall_mem_append, List.forall_mem_cons] at proper
    simp [Node.symbols, ih proper.1.2, ih' proper.2,
      Token.operatorSymbols proper.1.1 (.inl ⟨_, joins⟩)]
  | single _ ih => simp [Node.symbols, ih proper, Node.operatorSymbols]
  | relation relates _ _ ih ih' =>
    simp only [List.forall_mem_append, List.forall_mem_cons] at proper
    simp [Node.symbols, ih proper.1, ih' proper.2.2,
      Token.operatorSymbols proper.2.1 (.inr relates)]
  | negation _ isMinus _ ih =>
    simp only [List.forall_mem_cons] at proper
    simp [Node.symbols, ih proper.2, Token.symbol_of_kind isMinus]
  | parenthesized _ isOpening _ isClosing ih =>
    simp only [List.forall_mem_append, List.forall_mem_cons] at proper
    simp [Node.symbols, ih proper.1.2, Token.symbol_of_kind isOpening,
      Token.symbol_of_kind isClosing]
  | number _ isNumber => simp [Node.symbols, Lexeme.symbol_of_number isNumber]
  | name _ isName => simp [Node.symbols, Lexeme.symbol_of_name isName]

end Derives

/-- Two tokens that say the same. -/
structure Token.Alike (token token' : Token) : Prop where
  symbol : token'.symbol = token.symbol
  proper : token.Proper
  proper' : token'.Proper

/-- Tokens that say the same as others, one by one. -/
structure Alike (own own' : List Token) : Prop where
  symbols : own'.map (·.symbol) = own.map (·.symbol)
  proper : ∀ token ∈ own, token.Proper
  proper' : ∀ token ∈ own', token.Proper

namespace Alike

variable {token token' : Token} {u v own : List Token}

theorem nil (alike : Alike [] own) : own = [] :=
  List.map_eq_nil_iff.mp alike.symbols

theorem cons (alike : Alike (token :: u) own) :
    ∃ token' u', own = token' :: u' ∧ token.Alike token' ∧ Alike u u' := by
  obtain ⟨token', u', rfl, symbol, symbols⟩ := List.map_eq_cons_iff.mp alike.symbols
  have proper := List.forall_mem_cons.mp alike.proper
  have proper' := List.forall_mem_cons.mp alike.proper'
  exact ⟨token', u', rfl, ⟨symbol, proper.1, proper'.1⟩, symbols, proper.2, proper'.2⟩

theorem single (alike : Alike [token] own) : ∃ token', own = [token'] ∧ token.Alike token' := by
  obtain ⟨token', u, rfl, same, none_⟩ := alike.cons
  obtain rfl := none_.nil
  exact ⟨token', rfl, same⟩

theorem append (alike : Alike (u ++ v) own) :
    ∃ u' v', own = u' ++ v' ∧ Alike u u' ∧ Alike v v' := by
  have symbols := alike.symbols
  rw [List.map_append] at symbols
  obtain ⟨u', v', rfl, left, right⟩ := List.map_eq_append_iff.mp symbols
  have proper := List.forall_mem_append.mp alike.proper
  have proper' := List.forall_mem_append.mp alike.proper'
  exact ⟨u', v', rfl, ⟨left, proper.1, proper'.1⟩, right, proper.2, proper'.2⟩

end Alike

namespace Token.Alike

variable {token token' : Token} (alike : token.Alike token')
include alike

theorem kind : token'.kind = token.kind := by
  rw [← Lexeme.kind_symbol, alike.symbol, Lexeme.kind_symbol]

theorem text_of_name (isName : token.kind = .identifier) : token'.text = token.text := by
  have symbol := alike.symbol
  rw [Lexeme.symbol_of_name isName, Lexeme.symbol_of_name (alike.kind.trans isName)] at symbol
  exact Symbol.name.inj symbol

theorem text_of_operator
    (operator : (∃ level : Level, level.joins token.kind = true) ∨ token.kind.isRelation = true) :
    token'.text = token.text := by
  obtain ⟨-, -, chars, spelled⟩ := Kind.operator_spelling operator
  rw [alike.proper.text_eq spelled]
  exact alike.proper'.text_eq (alike.kind ▸ spelled)

theorem value (isNumber : token.kind = .number) :
    Number.read? token'.chars = Number.read? token.chars := by
  have symbol := alike.symbol
  rw [Lexeme.symbol_of_number isNumber,
    Lexeme.symbol_of_number (alike.kind.trans isNumber)] at symbol
  exact Symbol.number.inj symbol

end Token.Alike

/-- Tokens that say the same have the same tree but for the places of its nodes. -/
theorem Derives.alike {ρ : Type} {inside : ρ → ρ → Prop} {room : ρ} {category : Category}
    {own own' : List Token} {node : Node} (derived : Derives inside room category own node)
    (alike : Alike own own') :
    ∃ node', Derives inside room category own' node' ∧ node'.bare = node.bare := by
  induction derived generalizing own' with
  | program _ isPoint ih =>
    obtain ⟨u, v, rfl, body, point⟩ := alike.append
    obtain ⟨point, rfl, point'⟩ := point.single
    obtain ⟨body, derived, bare⟩ := ih body
    exact ⟨_, .program derived (point'.kind.trans isPoint), by simp only [Node.bare, bare]⟩
  | oneStatement _ ih =>
    obtain ⟨first, derived, bare⟩ := ih alike
    exact ⟨_, .oneStatement derived, by simp only [Node.bare, bare]⟩
  | moreStatements _ isSemicolon _ ih ih' =>
    obtain ⟨u, v, rfl, first, others⟩ := alike.append
    obtain ⟨semicolon, w, rfl, semicolon', others⟩ := others.cons
    obtain ⟨first, derived, bare⟩ := ih first
    obtain ⟨rest, derived', bare'⟩ := ih' others
    exact ⟨_, .moreStatements derived (semicolon'.kind.trans isSemicolon) derived',
      by simp only [Node.bare, bare, bare']⟩
  | branch nest isIf _ isThen _ _ ih ih' ih'' =>
    obtain ⟨u, w, rfl, front, alternate⟩ := alike.append
    obtain ⟨u, v, rfl, front, consequent⟩ := front.append
    obtain ⟨ifToken, u, rfl, ifToken', condition⟩ := front.cons
    obtain ⟨thenToken, v, rfl, thenToken', consequent⟩ := consequent.cons
    obtain ⟨test, derived, bare⟩ := ih condition
    obtain ⟨body, derived', bare'⟩ := ih' consequent
    obtain ⟨rest, derived'', bare''⟩ := ih'' alternate
    exact ⟨_, .branch nest (ifToken'.kind.trans isIf) derived (thenToken'.kind.trans isThen)
      derived' derived'', by simp only [Node.bare, bare, bare', bare'']⟩
  | fi isFi =>
    obtain ⟨word, rfl, word'⟩ := alike.single
    exact ⟨_, .fi (word'.kind.trans isFi), rfl⟩
  | otherwise isElse _ isFi ih =>
    obtain ⟨u, v, rfl, front, fiToken⟩ := alike.append
    obtain ⟨elseToken, u, rfl, elseToken', statements⟩ := front.cons
    obtain ⟨fiToken, rfl, fiToken'⟩ := fiToken.single
    obtain ⟨body, derived, bare⟩ := ih statements
    exact ⟨_, .otherwise (elseToken'.kind.trans isElse) derived (fiToken'.kind.trans isFi),
      by simp only [Node.bare, bare]⟩
  | loop nest isLoop isLabel isColon _ isRepeat ih =>
    obtain ⟨u, v, rfl, front, repeatToken⟩ := alike.append
    obtain ⟨loopToken, u, rfl, loopToken', front⟩ := front.cons
    obtain ⟨label, u, rfl, label', front⟩ := front.cons
    obtain ⟨colon, u, rfl, colon', statements⟩ := front.cons
    obtain ⟨repeatToken, rfl, repeatToken'⟩ := repeatToken.single
    obtain ⟨body, derived, bare⟩ := ih statements
    exact ⟨_, .loop nest (loopToken'.kind.trans isLoop) (label'.kind.trans isLabel)
      (colon'.kind.trans isColon) derived (repeatToken'.kind.trans isRepeat),
      by simp only [Node.bare, bare, label'.text_of_name isLabel]⟩
  | exit nest isBreak =>
    obtain ⟨word, rfl, word'⟩ := alike.single
    exact ⟨_, .exit nest (word'.kind.trans isBreak), rfl⟩
  | exitTo nest isBreak isLabel =>
    obtain ⟨word, u, rfl, word', label⟩ := alike.cons
    obtain ⟨label, rfl, label'⟩ := label.single
    exact ⟨_, .exitTo nest (word'.kind.trans isBreak) (label'.kind.trans isLabel),
      by simp only [Node.bare, label'.text_of_name isLabel]⟩
  | read nest isRead _ ih =>
    obtain ⟨word, u, rfl, word', list⟩ := alike.cons
    obtain ⟨names, derived, bare⟩ := ih list
    exact ⟨_, .read nest (word'.kind.trans isRead) derived, by simp only [Node.bare, bare]⟩
  | print nest isPrint _ ih =>
    obtain ⟨word, u, rfl, word', list⟩ := alike.cons
    obtain ⟨names, derived, bare⟩ := ih list
    exact ⟨_, .print nest (word'.kind.trans isPrint) derived, by simp only [Node.bare, bare]⟩
  | assign nest isName isAssign _ ih =>
    obtain ⟨name, u, rfl, name', rest⟩ := alike.cons
    obtain ⟨sign, u, rfl, sign', sum⟩ := rest.cons
    obtain ⟨value, derived, bare⟩ := ih sum
    exact ⟨_, .assign nest (name'.kind.trans isName) (sign'.kind.trans isAssign) derived,
      by simp only [Node.bare, bare, name'.text_of_name isName]⟩
  | oneName isName =>
    obtain ⟨name, rfl, name'⟩ := alike.single
    exact ⟨_, .oneName (name'.kind.trans isName),
      by simp only [Node.bare, name'.text_of_name isName]⟩
  | moreNames isName isComma _ ih =>
    obtain ⟨name, u, rfl, name', rest⟩ := alike.cons
    obtain ⟨comma, u, rfl, comma', list⟩ := rest.cons
    obtain ⟨rest, derived, bare⟩ := ih list
    exact ⟨_, .moreNames (name'.kind.trans isName) (comma'.kind.trans isComma) derived,
      by simp only [Node.bare, bare, name'.text_of_name isName]⟩
  | chain _ _ ih ih' =>
    obtain ⟨u, v, rfl, head, links⟩ := alike.append
    obtain ⟨first, derived, bare⟩ := ih head
    obtain ⟨rest, derived', bare'⟩ := ih' links
    exact ⟨_, .chain derived derived', by simp only [Node.bare, bare, bare']⟩
  | noTail =>
    obtain rfl := alike.nil
    exact ⟨_, .noTail, rfl⟩
  | link joins _ _ ih ih' =>
    obtain ⟨u, v, rfl, front, links⟩ := alike.append
    obtain ⟨operator, u, rfl, operator', head⟩ := front.cons
    obtain ⟨operand, derived, bare⟩ := ih head
    obtain ⟨rest, derived', bare'⟩ := ih' links
    exact ⟨_, .link (operator'.kind ▸ joins) derived derived',
      by simp only [Node.bare, bare, bare', operator'.text_of_operator (.inl ⟨_, joins⟩)]⟩
  | single _ ih =>
    obtain ⟨value, derived, bare⟩ := ih alike
    exact ⟨_, .single derived, by simp only [Node.bare, bare]⟩
  | relation relates _ _ ih ih' =>
    obtain ⟨u, v, rfl, left, rest⟩ := alike.append
    obtain ⟨operator, v, rfl, operator', right⟩ := rest.cons
    obtain ⟨left, derived, bare⟩ := ih left
    obtain ⟨right, derived', bare'⟩ := ih' right
    exact ⟨_, .relation (operator'.kind ▸ relates) derived derived',
      by simp only [Node.bare, bare, bare', operator'.text_of_operator (.inr relates)]⟩
  | negation nest isMinus _ ih =>
    obtain ⟨sign, u, rfl, sign', factor⟩ := alike.cons
    obtain ⟨operand, derived, bare⟩ := ih factor
    exact ⟨_, .negation nest (sign'.kind.trans isMinus) derived, by simp only [Node.bare, bare]⟩
  | parenthesized nest isOpening _ isClosing ih =>
    obtain ⟨u, v, rfl, front, closing⟩ := alike.append
    obtain ⟨opening, u, rfl, opening', sum⟩ := front.cons
    obtain ⟨closing, rfl, closing'⟩ := closing.single
    obtain ⟨value, derived, bare⟩ := ih sum
    exact ⟨_, .parenthesized nest (opening'.kind.trans isOpening) derived
      (closing'.kind.trans isClosing), by simp only [Node.bare, bare]⟩
  | number nest isNumber =>
    obtain ⟨token, rfl, token'⟩ := alike.single
    exact ⟨_, .number nest (token'.kind.trans isNumber),
      by simp only [Node.bare, token'.value isNumber]⟩
  | name nest isName =>
    obtain ⟨token, rfl, token'⟩ := alike.single
    exact ⟨_, .name nest (token'.kind.trans isName),
      by simp only [Node.bare, token'.text_of_name isName]⟩

end LoopLang
