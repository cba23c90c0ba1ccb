import LoopLang.Number.Numeral
import LoopLang.Proofs.Grammar

/-!
# Derivations

A derivation is a phrase of the grammar with its tree. The tree says where each node was
read, so tokens that stand elsewhere have another tree. Statements and factors nest, and
each of them moves from one nesting state to an inner one; what such a state is and when
there is an inner one is left open, so that phrases of any depth and phrases within a
bound are two cases of one relation. Written out in order, the words, names and numbers
of a tree are the tokens it was derived from.
-/
namespace LoopLang

/-- From the start of the first token to the end of the last. -/
def Span.covering (tokens : List Token) : Option Span :=
  match tokens.head?, tokens.getLast? with
  | some first, some last => some ⟨first.start, last.stop⟩
  | _, _ => none

def Span.stopOf (tokens : List Token) : Location :=
  (tokens.getLast?.map (·.stop)).getD ⟨0, 0, 0⟩

theorem Span.stopOf_append (u : List Token) {v : List Token} (some_ : v ≠ []) :
    Span.stopOf (u ++ v) = Span.stopOf v := by
  rw [Span.stopOf, List.getLast?_append, List.getLast?_eq_some_getLast some_, Option.some_or,
    Span.stopOf, List.getLast?_eq_some_getLast some_]

theorem Span.covering_cons (first : Token) (rest : List Token) :
    Span.covering (first :: rest) = some ⟨first.start, Span.stopOf (first :: rest)⟩ := by
  have last := List.getLast?_eq_some_getLast (List.cons_ne_nil first rest)
  simp only [Span.covering, List.head?_cons, Span.stopOf, last, Option.map_some, Option.getD_some]

/-- Nesting without a bound. -/
def unlimited (_ _ : Unit) : Prop := True

def counted (outer inner : Nat) : Prop := outer = inner + 1

/-- The tokens derive the tree, nesting from a state on. -/
inductive Derives {ρ : Type} (inside : ρ → ρ → Prop) :
    ρ → Category → List Token → Node → Prop where
  | program {room u body point} (statements : Derives inside room .statements u body)
      (isPoint : point.kind = .point) :
      Derives inside room .program (u ++ [point])
        (.program body (Span.covering (u ++ [point])))
  | oneStatement {room u node} (only : Derives inside room .statement u node) :
      Derives inside room .statements u (.sequence node .absent (Span.covering u))
  | moreStatements {room u v node next sep} (first : Derives inside room .statement u node)
      (isSemicolon : sep.kind = .semicolon) (rest : Derives inside room .statements v next) :
      Derives inside room .statements (u ++ sep :: v)
        (.sequence node next (Span.covering (u ++ sep :: v)))
  | branch {room inner u v w test body rest ifToken thenToken} (nest : inside room inner)
      (isIf : ifToken.kind = .ifWord)
      (condition : Derives inside inner (.chain .disjunction) u test)
      (isThen : thenToken.kind = .thenWord)
      (consequent : Derives inside inner .statements v body)
      (alternate : Derives inside inner .otherwise w rest) :
      Derives inside room .statement (ifToken :: u ++ thenToken :: v ++ w)
        (.branch test body rest (Span.covering (ifToken :: u ++ thenToken :: v ++ w)))
  | fi {room word} (isFi : word.kind = .fiWord) :
      Derives inside room .otherwise [word] (.otherwise .absent (Span.covering [word]))
  | otherwise {room u body elseToken fiToken} (isElse : elseToken.kind = .elseWord)
      (statements : Derives inside room .statements u body)
      (isFi : fiToken.kind = .fiWord) :
      Derives inside room .otherwise (elseToken :: u ++ [fiToken])
        (.otherwise body (Span.covering (elseToken :: u ++ [fiToken])))
  | loop {room inner u body loopToken label colon repeatToken} (nest : inside room inner)
      (isLoop : loopToken.kind = .loopWord) (isLabel : label.kind = .identifier)
      (isColon : colon.kind = .colon) (statements : Derives inside inner .statements u body)
      (isRepeat : repeatToken.kind = .repeatWord) :
      Derives inside room .statement (loopToken :: label :: colon :: u ++ [repeatToken])
        (.loop (.text label.text) body
          (Span.covering (loopToken :: label :: colon :: u ++ [repeatToken])))
  | exit {room inner word} (nest : inside room inner) (isBreak : word.kind = .breakWord) :
      Derives inside room .statement [word] (.exit (.text "") (Span.covering [word]))
  | exitTo {room inner word label} (nest : inside room inner) (isBreak : word.kind = .breakWord)
      (isLabel : label.kind = .identifier) :
      Derives inside room .statement [word, label]
        (.exit (.text label.text) (Span.covering [word, label]))
  | read {room inner u names word} (nest : inside room inner) (isRead : word.kind = .readWord)
      (list : Derives inside inner .names u names) :
      Derives inside room .statement (word :: u) (.read names (Span.covering (word :: u)))
  | print {room inner u names word} (nest : inside room inner)
      (isPrint : word.kind = .printWord) (list : Derives inside inner .names u names) :
      Derives inside room .statement (word :: u) (.print names (Span.covering (word :: u)))
  | assign {room inner u value name sign} (nest : inside room inner)
      (isName : name.kind = .identifier) (isAssign : sign.kind = .assign)
      (sum : Derives inside inner (.chain .sum) u value) :
      Derives inside room .statement (name :: sign :: u)
        (.assign (.text name.text) value (Span.covering (name :: sign :: u)))
  | oneName {room name} (isName : name.kind = .identifier) :
      Derives inside room .names [name] (.item (.text name.text) .emptyList)
  | moreNames {room u rest name comma} (isName : name.kind = .identifier)
      (isComma : comma.kind = .comma) (list : Derives inside room .names u rest) :
      Derives inside room .names (name :: comma :: u) (.item (.text name.text) rest)
  | chain {room level u v first rest} (head : Derives inside room (.operand level) u first)
      (links : Derives inside room (.tail level) v rest) :
      Derives inside room (.chain level) (u ++ v)
        (.chain level first rest (Span.covering (u ++ v)))
  | noTail {room level} : Derives inside room (.tail level) [] .absent
  | link {room level u v operand rest operator} (joins : level.joins operator.kind = true)
      (head : Derives inside room (.operand level) u operand)
      (links : Derives inside room (.tail level) v rest) :
      Derives inside room (.tail level) (operator :: u ++ v)
        (.link level (.text operator.text) operand rest (Span.covering (operator :: u)))
  | single {room u value} (sum : Derives inside room (.chain .sum) u value) :
      Derives inside room .comparison u
        (.comparison value .absent .absent (Span.covering u))
  | relation {room u v left right operator} (relates : operator.kind.isRelation = true)
      (leftSum : Derives inside room (.chain .sum) u left)
      (rightSum : Derives inside room (.chain .sum) v right) :
      Derives inside room .comparison (u ++ operator :: v)
        (.comparison left (.text operator.text) right (Span.covering (u ++ operator :: v)))
  | negation {room inner u operand sign} (nest : inside room inner) (isMinus : sign.kind = .minus)
      (factor : Derives inside inner .factor u operand) :
      Derives inside room .factor (sign :: u) (.negation operand (Span.covering (sign :: u)))
  | parenthesized {room inner u value opening closing} (nest : inside room inner)
      (isOpening : opening.kind = .opening)
      (sum : Derives inside inner (.chain .sum) u value)
      (isClosing : closing.kind = .closing) :
      Derives inside room .factor (opening :: u ++ [closing])
        (.parenthesized value (Span.covering (opening :: u ++ [closing])))
  | number {room inner token} (nest : inside room inner) (isNumber : token.kind = .number) :
      Derives inside room .factor [token]
        (.number (Number.read? token.chars) (Span.covering [token]))
  | name {room inner token} (nest : inside room inner) (isName : token.kind = .identifier) :
      Derives inside room .factor [token]
        (.identifier (.text token.text) (Span.covering [token]))

def Token.ofKind (kind : Kind) : Token :=
  ⟨⟨kind, []⟩, ⟨0, 0, 0⟩, ⟨0, 0, 0⟩⟩

namespace Derives

variable {ρ σ : Type} {inside : ρ → ρ → Prop} {inside' : σ → σ → Prop} {room : ρ}
  {category : Category} {own : List Token} {node : Node}

theorem changeRoom (derived : Derives inside room category own node) (change : ρ → σ)
    (keeps : ∀ outer inner, inside outer inner → inside' (change outer) (change inner)) :
    Derives inside' (change room) category own node := by
  induction derived with
  | program _ isPoint ih => exact .program ih isPoint
  | oneStatement _ ih => exact .oneStatement ih
  | moreStatements _ isSemicolon _ ih ih' => exact .moreStatements ih isSemicolon ih'
  | branch nest isIf _ isThen _ _ ih ih' ih'' =>
    exact .branch (keeps _ _ nest) isIf ih isThen ih' ih''
  | fi isFi => exact .fi isFi
  | otherwise isElse _ isFi ih => exact .otherwise isElse ih isFi
  | loop nest isLoop isLabel isColon _ isRepeat ih =>
    exact .loop (keeps _ _ nest) isLoop isLabel isColon ih isRepeat
  | exit nest isBreak => exact .exit (keeps _ _ nest) isBreak
  | exitTo nest isBreak isLabel => exact .exitTo (keeps _ _ nest) isBreak isLabel
  | read nest isRead _ ih => exact .read (keeps _ _ nest) isRead ih
  | print nest isPrint _ ih => exact .print (keeps _ _ nest) isPrint ih
  | assign nest isName isAssign _ ih => exact .assign (keeps _ _ nest) isName isAssign ih
  | oneName isName => exact .oneName isName
  | moreNames isName isComma _ ih => exact .moreNames isName isComma ih
  | chain _ _ ih ih' => exact .chain ih ih'
  | noTail => exact .noTail
  | link joins _ _ ih ih' => exact .link joins ih ih'
  | single _ ih => exact .single ih
  | relation relates _ _ ih ih' => exact .relation relates ih ih'
  | negation nest isMinus _ ih => exact .negation (keeps _ _ nest) isMinus ih
  | parenthesized nest isOpening _ isClosing ih =>
    exact .parenthesized (keeps _ _ nest) isOpening ih isClosing
  | number nest isNumber => exact .number (keeps _ _ nest) isNumber
  | name nest isName => exact .name (keeps _ _ nest) isName

theorem free (derived : Derives inside room category own node) :
    Derives unlimited () category own node :=
  derived.changeRoom (fun _ => ()) fun _ _ _ => trivial

/-- What keeps within a depth keeps within a greater one. -/
theorem deepen {depth depth' : Nat} (derived : Derives counted depth category own node)
    (noLess : depth ≤ depth') : Derives counted depth' category own node := by
  have deeper : Derives counted (depth + (depth' - depth)) category own node := by
    refine derived.changeRoom (· + (depth' - depth)) fun outer inner nest => ?_
    unfold counted at *
    omega
  rwa [Nat.add_sub_cancel' noLess] at deeper

theorem sentence (derived : Derives inside room category own node) :
    Sentence category (own.map (·.kind)) := by
  induction derived with
  | program _ isPoint ih => simpa [isPoint] using Sentence.program ih
  | oneStatement _ ih => exact .oneStatement ih
  | moreStatements _ isSemicolon _ ih ih' =>
    simpa [isSemicolon] using Sentence.moreStatements ih ih'
  | branch _ isIf _ isThen _ _ ih ih' ih'' =>
    simpa [isIf, isThen] using Sentence.branch ih ih' ih''
  | fi isFi => simpa [isFi] using Sentence.fi
  | otherwise isElse _ isFi ih => simpa [isElse, isFi] using Sentence.otherwise ih
  | loop _ isLoop isLabel isColon _ isRepeat ih =>
    simpa [isLoop, isLabel, isColon, isRepeat] using Sentence.loop ih
  | exit _ isBreak => simpa [isBreak] using Sentence.exit
  | exitTo _ isBreak isLabel => simpa [isBreak, isLabel] using Sentence.exitTo
  | read _ isRead _ ih => simpa [isRead] using Sentence.read ih
  | print _ isPrint _ ih => simpa [isPrint] using Sentence.print ih
  | assign _ isName isAssign _ ih => simpa [isName, isAssign] using Sentence.assign ih
  | oneName isName => simpa [isName] using Sentence.oneName
  | moreNames isName isComma _ ih => simpa [isName, isComma] using Sentence.moreNames ih
  | chain _ _ ih ih' => simpa using Sentence.chain ih ih'
  | noTail => exact .noTail
  | link joins _ _ ih ih' => simpa using Sentence.link joins ih ih'
  | single _ ih => exact .single ih
  | relation relates _ _ ih ih' => simpa using Sentence.relation relates ih ih'
  | negation _ isMinus _ ih => simpa [isMinus] using Sentence.negation ih
  | parenthesized _ isOpening _ isClosing ih =>
    simpa [isOpening, isClosing] using Sentence.parenthesized ih
  | number _ isNumber => simpa [isNumber] using Sentence.number
  | name _ isName => simpa [isName] using Sentence.name

theorem exists_derives (category : Category) :
    ∃ own node, Derives unlimited () category own node := by
  have nest : unlimited () () := trivial
  have name : (Token.ofKind .identifier).kind = .identifier := rfl
  have factor := Derives.name nest name
  have product : Derives unlimited () (.chain .product) _ _ := .chain factor .noTail
  have sum : Derives unlimited () (.chain .sum) _ _ := .chain product .noTail
  have comparison := Derives.single sum
  have conjunction : Derives unlimited () (.chain .conjunction) _ _ := .chain comparison .noTail
  have disjunction : Derives unlimited () (.chain .disjunction) _ _ := .chain conjunction .noTail
  have isBreak : (Token.ofKind .breakWord).kind = .breakWord := rfl
  have statement := Derives.exit nest isBreak
  have statements := Derives.oneStatement statement
  have isFi : (Token.ofKind .fiWord).kind = .fiWord := rfl
  have isPoint : (Token.ofKind .point).kind = .point := rfl
  match category with
  | .program => exact ⟨_, _, .program statements isPoint⟩
  | .statements => exact ⟨_, _, statements⟩
  | .statement => exact ⟨_, _, statement⟩
  | .otherwise => exact ⟨_, _, .fi isFi⟩
  | .names => exact ⟨_, _, .oneName name⟩
  | .chain .disjunction => exact ⟨_, _, disjunction⟩
  | .chain .conjunction => exact ⟨_, _, conjunction⟩
  | .chain .sum => exact ⟨_, _, sum⟩
  | .chain .product => exact ⟨_, _, product⟩
  | .tail _ => exact ⟨_, _, .noTail⟩
  | .comparison => exact ⟨_, _, comparison⟩
  | .factor => exact ⟨_, _, factor⟩

theorem ne_nil (derived : Derives inside room category own node) :
    (∃ level, category = .tail level) ∨ own ≠ [] := by
  induction derived with
  | noTail => exact .inl ⟨_, rfl⟩
  | link => exact .inl ⟨_, rfl⟩
  | oneStatement _ ih =>
    rcases ih with ⟨_, ⟨⟩⟩ | some_
    exact .inr some_
  | chain _ _ ih =>
    rcases ih with ⟨level, isTail⟩ | some_
    · rename_i level' _ _ _ _ _ _ _
      cases level' <;> cases isTail
    · exact .inr (by simp [some_])
  | single _ ih =>
    rcases ih with ⟨_, ⟨⟩⟩ | some_
    exact .inr some_
  | _ => exact .inr (by simp)

end Derives

/-- Tokens whose kinds are a phrase of the grammar have a derivation. -/
theorem Sentence.derives {category : Category} {kinds : List Kind}
    (sentence : Sentence category kinds) {own : List Token} (same : own.map (·.kind) = kinds) :
    ∃ node, Derives unlimited () category own node := by
  have nest : unlimited () () := trivial
  induction sentence generalizing own with
  | program _ ih =>
    obtain ⟨u, v, rfl, body, point⟩ := List.map_eq_append_iff.mp same
    obtain ⟨point, rfl, isPoint⟩ := List.map_eq_singleton_iff.mp point
    obtain ⟨_, body⟩ := ih body
    exact ⟨_, .program body isPoint⟩
  | oneStatement _ ih =>
    obtain ⟨_, only⟩ := ih same
    exact ⟨_, .oneStatement only⟩
  | moreStatements _ _ ih ih' =>
    obtain ⟨u, o, rfl, first, rest⟩ := List.map_eq_append_iff.mp same
    obtain ⟨semicolon, v, rfl, isSemicolon, rest⟩ := List.map_eq_cons_iff.mp rest
    obtain ⟨_, first⟩ := ih first
    obtain ⟨_, rest⟩ := ih' rest
    exact ⟨_, .moreStatements first isSemicolon rest⟩
  | branch _ _ _ ih ih' ih'' =>
    obtain ⟨o, w, rfl, o', alternate⟩ := List.map_eq_append_iff.mp same
    obtain ⟨u, v, rfl, condition, consequent⟩ := List.map_eq_append_iff.mp o'
    obtain ⟨ifWord, u, rfl, isIf, condition⟩ := List.map_eq_cons_iff.mp condition
    obtain ⟨thenWord, v, rfl, isThen, consequent⟩ := List.map_eq_cons_iff.mp consequent
    obtain ⟨_, condition⟩ := ih condition
    obtain ⟨_, consequent⟩ := ih' consequent
    obtain ⟨_, alternate⟩ := ih'' alternate
    exact ⟨_, .branch nest isIf condition isThen consequent alternate⟩
  | fi =>
    obtain ⟨word, rfl, isFi⟩ := List.map_eq_singleton_iff.mp same
    exact ⟨_, .fi isFi⟩
  | otherwise _ ih =>
    obtain ⟨o, v, rfl, body, fi⟩ := List.map_eq_append_iff.mp same
    obtain ⟨elseWord, u, rfl, isElse, body⟩ := List.map_eq_cons_iff.mp body
    obtain ⟨fiWord, rfl, isFi⟩ := List.map_eq_singleton_iff.mp fi
    obtain ⟨_, body⟩ := ih body
    exact ⟨_, .otherwise isElse body isFi⟩
  | loop _ ih =>
    obtain ⟨o, x, rfl, body, word⟩ := List.map_eq_append_iff.mp same
    obtain ⟨loopWord, u, rfl, isLoop, body⟩ := List.map_eq_cons_iff.mp body
    obtain ⟨label, v, rfl, isLabel, body⟩ := List.map_eq_cons_iff.mp body
    obtain ⟨colon, w, rfl, isColon, body⟩ := List.map_eq_cons_iff.mp body
    obtain ⟨repeatWord, rfl, isRepeat⟩ := List.map_eq_singleton_iff.mp word
    obtain ⟨_, body⟩ := ih body
    exact ⟨_, .loop nest isLoop isLabel isColon body isRepeat⟩
  | exit =>
    obtain ⟨word, rfl, isBreak⟩ := List.map_eq_singleton_iff.mp same
    exact ⟨_, .exit nest isBreak⟩
  | exitTo =>
    obtain ⟨word, u, rfl, isBreak, label⟩ := List.map_eq_cons_iff.mp same
    obtain ⟨label, rfl, isLabel⟩ := List.map_eq_singleton_iff.mp label
    exact ⟨_, .exitTo nest isBreak isLabel⟩
  | read _ ih =>
    obtain ⟨word, u, rfl, isRead, names⟩ := List.map_eq_cons_iff.mp same
    obtain ⟨_, names⟩ := ih names
    exact ⟨_, .read nest isRead names⟩
  | print _ ih =>
    obtain ⟨word, u, rfl, isPrint, names⟩ := List.map_eq_cons_iff.mp same
    obtain ⟨_, names⟩ := ih names
    exact ⟨_, .print nest isPrint names⟩
  | assign _ ih =>
    obtain ⟨name, u, rfl, isName, value⟩ := List.map_eq_cons_iff.mp same
    obtain ⟨sign, v, rfl, isAssign, value⟩ := List.map_eq_cons_iff.mp value
    obtain ⟨_, value⟩ := ih value
    exact ⟨_, .assign nest isName isAssign value⟩
  | oneName =>
    obtain ⟨name, rfl, isName⟩ := List.map_eq_singleton_iff.mp same
    exact ⟨_, .oneName isName⟩
  | moreNames _ ih =>
    obtain ⟨name, u, rfl, isName, names⟩ := List.map_eq_cons_iff.mp same
    obtain ⟨comma, v, rfl, isComma, names⟩ := List.map_eq_cons_iff.mp names
    obtain ⟨_, names⟩ := ih names
    exact ⟨_, .moreNames isName isComma names⟩
  | chain _ _ ih ih' =>
    obtain ⟨u, v, rfl, first, rest⟩ := List.map_eq_append_iff.mp same
    obtain ⟨_, first⟩ := ih first
    obtain ⟨_, rest⟩ := ih' rest
    exact ⟨_, .chain first rest⟩
  | noTail =>
    obtain rfl := List.map_eq_nil_iff.mp same
    exact ⟨_, .noTail⟩
  | link joins _ _ ih ih' =>
    obtain ⟨o, v, rfl, first, rest⟩ := List.map_eq_append_iff.mp same
    obtain ⟨operator, u, rfl, rfl, operand⟩ := List.map_eq_cons_iff.mp first
    obtain ⟨_, operand⟩ := ih operand
    obtain ⟨_, rest⟩ := ih' rest
    exact ⟨_, .link joins operand rest⟩
  | single _ ih =>
    obtain ⟨_, sum⟩ := ih same
    exact ⟨_, .single sum⟩
  | relation relates _ _ ih ih' =>
    obtain ⟨u, o, rfl, left, right⟩ := List.map_eq_append_iff.mp same
    obtain ⟨operator, v, rfl, rfl, sum⟩ := List.map_eq_cons_iff.mp right
    obtain ⟨_, left⟩ := ih left
    obtain ⟨_, sum⟩ := ih' sum
    exact ⟨_, .relation relates left sum⟩
  | negation _ ih =>
    obtain ⟨sign, u, rfl, isMinus, operand⟩ := List.map_eq_cons_iff.mp same
    obtain ⟨_, operand⟩ := ih operand
    exact ⟨_, .negation nest isMinus operand⟩
  | parenthesized _ ih =>
    obtain ⟨o, v, rfl, inner, closing⟩ := List.map_eq_append_iff.mp same
    obtain ⟨opening, u, rfl, isOpening, inner⟩ := List.map_eq_cons_iff.mp inner
    obtain ⟨closing, rfl, isClosing⟩ := List.map_eq_singleton_iff.mp closing
    obtain ⟨_, inner⟩ := ih inner
    exact ⟨_, .parenthesized nest isOpening inner isClosing⟩
  | number =>
    obtain ⟨token, rfl, isNumber⟩ := List.map_eq_singleton_iff.mp same
    exact ⟨_, .number nest isNumber⟩
  | name =>
    obtain ⟨token, rfl, isName⟩ := List.map_eq_singleton_iff.mp same
    exact ⟨_, .name nest isName⟩

end LoopLang
