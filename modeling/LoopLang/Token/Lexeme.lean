import LoopLang.Text.Quote
import LoopLang.Token.Kind

/-!
# Lexemes

A lexeme is a kind together with the characters that were taken for it. Cutting the first
lexeme off a text tries the words and symbols of the table, then blanks and line breaks,
then the two symbols outside the table, then quoted strings, numbers and identifiers. A
word is recognised wherever it begins the text, even if more letters follow it.
-/
namespace LoopLang

structure Lexeme where
  kind : Kind
  chars : List Char
  deriving DecidableEq

/-- The ways to end a line, each longer one before its own beginning. -/
def lineBreaks : List (List Char) :=
  [['\r', '\n'], ['\n', '\r'], ['\n'], ['\r']]

def isNameStart (c : Char) : Bool :=
  c.isAlpha || c == '_'

def isNamePart (c : Char) : Bool :=
  c.isAlphanum || c == '_'

namespace Lexeme

/-- The first kind of a list whose spelling begins the text. -/
def spelled? (kinds : List Kind) (text : List Char) : Option Lexeme :=
  kinds.findSome? fun kind =>
    match kind.spelling? with
    | some spelling => if spelling.isPrefixOf text then some ⟨kind, spelling⟩ else none
    | none => none

/-- A string up to its closing quote; `rest` follows the opening one. -/
def quoted (rest : List Char) : Lexeme :=
  let inside := rest.takeWhile (· != '"')
  if inside.length = rest.length then ⟨.openQuote, ['"']⟩
  else if inside.any fun c => c == '\n' || c == '\r' then ⟨.brokenString, ['"']⟩
  else ⟨.string, '"' :: inside ++ ['"']⟩

/-- The longest beginning of a text that is digits, a point or none, and digits or none. -/
def unsignedMatch? (text : List Char) : Option (List Char) :=
  let whole := text.takeWhile Char.isDigit
  if whole.isEmpty then none
  else
    match text.dropWhile Char.isDigit with
    | '.' :: rest => some (whole ++ '.' :: rest.takeWhile Char.isDigit)
    | _ => some whole

/-- The longest beginning of a text that has the form of a number, with a sign or none. -/
def numberMatch? : List Char → Option (List Char)
  | '+' :: rest => (unsignedMatch? rest).map ('+' :: ·)
  | '-' :: rest => (unsignedMatch? rest).map ('-' :: ·)
  | text => unsignedMatch? text

/-- What a match of a number may hold too much at its end. -/
def numberSuffixes : List Char :=
  ['/', '+', '-', '*', ';', '.']

/-- Takes each of the suffixes off, in their order, if the characters then end with it. -/
def withoutSuffixes (chars : List Char) : List Char :=
  numberSuffixes.foldl
    (fun chars suffix => if chars.getLast? = some suffix then chars.dropLast else chars) chars

/-- The first lexeme of a text whose first character is `c`. -/
def ofCons (c : Char) (rest : List Char) : Lexeme :=
  let text := c :: rest
  match spelled? Kind.table text with
  | some lexeme => lexeme
  | none =>
    if c == ' ' || c == '\t' then ⟨.space, [c]⟩
    else
      match lineBreaks.find? (·.isPrefixOf text) with
      | some chars => ⟨.lineBreak, chars⟩
      | none =>
        match spelled? [.endWord, .colon] text with
        | some lexeme => lexeme
        | none =>
          if c == '"' then quoted rest
          else
            match numberMatch? text with
            | some chars => ⟨.number, withoutSuffixes chars⟩
            | none =>
              if isNameStart c then ⟨.identifier, text.takeWhile isNamePart⟩
              else ⟨.unknownCharacter, [c]⟩

def first : List Char → Lexeme
  | [] => ⟨.endOfInput, []⟩
  | c :: rest => ofCons c rest

def length (lexeme : Lexeme) : Nat :=
  lexeme.chars.length

/-- The characters without the quotes of a string, or the complaint of a stop. -/
def text (lexeme : Lexeme) : String :=
  match lexeme.kind.complaint? with
  | some complaint => complaint
  | none =>
    if lexeme.kind = .string then .ofList (lexeme.chars.drop 1).dropLast
    else .ofList lexeme.chars

def isValid (lexeme : Lexeme) : Bool :=
  lexeme.kind.isValid

def isWhitespace (lexeme : Lexeme) : Bool :=
  lexeme.kind.isWhitespace

def listing (lexeme : Lexeme) : String :=
  let shown :=
    match lexeme.kind with
    | .space => "SPACE"
    | .lineBreak => "EOLN"
    | _ => lexeme.text
  shown ++ "\t: " ++ toString lexeme.kind.code

/-- The form that messages show; `place` follows the text. -/
def describeWith (lexeme : Lexeme) (place : String) : String :=
  "Token(" ++ lexeme.kind.name ++ ", " ++ Text.quote lexeme.text ++ place ++ ")"

def describe (lexeme : Lexeme) : String :=
  lexeme.describeWith ""

end Lexeme

end LoopLang
