/-!
# Token kinds

The words and symbols of the language, the tokens whose text varies, and the four ways in
which a scan can stop. Words and symbols are tried in the order of their declaration, and
the first that begins the text wins, so a symbol stands before its own beginnings.
-/
namespace LoopLang

inductive Kind where
  | ifWord | thenWord | elseWord | fiWord | loopWord | breakWord | readWord | printWord
  | andWord | orWord
  | point | closing | opening | slash | star | minus | plus
  | notEqual | greaterEqual | lessEqual | greater | equal | less
  | assign | semicolon | repeatWord | comma
  | space | lineBreak | identifier | number | string | endWord | colon
  | unknownCharacter | openQuote | brokenString | endOfInput
  deriving DecidableEq

namespace Kind

def all : List Kind :=
  [ifWord, thenWord, elseWord, fiWord, loopWord, breakWord, readWord, printWord, andWord, orWord,
    point, closing, opening, slash, star, minus, plus, notEqual, greaterEqual, lessEqual, greater,
    equal, less, assign, semicolon, repeatWord, comma, space, lineBreak, identifier, number,
    string, endWord, colon, unknownCharacter, openQuote, brokenString, endOfInput]

/-- The words and symbols that are tried before anything else. -/
def table : List Kind :=
  [ifWord, thenWord, elseWord, fiWord, loopWord, breakWord, readWord, printWord, andWord, orWord,
    point, closing, opening, slash, star, minus, plus, notEqual, greaterEqual, lessEqual, greater,
    equal, less, assign, semicolon, repeatWord, comma]

def relations : List Kind :=
  [notEqual, greaterEqual, lessEqual, greater, equal, less]

def name : Kind → String
  | ifWord => "IF"
  | thenWord => "THEN"
  | elseWord => "ELSE"
  | fiWord => "FI"
  | loopWord => "LOOP"
  | breakWord => "BREAK"
  | readWord => "READ"
  | printWord => "PRINT"
  | andWord => "AND"
  | orWord => "OR"
  | point => "POINT"
  | closing => "RPAREN"
  | opening => "LPAREN"
  | slash => "DIV"
  | star => "MUL"
  | minus => "SUB"
  | plus => "ADD"
  | notEqual => "NOT_EQUAL"
  | greaterEqual => "GREATER_EQUAL"
  | lessEqual => "LESS_EQUAL"
  | greater => "GREATER"
  | equal => "EQUAL"
  | less => "LESS"
  | assign => "ASSIGN"
  | semicolon => "SEMI"
  | repeatWord => "REPEAT"
  | comma => "COMMA"
  | space => "WHITESPACE"
  | lineBreak => "NEWLINE"
  | identifier => "ID"
  | number => "NUMBER"
  | string => "STRING"
  | endWord => "END"
  | colon => "COLON"
  | unknownCharacter => "UNKNOWN_CHARACTERS"
  | openQuote => "MISMATCHED_QUOTE"
  | brokenString => "NEWLINE_IN_LITERAL"
  | endOfInput => "EOF"

def code : Kind → Int
  | ifWord => 1
  | thenWord => 2
  | elseWord => 3
  | fiWord => 4
  | loopWord => 5
  | breakWord => 6
  | readWord => 7
  | printWord => 8
  | andWord => 9
  | orWord => 10
  | point => 11
  | closing => 12
  | opening => 13
  | slash => 14
  | star => 15
  | minus => 16
  | plus => 17
  | notEqual => 18
  | greaterEqual => 19
  | lessEqual => 20
  | greater => 21
  | equal => 22
  | less => 23
  | assign => 24
  | semicolon => 25
  | repeatWord => 33
  | comma => 34
  | space => 26
  | lineBreak => 27
  | identifier => 28
  | number => 29
  | string => 30
  | endWord => 31
  | colon => 32
  | unknownCharacter => -1
  | openQuote => -2
  | brokenString => -3
  | endOfInput => -400

/-- The characters of a word or symbol. -/
def spelling? : Kind → Option (List Char)
  | ifWord => some ['I', 'F']
  | thenWord => some ['T', 'H', 'E', 'N']
  | elseWord => some ['E', 'L', 'S', 'E']
  | fiWord => some ['F', 'I']
  | loopWord => some ['L', 'O', 'O', 'P']
  | breakWord => some ['B', 'R', 'E', 'A', 'K']
  | readWord => some ['R', 'E', 'A', 'D']
  | printWord => some ['P', 'R', 'I', 'N', 'T']
  | andWord => some ['A', 'N', 'D']
  | orWord => some ['O', 'R']
  | point => some ['.']
  | closing => some [')']
  | opening => some ['(']
  | slash => some ['/']
  | star => some ['*']
  | minus => some ['-']
  | plus => some ['+']
  | notEqual => some ['<', '>']
  | greaterEqual => some ['>', '=']
  | lessEqual => some ['<', '=']
  | greater => some ['>']
  | equal => some ['=']
  | less => some ['<']
  | assign => some [':', '=']
  | semicolon => some [';']
  | repeatWord => some ['R', 'E', 'P', 'E', 'A', 'T']
  | comma => some [',']
  | endWord => some ['E', 'N', 'D']
  | colon => some [':']
  | _ => none

/-- What a kind that stops the scan shows in place of its characters. -/
def complaint? : Kind → Option String
  | unknownCharacter => some "[ERROR - UNKNOWN CHARACTERS OR SYMBOLS.]"
  | openQuote => some "[ERROR, MISMATCHED \".]"
  | brokenString => some "[ERROR, STRING LITERAL CONTAINS NEWLINES.]"
  | endOfInput => some "[Empty String, done, or nothing left to process]"
  | _ => none

def literal? (kind : Kind) : Option String :=
  match kind.complaint? with
  | some text => some text
  | none => kind.spelling?.map String.ofList

/-- What a message calls a token of this kind that was expected. -/
def expected (kind : Kind) : String :=
  kind.literal?.getD kind.name

def isValid (kind : Kind) : Bool :=
  kind.complaint?.isNone

def isWhitespace (kind : Kind) : Bool :=
  kind == space || kind == lineBreak

def isAdditive (kind : Kind) : Bool :=
  kind == plus || kind == minus

def isMultiplicative (kind : Kind) : Bool :=
  kind == star || kind == slash

def isRelation (kind : Kind) : Bool :=
  relations.contains kind

def ofName? (text : String) : Option Kind :=
  all.find? (·.name == text)

end Kind

end LoopLang
