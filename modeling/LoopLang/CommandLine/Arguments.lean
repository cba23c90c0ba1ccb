import LoopLang.Text.Decimal

/-!
# Command-line arguments

The command takes one file name and any number of flags. A flag may be shortened as long
as it stays the only one that begins so. After two dashes all arguments are names. A flag
takes no value, and asking for help wins over whatever is wrong further on.
-/
namespace LoopLang.CommandLine

structure Options where
  file : String
  tokens : Bool := false
  tree : Bool := false
  json : Bool := false
  debug : Bool := false
  caseSensitive : Bool := false

inductive Flag where
  | help | tokens | tree | json | debug | caseSensitive
  deriving DecidableEq

namespace Flag

def all : List Flag :=
  [help, tokens, tree, json, debug, caseSensitive]

def spelling : Flag → List Char
  | help => "--help".toList
  | tokens => "--tokens".toList
  | tree => "--ast".toList
  | json => "--json".toList
  | debug => "--debug".toList
  | caseSensitive => "--case-sensitive".toList

def set (flag : Flag) (options : Options) : Options :=
  match flag with
  | help => options
  | tokens => { options with tokens := true }
  | tree => { options with tree := true }
  | json => { options with json := true }
  | debug => { options with debug := true }
  | caseSensitive => { options with caseSensitive := true }

end Flag

inductive Argument where
  | name (text : String)
  | flag (flag : Flag)
  /-- A flag with a value, which no flag takes. -/
  | valued
  | unknown
  /-- The beginning of several flags. -/
  | ambiguous
  deriving DecidableEq

/-- The text without one line break at its end. -/
def dropLineBreak (chars : List Char) : List Char :=
  if chars.getLast? = some '\n' then chars.dropLast else chars

/-- Whether an argument that begins with a dash is a negative number; digits of any script
make numbers, and a line break may follow. -/
def isNegativeNumber : List Char → Bool
  | '-' :: chars =>
    let digits := dropLineBreak chars
    match digits.dropWhile Text.isDecimal with
    | [] => !digits.isEmpty
    | '.' :: fraction => !fraction.isEmpty && fraction.all Text.isDecimal
    | _ => false
  | _ => false

/-- An argument that begins no flag: a name if it cannot be meant for a flag. -/
def nameOrUnknown (chars : List Char) : Argument :=
  if isNegativeNumber chars || chars.contains ' ' then .name (.ofList chars) else .unknown

/-- A long flag, written out or shortened. -/
def longFlag (chars : List Char) : Argument :=
  let word := chars.takeWhile (· != '=')
  let isValued := word.length < chars.length
  match Flag.all.filter fun flag => word.isPrefixOf flag.spelling with
  | [] => nameOrUnknown chars
  | [flag] => if isValued then .valued else .flag flag
  | _ => .ambiguous

/-- The short flag for help and what follows it in one argument, of which an equals sign in
front is left out: only more of the same flag can follow. -/
def shortHelp (rest : List Char) : Argument :=
  let more := if rest.head? = some '=' then rest.drop 1 else rest
  if rest.isEmpty || (!more.isEmpty && more.all (· == 'h')) then .flag .help else .valued

/-- A short flag; only the one for help exists. -/
def shortFlag (chars : List Char) : Argument :=
  match chars with
  | '-' :: 'h' :: rest => shortHelp rest
  | _ => nameOrUnknown chars

def classify (text : String) : Argument :=
  match text.toList with
  | '-' :: '-' :: rest => longFlag ('-' :: '-' :: rest)
  | '-' :: c :: rest => shortFlag ('-' :: c :: rest)
  | _ => .name text

def Argument.isName : Argument → Bool
  | name _ => true
  | _ => false

/-- Two dashes have nothing to set apart if the file was named before another flag. -/
def strayDashes (before : List Argument) : Bool :=
  before.any Argument.isName && !before.getLast?.any Argument.isName

/-- What the arguments before the first two dashes are taken for, then those after. -/
def classifyAll (arguments : List String) : List Argument :=
  let before := (arguments.takeWhile (· != "--")).map classify
  match arguments.dropWhile (· != "--") with
  | [] => before
  | _ :: after =>
    before ++ (if strayDashes before then [.unknown] else []) ++ after.map .name

/-- A command that can be carried out, or the status to leave with. -/
inductive Command where
  | interpret (options : Options)
  | leave (status : Nat)

/-- An unknown flag is told at the end, if nothing else was told before. -/
def Command.spoil : Command → Command
  | interpret _ => leave 2
  | leave status => leave status

/-- Goes through the arguments with the names and options that were found before. -/
def collect (names : List String) (options : Options) : List Argument → Command
  | [] =>
    match names with
    | [file] => .interpret { options with file }
    | _ => .leave 2
  | .name text :: rest => collect (names ++ [text]) options rest
  | .flag .help :: _ => .leave 0
  | .flag flag :: rest => collect names (flag.set options) rest
  | .unknown :: rest => (collect names options rest).spoil
  | .valued :: _ | .ambiguous :: _ => .leave 2

def Command.parse (arguments : List String) : Command :=
  let classified := classifyAll arguments
  if classified.contains .ambiguous then .leave 2
  else collect [] { file := "" } classified

end LoopLang.CommandLine
