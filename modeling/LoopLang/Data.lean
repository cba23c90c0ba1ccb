import LoopLang.Number.Style
import LoopLang.Text.Hex

/-!
# Data values

Outlines of trees and final states are data: nothing, truth values, numbers, texts, lists
and records whose fields keep their order. As JSON they are written in ASCII, on one line
or indented.
-/
namespace LoopLang

inductive Data where
  | null
  | bool (value : Bool)
  | number (value : Float)
  | text (content : String)
  | list (items : List Data)
  | record (fields : List (String × Data))

namespace Data

/-- The two halves of a character beyond the first 65536, or the character's code. -/
def utf16 (code : Nat) : List Nat :=
  if code < 0x10000 then [code]
  else [0xD800 + (code - 0x10000) / 0x400, 0xDC00 + (code - 0x10000) % 0x400]

def escapeChar (c : Char) : List Char :=
  match c with
  | '"' => ['\\', '"']
  | '\\' => ['\\', '\\']
  | '\n' => ['\\', 'n']
  | '\r' => ['\\', 'r']
  | '\t' => ['\\', 't']
  | '\x08' => ['\\', 'b']
  | '\x0c' => ['\\', 'f']
  | c =>
    if ' ' ≤ c ∧ c ≤ '~' then [c]
    else (utf16 c.toNat).flatMap fun unit => '\\' :: 'u' :: Text.hex 4 unit

def jsonString (content : String) : String :=
  .ofList ('"' :: content.toList.flatMap escapeChar ++ ['"'])

/-- The text of a value without parts. -/
def jsonLeaf : Data → String
  | null => "null"
  | bool value => if value then "true" else "false"
  | number value => Number.write Number.dataFile value
  | text content => jsonString content
  | list _ => "[]"
  | record _ => "\x7b\x7d"

/-- A line break and the indentation of a level, or nothing in one-line text. -/
def lineBreak (indent : Option Nat) (level : Nat) : String :=
  match indent with
  | some width => .ofList ('\n' :: List.replicate (width * level) ' ')
  | none => ""

def separator (indent : Option Nat) (level : Nat) : String :=
  match indent with
  | some _ => "," ++ lineBreak indent level
  | none => ", "

mutual

/-- The JSON text of a value at a nesting level, indented by so many blanks a level. -/
def jsonAt (indent : Option Nat) (level : Nat) : Data → String
  | list (first :: rest) =>
    "[" ++ lineBreak indent (level + 1) ++ jsonAt indent (level + 1) first ++
      jsonItems indent (level + 1) rest ++ lineBreak indent level ++ "]"
  | record ((name, first) :: rest) =>
    "\x7b" ++ lineBreak indent (level + 1) ++ jsonString name ++ ": " ++
      jsonAt indent (level + 1) first ++ jsonFields indent (level + 1) rest ++
      lineBreak indent level ++ "\x7d"
  | leaf => jsonLeaf leaf

def jsonItems (indent : Option Nat) (level : Nat) : List Data → String
  | [] => ""
  | first :: rest =>
    separator indent level ++ jsonAt indent level first ++ jsonItems indent level rest

def jsonFields (indent : Option Nat) (level : Nat) : List (String × Data) → String
  | [] => ""
  | (name, first) :: rest =>
    separator indent level ++ jsonString name ++ ": " ++ jsonAt indent level first ++
      jsonFields indent level rest

end

def json (data : Data) : String :=
  data.jsonAt none 0

def indentedJson (data : Data) : String :=
  data.jsonAt (some 2) 0

end Data

end LoopLang
