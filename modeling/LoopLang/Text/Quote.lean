import LoopLang.Text.Hex
import LoopLang.Text.Printable

/-!
# Quoted text

Texts appear in messages between quotes, on one line and in printable characters only.
The mark is a single quote unless that would need an escape and a double quote would not.
-/
namespace LoopLang.Text

/-- The mark that a text is quoted with. -/
def quoteMark (text : List Char) : Char :=
  if '\'' ∈ text ∧ '"' ∉ text then '"' else '\''

/-- The shortest escape that can name an unprintable character. -/
def escapeCode (code : Nat) : List Char :=
  if code < 0x100 then '\\' :: 'x' :: hex 2 code
  else if code < 0x10000 then '\\' :: 'u' :: hex 4 code
  else '\\' :: 'U' :: hex 8 code

def quoteChar (mark c : Char) : List Char :=
  if c = mark ∨ c = '\\' then ['\\', c]
  else if c = '\t' then ['\\', 't']
  else if c = '\n' then ['\\', 'n']
  else if c = '\r' then ['\\', 'r']
  else if isPrintable c then [c]
  else escapeCode c.toNat

def quoteChars (text : List Char) : List Char :=
  let mark := quoteMark text
  mark :: text.flatMap (quoteChar mark) ++ [mark]

def quote (text : String) : String :=
  .ofList (quoteChars text.toList)

/-- Quoted text, or the word for a missing one. -/
def quoteOption : Option String → String
  | some text => quote text
  | none => "None"

end LoopLang.Text
