import LoopLang.Fault

/-!
# Consoles

A running program reads and writes lines. A queue hands out prepared lines and keeps what
was written apart from the prompts; a pair of streams holds the text that is still unread
and one text with prompts and lines together; and there may be no console at all.
-/
namespace LoopLang

inductive Console where
  /-- What was written and the prompts stand with the latest first. -/
  | queue (unread written prompts : List String)
  /-- The pieces of text that were written stand with the latest first. -/
  | streams (unread : List Char) (written : List String)
  | missing

namespace Console

def ofLines (lines : List String) : Console :=
  .queue lines [] []

def ofInput (input : List Char) : Console :=
  .streams input []

def isLineEnd (c : Char) : Bool :=
  c == '\n' || c == '\r'

/-- A text up to and including its first line feed, and the rest. -/
def splitLine (input : List Char) : List Char × List Char :=
  let line := input.takeWhile (· != '\n')
  (line ++ (input.drop line.length).take 1, (input.drop line.length).drop 1)

def dropLineEnds (line : List Char) : List Char :=
  (line.reverse.dropWhile isLineEnd).reverse

/-- Shows a prompt and reads a line, if there is one left. -/
def readLine (prompt : String) : Console → Except Fault (Option String × Console)
  | queue [] written prompts => .ok (none, queue [] written (prompt :: prompts))
  | queue (line :: unread) written prompts =>
    .ok (some line, queue unread written (prompt :: prompts))
  | streams unread written =>
    if unread.isEmpty then .ok (none, streams unread (prompt :: written))
    else
      let (line, rest) := splitLine unread
      .ok (some (.ofList (dropLineEnds line)), streams rest (prompt :: written))
  | missing => .error .noConsole

def writeLine (line : String) : Console → Except Fault Console
  | queue unread written prompts => .ok (queue unread (line :: written) prompts)
  | streams unread written => .ok (streams unread ((line ++ "\n") :: written))
  | missing => .error .noConsole

/-- Everything that was written on streams, in order. -/
def transcript : Console → String
  | streams _ written => String.join written.reverse
  | queue .. | missing => ""

end Console

end LoopLang
