import LoopLang.Token.Source

/-!
# Cursors

A cursor keeps its place in a source by four parts: its position, the token there, the token that
it passed last, and the last one of these that is not whitespace. Every move goes on from the
parts alone, and scans what comes next. A token is passed in two halves, and a move that is given
up between them leaves the parts apart: the token counts as passed, but is still the next one.
-/
namespace LoopLang

structure Cursor where
  source : Source
  position : Nat
  /-- The token that is passed next, unless it stops the scan. -/
  peek : Token
  last? : Option Token
  lastReal? : Option Token

namespace Source

/-- More than the tokens that there are, from wherever they are counted. -/
def plenty (source : Source) : Nat :=
  source.text.length + 2

/-- The first token from an offset on that is not whitespace, after so many that are. -/
def seek (source : Source) : Nat → Nat → Token
  | 0, offset => source.scan offset
  | count + 1, offset =>
    let token := source.scan offset
    if token.isWhitespace then source.seek count (offset + token.length) else token

end Source

namespace Cursor

def ofSource (source : Source) : Cursor :=
  ⟨source, 0, source.scan 0, none, none⟩

def isDone (cursor : Cursor) : Bool :=
  !cursor.peek.isValid

/-- The first half of passing a token: it is behind, and what follows it has not been scanned. -/
def leave (cursor : Cursor) : Cursor :=
  { cursor with
    position := cursor.position + cursor.peek.length
    last? := some cursor.peek
    lastReal? := if cursor.peek.isWhitespace then cursor.lastReal? else some cursor.peek }

/-- The second half: the token at the position comes next. -/
def arrive (cursor : Cursor) : Cursor :=
  { cursor with peek := cursor.source.scan cursor.position }

/-- Passes one token, if any is left. -/
def advance (cursor : Cursor) : Cursor :=
  if cursor.isDone then cursor else cursor.leave.arrive

/-- Passes whitespace, so many tokens of it at most. -/
def skip : Nat → Cursor → Cursor
  | 0, cursor => cursor
  | count + 1, cursor => if cursor.peek.isWhitespace then skip count cursor.advance else cursor

def skipWhitespace (cursor : Cursor) : Cursor :=
  cursor.skip cursor.source.plenty

def advanceReal (cursor : Cursor) : Cursor :=
  cursor.advance.skipWhitespace

/-- The token that the cursor would stand before after `advanceReal`, found without a move. -/
def peekNextReal (cursor : Cursor) : Token :=
  if cursor.isDone then cursor.peek
  else cursor.source.seek cursor.source.plenty (cursor.position + cursor.peek.length)

def reset (cursor : Cursor) : Cursor :=
  ofSource cursor.source

end Cursor

/-- A visit to the tokens one by one: not yet begun, at a token that it has yielded and not
yet passed, or at its end. -/
inductive Visit where
  | fresh | waiting | ended

namespace Visit

/-- Yields the token before a cursor, if one is left. -/
def look (cursor : Cursor) : Option Token × Visit × Cursor :=
  if cursor.isDone then (none, ended, cursor) else (some cursor.peek, waiting, cursor)

/-- Takes a visit up again, wherever the cursor stands by then. -/
def resume : Visit → Cursor → Option Token × Visit × Cursor
  | fresh, cursor => look cursor
  | waiting, cursor => look cursor.advance
  | ended, cursor => (none, ended, cursor)

/-- Takes a visit up so many times, or until it is over. -/
def yields (visit : Visit) (cursor : Cursor) : Nat → List Token × Cursor
  | 0 => ([], cursor)
  | count + 1 =>
    match visit.resume cursor with
    | (none, _, last) => ([], last)
    | (some token, visit, middle) =>
      let (rest, last) := visit.yields middle count
      (token :: rest, last)

end Visit

namespace Cursor

def drain (cursor : Cursor) : List Token × Cursor :=
  Visit.fresh.yields cursor cursor.source.plenty

/-- All tokens from the first to the one that stops the scan. -/
def everyToken (cursor : Cursor) : List Token :=
  let (tokens, last) := cursor.reset.drain
  tokens ++ [last.peek]

end Cursor

end LoopLang
