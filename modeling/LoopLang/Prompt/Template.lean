/-!
# Templates

A prompt is given by a template. Doubled braces stand for single ones, and a field stands
in braces: what it names, then perhaps a conversion after an exclamation mark, then
perhaps a layout after a colon. What a field names may go on with attributes and items.
Templates are cut up from left to right as far as they are whole, so what stands before a
mistake can be looked at first.
-/
namespace LoopLang.Prompt

structure Field where
  path : List Char := []
  conversion : Option Char := none
  spec : List Char := []

inductive Piece where
  | plain (c : Char)
  | field (field : Field)
  /-- Where the template stops making sense. -/
  | broken

/-- The part of a field that is being read. -/
inductive Part where
  | path
  /-- Between square brackets no character has a meaning. -/
  | brackets
  | conversion
  | afterConversion
  /-- Inside the layout, with so many braces open in it. -/
  | layout (inner : Nat)

/-- A field that is still open. Its characters stand with the latest first. -/
structure OpenField where
  part : Part := .path
  field : Field := {}

inductive Progress where
  | further (field : OpenField)
  | closed (field : Field)
  | broken

namespace OpenField

def close (opened : OpenField) : Field :=
  { opened.field with
    path := opened.field.path.reverse
    spec := opened.field.spec.reverse }

def addPath (opened : OpenField) (part : Part) (c : Char) : Progress :=
  .further { part, field := { opened.field with path := c :: opened.field.path } }

def addSpec (opened : OpenField) (inner : Nat) (c : Char) : Progress :=
  .further { part := .layout inner, field := { opened.field with spec := c :: opened.field.spec } }

def push (opened : OpenField) (c : Char) : Progress :=
  match opened.part, c with
  | .path, '\x7b' => .broken
  | .path, '\x7d' => .closed opened.close
  | .path, '!' => .further { opened with part := .conversion }
  | .path, ':' => .further { opened with part := .layout 0 }
  | .path, '[' => opened.addPath .brackets c
  | .path, _ => opened.addPath .path c
  | .brackets, ']' => opened.addPath .path c
  | .brackets, _ => opened.addPath .brackets c
  | .conversion, _ =>
    .further { part := .afterConversion, field := { opened.field with conversion := some c } }
  | .afterConversion, '\x7d' => .closed opened.close
  | .afterConversion, ':' => .further { opened with part := .layout 0 }
  | .afterConversion, _ => .broken
  | .layout inner, '\x7b' => opened.addSpec (inner + 1) c
  | .layout 0, '\x7d' => .closed opened.close
  | .layout (inner + 1), '\x7d' => opened.addSpec inner c
  | .layout inner, _ => opened.addSpec inner c

end OpenField

/-- The pieces of a template, of which a field may have been opened. -/
def piecesFrom (opened : Option OpenField) : List Char → List Piece
  | [] => if opened.isNone then [] else [.broken]
  | c :: rest =>
    match opened with
    | some field =>
      match field.push c with
      | .further field => piecesFrom (some field) rest
      | .closed field => .field field :: piecesFrom none rest
      | .broken => [.broken]
    | none =>
      match c, rest with
      | '\x7b', '\x7b' :: rest => .plain c :: piecesFrom none rest
      | '\x7d', '\x7d' :: rest => .plain c :: piecesFrom none rest
      | '\x7b', rest => piecesFrom (some {}) rest
      | '\x7d', _ => [.broken]
      | c, rest => .plain c :: piecesFrom none rest

def pieces (template : List Char) : List Piece :=
  piecesFrom none template

/-- How a path goes on from a value. -/
inductive Access where
  | attribute (name : List Char)
  | item (key : List Char)
  /-- Where the path stops making sense. -/
  | broken

def startsAccess (c : Char) : Bool :=
  c == '.' || c == '['

def pathRoot (path : List Char) : List Char :=
  path.takeWhile (!startsAccess ·)

/-- The steps of a path after its beginning; none of them may be empty. -/
def accesses : List Char → List Access
  | [] => []
  | '.' :: rest =>
    if (pathRoot rest).isEmpty then [.broken]
    else .attribute (pathRoot rest) :: accesses (rest.dropWhile (!startsAccess ·))
  | '[' :: rest =>
    let key := rest.takeWhile (· != ']')
    if key.isEmpty || key.length = rest.length then [.broken]
    else .item key :: accesses ((rest.dropWhile (· != ']')).drop 1)
  | _ => [.broken]
termination_by path => path.length
decreasing_by
  · simpa using Nat.lt_succ_of_le (List.dropWhile_sublist _).length_le
  · simpa using Nat.lt_succ_of_le
      (Nat.le_trans (Nat.sub_le _ _) (List.dropWhile_sublist _).length_le)

def pathAccesses (path : List Char) : List Access :=
  accesses (path.dropWhile (!startsAccess ·))

end LoopLang.Prompt
