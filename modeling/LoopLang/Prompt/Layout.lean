import LoopLang.Fault
import LoopLang.Text.Decimal

/-!
# Layouts

A layout says how a text or a number is set. It is written in this order: a character to
fill with and an alignment, a sign, marks for zeros, for the alternate form and for
padding with zeros, the width, a mark between groups of digits, a precision after a point,
and a letter for the form. A text takes few of these: it is cut to the precision and
filled up to the width.
-/
namespace LoopLang.Prompt

/-- The first number too large to be written in a prompt. -/
def numberLimit : Nat := .pow 2 63

/-- A width from which on nothing is filled up any more. -/
def widthLimit : Nat := .pow 10 10

/-- The digits that a text begins with as a number, and the rest. -/
def splitNumber (text : List Char) : Except Fault (Option Nat × List Char) :=
  let digits := text.takeWhile Text.isDecimal
  if digits.isEmpty then .ok (none, text)
  else if Text.decimalValue digits < numberLimit then
    .ok (some (Text.decimalValue digits), text.dropWhile Text.isDecimal)
  else .error .malformedPrompt

inductive Alignment where
  | left | middle | right
  /-- Between what stands before a number and its digits. -/
  | inside
  deriving DecidableEq

def Alignment.ofChar? : Char → Option Alignment
  | '<' => some left
  | '^' => some middle
  | '>' => some right
  | '=' => some inside
  | _ => none

structure Layout where
  fill : Option Char
  alignment : Option Alignment
  sign : Option Char
  positiveZero : Bool
  alternate : Bool
  zeroPadded : Bool
  width : Nat
  grouping : Option Char
  precision : Option Nat
  form : Option Char

namespace Layout

/-- Splits an alignment off, and the character to fill with that may stand before it. -/
def splitAlignment (spec : List Char) : Option Char × Option Alignment × List Char :=
  match spec with
  | [] => (none, none, [])
  | first :: rest =>
    match rest.head?.bind Alignment.ofChar? with
    | some alignment => (some first, some alignment, rest.drop 1)
    | none =>
      match Alignment.ofChar? first with
      | some alignment => (none, some alignment, rest)
      | none => (none, none, spec)

def splitMark (isMark : Char → Bool) (spec : List Char) : Option Char × List Char :=
  match spec with
  | [] => (none, [])
  | c :: rest => if isMark c then (some c, rest) else (none, spec)

/-- Splits off how many characters or digits are asked for; a point has to be followed by a
number. -/
def splitPrecision : List Char → Except Fault (Option Nat × List Char)
  | '.' :: rest => do
    match ← splitNumber rest with
    | (none, _) => .error .malformedPrompt
    | precision => return precision
  | spec => .ok (none, spec)

/-- Whether groups of digits may be divided by a mark in a form. -/
def allowsGrouping (form : Option Char) (mark : Char) : Bool :=
  match form with
  | none => true
  | some form =>
    form ∈ ['d', 'e', 'f', 'g', 'E', 'F', 'G', '%'] || (mark == '_' && form ∈ ['b', 'o', 'x', 'X'])

/-- Reads a layout. Padding with zeros goes without a mark if a character to fill with is
named; the zero then belongs to the width. -/
def parse (spec : List Char) : Except Fault Layout := do
  let (fill, alignment, spec) := splitAlignment spec
  let (sign, spec) := splitMark (fun c => c == '+' || c == '-' || c == ' ') spec
  let (positiveZero, spec) := splitMark (· == 'z') spec
  let (alternate, spec) := splitMark (· == '#') spec
  let (zero, spec) := splitMark (fun c => c == '0' && fill.isNone) spec
  let (width, spec) ← splitNumber spec
  let (comma, spec) := splitMark (· == ',') spec
  let (underscore, spec) := splitMark (· == '_') spec
  let (precision, spec) ← splitPrecision spec
  let (form, spec) := splitMark (fun _ => true) spec
  let grouping := comma <|> underscore
  if spec ≠ [] ∨ (comma.isSome ∧ underscore.isSome) ∨
      !(grouping.all (allowsGrouping form)) then .error .malformedPrompt
  else
    return { fill, alignment, sign, positiveZero := positiveZero.isSome,
             alternate := alternate.isSome, zeroPadded := zero.isSome, width := width.getD 0,
             grouping, precision, form }

def filler (layout : Layout) : Char :=
  layout.fill.getD (if layout.zeroPadded then '0' else ' ')

/-- A body with what stands before it, filled up to the width. -/
def fillUp (layout : Layout) (alignment : Alignment) (front body : List Char) :
    Except Fault (List Char) :=
  let missing := layout.width - (front.length + body.length)
  let fill (count : Nat) : List Char := List.replicate count layout.filler
  if widthLimit ≤ layout.width then .error .promptTooWide
  else
    match alignment with
    | .left => .ok (front ++ body ++ fill missing)
    | .middle => .ok (fill (missing / 2) ++ front ++ body ++ fill (missing - missing / 2))
    | .right => .ok (fill missing ++ front ++ body)
    | .inside => .ok (front ++ fill missing ++ body)

/-- Sets a text. What only numbers have must not be asked for. -/
def setText (layout : Layout) (text : List Char) : Except Fault (List Char) :=
  if layout.sign.isSome ∨ layout.positiveZero ∨ layout.alternate ∨ layout.grouping.isSome ∨
      layout.alignment = some .inside ∨ layout.form.any (· ≠ 's') then .error .malformedPrompt
  else
    layout.fillUp (layout.alignment.getD .left) []
      (match layout.precision with
        | some count => text.take count
        | none => text)

end Layout

end LoopLang.Prompt
