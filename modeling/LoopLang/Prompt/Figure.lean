import LoopLang.Prompt.Layout

/-!
# Figures

A whole number is set in figures: in a base, as a character, or as a decimal with a
fraction or an exponent. Its digits may be divided into groups; zeros that pad a number
are divided with them. Rounding goes to the nearest decimal, and a tie to the even digit.
-/
namespace LoopLang.Prompt

/-- A number in figures: what stands before its digits, the digits of the whole part, and
what follows them. -/
structure Figure where
  front : List Char
  whole : List Char
  rest : List Char

namespace Figure

def digits (base value : Nat) : List Char :=
  Nat.toDigits base value

/-- A figure in a base, with the mark of the base in the alternate form. -/
def ofBase (base : Nat) (mark : Char) (alternate : Bool) (value : Nat) : Figure :=
  ⟨if alternate then ['0', mark] else [], digits base value, []⟩

/-- A figure with a fraction of zeros; the alternate form keeps the point without one. -/
def fixed (places : Nat) (alternate : Bool) (value : Nat) : Figure :=
  ⟨[], digits 10 value,
    (if places = 0 ∧ !alternate then [] else ['.']) ++ List.replicate places '0'⟩

/-- A number divided by a power of ten and rounded. -/
def roundedDigits (drop value : Nat) : Nat :=
  let unit := Nat.pow 10 drop
  let quotient := value / unit
  let twice := 2 * (value % unit)
  if twice > unit ∨ (twice = unit ∧ quotient % 2 = 1) then quotient + 1 else quotient

def significant (count value : Nat) : List Char × Nat :=
  let size := (digits 10 value).length
  if size ≤ count then (digits 10 value ++ List.replicate (count - size) '0', size - 1)
  else
    let rounded := digits 10 (roundedDigits (size - count) value)
    (rounded.take count, size - 1 + (rounded.length - count))

def exponentText (letter : Char) (exponent : Nat) : List Char :=
  letter :: '+' :: (if exponent < 10 then ['0'] else []) ++ digits 10 exponent

/-- A figure with one digit before the point and an exponent. -/
def scientific (letter : Char) (places : Nat) (alternate : Bool) (value : Nat) : Figure :=
  let (digits, exponent) := significant (places + 1) value
  ⟨[], digits.take 1,
    (if places = 0 ∧ !alternate then [] else ['.']) ++ digits.drop 1 ++
      exponentText letter exponent⟩

def trimFraction (fraction : List Char) : List Char :=
  let kept := (fraction.reverse.dropWhile (· == '0')).reverse
  if kept.isEmpty then [] else '.' :: kept

/-- A figure with so many significant digits, and an exponent if that is not enough for its
whole part; the alternate form keeps zeros at the end. -/
def general (letter : Char) (precision : Nat) (alternate : Bool) (value : Nat) : Figure :=
  let count := max precision 1
  let (digits, exponent) := significant count value
  let places (whole : Nat) : List Char :=
    if alternate then '.' :: digits.drop whole else trimFraction (digits.drop whole)
  if exponent < count then ⟨[], digits.take (exponent + 1), places (exponent + 1)⟩
  else ⟨[], digits.take 1, places 1 ++ exponentText letter exponent⟩

end Figure

/-- Groups of `size` digits with a mark between them. -/
def grouped (size : Nat) (mark : Char) (digits : List Char) : List Char :=
  match digits with
  | [] => []
  | first :: rest =>
    if rest ≠ [] ∧ rest.length % size = 0 then first :: mark :: grouped size mark rest
    else first :: grouped size mark rest

/-- How many digits, and no fewer than `count`, fill a width together with the marks between
groups of `size`. A mark never comes first. -/
def digitsToFill (size width count : Nat) : Nat :=
  max count (width - (width - 1) / (size + 1))

namespace Layout

def groupSize (layout : Layout) : Nat :=
  if layout.form.any (· ∈ ['b', 'o', 'x', 'X']) then 4 else 3

def figure (layout : Layout) (value : Nat) : Except Fault Figure :=
  let places := layout.precision.getD 6
  let whole (figure : Figure) : Except Fault Figure :=
    if layout.precision.isSome ∨ layout.positiveZero then .error .malformedPrompt else .ok figure
  match layout.form with
  | none | some 'd' | some 'n' => whole (.ofBase 10 'd' false value)
  | some 'b' => whole (.ofBase 2 'b' layout.alternate value)
  | some 'o' => whole (.ofBase 8 'o' layout.alternate value)
  | some 'x' => whole (.ofBase 16 'x' layout.alternate value)
  | some 'X' =>
    let lower := Figure.ofBase 16 'x' layout.alternate value
    whole ⟨lower.front.map Char.toUpper, lower.whole.map Char.toUpper, []⟩
  | some 'f' | some 'F' => .ok (.fixed places layout.alternate value)
  | some '%' =>
    let percent := Figure.fixed places layout.alternate (100 * value)
    .ok { percent with rest := percent.rest ++ ['%'] }
  | some 'e' => .ok (.scientific 'e' places layout.alternate value)
  | some 'E' => .ok (.scientific 'E' places layout.alternate value)
  | some 'g' => .ok (.general 'e' places layout.alternate value)
  | some 'G' => .ok (.general 'E' places layout.alternate value)
  | _ => .error .malformedPrompt

/-- Where a number stands in its width if nothing is said. -/
def numberAlignment (layout : Layout) : Alignment :=
  layout.alignment.getD (if layout.zeroPadded then .inside else .right)

def signText (layout : Layout) : List Char :=
  match layout.sign with
  | some '+' => ['+']
  | some ' ' => [' ']
  | _ => []

/-- The whole part of a figure in groups, with zeros before it if those fill the width. -/
def groupedWhole (layout : Layout) (mark : Char) (figure : Figure) : List Char :=
  let around := layout.signText.length + figure.front.length + figure.rest.length
  let count :=
    if layout.filler = '0' ∧ layout.numberAlignment = .inside then
      digitsToFill layout.groupSize (layout.width - around) figure.whole.length
    else figure.whole.length
  grouped layout.groupSize mark
    (List.replicate (count - figure.whole.length) '0' ++ figure.whole)

def setCode (layout : Layout) (value : Nat) : Except Fault (List Char) :=
  if layout.sign.isSome ∨ layout.alternate ∨ layout.precision.isSome ∨ layout.positiveZero then
    .error .malformedPrompt
  else if value < 0x110000 then layout.fillUp layout.numberAlignment [] [Char.ofNat value]
  else .error .noCharacter

def setNumber (layout : Layout) (value : Nat) : Except Fault (List Char) :=
  if layout.form = some 'c' then layout.setCode value
  else do
    let figure ← layout.figure value
    if widthLimit ≤ layout.width then .error .promptTooWide
    else
      let whole :=
        match layout.grouping with
        | some mark => layout.groupedWhole mark figure
        | none => figure.whole
      layout.fillUp layout.numberAlignment (layout.signText ++ figure.front) (whole ++ figure.rest)

end Layout

end LoopLang.Prompt
