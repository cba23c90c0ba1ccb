/-!
# Numerals

A numeral is a sign, at least one digit and, after a point, any further digits. Its value
is the double nearest to the decimal it denotes, a tie going to the even significand.
-/
namespace LoopLang.Number

/-- The double nearest to `digits * 10 ^ exponent`. -/
def ofDecimal (digits : Nat) (exponent : Int) : Float :=
  .ofModel (.ofScientific digits exponent)

def digitsValue (digits : List Char) : Nat :=
  digits.foldl (fun n c => 10 * n + (c.toNat - '0'.toNat)) 0

structure Numeral where
  negative : Bool
  whole : List Char
  fraction : List Char

def Numeral.value (n : Numeral) : Float :=
  let magnitude := ofDecimal (digitsValue (n.whole ++ n.fraction)) (-n.fraction.length)
  if n.negative then -magnitude else magnitude

/-- Splits a leading sign off; the flag tells a minus. -/
def splitSign : List Char → Bool × List Char
  | '-' :: rest => (true, rest)
  | '+' :: rest => (false, rest)
  | text => (false, text)

/-- Reads a text that is a numeral from its first character to its last. -/
def Numeral.parse? (text : List Char) : Option Numeral :=
  let (negative, unsigned) := splitSign text
  let whole := unsigned.takeWhile Char.isDigit
  if whole.isEmpty then none
  else
    match unsigned.dropWhile Char.isDigit with
    | [] => some ⟨negative, whole, []⟩
    | '.' :: fraction =>
      if fraction.all Char.isDigit then some ⟨negative, whole, fraction⟩ else none
    | _ => none

def read? (text : List Char) : Option Float :=
  (Numeral.parse? text).map Numeral.value

end LoopLang.Number
