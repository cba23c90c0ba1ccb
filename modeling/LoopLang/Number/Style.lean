import LoopLang.Number.Shortest

/-!
# Written numbers

A style says how far digits are written out positionally before an exponent is used, and
the words for what has no digits. The standard style is for messages and listings; data
files differ in the words only. Printed output writes a whole number to its last digit.
-/
namespace LoopLang.Number
open Float.Model (UnpackedFloat)

/-- Significant digits with a point before the first of them, times a power of ten. -/
structure Digits where
  digits : List Char
  point : Int

def Decimal.spread (d : Decimal) : Digits :=
  let digits := Nat.toDigits 10 d.digits
  ⟨(digits.reverse.dropWhile (· == '0')).reverse, digits.length + d.exponent⟩

structure Style where
  /-- The least exponent of the leading digit that is written positionally. -/
  fixedFrom : Int
  /-- The least exponent above it that is not. -/
  fixedBelow : Int
  /-- The least number of exponent digits. -/
  exponentWidth : Nat
  infinity : List Char
  notANumber : List Char

def standard : Style :=
  ⟨-4, 16, 2, "inf".toList, "nan".toList⟩

/-- Data files have words of their own for what is not a finite number. -/
def dataFile : Style :=
  { standard with infinity := "Infinity".toList, notANumber := "NaN".toList }

def zeros (n : Nat) : List Char :=
  List.replicate n '0'

namespace Digits

def positional (d : Digits) : List Char :=
  if d.point ≤ 0 then '0' :: '.' :: zeros (-d.point).toNat ++ d.digits
  else if d.digits.length ≤ d.point then
    d.digits ++ zeros (d.point.toNat - d.digits.length) ++ ['.', '0']
  else d.digits.take d.point.toNat ++ '.' :: d.digits.drop d.point.toNat

def exponentText (width : Nat) (exponent : Int) : List Char :=
  let digits := Nat.toDigits 10 exponent.natAbs
  'e' :: (if exponent < 0 then '-' else '+') :: zeros (width - digits.length) ++ digits

/-- One digit before the point, which is left out if no digit follows it. -/
def scientific (d : Digits) (exponentWidth : Nat) : List Char :=
  d.digits.take 1 ++ (if d.digits.length ≤ 1 then [] else '.' :: d.digits.drop 1) ++
    exponentText exponentWidth (d.point - 1)

def layOut (style : Style) (d : Digits) : List Char :=
  if style.fixedFrom ≤ d.point - 1 ∧ d.point - 1 < style.fixedBelow then d.positional
  else d.scientific style.exponentWidth

end Digits

/-- The magnitude of a negative number follows a minus sign. -/
def signed (sign : UnpackedFloat.Sign) (magnitude : List Char) : List Char :=
  match sign with
  | .negative => '-' :: magnitude
  | .positive => magnitude

def writeChars (style : Style) (x : Float) : List Char :=
  match x.toModel.unpack with
  | .notANumber => style.notANumber
  | .infinity sign => signed sign style.infinity
  | .zero sign => signed sign ['0', '.', '0']
  | .finite sign mantissa exponent _ =>
    signed sign ((shortest x.abs mantissa exponent).spread.layOut style)

def write (style : Style) (x : Float) : String :=
  .ofList (writeChars style x)

/-- The magnitude of `mantissa * 2 ^ exponent` if it is a whole number. -/
def wholeMagnitude? (mantissa : Nat) (exponent : Int) : Option Nat :=
  let scaled := mantissa * .pow 2 exponent.toNat
  let divisor := Nat.pow 2 (-exponent).toNat
  if scaled % divisor = 0 then some (scaled / divisor) else none

/-- A whole number to its last digit, any other as in the standard style. -/
def printedChars (x : Float) : List Char :=
  match x.toModel.unpack with
  | .zero _ => ['0']
  | .finite sign mantissa exponent _ =>
    match wholeMagnitude? mantissa exponent with
    | some n => signed sign (Nat.toDigits 10 n)
    | none => writeChars standard x
  | _ => writeChars standard x

def printed (x : Float) : String :=
  .ofList (printedChars x)

end LoopLang.Number
