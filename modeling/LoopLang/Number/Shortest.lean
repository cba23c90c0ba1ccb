import LoopLang.Number.Numeral

/-!
# The shortest decimal of a double

A double is written with the fewest significant digits that are read back as the same
double. For each number of digits there are two decimals next to the exact value; the
nearer is tried first, and of two equally near ones the even one. A decimal that is found
has been read back, and the exact expansion stands behind the search, so reading the
result always gives the double again.
-/
namespace LoopLang.Number

/-- The positive number `digits * 10 ^ exponent`. -/
structure Decimal where
  digits : Nat
  exponent : Int

def Decimal.toFloat (d : Decimal) : Float :=
  ofDecimal d.digits d.exponent

/-- The positive number `numerator / denominator`. -/
structure Ratio where
  numerator : Nat
  denominator : Nat

namespace Ratio

def ofBinary (mantissa : Nat) (exponent : Int) : Ratio :=
  ⟨mantissa * .pow 2 exponent.toNat, .pow 2 (-exponent).toNat⟩

def scale (r : Ratio) (exponent : Int) : Ratio :=
  ⟨r.numerator * .pow 10 (-exponent).toNat, r.denominator * .pow 10 exponent.toNat⟩

def digitCount (n : Nat) : Nat :=
  (Nat.toDigits 10 n).length

/-- The exponent of the leading decimal digit. -/
def leadingExponent (r : Ratio) : Int :=
  if r.denominator ≤ r.numerator then digitCount (r.numerator / r.denominator) - 1
  else -digitCount ((r.denominator - 1) / r.numerator)

/-- The two multiples of `10 ^ exponent` next to the ratio, the nearer one first. -/
def neighbours (r : Ratio) (exponent : Int) : List Decimal :=
  let scaled := r.scale exponent
  let below := scaled.numerator / scaled.denominator
  let twice := 2 * (scaled.numerator % scaled.denominator)
  let lower : Decimal := ⟨below, exponent⟩
  let upper : Decimal := ⟨below + 1, exponent⟩
  if twice < scaled.denominator ∨ (twice = scaled.denominator ∧ below % 2 = 0) then [lower, upper]
  else [upper, lower]

/-- The decimals with one significant digit, then with two, and so on up to seventeen. -/
def candidates (r : Ratio) : List Decimal :=
  (List.range 17).flatMap fun (n : Nat) => r.neighbours (r.leadingExponent - n)

end Ratio

/-- The decimal expansion of `mantissa * 2 ^ exponent` to its last digit. -/
def exactDecimal (mantissa : Nat) (exponent : Int) : Decimal :=
  ⟨mantissa * .pow 2 exponent.toNat * .pow 5 (-exponent).toNat, min exponent 0⟩

/-- The shortest decimal that is read back as `x`, which is `mantissa * 2 ^ exponent`. -/
def shortest (x : Float) (mantissa : Nat) (exponent : Int) : Decimal :=
  ((Ratio.ofBinary mantissa exponent).candidates.find? fun d => d.toFloat = x).getD
    (exactDecimal mantissa exponent)

end LoopLang.Number
