/-!
# Hexadecimal digits

Code points are named in escapes by a fixed number of lower-case hexadecimal digits.
-/
namespace LoopLang.Text

/-- The hexadecimal digits of `n`, filled with zeros to at least `width` of them. -/
def hex (width n : Nat) : List Char :=
  let digits := Nat.toDigits 16 n
  List.replicate (width - digits.length) '0' ++ digits

end LoopLang.Text
