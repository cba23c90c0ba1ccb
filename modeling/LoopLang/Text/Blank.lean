/-!
# Blanks around an input line

Two sets of characters count as blank at the ends of a line. Trimming takes every Unicode
blank away. A number may stand between all of these except the four information
separators, which are blank for the first purpose alone.
-/
namespace LoopLang.Text

/-- Space, control and separator characters that trimming removes. -/
def isBlank (c : Char) : Bool :=
  let n := c.toNat
  (0x9 ≤ n && n ≤ 0xD) || (0x1C ≤ n && n ≤ 0x20) || n == 0x85 || n == 0xA0 || n == 0x1680 ||
    (0x2000 ≤ n && n ≤ 0x200A) || n == 0x2028 || n == 0x2029 || n == 0x202F || n == 0x205F ||
    n == 0x3000

def isInformationSeparator (c : Char) : Bool :=
  0x1C ≤ c.toNat && c.toNat ≤ 0x1F

/-- Blanks that may surround a number. -/
def isNumberPadding (c : Char) : Bool :=
  isBlank c && !isInformationSeparator c

/-- The text without the characters of a class at its two ends. -/
def trim (inClass : Char → Bool) (text : List Char) : List Char :=
  ((text.dropWhile inClass).reverse.dropWhile inClass).reverse

end LoopLang.Text
