/-!
# Code points

Classes of characters are given by tables of ranges of code points. White space, the Unicode
property `White_Space`, is small enough to be written out: the 25 characters that may stand between
tokens, and that are trimmed off the ends of type names.
-/

namespace QueryLang

/-- A list of inclusive ranges of code points. -/
abbrev CodePointRanges := List (Nat × Nat)

/-- Whether a code point lies in one of the ranges. -/
def CodePointRanges.holds (ranges : CodePointRanges) (codePoint : Nat) : Bool :=
  ranges.any fun (first, last) => first ≤ codePoint && codePoint ≤ last

/-- Whether a character has the property `White_Space`. -/
def isWhiteSpace (char : Char) : Bool :=
  let codePoint := char.toNat
  (9 ≤ codePoint && codePoint ≤ 13) || codePoint == 0x20 || codePoint == 0x85
    || codePoint == 0xA0 || codePoint == 0x1680 || (0x2000 ≤ codePoint && codePoint ≤ 0x200A)
    || codePoint == 0x2028 || codePoint == 0x2029 || codePoint == 0x202F || codePoint == 0x205F
    || codePoint == 0x3000

/-- A text without the white space at its start. -/
def trimStart (text : List Char) : List Char :=
  text.dropWhile isWhiteSpace

/-- A text without the white space at both ends. -/
def trim (text : List Char) : List Char :=
  (trimStart (trimStart text).reverse).reverse

end QueryLang
