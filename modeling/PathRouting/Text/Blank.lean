import PathRouting.Text.CodeRanges

/-!
# Blank Characters

Which characters count as blank. A blank may not be a path delimiter, and a
number with blanks around it is not a clean number, so the routing layers ask
this question of arbitrary Unicode text. Core's `Char.isWhitespace` knows four
ASCII characters; the class here is the one of the Unicode standard, together
with the four ASCII information separators.

Reading a number passes over the blanks around it, but not over an information
separator: those make it no number at all.

## Main definitions

* `blankRanges`: The blank code points.
* `isBlank`: One character is blank.
* `isPadding`: One character may stand around a number.
* `trimBy`, `trim`: A text without some characters, or the blanks, at its two
  ends.
-/

namespace PathRouting

namespace Text

/-- The code points that count as blank. -/
def blankRanges : List (Nat × Nat) :=
  [(0x9, 0xD), (0x1C, 0x20), (0x85, 0x85), (0xA0, 0xA0), (0x1680, 0x1680), (0x2000, 0x200A),
   (0x2028, 0x2029), (0x202F, 0x202F), (0x205F, 0x205F), (0x3000, 0x3000)]

/-- The character is blank. -/
def isBlank (c : Char) : Bool :=
  inRanges blankRanges c.toNat

/-- The character may stand around a number. -/
def isPadding (c : Char) : Bool :=
  isBlank c && !(0x1C ≤ c.toNat && c.toNat ≤ 0x1F)

/-- The characters without those at either end that satisfy the predicate. -/
def trimBy (p : Char → Bool) (cs : List Char) : List Char :=
  ((cs.dropWhile p).reverse.dropWhile p).reverse

/-- The characters without the blanks at either end. -/
def trim (cs : List Char) : List Char :=
  trimBy isBlank cs

end Text

end PathRouting
