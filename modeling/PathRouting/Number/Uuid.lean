import PathRouting.Number.Whole
import PathRouting.Regex.Lexeme

/-!
# Universally Unique Identifiers

Which texts spell a universally unique identifier. The spelling is lenient:
prefixes of the URN form and hyphens are left out wherever they stand, braces
around the whole are dropped, and what remains must be 32 characters that read
as a hexadecimal number.

The number is read by the general rule for hexadecimal integers, so a sign, a
base prefix, underscores between digits and digits of other scripts are all
possible, as long as the 32 characters work out.

## Main definitions

* `without`: A text with every occurrence of a word left out.
* `isHexNumber`: The text is a hexadecimal integer.
* `isUuid`: The text spells an identifier.
-/

namespace PathRouting

namespace Number

open Text

/-- The text with every occurrence of the word left out, from left to right;
    `skip` characters of an occurrence are still to be left out. -/
def withoutFrom (word : List Char) : Nat → List Char → List Char
  | _, [] => []
  | skip + 1, _ :: rest => withoutFrom word skip rest
  | 0, c :: rest =>
    if word.isPrefixOf (c :: rest) then withoutFrom word (word.length - 1) rest
    else c :: withoutFrom word 0 rest

/-- The text with every occurrence of a word left out. -/
def without (word : String) (cs : List Char) : List Char :=
  withoutFrom word.toList 0 cs

/-- The character is a hexadecimal digit; decimal digits may be of any script. -/
def isHexDigit (c : Char) : Bool :=
  (Regex.hexValue? c).isSome || isDigit c

/-- What may follow a hexadecimal digit: digits, with single underscores
    between them. -/
def isHexTail : List Char → Bool
  | [] => true
  | '_' :: c :: rest => isHexDigit c && isHexTail rest
  | c :: rest => isHexDigit c && isHexTail rest

/-- A run of hexadecimal digits with single underscores between them. -/
def isHexRun : List Char → Bool
  | [] => false
  | c :: rest => isHexDigit c && isHexTail rest

/-- The text without the prefix that announces base sixteen, if it has one. An
    underscore may follow the prefix. -/
def dropBase : List Char → List Char
  | z :: x :: rest =>
    if digit? z = some 0 ∧ (x = 'x' ∨ x = 'X') then
      match rest with
      | '_' :: rest => rest
      | rest => rest
    else z :: x :: rest
  | cs => cs

/-- The text is a hexadecimal integer, blanks at its ends ignored. -/
def isHexNumber (cs : List Char) : Bool :=
  isHexRun (dropBase (splitSign (trimBy isPadding cs)).2)

/-- The character is a brace. -/
def isBrace (c : Char) : Bool :=
  c == '\x7b' || c == '\x7d'

/-- The text spells a universally unique identifier. -/
def isUuid (cs : List Char) : Bool :=
  let bare := without "uuid:" (without "urn:" cs)
  let inner := ((bare.dropWhile isBrace).reverse.dropWhile isBrace).reverse
  let hex := without "-" inner
  hex.length == 32 && isHexNumber hex

end Number

end PathRouting
