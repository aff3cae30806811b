import PathRouting.Text.Printable

/-!
# Quoted Texts

The form in which a message shows a text: between quotes, with every character
that would be invisible or ambiguous written as an escape. Single quotes are
used unless the text holds a single quote and no double one.

The form is injective by design, so a reader can tell from a message exactly
which text a pattern, a name or a value was.

## Main definitions

* `hexDigits`: A number in a fixed count of hexadecimal digits.
* `escapeChar`: One character as it stands between given quotes.
* `quoteMark`: The quote a text is shown with.
* `quoted`: The quoted form of a text.
* `commaSeparated`, `writtenList`: Several texts in one, and as a list.
-/

namespace PathRouting

namespace Text

/-- The lower-case hexadecimal digit of a value below sixteen. -/
def hexDigit (n : Nat) : Char :=
  Char.ofNat (if n < 10 then 0x30 + n else 0x57 + n)

/-- The lowest `width` hexadecimal digits of a number, the highest first. -/
def hexDigits : Nat → Nat → List Char
  | 0, _ => []
  | width + 1, n => hexDigits width (n / 16) ++ [hexDigit (n % 16)]

/-- The escape that names a character by its number, in the shortest of the
    three widths that holds it. -/
def codeEscape (c : Char) : List Char :=
  if c.toNat < 0x100 then '\\' :: 'x' :: hexDigits 2 c.toNat
  else if c.toNat < 0x10000 then '\\' :: 'u' :: hexDigits 4 c.toNat
  else '\\' :: 'U' :: hexDigits 8 c.toNat

/-- A character as it stands between two marks. -/
def escapeChar (mark c : Char) : List Char :=
  if c = mark ∨ c = '\\' then ['\\', c]
  else if c = '\n' then ['\\', 'n']
  else if c = '\r' then ['\\', 'r']
  else if c = '\t' then ['\\', 't']
  else if isPrintable c then [c]
  else codeEscape c

/-- The mark a text is quoted with: a single quote, unless the text holds one
    and no double quote. -/
def quoteMark (cs : List Char) : Char :=
  if cs.contains '\'' && !cs.contains '"' then '"' else '\''

/-- The quoted form of a text. -/
def quoted (s : String) : String :=
  let mark := quoteMark s.toList
  String.ofList (mark :: s.toList.flatMap (escapeChar mark) ++ [mark])

end Text

/-- Texts between commas. -/
def commaSeparated : List String → String
  | [] => ""
  | [s] => s
  | s :: rest => s ++ ", " ++ commaSeparated rest

/-- The written form of some texts, as a list. -/
def writtenList (ss : List String) : String :=
  "[" ++ commaSeparated (ss.map Text.quoted) ++ "]"

end PathRouting
