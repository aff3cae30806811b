/-!
# Percent Encoding

How a value is written into a URL. Letters, digits and four marks stand for
themselves; every other character becomes its UTF-8 bytes, each as a percent
sign and two capital hexadecimal digits. A caller may let further ASCII
characters through, as the text of a greedy variable keeps the delimiters it
was matched with.

Query strings use the variant of HTML forms, where a space is a plus sign.

## Main definitions

* `isUnreserved`: The characters that every encoding leaves alone.
* `encodeByte`: One byte as a percent triple.
* `percentEncode`: A text with all but the unreserved and the given characters
  encoded.
* `formEncode`: A text as a name or value of a query string.

## Theorems

* `percentEncode_eq_self`: A text of unreserved characters is its own encoding.
-/

namespace PathRouting

namespace Text

/-- The characters that every encoding leaves alone. -/
def isUnreserved (c : Char) : Bool :=
  c.isAlphanum || c == '_' || c == '.' || c == '-' || c == '~'

/-- The capital hexadecimal digit of a value below sixteen. -/
def capitalHexDigit (n : Nat) : Char :=
  Char.ofNat (if n < 10 then 0x30 + n else 0x37 + n)

/-- One byte as a percent triple. -/
def encodeByte (b : UInt8) : List Char :=
  ['%', capitalHexDigit (b.toNat / 16), capitalHexDigit (b.toNat % 16)]

/-- One character: itself if it is unreserved, or an ASCII character of
    `safe`, and its encoded bytes otherwise. -/
def encodeChar (safe : List Char) (c : Char) : List Char :=
  if isUnreserved c || (c.toNat < 128 && safe.contains c) then [c]
  else (String.utf8EncodeChar c).flatMap encodeByte

/-- The characters of a text, each encoded. -/
def encodeChars (safe cs : List Char) : List Char :=
  cs.flatMap (encodeChar safe)

/-- A text with every character encoded that is neither unreserved nor `safe`. -/
def percentEncode (safe s : String) : String :=
  String.ofList (encodeChars safe.toList s.toList)

/-- A text as a name or value of a query string: a space is a plus sign. -/
def formEncode (s : String) : String :=
  String.ofList (s.toList.flatMap fun c => if c = ' ' then ['+'] else encodeChar [] c)

theorem encodeChars_eq_self (safe : List Char) {cs : List Char}
    (h : ∀ c ∈ cs, isUnreserved c = true) : encodeChars safe cs = cs := by
  induction cs with
  | nil => rfl
  | cons c rest ih =>
    have hc := h c (by simp)
    have ih := ih fun d hd => h d (by simp [hd])
    simp only [encodeChars] at ih ⊢
    simp [encodeChar, hc, ih]

/-- A text of unreserved characters is its own encoding. -/
theorem percentEncode_eq_self (safe : String) {s : String}
    (h : ∀ c ∈ s.toList, isUnreserved c = true) : percentEncode safe s = s := by
  simp [percentEncode, encodeChars_eq_self safe.toList h]

end Text

end PathRouting
