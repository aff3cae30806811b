import PathRouting.Number.Binary64
import PathRouting.Number.Whole

/-!
# Decimal Numbers in Text

Reading a number with a fraction or an exponent. The form is an optional sign,
digits with an optional point among them, and an optional exponent; the words
for infinity and not-a-number are read in any case. Digits may be of any script
and single underscores may separate them, as for whole numbers.

The digits are kept as one natural number with a power of ten, and only the
last step rounds, so that the nearest double precision number is found however
many digits there are.

## Main definitions

* `Decimal`: What a text denotes before it is rounded.
* `decimal?`: The decimal a text denotes.
* `Decimal.toBinary64`: The nearest double precision number.
* `binary64?`: The double precision number a text denotes.
-/

namespace PathRouting

namespace Number

open Text

/-- What a decimal text denotes: `± digits * 10 ^ exponent`, an infinity, or a
    not-a-number. -/
inductive Decimal where
  | number (negative : Bool) (digits : Nat) (exponent : Int)
  | infinity (negative : Bool)
  | notANumber
  deriving DecidableEq, Repr

/-- The characters that may stand in a run of digits. -/
def isRunChar (c : Char) : Bool :=
  c == '_' || isDigit c

/-- The run of digits at the front, if it is empty or well formed, and the rest. -/
def takeRun (cs : List Char) : Option (List Nat × List Char) :=
  let run := cs.takeWhile isRunChar
  let rest := cs.dropWhile isRunChar
  if run.isEmpty then some ([], rest) else (digitRun? run).map fun ds => (ds, rest)

/-- The exponent that makes up the whole text: nothing, or a mark, an optional
    sign and at least one digit. -/
def exponent? : List Char → Option Int
  | [] => some 0
  | c :: rest =>
    if c = 'e' ∨ c = 'E' then
      let (negative, body) := splitSign rest
      (digitRun? body).map fun ds => if negative then -(runValue ds : Int) else runValue ds
    else none

/-- The digits after the point, if there is one, and the rest. -/
def takeFraction : List Char → Option (List Nat × List Char)
  | '.' :: rest => takeRun rest
  | cs => some ([], cs)

/-- Digits, an optional point among them, and an optional exponent. At least
    one digit stands before the exponent. -/
def unsigned? (cs : List Char) : Option (Nat × Int) :=
  match takeRun cs with
  | none => none
  | some (whole, rest) =>
    match takeFraction rest with
    | none => none
    | some (fraction, rest) =>
      match exponent? rest with
      | none => none
      | some e =>
        if whole.isEmpty && fraction.isEmpty then none
        else some (runValue (whole ++ fraction), e - fraction.length)

/-- The decimal that a text denotes, blanks at its ends ignored. -/
def decimal? (cs : List Char) : Option Decimal :=
  let (negative, body) := splitSign (trimBy isPadding cs)
  let word := String.ofList (body.map Char.toLower)
  if word = "inf" ∨ word = "infinity" then some (.infinity negative)
  else if word = "nan" then some .notANumber
  else (unsigned? body).map fun (n, e) => .number negative n e

/-- The decimal digits a positive number has; none for zero. -/
def digitCount (n : Nat) : Nat :=
  if n = 0 then 0 else (Nat.toDigits 10 n).length

/-- The nearest double precision number. A magnitude of `10 ^ 400` or more is
    infinite, and one below `10 ^ -400` is zero, whatever its exact value. -/
def Decimal.toBinary64 : Decimal → Binary64
  | .infinity negative => .infinity negative
  | .notANumber => .notANumber 0
  | .number negative n e =>
    if n = 0 then .finite negative 0
    else if 400 < e + digitCount n then .infinity negative
    else if e + digitCount n < -400 then .finite negative 0
    else .ofRatio negative (n * Nat.pow 10 e.toNat) (Nat.pow 10 (-e).toNat)

/-- The double precision number that a text denotes. -/
def binary64? (cs : List Char) : Option Binary64 :=
  (decimal? cs).map Decimal.toBinary64

end Number

end PathRouting
