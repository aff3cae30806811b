import PathRouting.Text.Blank
import PathRouting.Text.Digit

/-!
# Whole Numbers in Text

Reading an integer. A whole number is an optional sign and a run of decimal
digits of any script, in which single underscores may separate digits; blanks
around it are ignored. A run of more than `digitLimit` digits is refused, so
that a hostile path cannot make the reader build an enormous number.

## Main definitions

* `digitRun?`: The digit values of a run with underscores.
* `runValue`: The number that a run of digit values denotes.
* `digitLimit`: The most digits a number may have.
* `wholeNumber?`: The integer a text denotes.
-/

namespace PathRouting

namespace Number

open Text

/-- The digit values of what may follow a digit: nothing, another digit, or an
    underscore with a digit behind it. -/
def digitTail? : List Char → Option (List Nat)
  | [] => some []
  | '_' :: c :: rest =>
    match digit? c with
    | some d => (digitTail? rest).map (d :: ·)
    | none => none
  | c :: rest =>
    match digit? c with
    | some d => (digitTail? rest).map (d :: ·)
    | none => none

/-- The digit values of a run: at least one digit, and underscores only one at
    a time between two digits. -/
def digitRun? : List Char → Option (List Nat)
  | [] => none
  | c :: rest =>
    match digit? c with
    | some d => (digitTail? rest).map (d :: ·)
    | none => none

/-- The number that a run of decimal digit values denotes. -/
def runValue (ds : List Nat) : Nat :=
  ds.foldl (fun n d => 10 * n + d) 0

/-- The most digits an integer may have, both where it is read from a text and
    where it is written as one. -/
def digitLimit : Nat := 4300

/-- The wording for a text with so many digits, which is not read as a number. -/
def tooLongMessage (digits : Nat) : String :=
  "Exceeds the limit (" ++ toString digitLimit ++
    " digits) for integer string conversion: value has " ++ toString digits ++
    " digits; use sys.set_int_max_str_digits() to increase the limit"

/-- The wording for a number that is not written as a text, having too many digits. -/
def tooLongToWrite : String :=
  "Exceeds the limit (" ++ toString digitLimit ++
    " digits) for integer string conversion; use sys.set_int_max_str_digits() to increase the limit"

/-- The sign at the front of a text, and the rest: `true` for a minus. -/
def splitSign : List Char → Bool × List Char
  | '-' :: rest => (true, rest)
  | '+' :: rest => (false, rest)
  | cs => (false, cs)

/-- The integer that a text denotes, blanks at its ends ignored. -/
def wholeNumber? (cs : List Char) : Option Int :=
  let (negative, body) := splitSign (trimBy isPadding cs)
  match digitRun? body with
  | some ds =>
    if ds.length ≤ digitLimit then
      some (if negative then -(runValue ds : Int) else runValue ds)
    else none
  | none => none

end Number

end PathRouting
