import PathRouting.Fault
import PathRouting.Number.Decimal
import PathRouting.Number.Uuid
import PathRouting.Value.Display
import PathRouting.Value.Form

/-!
# Validators

Validators decide whether a value may be bound to a variable or satisfies a
condition. A rejection is not a fault: the search goes on with its next
alternative. Faults come from two sides only — a function of the application
that fails, and a bound that is no number.

Most validators look at the text of a value. A text is its own; any other
value is written first, which fails for a number with too many digits.

The functions and validators of the application are opaque here. What they
answer is given by a `Host`, over which everything that judges values is
parameterised; a law about matching therefore holds for all of them. The table
of the names of characters, which an expression may use, is given by it as
well.

## Main definitions

* `Host`: What the application's functions and validators answer, which
  attributes everything has, and which characters have names.
* `Host.idle`: An application whose functions answer nothing.
* `Validator.accepts`: The validator accepts the value.
* `Validator.integer?`: A validator of integers, if its digit count makes sense.
* `Validator.ofValue?`: The validator that a requirement stands for.
* `Value.isJudge`: The value is taken for a requirement when it is an option.
-/

namespace PathRouting

/-- What the application's functions and validators answer, which attributes
    everything in it has, and which names of characters are known there. -/
class Host where
  /-- The answer of a function to a value. -/
  call : Callable → Value → Except HostFault Value
  /-- The verdict of a validator of the application. -/
  judge : String → Value → Except HostFault Bool
  /-- The attribute of a name that even an absent request has by nature. -/
  inherent : String → Value
  /-- The character that has a name. -/
  character : Regex.Names

/-- An application whose functions answer nothing, and in which no character
    has a name. -/
@[reducible] def Host.idle : Host :=
  ⟨fun _ _ => .ok .none, fun _ _ => .ok false, fun _ => .none, fun _ => none⟩

/-- The number is below the bound. -/
def belowBound (x : Binary64) (bound : Value) : Except Fault Bool :=
  match bound.number? with
  | some b => .ok (x.lt b)
  | none => .error (.type .notComparable)

/-- The number is above the bound. -/
def aboveBound (x : Binary64) (bound : Value) : Except Fault Bool :=
  match bound.number? with
  | some b => .ok (b.lt x)
  | none => .error (.type .notComparable)

/-- The number is neither below the least value nor above the greatest. An
    absent bound does not restrict it, and neither does one it cannot be
    compared with because one of the two is not a number. A bound that is no
    number at all is a fault. -/
def withinBounds (least most : Value) (x : Binary64) : Except Fault Bool := do
  if !least.isNone then
    if ← belowBound x least then return false
  if !most.isNone then
    if ← aboveBound x most then return false
  return true

/-- The text has blanks at one of its ends. -/
def hasOuterBlanks (cs : List Char) : Bool :=
  Text.trim cs != cs

/-- The text is an integer with the given length and within the bounds. The
    length counts every character, signs and underscores as well. -/
def acceptsInteger (digits least most : Value) (cs : List Char) : Except Fault Bool :=
  if !digits.isNone && !(Value.int cs.length).equal digits then .ok false
  else if hasOuterBlanks cs then .ok false
  else
    match Number.wholeNumber? cs with
    | some n => withinBounds least most (.ofInt n)
    | none => .ok false

/-- The text is a decimal number within the bounds, and a finite one if that
    is asked for. -/
def acceptsDecimal (least most finite : Value) (cs : List Char) : Except Fault Bool :=
  if hasOuterBlanks cs then .ok false
  else
    match Number.binary64? cs with
    | some x => if finite.truthy && !x.isFinite then .ok false else withinBounds least most x
    | none => .ok false

namespace Validator

variable [Host]

/-- The validator accepts the value. All but equality, functions and the
    application's own validators look at the plain text of the value. Where
    there is none, a validator of identifiers says no, and the others fail. -/
def accepts : Validator → Value → Except Fault Bool
  | .equality expected, v => .ok (v.equal expected)
  | .regex r, v => do return r.fullMatch (← v.plain)
  | .predicate f, v =>
    match Host.call f v with
    | .ok answer => .ok answer.truthy
    | .error e => .error (.host e)
  | .integer digits least most, v => do acceptsInteger digits least most (← v.plain).toList
  | .decimal least most finite, v => do acceptsDecimal least most finite (← v.plain).toList
  | .uuid, v =>
    match v.plain with
    | .ok s => .ok (Number.isUuid s.toList)
    | .error _ => .ok false
  | .custom tag, v =>
    match Host.judge tag v with
    | .ok verdict => .ok verdict
    | .error e => .error (.host e)

/-- The kind of validator. -/
def kind : Validator → String
  | .equality _ => "EqualityValidator"
  | .regex _ => "RegexValidator"
  | .predicate _ => "PredicateValidator"
  | .integer _ _ _ => "IntValidator"
  | .decimal _ _ _ => "FloatValidator"
  | .uuid => "UUIDValidator"
  | .custom _ => "Custom"

/-- A validator of integers. A digit count, if it is given, is at least one. -/
def integer? (digits least most : Value) : Except Fault Validator :=
  if digits.isNone then .ok (.integer digits least most)
  else
    match digits.number? with
    | none => .error (.type .notComparable)
    | some d =>
      if d.lt (.ofInt 1) then .error (.option .tooFewDigits)
      else .ok (.integer digits least most)

/-- A validator of texts by the source of a regular expression. -/
def regex? (source : String) : Except Fault Validator :=
  match Regex.compile? Host.character source .plain with
  | .ok r => .ok (.regex r)
  | .error .malformed => .error (.config (.malformedRegex source))
  | .error d => .error (.expression d)

/-- The validator that a requirement stands for: itself, the obvious one for
    an expression or a function, and a test for equality for any other value
    but the absent one. -/
def ofValue? : Value → Except Fault Validator
  | .validator v => .ok v
  | .regex r => .ok (.regex r)
  | .callable f => .ok (.predicate f)
  | .none => .error (.config .absentRequirement)
  | v => .ok (.equality v)

end Validator

/-- The value judges others, so that as an option it is taken for a
    requirement. A type can be called as well but is more likely meant as a
    destination. -/
def Value.isJudge : Value → Bool
  | .validator _ | .regex _ => true
  | .callable f => f.kind != .type
  | _ => false

end PathRouting
