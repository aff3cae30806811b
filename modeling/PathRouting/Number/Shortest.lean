import PathRouting.Number.Binary64

/-!
# Shortest Decimal Text

Writing a double precision number with the fewest digits that read back as the
same number. The reals that round to a number form an interval around it, whose
ends belong to it when its significand is even. For one digit, two digits and
so on, the two neighbours of the number on the decimal grid with that many
digits are tried; the first grid with a neighbour inside the interval gives the
digits, and of two neighbours the nearer one is taken.

All of this is exact arithmetic on natural numbers. What the text looks like
around the digits — where positional writing ends, how an exponent is written —
is one record, `realLayout`.

## Main definitions

* `decimalPoint`: The position of the leading digit of a fraction.
* `Binary64.interval`: The reals that round to a number, in quarter units.
* `Binary64.shortest`: The fewest digits that read back, with their exponent.
* `RealLayout`, `realLayout`: The choices a written number leaves open.
* `Binary64.text`: The number as text.
-/

namespace PathRouting

namespace Number

/-- The least `k` up to the fuel with `den ≤ num * 10 ^ k`. -/
def leadingZeros : Nat → Nat → Nat → Nat
  | 0, _, _ => 0
  | fuel + 1, num, den => if den ≤ num then 0 else 1 + leadingZeros fuel (num * 10) den

/-- The exponent `d` with `10 ^ (d - 1) ≤ num / den < 10 ^ d`, for a positive
    fraction above `10 ^ -400`. -/
def decimalPoint (num den : Nat) : Int :=
  if den ≤ num then (Nat.toDigits 10 (num / den)).length
  else 1 - (leadingZeros 400 num den : Int)

end Number

namespace Binary64

open Number

/-- The reals that round to a positive magnitude, as its two ends in quarters
    of a unit and whether the ends belong to it. Below a power of two the
    neighbours lie half as far apart. -/
def interval (units : Nat) : Nat × Nat × Bool :=
  let step := spacing units
  let below := if 1 < step ∧ units = Nat.pow 2 units.log2 then step else 2 * step
  (4 * units - below, 4 * units + 2 * step, units / step % 2 == 0)

/-- The decimal `digits * 10 ^ exponent` rounds to the magnitude. -/
def readsBack (units digits : Nat) (exponent : Int) : Bool :=
  let (low, high, closed) := interval units
  let point := 4 * digits * unitsPerOne * Nat.pow 10 exponent.toNat
  let scale := Nat.pow 10 (-exponent).toNat
  if closed then low * scale ≤ point && point ≤ high * scale
  else low * scale < point && point < high * scale

/-- The neighbour of the magnitude on the grid of multiples of `10 ^ exponent`
    that reads back, the nearer one if both do; of two equally near the even. -/
def onGrid (units : Nat) (exponent : Int) : Option Nat :=
  let num := units * Nat.pow 10 (-exponent).toNat
  let den := unitsPerOne * Nat.pow 10 exponent.toNat
  let low := num / den
  let nearest := roundDiv num den
  let other := if nearest = low then low + 1 else low
  if readsBack units nearest exponent then some nearest
  else if readsBack units other exponent then some other
  else none

/-- The first grid with a neighbour that reads back, from `count` digits on.
    The grid of 17 digits always has one. A neighbour may round up to a power
    of ten, which has one digit. -/
def firstGrid (units : Nat) (point : Int) : Nat → Nat → Nat × Int
  | 0, _ => (units, 0)
  | fuel + 1, count =>
    match onGrid units (point - count) with
    | some digits => if digits = Nat.pow 10 count then (1, point) else (digits, point - count)
    | none => firstGrid units point fuel (count + 1)

/-- The fewest digits that read back as the positive magnitude, and the power
    of ten they are multiplied by. -/
def shortest (units : Nat) : Nat × Int :=
  firstGrid units (decimalPoint units unitsPerOne) 17 1

end Binary64

namespace Number

/-- The choices that a written number leaves open once its digits are known. -/
structure RealLayout where
  /-- The least exponent of the leading digit that is written positionally. -/
  positionalFrom : Int
  /-- The first exponent of the leading digit that is not. -/
  positionalBelow : Int
  /-- The fewest digits of a written exponent. -/
  exponentWidth : Nat
  /-- The text of positive infinity. -/
  infinity : String
  /-- The text of a not-a-number. -/
  notANumber : String

/-- Numbers from `0.0001` up to `10 ^ 16` are written positionally, with a
    digit on either side of the point; the others have a signed exponent of at
    least two digits. -/
def realLayout : RealLayout := ⟨-4, 16, 2, "inf", "nan"⟩

/-- Digits with the point after the first `place` of them. -/
def positional (digits : List Char) (place : Int) : List Char :=
  if place ≤ 0 then '0' :: '.' :: List.replicate (-place).toNat '0' ++ digits
  else
    let whole := digits.take place.toNat ++ List.replicate (place.toNat - digits.length) '0'
    let fraction := digits.drop place.toNat
    whole ++ '.' :: (if fraction.isEmpty then ['0'] else fraction)

/-- Digits with the point after the first and a power of ten behind them. -/
def scientific (layout : RealLayout) (digits : List Char) (exponent : Int) : List Char :=
  let size := Nat.toDigits 10 exponent.natAbs
  let padded := List.replicate (layout.exponentWidth - size.length) '0' ++ size
  let mantissa := match digits with
    | d :: [] => [d]
    | d :: rest => d :: '.' :: rest
    | [] => []
  mantissa ++ 'e' :: (if exponent < 0 then '-' else '+') :: padded

end Number

namespace Binary64

open Number

/-- A magnitude as text. -/
def magnitudeText (units : Nat) : List Char :=
  if units = 0 then positional ['0'] 1
  else
    let (n, e) := shortest units
    let digits := Nat.toDigits 10 n
    let leading := e + digits.length - 1
    if realLayout.positionalFrom ≤ leading ∧ leading < realLayout.positionalBelow then
      positional digits (leading + 1)
    else scientific realLayout digits leading

/-- The number as text: the fewest digits that read back. -/
def text : Binary64 → String
  | .notANumber _ => realLayout.notANumber
  | .infinity negative => if negative then "-" ++ realLayout.infinity else realLayout.infinity
  | .finite negative units =>
    String.ofList (if negative then '-' :: magnitudeText units else magnitudeText units)

end Binary64

end PathRouting
