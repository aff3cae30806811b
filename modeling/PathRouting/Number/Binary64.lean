/-!
# Double Precision Numbers

The numbers of IEEE 754 double precision, exactly. Every finite one is a whole
multiple of the least positive one, `2 ^ -1074`, so its magnitude is stored as
that multiple: comparing two of them, or one with an integer of any size, is
then comparing integers, and no operation here rounds except `ofRatio`, whose
job it is.

Two not-a-number values differ unless they are one and the same, so each
carries the place it came from.

## Main definitions

* `Binary64`: A not-a-number, an infinity, or a signed multiple of `2 ^ -1074`.
* `Binary64.spacing`: The distance between neighbours at a magnitude.
* `Binary64.ofRatio`: The nearest number to a fraction, ties to even.
* `Binary64.ofInt`: An integer as a magnitude, without rounding.
* `Binary64.lt`: The numeric order, in which a not-a-number takes no part.
* `Binary64.eqv`: Numeric equality, under which the two zeros agree.

## Theorems

* `eqv_ofInt`: Integers are equal as numbers exactly when they are equal.
-/

namespace PathRouting

/-- A number of IEEE 754 double precision. A finite one denotes
    `± units * 2 ^ -1074`; `origin` tells not-a-number values apart. -/
inductive Binary64 where
  | notANumber (origin : Nat)
  | infinity (negative : Bool)
  | finite (negative : Bool) (units : Nat)
  deriving DecidableEq, Repr, Inhabited

namespace Binary64

/-- The least positive number is two to the minus this. -/
def leastExponent : Nat := 1074

/-- Finite magnitudes lie below two to this. -/
def greatestExponent : Nat := 1024

/-- Units in one. -/
def unitsPerOne : Nat := Nat.pow 2 leastExponent

/-- A magnitude of this many units or more is infinite. -/
def overflow : Nat := Nat.pow 2 (greatestExponent + leastExponent)

/-- The distance between neighbouring numbers at a magnitude: significands have
    53 bits, and below the smallest normal number the distance stays one unit. -/
def spacing (units : Nat) : Nat :=
  Nat.pow 2 (units.log2 + 1 - 53)

/-- The quotient rounded to the nearest natural number, ties to even. -/
def roundDiv (num den : Nat) : Nat :=
  let q := num / den
  let r := num % den
  if 2 * r < den then q
  else if 2 * r = den then q + q % 2
  else q + 1

/-- The number nearest to `num / den` with the given sign, ties to even. -/
def ofRatio (negative : Bool) (num den : Nat) : Binary64 :=
  let scaled := num * unitsPerOne
  let step := spacing (scaled / den)
  let units := roundDiv scaled (den * step) * step
  if overflow ≤ units then .infinity negative else .finite negative units

/-- An integer, exactly: the result may have more than 53 significant bits. -/
def ofInt (n : Int) : Binary64 :=
  .finite (n < 0) (n.natAbs * unitsPerOne)

/-- The signed multiple of the least positive number that a finite value is. -/
def signedUnits (negative : Bool) (units : Nat) : Int :=
  if negative then -units else units

/-- The numeric order. A not-a-number is neither below nor above anything. -/
def lt : Binary64 → Binary64 → Bool
  | .notANumber _, _ => false
  | _, .notANumber _ => false
  | .infinity a, .infinity b => a && !b
  | .infinity a, .finite _ _ => a
  | .finite _ _, .infinity b => !b
  | .finite a m, .finite b n => signedUnits a m < signedUnits b n

/-- Numeric equality: the two zeros agree, and a not-a-number equals nothing. -/
def eqv : Binary64 → Binary64 → Bool
  | .infinity a, .infinity b => a == b
  | .finite a m, .finite b n => signedUnits a m == signedUnits b n
  | _, _ => false

/-- The value is neither infinite nor a not-a-number. -/
def isFinite : Binary64 → Bool
  | .finite _ _ => true
  | _ => false

/-- The value is one of the two zeros. -/
def isZero : Binary64 → Bool
  | .finite _ 0 => true
  | _ => false

/-- A power of two is positive. -/
theorem powTwo_pos (n : Nat) : 0 < Nat.pow 2 n :=
  Nat.two_pow_pos n

/-- One is a positive number of units. -/
theorem unitsPerOne_pos : 0 < unitsPerOne := by
  unfold unitsPerOne
  exact powTwo_pos leastExponent

/-- Sign and magnitude of a multiple of a whole number. -/
theorem signedUnits_mul (n : Int) (k : Nat) :
    signedUnits (n < 0) (n.natAbs * k) = n * k := by
  unfold signedUnits
  rw [Int.natCast_mul]
  by_cases h : n < 0
  · have habs : (n.natAbs : Int) = -n := by omega
    rw [if_pos (decide_eq_true h), habs, Int.neg_mul, Int.neg_neg]
  · have habs : (n.natAbs : Int) = n := by omega
    rw [if_neg (by simp [h]), habs]

/-- Integers are equal as numbers exactly when they are equal. -/
theorem eqv_ofInt (m n : Int) : eqv (ofInt m) (ofInt n) = true ↔ m = n := by
  have hpos : (unitsPerOne : Int) ≠ 0 := Int.natCast_ne_zero.2 (Nat.ne_of_gt unitsPerOne_pos)
  simp only [eqv, ofInt, signedUnits_mul, beq_iff_eq]
  exact ⟨fun h => Int.eq_of_mul_eq_mul_right hpos h, fun h => h ▸ rfl⟩

end Binary64

end PathRouting
