import Mathlib.Data.Rat.Cast.Order
import Mathlib.Order.WithBot
import PathRouting.Value

/-!
# Numbers on the Extended Line

A number of double precision is a point of the rational line with an end on
either side, or it is no point at all. That is what comparing two numbers
comes to: one is below another exactly if both are points and the points stand
in that order. A not-a-number is not below anything and nothing is below it,
so where it is compared with a bound, it is on neither side of the bound.

Integers are points of the line as well, whatever their size, since no
rounding is done when one is compared.

## Main definitions

* `Line`: The rational line with its two ends.
* `Binary64.ratio`: Where a finite number stands on it.
* `Binary64.point?`: The point that a number is.
* `Value.point?`: The point that a value is, if it is a number and that is a
  point.
* `Value.whole?`: The integer that a value is.

## Theorems

* `Binary64.lt_eq_true_iff`: Comparing numbers is comparing points.
* `Binary64.isFinite_iff`: The finite numbers are the points between the ends.
* `Binary64.point?_ofInt`: An integer is the point that it denotes.
-/

namespace PathRouting

/-- The rational line with an end on either side. -/
abbrev Line := WithBot (WithTop ℚ)

namespace Line

/-- A rational number as a point between the ends. -/
def between (q : ℚ) : Line :=
  WithBot.some (WithTop.some q)

@[simp] theorem between_lt_between {p q : ℚ} : between p < between q ↔ p < q := by
  rw [between, between, WithBot.coe_lt_coe, WithTop.coe_lt_coe]

@[simp] theorem between_le_between {p q : ℚ} : between p ≤ between q ↔ p ≤ q := by
  rw [← not_lt, between_lt_between, not_lt]

@[simp] theorem bot_lt_between (q : ℚ) : ⊥ < between q :=
  WithBot.bot_lt_coe _

@[simp] theorem between_lt_top (q : ℚ) : between q < ⊤ :=
  WithBot.coe_lt_coe.2 (WithTop.coe_lt_top q)

end Line

namespace Binary64

open Line

/-- Where a finite number stands between the ends. -/
def ratio (negative : Bool) (units : Nat) : ℚ :=
  signedUnits negative units / unitsPerOne

/-- Units are counted off the same way everywhere on the line. -/
@[simp] theorem ratio_lt_ratio {m n : Bool} {k l : Nat} :
    ratio m k < ratio n l ↔ signedUnits m k < signedUnits n l := by
  have hpos : (0 : ℚ) < unitsPerOne := Nat.cast_pos.2 unitsPerOne_pos
  rw [ratio, ratio, div_lt_div_iff_of_pos_right hpos, Int.cast_lt]

/-- The point of the extended line that a number is. A not-a-number is none.
    Both infinities are points, so that bounds may be infinite and numbers
    outside of the finite range are compared as well. -/
def point? : Binary64 → Option Line
  | .notANumber _ => none
  | .infinity negative => some (if negative then ⊥ else ⊤)
  | .finite negative units => some (between (ratio negative units))

/-- Comparing numbers is comparing points. A not-a-number has no point and is in
    no order with anything, which the right side says by asking for two points. -/
theorem lt_eq_true_iff {a b : Binary64} :
    a.lt b = true ↔ ∃ x ∈ a.point?, ∃ y ∈ b.point?, x < y := by
  cases a with
  | notANumber => simp [lt, point?]
  | infinity m =>
      cases b with
      | notANumber => simp [lt, point?]
      | infinity n => cases m <;> cases n <;> simp [lt, point?]
      | finite n k => cases m <;> simp [lt, point?]
  | finite m k =>
      cases b with
      | notANumber => simp [lt, point?]
      | infinity n => cases n <;> simp [lt, point?]
      | finite n l => simp [lt, point?]

/-- The finite numbers are the points between the ends. -/
theorem isFinite_iff {a : Binary64} :
    a.isFinite = true ↔ ∃ x ∈ a.point?, ⊥ < x ∧ x < ⊤ := by
  cases a with
  | notANumber => simp [isFinite, point?]
  | infinity m => cases m <;> simp [isFinite, point?]
  | finite m k => simp [isFinite, point?]

/-- An integer is the point that it denotes. -/
theorem point?_ofInt (n : Int) : (ofInt n).point? = some (between n) := by
  have hne : (unitsPerOne : ℚ) ≠ 0 := Nat.cast_ne_zero.2 (Nat.ne_of_gt unitsPerOne_pos)
  rw [ofInt, point?, ratio, signedUnits_mul, Int.cast_mul, Int.cast_natCast,
    mul_div_cancel_right₀ _ hne]

end Binary64

namespace Value

/-- The point that a value is, if it is a number and that is a point. -/
def point? (v : Value) : Option Line :=
  v.number?.bind Binary64.point?

/-- The integer that a value is. The truth values are integers, too. -/
def whole? : Value → Option Int
  | bool b => some (if b then 1 else 0)
  | int n => some n
  | _ => Option.none

theorem number?_of_whole? {v : Value} {n : Int} (h : v.whole? = some n) :
    v.number? = some (.ofInt n) := by
  cases v with
  | bool b | int m =>
      cases h
      rfl
  | _ => cases h

end Value

end PathRouting
