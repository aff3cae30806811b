import PathRouting.Proofs.Number.Line
import PathRouting.Proofs.Number.Numeral
import PathRouting.Proofs.Sameness

/-!
# What Bounds Allow

The bounds of a number are two values, each of which may be absent. They never
say that a number is allowed, only that it is refused: it is below the lower
one, or above the upper one. A number that compares to nothing is not refused
by any bound.

On the line this is an interval, for the numbers that are points of it. For
integers between integers it is an interval of integers.

## Main definitions

* `Value.PointIfGiven`, `Value.WholeIfGiven`: What can be a bound.
* `refusedBelow`, `refusedAbove`: What each bound says.

## Theorems

* `withinBounds_eq`: The lower bound is asked first.
* `exists_refusedBelow`, `exists_refusedAbove`: Bounds on the line do not fail.
* `exists_withinBounds`: What is within bounds lies between them, or nowhere.
* `within_ofInt_iff`: Integers within integers.
-/

namespace PathRouting

namespace Value

/-- The value is absent, or a number that is a point of the line. -/
def PointIfGiven (v : Value) : Prop :=
  v.isNone = true ∨ v.point?.isSome = true

/-- The value is absent, or an integer. -/
def WholeIfGiven (v : Value) : Prop :=
  v.isNone = true ∨ v.whole?.isSome = true

theorem eq_none_of_isNone {v : Value} (h : v.isNone = true) : v = none := by
  cases v <;> first | rfl | cases h

theorem isNone_of_point? {v : Value} {b : Line} (h : v.point? = some b) : v.isNone = false := by
  cases v <;> first | rfl | cases h

theorem WholeIfGiven.pointIfGiven {v : Value} (h : v.WholeIfGiven) : v.PointIfGiven := by
  refine h.imp_right fun hsome => ?_
  rcases Option.isSome_iff_exists.1 hsome with ⟨n, hn⟩
  simp [point?, number?_of_whole? hn, Binary64.point?_ofInt]

end Value

/-- What a lower bound says to a number. An absent one does not refuse it. -/
def refusedBelow (least : Value) (x : Binary64) : Except Fault Bool :=
  if least.isNone then pure false else belowBound x least

/-- What an upper bound says to a number. -/
def refusedAbove (most : Value) (x : Binary64) : Except Fault Bool :=
  if most.isNone then pure false else aboveBound x most

/-- The lower bound is asked first, and the upper one if that does not refuse.
    A bound that cannot be compared with a number is a fault, which the upper
    one never comes to if the lower one refuses. -/
theorem withinBounds_eq (least most : Value) (x : Binary64) :
    withinBounds least most x = do
      if ← refusedBelow least x then return false
      return !(← refusedAbove most x) := by
  have hhigh : ∀ refused : Except Fault Bool,
      (refused >>= fun high => if high = true then pure false else pure true) =
        refused >>= fun high => pure !high := by
    intro refused
    refine bind_congr fun high => ?_
    cases high <;> rfl
  unfold withinBounds refusedBelow refusedAbove
  by_cases hl : least.isNone = true <;> by_cases hm : most.isNone = true <;>
    simp [hl, hm, hhigh]

section Bounds

variable {bound : Value} (h : bound.PointIfGiven) (x : Binary64)

include h

/-- A lower bound refuses the numbers whose points are below it. -/
theorem exists_refusedBelow :
    ∃ verdict, refusedBelow bound x = .ok verdict ∧
      (verdict = true ↔ ∃ p ∈ x.point?, ∃ b ∈ bound.point?, p < b) := by
  rcases h with hnone | hsome
  · rw [Value.eq_none_of_isNone hnone]
    exact ⟨false, rfl, by simp [Value.point?, Value.number?]⟩
  · rcases Option.isSome_iff_exists.1 hsome with ⟨b, hb⟩
    rcases Option.bind_eq_some_iff.1 hb with ⟨y, hnumber, hpoint⟩
    rw [refusedBelow, Value.isNone_of_point? hb, belowBound, hnumber]
    exact ⟨_, rfl, by simp [Binary64.lt_eq_true_iff, hpoint, hb]⟩

/-- An upper bound refuses the numbers whose points are above it. -/
theorem exists_refusedAbove :
    ∃ verdict, refusedAbove bound x = .ok verdict ∧
      (verdict = true ↔ ∃ p ∈ x.point?, ∃ b ∈ bound.point?, b < p) := by
  rcases h with hnone | hsome
  · rw [Value.eq_none_of_isNone hnone]
    exact ⟨false, rfl, by simp [Value.point?, Value.number?]⟩
  · rcases Option.isSome_iff_exists.1 hsome with ⟨b, hb⟩
    rcases Option.bind_eq_some_iff.1 hb with ⟨y, hnumber, hpoint⟩
    rw [refusedAbove, Value.isNone_of_point? hb, aboveBound, hnumber]
    exact ⟨_, rfl, by simp [Binary64.lt_eq_true_iff, hpoint, hb]⟩

end Bounds

/-- A number is within bounds if its point is, or if it has none. Bounds
    refuse what is below or above them, and a not-a-number is neither. -/
theorem exists_withinBounds {least most : Value} (hleast : least.PointIfGiven)
    (hmost : most.PointIfGiven) (x : Binary64) :
    ∃ verdict, withinBounds least most x = .ok verdict ∧
      (verdict = true ↔
        ∀ p ∈ x.point?, (∀ b ∈ least.point?, b ≤ p) ∧ ∀ b ∈ most.point?, p ≤ b) := by
  rcases exists_refusedBelow hleast x with ⟨low, hlow, hbelow⟩
  rcases exists_refusedAbove hmost x with ⟨high, hhigh, habove⟩
  refine ⟨!low && !high, ?_, ?_⟩
  · rw [withinBounds_eq, hlow, hhigh]
    cases low <;> rfl
  · have hnotbelow : low = false ↔ ∀ p ∈ x.point?, ∀ b ∈ least.point?, b ≤ p := by
      rw [← Bool.not_eq_true, hbelow]
      simp
    have hnotabove : high = false ↔ ∀ p ∈ x.point?, ∀ b ∈ most.point?, p ≤ b := by
      rw [← Bool.not_eq_true, habove]
      simp
    rw [Bool.and_eq_true, Bool.not_eq_true', Bool.not_eq_true', hnotbelow, hnotabove,
      forall₂_and]

/-- Integers are bounds for integers in their own order. -/
theorem within_ofInt_iff {least most : Value} (hleast : least.WholeIfGiven)
    (hmost : most.WholeIfGiven) (n : Int) :
    (∀ p ∈ (Binary64.ofInt n).point?,
        (∀ b ∈ least.point?, b ≤ p) ∧ ∀ b ∈ most.point?, p ≤ b) ↔
      (∀ m, least.whole? = some m → m ≤ n) ∧ ∀ m, most.whole? = some m → n ≤ m := by
  have hpoint : ∀ {v : Value}, v.WholeIfGiven →
      v.point? = v.whole?.map fun m : Int => Line.between m := by
    intro v hv
    rcases hv with hnone | hsome
    · rw [Value.eq_none_of_isNone hnone]
      rfl
    · rcases Option.isSome_iff_exists.1 hsome with ⟨m, hm⟩
      simp [Value.point?, Value.number?_of_whole? hm, Binary64.point?_ofInt, hm]
  simp [hpoint hleast, hpoint hmost, Binary64.point?_ofInt]

end PathRouting
