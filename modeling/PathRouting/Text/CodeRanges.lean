/-!
# Code Point Ranges

Character classes as sorted tables of code point ranges. The classes that the
routing layers need — blanks, digits, word characters, printable characters —
are far larger than the ASCII ones of core, so each is a table, and one search
serves them all.

## Main definitions

* `inRanges`: Membership of a code point in a sorted table.

## Theorems

* `exists_of_inRanges`: A member lies inside one of the ranges.
-/

namespace PathRouting

namespace Text

/-- The code point lies in one of the ranges. The ranges ascend, so the search
    stops at the first range that starts above the code point. -/
def inRanges : List (Nat × Nat) → Nat → Bool
  | [], _ => false
  | (lo, hi) :: rest, n => if n < lo then false else if n ≤ hi then true else inRanges rest n

/-- A member lies inside one of the ranges. -/
theorem exists_of_inRanges {rs : List (Nat × Nat)} {n : Nat} (h : inRanges rs n = true) :
    ∃ r ∈ rs, r.1 ≤ n ∧ n ≤ r.2 := by
  induction rs with
  | nil => simp [inRanges] at h
  | cons r rest ih =>
    obtain ⟨lo, hi⟩ := r
    simp only [inRanges] at h
    split at h
    · simp at h
    · split at h
      · exact ⟨(lo, hi), by simp, by omega, by omega⟩
      · obtain ⟨r, hr, hn⟩ := ih h
        exact ⟨r, by simp [hr], hn⟩

end Text

end PathRouting
