import PathRouting.Pattern.Tree

/-!
# Expansion

The concrete segment sequences that a pattern stands for: one for every way to
take or leave its options and to settle its choices. An option is taken before
it is left, a choice goes through its branches in order, and of two parts the
later one varies faster, so the first sequence is the fullest.

## Main definitions

* `product`: Every sequence of one list continued by every one of another.
* `Part.expand`, `expand`: The sequences of a part and of a pattern.
-/

namespace PathRouting

namespace Pattern

/-- Every sequence of the first list, continued by every one of the second. -/
def product {α : Type} (first second : List (List α)) : List (List α) :=
  first.flatMap fun a => second.map (a ++ ·)

mutual

/-- The sequences that a part stands for. -/
def Part.expand : Part → List (List Segment)
  | .leaf s => [[s]]
  | .optional parts => Pattern.expand parts ++ [[]]
  | .choice branches => expandBranches branches

/-- The sequences that a pattern stands for. -/
def expand : List Part → List (List Segment)
  | [] => [[]]
  | p :: rest => product p.expand (expand rest)

/-- The sequences that a choice stands for. -/
def expandBranches : List (List Part) → List (List Segment)
  | [] => []
  | b :: rest => expand b ++ expandBranches rest

end

end Pattern

end PathRouting
