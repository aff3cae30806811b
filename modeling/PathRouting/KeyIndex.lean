import PathRouting.Fault
import PathRouting.Value.Form

/-!
# The Index of Parameter Names

Which path should be generated from a set of parameter names. Every dynamic path
is filed under the sets of names that select it: all of its names, and for every
non-empty choice among its names with a default, those together with the names
that have none. Within a set it is filed once under each member, on a slip that
notes the size of the set. The slips for one size and one name make up a drawer.

A lookup keeps only the significant names, those that some path is filed
under, and goes through the sizes from the number of names that are left
downward; a path that uses more of the names is preferred. For each size it
opens the drawers of all the names, one after the other, and takes the path
that was registered first. It need not go through a whole drawer for that,
since the slips in it stand in the order of registration.

Answers are remembered by the set of significant names. They are never
forgotten, so an answer tells how the index stood when its set was first asked
for.

## Main definitions

* `Signature`: The variables of a path, by name, and which of them have
  defaults.
* `Signature.admits`: The path can be generated from the names.
* `Signature.keySets`: The sets of names that select the path.
* `KeyIndex`, `KeyIndex.register`: The index, and a path filed in it.
* `KeyIndex.improve`: The best slip after one more drawer.
* `KeyIndex.search`: The best path, found anew.
* `KeyIndex.find`: The best path, remembered.
* `Value.nameSet?`: The names that a value holds.

## Theorems

* `find_remembered`: A remembered answer is given again and changes nothing.
-/

namespace PathRouting

/-- The variables of a path in order, each by its name and whether it has a
    default. This is all that an index knows of a path besides what it stands for. -/
structure Signature where
  binders : List (String × Bool)
  deriving DecidableEq, Repr

namespace Signature

/-- There is a variable. -/
def isDynamic (s : Signature) : Bool :=
  !s.binders.isEmpty

/-- The names of the variables, in order. -/
def keys (s : Signature) : List String :=
  s.binders.map Prod.fst

/-- The names of the variables with a default. -/
def defaulted (s : Signature) : List String :=
  (s.binders.filter Prod.snd).map Prod.fst

/-- The names of the variables without a default, which have to be given. -/
def required (s : Signature) : List String :=
  (s.binders.filter (!·.2)).map Prod.fst

/-- The names without a default, in the order of the path. -/
def undefaulted (s : Signature) : List String :=
  s.keys.filter (!s.defaulted.contains ·)

/-- The names with a default, in the order of the path. -/
def optional (s : Signature) : List String :=
  s.keys.filter s.defaulted.contains

/-- The path can be generated from the names: all that have to be given are
    there, and the path uses every one. -/
def admits (s : Signature) (names : List String) : Bool :=
  s.required.all names.contains && names.all s.keys.contains

end Signature

/-- The ways to choose so many of the elements, in order. -/
def choose {β : Type} : Nat → List β → List (List β)
  | 0, _ => [[]]
  | _ + 1, [] => []
  | n + 1, b :: rest => (choose n rest).map (b :: ·) ++ choose (n + 1) rest

/-- The sets of names that select a path. -/
def Signature.keySets (s : Signature) : List (List String) :=
  s.keys :: (List.range s.optional.length).flatMap fun n =>
    (choose (n + 1) s.optional).map (s.undefaulted ++ ·)

/-- A path filed under one name of one set of names. -/
structure Slip (α : Type) where
  /-- How many names the set has. -/
  size : Nat
  name : String
  /-- The number of the registration. -/
  sequence : Nat
  signature : Signature
  path : α

/-- The index. -/
structure KeyIndex (α : Type) where
  /-- The slips, in the order they were filed. -/
  slips : List (Slip α)
  /-- How many slips there are under each name. -/
  counts : List (String × Nat)
  /-- How many paths have been registered. -/
  registered : Nat
  /-- The answers given so far, by the significant names they were given for. -/
  answers : List (List String × Option α)

namespace KeyIndex

variable {α : Type}

/-- The index without any path. -/
def empty : KeyIndex α := ⟨[], [], 0, []⟩

/-- The names that some path is filed under, in the order of first filing. -/
def significant (idx : KeyIndex α) : List String :=
  idx.counts.map Prod.fst

/-- How many slips there are under a name. -/
def count (idx : KeyIndex α) (name : String) : Nat :=
  (idx.counts.lookup name).getD 0

/-- The counts with one more under a name. -/
def countUp (name : String) : List (String × Nat) → List (String × Nat)
  | [] => [(name, 1)]
  | (n, k) :: rest => if n = name then (n, k + 1) :: rest else (n, k) :: countUp name rest

/-- The index with slips filed. -/
def file (idx : KeyIndex α) (slips : List (Slip α)) : KeyIndex α :=
  { idx with
    slips := idx.slips ++ slips
    counts := slips.foldl (fun counts slip => countUp slip.name counts) idx.counts }

/-- The slips of a path: one for each member of each set that selects it. -/
def slipsFor (sequence : Nat) (signature : Signature) (path : α) : List (Slip α) :=
  signature.keySets.flatMap fun set =>
    set.map fun name => ⟨set.length, name, sequence, signature, path⟩

/-- The index with a path registered. Names cannot select a path without
    variables, so such a path is left out. -/
def register (idx : KeyIndex α) (signature : Signature) (path : α) : KeyIndex α :=
  if signature.isDynamic then
    { idx.file (slipsFor idx.registered signature path) with registered := idx.registered + 1 }
  else idx

/-- The slips for sets of a size that are filed under a name, in the order
    they were filed. -/
def drawer (idx : KeyIndex α) (size : Nat) (name : String) : List (Slip α) :=
  idx.slips.filter fun slip => slip.size == size && slip.name == name

/-- The best slip after one more drawer: the first one in it that can be
    generated from all of the names, unless the best so far is as early. From
    the first slip on that is no earlier than the best so far, the drawer has
    nothing to offer. -/
def improve (relevant : List String) (best : Option (Slip α)) : List (Slip α) → Option (Slip α)
  | [] => best
  | slip :: rest =>
    if best.any (·.sequence ≤ slip.sequence) then best
    else if slip.signature.admits relevant then some slip
    else improve relevant best rest

/-- The earliest path that is filed under one of the names in a set of the
    given size and can be generated from all of them. -/
def ofSize (idx : KeyIndex α) (relevant : List String) (size : Nat) : Option α :=
  (relevant.foldl (fun best name => improve relevant best (idx.drawer size name)) none).map
    Slip.path

/-- The path for the largest size, counting down, that has one. A path that
    uses more of the names is preferred, whenever it was registered. -/
def searchFrom (idx : KeyIndex α) (relevant : List String) : Nat → Option α
  | 0 => none
  | size + 1 =>
    match idx.ofSize relevant (size + 1) with
    | some path => some path
    | none => idx.searchFrom relevant size

/-- The best path for the significant names, found anew. Nothing is found for
    no names at all, since every slip is filed under one. -/
def search (idx : KeyIndex α) (relevant : List String) : Option α :=
  idx.searchFrom relevant relevant.length

/-- The significant names among the given ones. Names become significant one
    after the other and remain so, hence the same set is always listed alike. -/
def relevant (idx : KeyIndex α) (names : List String) : List String :=
  idx.significant.filter names.contains

/-- The best path for some names, and the index that remembers it. That
    nothing was found is remembered as well, and neither is forgotten when
    another path is registered. -/
def find (idx : KeyIndex α) (names : List String) : KeyIndex α × Option α :=
  let relevant := idx.relevant names
  if relevant.isEmpty then (idx, none)
  else
    match idx.answers.lookup relevant with
    | some answer => (idx, answer)
    | none =>
      let answer := idx.search relevant
      ({ idx with answers := (relevant, answer) :: idx.answers }, answer)

/-- A remembered answer is given again and changes nothing. -/
theorem find_remembered {idx : KeyIndex α} {names : List String} {answer : Option α}
    (h : idx.answers.lookup (idx.relevant names) = some answer)
    (hne : (idx.relevant names).isEmpty = false) : idx.find names = (idx, answer) := by
  simp [find, h, hne]

end KeyIndex

/-- The names that a value holds. Every element has to be fit for a set,
    though only a text can be the name of a variable. -/
def Value.nameSet? (v : Value) : Except Fault (List Value) :=
  match v.elements? with
  | .none => .error (.type .notIterable)
  | some vs => if areKeys vs then .ok vs else .error (.type .notAKey)

end PathRouting
