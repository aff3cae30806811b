import PathRouting.Number.Binary64
import PathRouting.Regex

/-!
# Values

The values an application hands to the router: parameters, defaults,
requirements, conditions, request attributes and destinations. What they are is
up to the application, so they are dynamic: numbers, texts and containers, and
beside them the things that judge other values — compiled expressions,
functions and validators.

Texts are sequences of Unicode scalar values. One half of a surrogate pair is
not a character here, so a text always has an encoding.

A function is known to the router by its identity and by how it is displayed.
What it answers when called is the business of the application and comes in
through the `Host` of `PathRouting.Validator`.

## Main definitions

* `Callable`: A function, a type or a callable object of the application.
* `Value`, `Validator`: The values, and the validators among them.
* `Fields`: Values by name, in the order they were given.
* `Value.truthy`: The value counts as true.
* `Value.number?`: The number a value is.
* `Value.elements?`: What iterating over a value yields.
-/

namespace PathRouting

/-- What kind of callable the application supplied. -/
inductive CallableKind where
  | function
  /-- A type is callable, but as an option it is taken for a destination. -/
  | type
  | object
  deriving DecidableEq, Repr

/-- A callable of the application. Two are the same if their identities are. -/
structure Callable where
  /-- The identity. -/
  id : String
  kind : CallableKind
  /-- The name it is displayed by. -/
  label : String
  /-- Where it was defined. -/
  source : String
  /-- How it is written in messages. -/
  written : String
  deriving DecidableEq, Repr

mutual

/-- Values of the application. -/
inductive Value where
  | none
  | bool (b : Bool)
  | int (n : Int)
  | float (x : Binary64)
  | text (s : String)
  | list (items : List Value)
  | tuple (items : List Value)
  /-- Values by name, in the order of insertion. -/
  | dict (fields : List (String × Value))
  /-- The condition value that every attribute satisfies. -/
  | wildcard
  | regex (r : Regex)
  | callable (f : Callable)
  | validator (v : Validator)

/-- Judges of values. -/
inductive Validator where
  /-- Accepts the values equal to the given one. -/
  | equality (expected : Value)
  /-- Accepts the values whose whole text matches. -/
  | regex (r : Regex)
  /-- Accepts the values for which the function answers something true. -/
  | predicate (f : Callable)
  /-- Accepts texts of integers, with a given length and within bounds. -/
  | integer (digits least most : Value)
  /-- Accepts texts of decimal numbers within bounds. -/
  | decimal (least most finite : Value)
  /-- Accepts the spellings of universally unique identifiers. -/
  | uuid
  /-- A validator that the application wrote itself. -/
  | custom (tag : String)

end

instance : Inhabited Value := ⟨.none⟩

/-- Values by name. No name occurs twice. -/
abbrev Fields := List (String × Value)

namespace Fields

/-- The fields with one of them set: in place if the name is there, and at the
    end otherwise. -/
def put (name : String) (v : Value) : Fields → Fields
  | [] => [(name, v)]
  | (n, w) :: rest => if n = name then (n, v) :: rest else (n, w) :: put name v rest

/-- The fields with further ones set, in order. -/
def update (fields others : Fields) : Fields :=
  others.foldl (fun fs f => put f.1 f.2 fs) fields

/-- The names, in order. -/
def names (fields : Fields) : List String :=
  fields.map Prod.fst

/-- There is nothing under a name that is not one of the fields. -/
theorem lookup_eq_none_iff {name : String} {fields : Fields} :
    fields.lookup name = none ↔ name ∉ fields.names := by
  simp only [List.lookup_eq_none_iff, names, List.mem_map, not_exists, not_and, bne_iff_ne]
  exact forall_congr' fun _ => forall_congr' fun _ => ne_comm

theorem lookup_put_self (name : String) (v : Value) (fields : Fields) :
    (put name v fields).lookup name = some v := by
  induction fields with
  | nil => simp [put]
  | cons f rest ih =>
    obtain ⟨n, w⟩ := f
    by_cases h : n = name
    · simp [put, h]
    · have : (name == n) = false := by simpa using fun e => h e.symm
      simp [put, h, List.lookup_cons, this, ih]

theorem lookup_put_other {name other : String} (h : other ≠ name) (v : Value) (fields : Fields) :
    (put name v fields).lookup other = fields.lookup other := by
  induction fields with
  | nil =>
    have : (other == name) = false := by simpa using h
    simp [put, List.lookup_cons, this]
  | cons f rest ih =>
    obtain ⟨n, w⟩ := f
    by_cases hn : n = name
    · have : (other == name) = false := by simpa using h
      subst hn
      simp [put, List.lookup_cons, this]
    · by_cases ho : other = n
      · simp [put, hn, ho]
      · have : (other == n) = false := by simpa using ho
        simp [put, hn, List.lookup_cons, this, ih]

theorem lookup_update_other {name : String} {others : Fields} (h : name ∉ others.names)
    (fields : Fields) : (update fields others).lookup name = fields.lookup name := by
  induction others generalizing fields with
  | nil => rfl
  | cons f rest ih =>
    obtain ⟨n, v⟩ := f
    simp only [names, List.map_cons, List.mem_cons, not_or] at h
    exact (ih h.2 _).trans (lookup_put_other h.1 v fields)

/-- What is set under a name of its own is found there. -/
theorem lookup_update {name : String} {v : Value} {others : Fields} (hnodup : others.names.Nodup)
    (hmem : (name, v) ∈ others) (fields : Fields) :
    (update fields others).lookup name = some v := by
  induction others generalizing fields with
  | nil => cases hmem
  | cons f rest ih =>
    simp only [names, List.map_cons, List.nodup_cons] at hnodup
    cases hmem with
    | head => exact (lookup_update_other hnodup.1 _).trans (lookup_put_self name v fields)
    | tail _ hrest => exact ih hnodup.2 hrest _

end Fields

namespace Value

/-- The value is the absent one. -/
def isNone : Value → Bool
  | none => true
  | _ => false

/-- The value counts as true: empty containers and texts, zeros and the absent
    value do not. -/
def truthy : Value → Bool
  | none => false
  | bool b => b
  | int n => n != 0
  | float x => !x.isZero
  | text s => !s.isEmpty
  | list items | tuple items => !items.isEmpty
  | dict fields => !fields.isEmpty
  | wildcard | regex _ | callable _ | validator _ => true

/-- The number that a value is; the truth values are one and zero. -/
def number? : Value → Option Binary64
  | bool b => some (.ofInt (if b then 1 else 0))
  | int n => some (.ofInt n)
  | float x => some x
  | _ => Option.none

/-- What iterating over a value yields: the items of a sequence, the names of
    a dictionary, the characters of a text. -/
def elements? : Value → Option (List Value)
  | text s => some (s.toList.map fun c => text (String.singleton c))
  | list items | tuple items => some items
  | dict fields => some (fields.map fun f => text f.1)
  | _ => Option.none

/-- The texts among the values. -/
def texts (vs : List Value) : List String :=
  vs.filterMap fun
    | text s => some s
    | _ => Option.none

end Value

end PathRouting
