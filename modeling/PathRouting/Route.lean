import PathRouting.KeyIndex
import PathRouting.Pattern.Concrete

/-!
# Routes

A route is a pattern with all that was given for it, and the concrete paths the
pattern stands for. A route with several paths has an index of its own, by which
the path for a set of parameters is chosen when the route is asked for by name.

Routes and paths are known by number: a route by its place among the routes that
were made, a path by its place among the paths of its route.

## Main definitions

* `Path`: One concrete path.
* `Fields.ofValue?`: Values by name, as they are given for a route.
* `Origin`: What makes a rendered path an absolute URL.
* `Route`, `Route.make`: A route.
* `Route.findPath`: The path best suited to some names.
-/

namespace PathRouting

/-- A concrete path: the conditions it requires, then the segments of the path proper. -/
structure Path where
  conditions : List Condition
  parts : List Segment

namespace Path

/-- The sequence the path is matched by. -/
def segments (p : Path) : List Segment :=
  p.conditions.map .condition ++ p.parts

/-- The variables, in order. -/
def binders (p : Path) : List Variable :=
  p.parts.filterMap Segment.var?

/-- The names of the variables, in order. -/
def keys (p : Path) : List String :=
  p.binders.map Variable.name

/-- The names of the variables with a default. -/
def defaulted (p : Path) : List String :=
  (p.binders.filter Variable.hasDefault).map Variable.name

/-- The names of the variables without a default. -/
def required (p : Path) : List String :=
  (p.binders.filter (!·.hasDefault)).map Variable.name

/-- The names that decide which parameters select the path. -/
def signature (p : Path) : Signature :=
  ⟨p.binders.map fun v => (v.name, v.hasDefault)⟩

/-- There is a variable. -/
def isDynamic (p : Path) : Bool :=
  !p.binders.isEmpty

/-- The path as it would stand in a pattern. -/
def text (p : Path) : String :=
  patternText p.parts

/-- The written form. -/
def written (p : Path) : String :=
  "<Path " ++ Text.quoted p.text ++ ">"

/-- The path can be generated from the names. A name that is no text is never
    used by a path. -/
def admits (p : Path) (names : List Value) : Bool :=
  let texts := Value.texts names
  texts.length == names.length && p.signature.admits texts

end Path

/-- The fields that some elements spell, each of which is a name and a value. -/
def Fields.ofPairs? (position : Nat) (fields : Fields) : List Value → Except Fault Fields
  | [] => .ok fields
  | e :: rest =>
    match e.elements? with
    | some [.text name, v] => ofPairs? (position + 1) (fields.put name v) rest
    | some [_, _] | none => .error (.type .notFields)
    | some others => .error (.notAPair position others.length)

/-- The fields that a value describes: those of a dictionary, or the pairs
    that are its elements. A value that counts as false describes none. -/
def Fields.ofValue? (v : Value) : Except Fault Fields :=
  match v with
  | .dict fields => .ok fields
  | v =>
    if !v.truthy then .ok []
    else
      match v.elements? with
      | some elements => ofPairs? 0 [] elements
      | none => .error (.type .notFields)

/-- What makes a rendered path an absolute URL. -/
structure Origin where
  scheme : Value
  port : Value
  host : Value

/-- The names that the fields of an origin may have. -/
def originNames : List String := ["scheme", "port", "host"]

/-- The origin that a value describes by its fields; none if it is empty. -/
def Origin.ofValue? : Value → Except Fault (Option Origin)
  | .dict (field :: fields) =>
    match (Fields.names (field :: fields)).find? (!originNames.contains ·) with
    | some other => .error (.type (.unknownField other))
    | none =>
      let get := fun name => (List.lookup name (field :: fields)).getD .none
      .ok (some ⟨get "scheme", get "port", get "host"⟩)
  | v => if v.truthy then .error (.type .notFields) else .ok none

/-- A route: a pattern with all that was given for it. -/
structure Route where
  pattern : String
  paths : List Path
  conditions : Fields
  requirements : Fields
  defaults : Fields
  /-- What a match leads to; the router hands it on without looking at it. -/
  destination : Value
  origin : Option Origin
  delimiters : List String
  /-- The name the route was last given. -/
  name : Value
  /-- The route belongs to a router. -/
  routed : Bool
  /-- The index over the paths, for a route that has several. -/
  index : Option (KeyIndex Nat)

namespace Route

/-- The index over some paths, which are numbered from `n`. -/
def indexFrom (n : Nat) (idx : KeyIndex Nat) : List Path → KeyIndex Nat
  | [] => idx
  | p :: rest => indexFrom (n + 1) (idx.register p.signature n) rest

/-- The index over the paths of a route; a single path needs none. -/
def indexOf (paths : List Path) : Option (KeyIndex Nat) :=
  match paths with
  | _ :: _ :: _ => some (indexFrom 0 .empty paths)
  | _ => none

/-- A route without a name, from compiled paths. -/
def make (pattern : String) (compiled : List (List Segment)) (conditions : List Condition)
    (given requirements defaults : Fields) (destination : Value) (origin : Option Origin)
    (delimiters : List String) (routed : Bool) : Route :=
  let paths := compiled.map (Path.mk conditions)
  { pattern, paths, conditions := given, requirements, defaults, destination, origin,
    delimiters, name := .none, routed, index := indexOf paths }

/-- The written form. -/
def written (r : Route) : String :=
  "<Route " ++ Text.quoted r.pattern ++ ">"

/-- The first path without variables. -/
def staticPath? (r : Route) : Option Nat :=
  r.paths.findIdx? (!·.isDynamic)

/-- The path best suited to some names, by number, and the route with its
    index up to date. A route with a single path always offers that one; one
    with several falls back on its first path without variables. -/
def findPath (r : Route) (names : Value) : Route × Except Fault (Option Nat) :=
  match r.index with
  | none => (r, .ok (some 0))
  | some idx =>
    match names.nameSet? with
    | .error e => (r, .error e)
    | .ok vs =>
      let (idx, found) := idx.find (Value.texts vs)
      ({ r with index := some idx }, .ok (found.or r.staticPath?))

end Route

end PathRouting
