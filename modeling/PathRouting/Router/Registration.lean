import PathRouting.Router.State

/-!
# Registration

Adding a route to a router. The pattern is compiled and the conditions are
checked first, which needs nothing but the options. Then the paths of the new
route are tried out: each against the live tree, and all of them against each
other in a tree set up for the purpose. Only when nothing is in the way are they
inserted, so that a conflict leaves no trace.

The name comes last. A name that cannot be a key is refused when the route is
already there.

## Main definitions

* `RouteSpec`, `RouteSpec.ofFields?`: What is given for a route.
* `splitOptions`: The requirements among the further options, and the rest.
* `conditionSegments`: The conditions of a route, one for each attribute.
* `RouteSpec.route?`: The route that is asked for.
* `Router.commit`: A route put in force.
* `Registration`, `Router.add`: A route added, with what was reported.

## Theorems

* `add_eq_of_route?_error`: A route that cannot be made leaves the router alone.
-/

namespace PathRouting

/-- What is given for a route. -/
structure RouteSpec where
  pattern : String
  requirements : Fields
  conditions : Fields
  defaults : Fields
  destination : Value
  /-- Scheme, port and host of absolute URLs. -/
  origin : Value
  /-- The name to register the route under, unless it is absent. -/
  name : Value
  /-- Further options: requirements by variable, and the others a destination. -/
  options : Fields

/-- The names that do not stand for further options. -/
def specNames : List String :=
  ["requirements", "conditions", "default_values", "destination", "generate_with", "name"]

/-- The conditions that a value describes. Only a dictionary names any. -/
def conditionsOf? : Value → Except Fault Fields
  | .dict fields => .ok fields
  | v => if v.truthy then .error (.type .notFields) else .ok []

/-- What is given for a route by name. -/
def RouteSpec.ofFields? (pattern : String) (fields : Fields) : Except Fault RouteSpec := do
  let get := fun name : String => (fields.lookup name).getD .none
  return {
    pattern
    requirements := ← Fields.ofValue? (get "requirements")
    conditions := ← conditionsOf? (get "conditions")
    defaults := ← Fields.ofValue? (get "default_values")
    destination := get "destination"
    origin := get "generate_with"
    name := get "name"
    options := fields.filter fun f => !specNames.contains f.1 }

/-- The options that judge, and the others. -/
def splitOptions (options : Fields) : Fields × Fields :=
  options.partition fun f => f.2.isJudge

/-- The destination: the one given, or else the options that are left, if any. -/
def destinationOf (given : Value) (options : Fields) : Value :=
  if given.isNone && !options.isEmpty then .dict options else given

/-- What is given for an attribute: any value will do if it is not mentioned,
    and only a text can be mentioned. -/
def givenFor (given : Fields) : Value → Value
  | .text kind => (given.lookup kind).getD .wildcard
  | _ => .wildcard

/-- What a route requires of an attribute. A judge becomes a validator, and a
    list is fixed as a tuple so that it can be compared as a key. -/
def conditionValue (kind v : Value) : Except Fault Value :=
  if v.isJudge then do return .validator (← Validator.ofValue? v)
  else
    match v with
    | .none => do throw (.config (.absentCondition (← kind.written)))
    | .list items => .ok (.tuple items)
    | v => .ok v

/-- The conditions of a route, one for each attribute in order; an attribute
    that is not mentioned may have any value. -/
def conditionSegments (kinds : List Value) (given : Fields) : Except Fault (List Condition) :=
  let known := Value.texts kinds
  match (given.names.filter (!known.contains ·)).mergeSort with
  | [] => kinds.mapM fun kind => do return ⟨kind, ← conditionValue kind (givenFor given kind)⟩
  | unknown =>
    if known.length = kinds.length then .error (.config (.unknownConditions unknown known))
    else .error (.type .notText)

/-- The route that is asked for. -/
def RouteSpec.route? [Host] (spec : RouteSpec) (options : Options) : Except Fault Route := do
  let (judges, others) := splitOptions spec.options
  let requirements := spec.requirements.update judges
  let compiled ← Pattern.compile options.delimiters spec.pattern requirements spec.defaults
  let conditions ← conditionSegments options.methods spec.conditions
  let origin ← Origin.ofValue? spec.origin
  return .make spec.pattern compiled conditions spec.conditions requirements spec.defaults
    (destinationOf spec.destination others) origin options.delimiters true

/-- What became of a registration: the router after it, the number of the
    route or why there is none, and what was reported. -/
structure Registration where
  router : Router
  outcome : Except Fault Nat
  events : List Event

/-- The index with the paths of a route registered, numbered from `position`. -/
def registerPaths (route : Nat) : Nat → List Path → KeyIndex PathId → KeyIndex PathId
  | _, [], idx => idx
  | position, p :: rest, idx =>
    registerPaths route (position + 1) rest (idx.register p.signature ⟨route, position⟩)

namespace Router

/-- The router with a route put in force, given the tree with its paths. From here
    on the route is found by requests, whether or not its name can be entered. -/
def commit (r : Router) (route : Route) (trie : Trie PathId) : Router :=
  let number := r.catalog.length
  { r with
    catalog := r.catalog ++ [route]
    table := { r.table with
      trie := trie
      index := registerPaths number 0 route.paths r.table.index
      routes := r.table.routes ++ [number] } }

/-- The router with a route added. -/
def add [Host] (r : Router) (spec : RouteSpec) : Registration :=
  match spec.route? r.options with
  | .error e => ⟨r, .error e, []⟩
  | .ok route =>
    let number := r.catalog.length
    let entries := route.entries number
    let report := fun replaced : List (PathId × PathId) =>
      replaced.filterMap fun (new, old) => Event.ofReplaced? (r.catalog ++ [route]) new old
    let staged := Trie.stageAll r.table.trie entries .empty
    match staged.outcome with
    | .error e => ⟨r, .error e, report staged.replaced⟩
    | .ok () =>
      let live := Trie.insertAll entries r.table.trie
      let events := report (staged.replaced ++ live.replaced)
      let committed := r.commit route live.trie
      let (named, naming) :=
        if spec.name.isNone then (committed, .ok ()) else committed.nameRoute spec.name number
      match live.outcome, naming with
      | .error e, _ => ⟨{ r with table := { r.table with trie := live.trie } }, .error e, events⟩
      | .ok (), .error e => ⟨named, .error e, events⟩
      | .ok (), .ok () =>
        ⟨named, .ok number, events ++ [.added spec.pattern route.paths.length]⟩

/-- A route that cannot be made leaves the router alone. -/
theorem add_eq_of_route?_error [Host] {r : Router} {spec : RouteSpec} {e : Fault}
    (h : spec.route? r.options = .error e) : r.add spec = ⟨r, .error e, []⟩ := by
  simp [add, h]

end Router

end PathRouting
