import PathRouting.Route
import PathRouting.Router.Options
import PathRouting.Trie.Basic

/-!
# The State of a Router

What a router knows: the options it was set up with, every route it ever made,
and the table of the routes that are in force. Resetting a router puts a fresh
table in place; the routes made before keep their numbers and may still be
named.

A name is kept in two places, in the table, where it leads to a route, and on
the route itself, which shows the last name it was given.

## Main definitions

* `PathId`: A path by the number of its route and its own.
* `Event`: What the router reports while it works.
* `RouteTable`: The routes in force.
* `Router`, `Router.make`: A router.
* `Router.reset`: A router without routes.
* `Router.nameRoute`: A route registered under a name.

## Theorems

* `route?_modify_self`, `route?_modify_other`: Changing one route leaves the
  others alone.
-/

namespace PathRouting

/-- A path by the number of its route and its own number within that. -/
structure PathId where
  route : Nat
  position : Nat
  deriving DecidableEq, Repr

/-- What the router reports while it works. -/
inductive Event where
  /-- A path took the place of an identical one. -/
  | overrides (path route former : String)
  /-- A route was added with so many paths. -/
  | added (pattern : String) (count : Nat)
  deriving DecidableEq, Repr

/-- The wording of an event. -/
def Event.message : Event → String
  | .overrides path route former =>
    "Path " ++ path ++ " of " ++ route ++ " overrides the identical path of " ++ former
  | .added pattern count =>
    "Added route " ++ Text.quoted pattern ++ " with " ++ toString count ++ " concrete path(s)"

/-- The routes in force. -/
structure RouteTable where
  trie : Trie PathId
  index : KeyIndex PathId
  /-- The routes by number, in the order of registration. -/
  routes : List Nat
  /-- The routes that have been given a name, by number. -/
  names : List (Value × Nat)

/-- A table without routes. -/
def RouteTable.empty : RouteTable := ⟨.empty, .empty, [], []⟩

/-- A router: its options, the routes in force with their tree, index and
    names, and every route that was ever made. A route has a number for good,
    also when it is no longer in force. -/
structure Router where
  options : Options
  /-- Every route the router ever made, in force or not. -/
  catalog : List Route
  table : RouteTable

/-- The table with a name leading to a route. A name that is known already
    leads elsewhere from now on, and stays in its place. -/
def bindName (name : Value) (route : Nat) : List (Value × Nat) → List (Value × Nat)
  | [] => [(name, route)]
  | (n, r) :: rest =>
    if n.same name then (n, route) :: rest else (n, r) :: bindName name route rest

/-- The route that a name leads to. -/
def lookupName (name : Value) (names : List (Value × Nat)) : Option Nat :=
  (names.find? fun e => e.1.same name).map Prod.snd

/-- The event of a path that took the place of another, if both have a route. -/
def Event.ofReplaced? (routes : List Route) (new old : PathId) : Option Event := do
  let route ← routes[new.route]?
  let path ← route.paths[new.position]?
  let former ← routes[old.route]?
  return .overrides path.written route.written former.written

/-- The paths of a route with their numbers, as the tree takes them. -/
def Route.entries (r : Route) (route : Nat) : List (PathId × List Segment) :=
  r.paths.mapIdx fun position p => (⟨route, position⟩, p.segments)

namespace Router

/-- A router without routes. -/
def make (options : Options) : Router := ⟨options, [], .empty⟩

/-- The router with every route forgotten. The catalog keeps them, so that
    what holds the number of a route can still ask for it. -/
def reset (r : Router) : Router := { r with table := .empty }

/-- The route with a number. -/
def route? (r : Router) (route : Nat) : Option Route :=
  r.catalog[route]?

/-- The router with one of its routes changed. -/
def modifyRoute (r : Router) (route : Nat) (f : Route → Route) : Router :=
  { r with catalog := r.catalog.modify route f }

/-- The routes in force. -/
def routes (r : Router) : List Route :=
  r.table.routes.filterMap r.route?

/-- The number of routes in force. -/
def routeCount (r : Router) : Nat :=
  r.table.routes.length

/-- The router with a route registered under a name. Only what may be a key
    can be a name. -/
def nameRoute (r : Router) (name : Value) (route : Nat) : Router × Except Fault Unit :=
  if name.isKey then
    let named := { r with table := { r.table with names := bindName name route r.table.names } }
    (named.modifyRoute route fun x => { x with name := name }, .ok ())
  else (r, .error (.type .notAKey))

/-- The router with the destination of a route changed. -/
def redirectRoute (r : Router) (destination : Value) (route : Nat) : Router :=
  r.modifyRoute route fun x => { x with destination := destination }

/-- Changing one route changes it. -/
theorem route?_modify_self (r : Router) (route : Nat) (f : Route → Route) :
    (r.modifyRoute route f).route? route = (r.route? route).map f := by
  simp [modifyRoute, route?]

/-- Changing one route leaves the others alone. -/
theorem route?_modify_other (r : Router) {route other : Nat} (f : Route → Route)
    (h : route ≠ other) : (r.modifyRoute route f).route? other = r.route? other := by
  simp [modifyRoute, route?, h]

end Router

end PathRouting
