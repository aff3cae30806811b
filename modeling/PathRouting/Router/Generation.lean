import PathRouting.Route.Render
import PathRouting.Router.State

/-!
# Generation

From parameters to a URL. The path is the one best suited to the names of the
parameters, among all routes or within a named one. Parameters that the path
does not use become the query string, and a route with an origin yields an
absolute URL.

Looking up a path may teach an index an answer, so these operations return the
router along with their result. So does rendering: a host that is a list takes
in the port, and keeps it.

## Main definitions

* `parameterTexts`, `queryItem`, `query`: A parameter, and several, as a query
  string.
* `Origin.authority?`: The host with the port behind it.
* `Origin.absolute`: A URL with scheme and authority in front.
* `Origin.used`: The origin after a URL.
* `Router.generate`: The path best suited to some names.
* `Router.pathFor`: The path best suited to some parameters.
* `Router.renderPath`, `Router.renderUrl`: A path with its query, and as a URL.
* `Router.urlFor`: The URL for some parameters.
-/

namespace PathRouting

/-- The texts of a parameter in a query string: one for each element of a
    container, and one for any other value. -/
def parameterTexts (v : Value) : Except Fault (List String) :=
  match v with
  | .text s => .ok [s]
  | v =>
    match v.elements? with
    | some elements => elements.mapM Value.plain
    | none => do return [← v.plain]

/-- A parameter as items of a query string. -/
def queryItem (name : String) (v : Value) : Except Fault (List String) := do
  return (← parameterTexts v).map fun s => Text.formEncode name ++ "=" ++ Text.formEncode s

/-- Some parameters as a query string. -/
def query (params : Fields) : Except Fault String := do
  let items ← params.mapM fun (name, v) => queryItem name v
  return "&".intercalate items.flatten

/-- The parameters that a path does not use, ascending by name. Absent ones
    count as not given. Those that are there but have no item, as empty lists,
    count as given. -/
def extraParams (p : Path) (params : Fields) : Fields :=
  (params.mergeSort fun a b => a.1 ≤ b.1).filter fun (name, v) =>
    !p.keys.contains name && !v.isNone

/-- A path with the parameters it does not use behind it. Parameters without
    any item still leave the question mark. -/
def withQuery (url : String) (extra : Fields) : Except Fault String :=
  if extra.isEmpty then .ok url else do return url ++ "?" ++ (← query extra)

/-- The host with the port behind it. A list takes the port character by
    character, and nothing else but a text can take one. -/
def Origin.authority? (o : Origin) : Except Fault Value :=
  if !o.port.truthy then .ok o.host
  else do
    let suffix := ":" ++ (← o.port.plain)
    match o.host with
    | .text host => .ok (.text (host ++ suffix))
    | .list items => .ok (.list (items ++ suffix.toList.map fun c => .text (String.singleton c)))
    | _ => .error (.type .notText)

/-- A URL with the scheme and the authority of an origin in front. Without a
    host it stays as it is. -/
def Origin.absolute (o : Origin) (url : String) : Except Fault String :=
  if !o.host.truthy then .ok url
  else do
    let authority ← o.authority?
    let scheme ← if o.scheme.truthy then o.scheme.plain else .ok "http"
    return scheme ++ "://" ++ (← authority.plain) ++ url

/-- The origin after a URL was to be made with it. A list as host has become
    the authority of that URL, even if that cannot be written. -/
def Origin.used (o : Origin) : Origin :=
  match o.host, o.authority? with
  | .list (_ :: _), .ok authority => { o with host := authority }
  | _, _ => o

namespace Router

/-- The path best suited to some names, and the router with its index up to date. -/
def generate (r : Router) (names : Value) : Router × Except Fault (Option PathId) :=
  match names.nameSet? with
  | .error e => (r, .error e)
  | .ok vs =>
    let (idx, found) := r.table.index.find (Value.texts vs)
    ({ r with table := { r.table with index := idx } }, .ok found)

/-- The path of a route best suited to some names. -/
def generateFrom (r : Router) (route : Nat) (names : Value) :
    Router × Except Fault (Option PathId) :=
  match r.route? route with
  | none => (r, .ok none)
  | some x =>
    let (x, found) := x.findPath names
    (r.modifyRoute route fun _ => x, found.map fun p => p.map (⟨route, ·⟩))

/-- The path best suited to some parameters: within the route of a name, or
    among all routes if the name is absent. Every name counts here, also that
    of a parameter which is absent. -/
def pathFor (r : Router) (params : Fields) (name : Value) :
    Router × Except Fault (Option PathId) :=
  if name.isNone then r.generate (.dict params)
  else if !name.isKey then (r, .error (.type .notAKey))
  else
    match lookupName name r.table.names with
    | none => (r, do throw (.generation (.unnamed (← name.written))))
    | some route => r.generateFrom route (.dict params)

/-- A path with the parameters it leaves over behind it. -/
def renderPath [Host] (r : Router) (params : Fields) (id : PathId) : Except Fault String :=
  match r.route? id.route with
  | none => .error (.generation (.unmatched params.names))
  | some route =>
    match route.paths[id.position]? with
    | none => .error (.generation (.unmatched params.names))
    | some p => do withQuery (← route.render p params) (extraParams p params)

/-- A URL of a route with its origin in front, if it has one. -/
def absoluteUrl (r : Router) (route : Nat) (url : String) : Except Fault String :=
  match (r.route? route).bind Route.origin with
  | none => .ok url
  | some o => o.absolute url

/-- A path as a URL. -/
def renderUrl [Host] (r : Router) (params : Fields) (id : PathId) : Except Fault String := do
  r.absoluteUrl id.route (← r.renderPath params id)

/-- The URL for some parameters, and the router with its indexes and the
    origin of the route up to date. -/
def urlFor [Host] (r : Router) (params : Fields) (name : Value) : Router × Except Fault String :=
  match r.pathFor params name with
  | (r, .error e) => (r, .error e)
  | (r, .ok none) => (r, .error (.generation (.unmatched params.names.mergeSort)))
  | (r, .ok (some id)) =>
    match r.renderPath params id with
    | .error e => (r, .error e)
    | .ok url =>
      (r.modifyRoute id.route fun x => { x with origin := x.origin.map Origin.used },
        r.absoluteUrl id.route url)

end Router

end PathRouting
