import PathRouting.Router.State

/-!
# Reports

What a router holds, for people to read. A report is made in two steps: the
router is described by plain records, and a record is laid out as text. The
router's text names its routes one under the other, and each route its concrete
paths as the branches of a little tree; the verbose form adds where destinations
are defined, the conditions, and which variables have defaults.

Destinations, names and conditions are shown in their written form, so that a
report fails where one of them cannot be written.

## Main definitions

* `PathReport`, `RouteReport`, `RouterReport`: The records.
* `describeDestination`: A destination by name, and where it was defined.
* `Router.report`: The record of a router.
* `PathReport.text`, `RouteReport.text`, `RouterReport.text`: The layout.
-/

namespace PathRouting

/-- A concrete path. -/
structure PathReport where
  path : String
  keys : List String
  defaulted : List String

/-- A route. -/
structure RouteReport where
  pattern : String
  name : Value
  destination : Option String
  /-- Where the destination was defined, if that is known. -/
  source : Option String
  conditions : Fields
  paths : List PathReport

/-- A router. -/
structure RouterReport where
  routes : List RouteReport
  delimiters : List String
  methods : List Value

/-- Where a destination was defined, and the name it is displayed by. A
    callable has both, any other value only its written form. -/
def describeDestination : Value → Except Fault (Option String × Option String)
  | .none => .ok (none, none)
  | .callable f => .ok (some f.source, some f.label)
  | v => do return (none, some (← v.written))

/-- The record of a path. -/
def Path.report (p : Path) : PathReport :=
  ⟨p.text, p.keys, p.defaulted.mergeSort⟩

/-- The record of a route. -/
def Route.report (r : Route) : Except Fault RouteReport := do
  let (source, destination) ← describeDestination r.destination
  return {
    pattern := r.pattern, name := r.name, destination, source, conditions := r.conditions
    paths := r.paths.map Path.report }

/-- The record of a route has its name as it is. -/
theorem Route.report_name {r : Route} {report : RouteReport} (h : r.report = .ok report) :
    report.name = r.name := by
  unfold Route.report at h
  cases hd : describeDestination r.destination with
  | error e =>
      rw [hd] at h
      cases h
  | ok described =>
      rw [hd] at h
      cases h
      rfl

/-- The record of a router. -/
def Router.report (r : Router) : Except Fault RouterReport := do
  return ⟨← r.routes.mapM Route.report, r.options.delimiters, r.options.methods⟩

/-- The text of a path. -/
def PathReport.text (verbose : Bool) (p : PathReport) : String :=
  if verbose && !p.defaulted.isEmpty then
    p.path ++ " (defaults: " ++ commaSeparated p.defaulted ++ ")"
  else p.path

/-- The lines as branches of a tree, the last one closing it. -/
def branches (tab : String) : List String → List String
  | [] => []
  | [line] => [tab ++ "└── " ++ line]
  | line :: rest => (tab ++ "├── " ++ line) :: branches tab rest

/-- Something that is only shown when it is there, between two texts. -/
def shownIf (before after : String) : Option String → String
  | some s => before ++ s ++ after
  | none => ""

/-- The conditions of a route, ascending by name. -/
def RouteReport.conditionLines (r : RouteReport) : Except Fault (List String) :=
  (r.conditions.mergeSort fun a b => a.1 ≤ b.1).mapM fun (kind, v) => do
    return kind ++ " = " ++ (← v.written)

/-- The text of a route, so many columns in. -/
def RouteReport.text (verbose : Bool) (indent : Nat) (r : RouteReport) :
    Except Fault String := do
  let tab := String.ofList (List.replicate indent ' ')
  let name ← if r.name.isNone then pure none else some <$> r.name.plain
  let source := if verbose then r.source.filter (!·.isEmpty) else none
  let head := tab ++ "⇒ " ++ r.pattern ++ shownIf " [" "]" name ++
    shownIf " - " "" r.destination ++ shownIf " (" ")" source
  let conditions ← if verbose then r.conditionLines else pure []
  let lines := conditions ++ r.paths.map (PathReport.text verbose)
  if lines.isEmpty then return head
  else return head ++ ":\n" ++ "\n".intercalate (branches (tab ++ "   ") lines)

/-- How far in a router's routes are shown. -/
def routeIndent : Nat := 4

/-- The text of a router. -/
def RouterReport.text (verbose : Bool) (r : RouterReport) : Except Fault String := do
  let head := "Router (delimiters: " ++ " ".intercalate r.delimiters ++ ")"
  if r.routes.isEmpty then return head
  let routes ← r.routes.mapM (RouteReport.text verbose routeIndent)
  return head ++ "\n• Routes:\n" ++ "\n".intercalate routes

end PathRouting
