import PathRouting.Proofs.Router.NameTable
import PathRouting.Proofs.Router.Order

/-!
# The Registrations Behind a Router

Which routes are in force, told from the outside: by what a router was asked
to do, and not by what is in its tables. They are those of the registrations
since the routes were last forgotten, in the same order and one for one.
Nothing else that is done with a router adds a route, takes one out or changes
the paths of one.

A registration counts if it was not refused, with one exception that is easily
overlooked. If only the name is refused, the route is in force all the same,
and nobody was given its number. So the registrations are recorded by the
routes in force before and after, and `Router.recorded_add_iff` says which of
them that is.

## Main definitions

* `Router.Operation.recorded`, `Router.history`: The registrations in force
  after an operation, and after a run.
* `Router.MadeBy`, `Router.Follows`: A route is the one that a registration
  asks for; all routes in force are those of some registrations.

## Theorems

* `Router.recorded_add_iff`: Which registrations are recorded.
* `Router.Follows.alike`, `Router.Follows.commit`: What is preserved where
  nothing is registered, and where a route is put in force.
* `Router.Follows.after`: What an operation preserves.
* `Router.follows_run`: The routes in force are those of the registrations,
  after every run.
* `Router.paths_run`: So are the paths.
-/

namespace PathRouting

namespace Router

/-- The registrations in force after an operation, given those before it. It
    is read off from whether the rehearsal passes, since a registration may
    fail afterwards and its route stay in force. -/
def Operation.recorded [Host] (r : Router) (specs : List RouteSpec) : Operation → List RouteSpec
  | .add spec =>
    if (r.add spec).router.table.routes = r.table.routes then specs else specs ++ [spec]
  | .reset => []
  | _ => specs

/-- The registrations in force after some more operations. -/
def historyFrom [Host] (l : Logged) (specs : List RouteSpec) : List Operation → List RouteSpec
  | [] => specs
  | op :: ops => historyFrom (l.after op) (op.recorded l.router specs) ops

/-- The registrations in force after a run, in order. -/
def history [Host] (options : Options) (ops : List Operation) : List RouteSpec :=
  historyFrom ⟨make options, []⟩ [] ops

/-- The route of a number is the one that the registration asks for. It may
    have been named and redirected since, and its index may have learnt. -/
def MadeBy [Host] (r : Router) (n : Nat) (spec : RouteSpec) : Prop :=
  ∃ route x, spec.route? r.options = .ok route ∧ r.route? n = some x ∧ route.Alike x

/-- The routes in force are those of the registrations, in order and one for
    one. Of a route only that is said which naming, redirecting and lookups
    leave as it is. -/
def Follows [Host] (r : Router) (specs : List RouteSpec) : Prop :=
  List.Forall₂ r.MadeBy r.table.routes specs

variable {r r' : Router} {spec : RouteSpec} {specs : List RouteSpec}

/-- A registration is recorded if its route can be made and the paths pass the
    rehearsal, whatever becomes of the name. So a failed registration may be
    recorded as well: a name that cannot be a key is found out too late to
    keep the route away. -/
theorem recorded_add_iff [Host] :
    (Operation.add spec).recorded r specs = specs ++ [spec] ↔
      ∃ route, spec.route? r.options = .ok route ∧ r.Stages route := by
  rw [Operation.recorded]
  by_cases hstaged : ∃ route, spec.route? r.options = .ok route ∧ r.Stages route
  · rcases hstaged with ⟨route, hroute, hstages⟩
    have hroutes := (add_eq_of_staged hroute hstages).1
    have hmore : (r.add spec).router.table.routes ≠ r.table.routes := by simp [hroutes]
    exact iff_of_true (if_neg hmore) ⟨route, hroute, hstages⟩
  · rcases add_cases r spec with ⟨hsame, _⟩ | ⟨route, hroute, hstages, _⟩
    · rw [hsame, if_pos rfl]
      exact iff_of_false (by simp) hstaged
    · exact absurd ⟨route, hroute, hstages⟩ hstaged

/-- What registers nothing leaves the routes with their registrations. -/
theorem Follows.alike [Host] (h : r.Follows specs) (halike : Alike r r') : r'.Follows specs := by
  rw [Follows, halike.routes]
  refine h.imp fun n spec hmade => ?_
  rcases hmade with ⟨route, x, hroute, hx, hrouteAlike⟩
  have hn := halike.route? n
  rw [hx] at hn
  cases hy : r'.route? n with
  | none =>
      rw [hy] at hn
      cases hn
  | some y =>
      rw [hy] at hn
      cases hn with
      | some hxy =>
          rw [← halike.options] at hroute
          exact ⟨route, y, hroute, hy, hrouteAlike.trans hxy⟩

/-- A route that is put in force comes last, with its registration. -/
theorem Follows.commit [Host] (h : r.Follows specs) {route : Route}
    (hroute : spec.route? r.options = .ok route) (trie : Trie PathId) :
    (r.commit route trie).Follows (specs ++ [spec]) := by
  have hnew : (r.commit route trie).route? r.catalog.length = some route :=
    List.getElem?_concat_length
  have hold : List.Forall₂ (r.commit route trie).MadeBy r.table.routes specs := by
    refine h.imp fun n other hmade => ?_
    rcases hmade with ⟨made, x, hmade, hx, halike⟩
    -- The new route has a number behind all that there are.
    rcases List.getElem?_eq_some_iff.1 hx with ⟨hlt, _⟩
    exact ⟨made, x, hmade, (List.getElem?_append_left hlt).trans hx, halike⟩
  exact List.rel_append hold (.cons ⟨route, route, hroute, hnew, .refl route⟩ .nil)

/-- No operation parts the routes in force from the registrations. -/
theorem Follows.after [Host] {l : Logged} (h : l.router.Follows specs) (op : Operation) :
    (l.after op).router.Follows (op.recorded l.router specs) := by
  cases op with
  | add spec =>
      rcases add_cases l.router spec with ⟨hsame, _⟩ | ⟨route, hroute, hstages, halike⟩
      · have hunchanged : (Operation.add spec).recorded l.router specs = specs := by
          rw [Operation.recorded, hsame, if_pos rfl]
        rw [hunchanged, Logged.after, hsame]
        exact h
      · rw [recorded_add_iff.2 ⟨route, hroute, hstages⟩]
        exact (h.commit hroute _).alike halike
  | reset => exact .nil
  -- The rest register nothing, though indexes may learn and routes may be renamed.
  | name name route => exact h.alike (alike_nameRoute _ name route)
  | redirect destination route => exact h.alike (alike_redirectRoute _ destination route)
  | generate names => exact h.alike (alike_generate _ names)
  | generateFrom route names => exact h.alike (alike_generateFrom _ route names)
  | urlFor params name => exact h.alike (alike_urlFor _ params name)

theorem follows_historyFrom [Host] {l : Logged} (h : l.router.Follows specs)
    (ops : List Operation) :
    (ops.foldl Logged.after l).router.Follows (historyFrom l specs ops) := by
  induction ops generalizing l specs with
  | nil => exact h
  | cons op rest ih => exact ih (h.after op)

/-- After every run, the routes in force are those of the registrations since
    they were last forgotten, in order and one for one. The induction is on
    the operations, with the history read off from the operations alone and
    not from the routers in between. -/
theorem follows_run [Host] (options : Options) (ops : List Operation) :
    (run options ops).router.Follows (history options ops) :=
  follows_historyFrom (l := ⟨make options, []⟩) .nil ops

/-- The paths in force are those that the registrations ask for. -/
theorem Follows.paths_eq [Host] (h : r.Follows specs) :
    r.paths = specs.flatMap (RouteSpec.paths r.options) := by
  rw [paths, routes]
  rw [Follows] at h
  generalize r.table.routes = numbers at h ⊢
  induction h with
  | nil => rfl
  | cons hmade _ ih =>
      rcases hmade with ⟨route, x, hroute, hx, halike⟩
      rw [List.filterMap_cons_some hx, List.flatMap_cons, List.flatMap_cons, ih, halike.paths,
        RouteSpec.paths_eq hroute]

/-- No operation changes the options. -/
theorem options_run [Host] (options : Options) (ops : List Operation) :
    (run options ops).router.options = options := by
  induction ops using List.reverseRecOn with
  | nil => rfl
  | append_singleton ops op ih =>
      rw [run_append]
      rcases step_cases (Logged.step_after _ op) with hreset | halike | ⟨_, _, _, _, halike⟩
      · rw [hreset]
        exact ih
      · exact halike.options.trans ih
      · exact halike.options.trans ih

/-- After every run, the paths in force are those of the registrations since
    they were last forgotten, route by route and in order; and there are as
    many routes as registrations. -/
theorem paths_run [Host] (options : Options) (ops : List Operation) :
    (run options ops).router.paths = (history options ops).flatMap (RouteSpec.paths options) ∧
      (run options ops).router.routeCount = (history options ops).length := by
  have hfollows := follows_run options ops
  refine ⟨?_, hfollows.length_eq⟩
  rw [hfollows.paths_eq, options_run]

end Router

end PathRouting
