import Mathlib
import PathRouting.Proofs.Trie.Insertion
import PathRouting.Router.Registration

/-!
# Registration Is Atomic up to the Name

The paths of a new route are tried out before any of them is inserted. What
this rehearsal accepts, the live tree accepts: with every path, the live tree
comes to refuse exactly what it refused from the start and what the staging
tree refuses. So nothing can fail between the first path and the last.

The name is registered after that, and a name that cannot be a key is refused.
A registration that fails leaves the routes alone, unless the name was all
that was wrong with it.

## Main definitions

* `Rehearsed`: The tree refuses what two others refuse together.

## Theorems

* `insertAll_ok_of_stageAll_ok`: What the rehearsal accepts can be inserted.
* `add_eq_of_staged`: A registration that got past the rehearsal.
* `table_eq_iff_of_add_error`: When a registration that fails leaves no trace.
-/

namespace PathRouting

namespace Trie

variable {α : Type}

/-- The tree refuses what the live tree refuses and what the staging tree
    refuses, among the paths that can be filed. It is what the live tree will
    be once the rehearsed paths are in it. -/
def Rehearsed (live staging t : Trie α) : Prop :=
  ∀ segments : List Segment, (∀ s ∈ segments, s.isFileable = true) →
    (t.check segments = .ok () ↔
      live.check segments = .ok () ∧ staging.check segments = .ok ())

theorem rehearsed_empty (live : Trie α) : Rehearsed live .empty live :=
  fun _ hfileable => ⟨fun h => ⟨h, check_empty hfileable⟩, And.left⟩

/-- A path that both trees take in can be inserted, and leaves the tree as
    rehearsed. The rehearsal never looks at the tree after an insertion; what
    an insertion adds to it is told from the second tree. -/
theorem Rehearsed.insert {live staging t : Trie α} (h : Rehearsed live staging t) {path : α}
    {segments : List Segment} {old : Option α} (hlive : live.check segments = .ok ())
    (hstaging : (Trie.insert path segments staging).outcome = .ok old) :
    ∃ former, (Trie.insert path segments t).outcome = .ok former ∧
      Rehearsed live (Trie.insert path segments staging).trie
        (Trie.insert path segments t).trie := by
  rcases insert_eq_ok.1 ⟨old, hstaging⟩ with ⟨hfileable, hcheck⟩
  rcases insert_eq_ok.2 ⟨hfileable, (h segments hfileable).2 ⟨hlive, hcheck⟩⟩ with
    ⟨former, hformer⟩
  refine ⟨former, hformer, fun others hothers => ?_⟩
  rw [check_insert hformer hothers, check_insert hstaging hothers, h others hothers, and_assoc]

/-- What the rehearsal accepts can be inserted, path by path. -/
theorem insertAll_ok_of_stageAll_ok [DecidableEq α] {live : Trie α}
    (entries : List (α × List Segment)) {staging t : Trie α} (h : Rehearsed live staging t)
    (hstaged : (stageAll live entries staging).outcome = .ok ()) :
    (insertAll entries t).outcome = .ok () := by
  induction entries generalizing staging t with
  | nil => rfl
  | cons e rest ih =>
      -- A path is checked against the live tree first, and then put on the stage.
      rw [stageAll] at hstaged
      split at hstaged
      · cases hstaged
      · next hlive =>
        simp only at hstaged
        split at hstaged
        · cases hstaged
        · next old hold =>
          rcases h.insert hlive hold with ⟨former, hformer, hnext⟩
          rw [insertAll, hformer]
          exact ih hnext hstaged

end Trie

namespace Router

/-- The paths of a route were tried out on the live tree and on each other. -/
def Stages (r : Router) (route : Route) : Prop :=
  (Trie.stageAll r.table.trie (route.entries r.catalog.length) .empty).outcome = .ok ()

/-- A registration that fails before the rehearsal is over, or in it, leaves
    the router alone, whatever the name is. -/
theorem add_of_not_staged [Host] {r : Router} {spec : RouteSpec}
    (h : ∀ route, spec.route? r.options = .ok route → ¬r.Stages route) :
    ∃ e events, ∀ name, r.add { spec with name := name } = ⟨r, .error e, events⟩ := by
  cases hroute : spec.route? r.options with
  | error e => exact ⟨e, [], fun name => add_eq_of_route?_error hroute⟩
  | ok route =>
      have hstages := h route hroute
      unfold Stages at hstages
      cases houtcome :
        (Trie.stageAll r.table.trie (route.entries r.catalog.length) .empty).outcome with
      | ok _ => exact absurd houtcome hstages
      | error e =>
          refine ⟨e, (r.add spec).events, fun name => ?_⟩
          have hnamed : RouteSpec.route? { spec with name := name } r.options = .ok route := hroute
          simp only [add, hnamed, hroute, houtcome]

/-- A registration that got past the rehearsal puts the route in force, and
    succeeds exactly if the name may be a key. The name is looked at last,
    when the tree, the index and the list of routes have been changed. -/
theorem add_eq_of_staged [Host] {r : Router} {spec : RouteSpec} {route : Route}
    (hroute : spec.route? r.options = .ok route) (h : r.Stages route) :
    (r.add spec).router.table.routes = r.table.routes ++ [r.catalog.length] ∧
      (r.add spec).outcome =
        if spec.name.isKey then .ok r.catalog.length else .error (.type .notAKey) := by
  have hlive := Trie.insertAll_ok_of_stageAll_ok _ (Trie.rehearsed_empty r.table.trie) h
  unfold Stages at h
  by_cases hnone : spec.name.isNone = true
  · have hkey : spec.name.isKey = true := by
      rw [Value.isKey_congr (w := .none) (Value.form_eq_none.2 hnone)]
      rfl
    simp only [add, hroute, h, hlive, if_pos hnone, if_pos hkey]
    exact ⟨rfl, trivial⟩
  · by_cases hkey : spec.name.isKey = true
    · simp only [add, hroute, h, hlive, if_neg hnone, nameRoute, if_pos hkey]
      exact ⟨rfl, trivial⟩
    · simp only [add, hroute, h, hlive, if_neg hnone, nameRoute, if_neg hkey]
      exact ⟨rfl, trivial⟩

/-- When a registration that fails leaves no trace: the name may be a key, or
    the same registration without the name fails as well. The other failures,
    of a name that cannot be a key on a route that is otherwise in order, come
    too late: the route is in force by then, and stays so. -/
theorem table_eq_iff_of_add_error [Host] {r : Router} {spec : RouteSpec} {e : Fault}
    (h : (r.add spec).outcome = .error e) :
    (r.add spec).router.table = r.table ↔
      spec.name.isKey = true ∨
        ∃ e', (r.add { spec with name := .none }).outcome = .error e' := by
  -- Past the rehearsal only the name can be wrong, and before it the name plays no part.
  by_cases hstaged : ∃ route, spec.route? r.options = .ok route ∧ r.Stages route
  · rcases hstaged with ⟨route, hroute, hstages⟩
    rcases add_eq_of_staged hroute hstages with ⟨hroutes, houtcome⟩
    have hkey : spec.name.isKey ≠ true := by
      intro hkey
      rw [houtcome, if_pos hkey] at h
      cases h
    have hunnamed : RouteSpec.route? { spec with name := .none } r.options = .ok route := hroute
    have hunnamed_ok := (add_eq_of_staged hunnamed hstages).2
    constructor
    · intro htable
      rw [htable] at hroutes
      exact absurd hroutes (by simp)
    · intro hcause
      rcases hcause with hname | ⟨e', he'⟩
      · exact absurd hname hkey
      · rw [hunnamed_ok] at he'
        cases he'
  · rcases add_of_not_staged (fun route hroute hstages => hstaged ⟨route, hroute, hstages⟩) with
      ⟨e', events, hfails⟩
    have hadd : r.add spec = ⟨r, .error e', events⟩ := hfails spec.name
    refine iff_of_true (by rw [hadd]) (Or.inr ⟨e', ?_⟩)
    rw [hfails .none]

/-- A route that is named by a list stays in force although its registration fails. -/
theorem table_ne_of_list_name :
    let _ : Host := .idle
    let r := Router.make ⟨defaultDelimiters, defaultMethods.map .text⟩
    let spec : RouteSpec := ⟨"/a", [], [], [], .none, .none, .list [.text "x"], []⟩
    (r.add spec).outcome = .error (.type .notAKey) ∧ (r.add spec).router.table ≠ r.table := by
  intro _ r spec
  have hfails : (r.add spec).outcome = .error (.type .notAKey) := by cbv
  refine ⟨hfails, fun htable => ?_⟩
  rcases (table_eq_iff_of_add_error hfails).1 htable with hkey | ⟨e, he⟩
  · exact absurd hkey (by simp [spec, Value.isKey])
  · have hunnamed : (r.add { spec with name := .none }).outcome = .ok 0 := by cbv
    rw [hunnamed] at he
    cases he

end Router

end PathRouting
