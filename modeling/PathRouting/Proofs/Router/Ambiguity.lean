import PathRouting.Proofs.Router.Reachable
import PathRouting.Proofs.Trie.Refinement

/-!
# Ambiguous Registrations

A registration is called ambiguous exactly if one of the new paths is in
conflict with a path of a route in force, or with another of the new ones.
Nothing is missed for being tried out on two trees instead of one: a tree
admits what is in no conflict with the paths that it was filled with,
whichever shape it has, so the live tree answers for the old paths and the
staging tree for the new ones.

A path that passes can be inserted, since it is in conflict with nothing that
the live tree holds by then.

## Main definitions

* `Router.paths`: The paths of the routes in force.

## Theorems

* `Router.Coherent.stages_iff`: The rehearsal of a route is a matter of pairs
  of paths.
* `Router.ambiguous_iff_not_stages`, `Router.Coherent.not_stages_iff`: When a
  rehearsal fails, and that it does so for an ambiguity.
* `Router.Reachable.staged_ambiguous_iff`: When the rehearsal finds an
  ambiguity, and that nothing fails behind it.
-/

namespace PathRouting

/-- No path is in conflict with itself. -/
theorem Conflict.irrefl (segments : List Segment) : ¬Conflict segments segments := by
  induction segments with
  | nil => exact fun h => nomatch h
  | cons s rest ih =>
      intro h
      cases h with
      | here hclash => exact Place.ne_of_clashes hclash rfl
      | later _ hrest => exact ih hrest

/-- A path that fits can be filed if its conditions can. -/
theorem Path.fileable {delimiters : List String} {p : Path}
    (hfits : ∀ s ∈ p.parts, s.Fits delimiters)
    (hkeys : ∀ c ∈ p.conditions, c.kind.isKey = true ∧ c.value.isKey = true) :
    ∀ s ∈ p.segments, s.isFileable = true := by
  intro s hs
  rcases List.mem_append.1 hs with hcondition | hpart
  · rcases List.mem_map.1 hcondition with ⟨c, hc, rfl⟩
    rw [Segment.isFileable, (hkeys c hc).1, (hkeys c hc).2]
    rfl
  · cases s with
    | condition c => exact absurd (hfits _ hpart) id
    | literal text | separator mark | var v => rfl

theorem Route.map_snd_entries (route : Route) (n : Nat) :
    (route.entries n).map Prod.snd = route.paths.map Path.segments := by
  rw [entries_eq, entriesOf, List.map_map]
  calc (numbered n route.paths).map (Prod.snd ∘ fun e => (e.1, e.2.segments))
      = ((numbered n route.paths).map Prod.snd).map Path.segments := by
        rw [List.map_map]
        rfl
    _ = route.paths.map Path.segments := by rw [map_snd_numbered]

namespace Router

/-- The paths of the routes in force, in the order of registration. -/
def paths (r : Router) : List Path :=
  r.routes.flatMap Route.paths

theorem map_snd_entered (r : Router) : r.entered.map Prod.snd = r.paths := by
  rw [paths, routes, entered, List.map_flatMap]
  induction r.table.routes with
  | nil => rfl
  | cons n rest ih =>
      rw [List.flatMap_cons, ih, List.filterMap_cons, map_snd_numbered]
      cases r.route? n <;> rfl

/-- The paths that a reachable router has in force are those its tree was
    filled with, so the tree admits what is in no conflict with one of them. -/
theorem Coherent.check_eq_ok {r : Router} (h : Coherent r) {segments : List Segment}
    (hsegments : ∀ s ∈ segments, s.isFileable = true) :
    r.table.trie.check segments = .ok () ↔ ∀ q ∈ r.paths, ¬Conflict q.segments segments := by
  rw [h.built.check_eq_ok hsegments, ← map_snd_entered]
  simp only [List.forall_mem_map]

/-- The rehearsal of a route is a matter of pairs of paths: of a new one with
    one in force, and of two new ones. Each of them must be one that can be
    filed. So whether a route is accepted can be told without a tree. -/
theorem Coherent.stages_iff {r : Router} (h : Coherent r) {route : Route} :
    r.Stages route ↔
      (∀ p ∈ route.paths, ∀ s ∈ p.segments, s.isFileable = true) ∧
      (∀ p ∈ route.paths, ∀ q ∈ r.paths, ¬Conflict q.segments p.segments) ∧
      route.paths.Pairwise fun p q => ¬Conflict p.segments q.segments := by
  have hentries : ∀ {P : List Segment → Prop},
      (∀ e ∈ route.entries r.catalog.length, P e.2) ↔ ∀ p ∈ route.paths, P p.segments := by
    intro P
    rw [← List.forall_mem_map (f := Prod.snd) (P := P), route.map_snd_entries, List.forall_mem_map]
  have hpairs : (route.entries r.catalog.length).Pairwise (fun a b => ¬Conflict a.2 b.2) ↔
      route.paths.Pairwise fun p q => ¬Conflict p.segments q.segments := by
    rw [← List.pairwise_map (f := Prod.snd) (R := fun a b => ¬Conflict a b),
      route.map_snd_entries, List.pairwise_map]
  rw [Stages, Trie.stageAll_eq_ok, hpairs, hentries (P := fun segments =>
    (∀ s ∈ segments, s.isFileable = true) ∧ r.table.trie.check segments = .ok () ∧
      (Trie.empty : Trie PathId).check segments = .ok ())]
  constructor
  · intro hall
    rcases hall with ⟨hone, hpairs⟩
    exact ⟨fun p hp => (hone p hp).1,
      fun p hp => (h.check_eq_ok (hone p hp).1).1 (hone p hp).2.1, hpairs⟩
  · intro hall
    rcases hall with ⟨hfileable, hfree, hpairs⟩
    -- The staging tree is empty at first and admits everything.
    exact ⟨fun p hp => ⟨hfileable p hp, (h.check_eq_ok (hfileable p hp)).2 (hfree p hp),
      Trie.check_empty (hfileable p hp)⟩, hpairs⟩

/-- The paths of a route can be filed, if the values of its conditions can be keys. -/
theorem Coherent.fileable [Host] {r : Router} (h : Coherent r) {spec : RouteSpec} {route : Route}
    (hroute : spec.route? r.options = .ok route)
    (hkeys : ∀ p ∈ route.paths, ∀ c ∈ p.conditions, c.value.isKey = true) :
    ∀ p ∈ route.paths, ∀ s ∈ p.segments, s.isFileable = true := by
  rcases spec.paths_of_route? hroute with ⟨conditions, hconditions, hpaths⟩
  intro p hp
  refine p.fileable (hpaths p hp).2.fits fun c hc => ⟨?_, hkeys p hp c hc⟩
  rw [(hpaths p hp).1] at hc
  exact h.isKey_of_methods _ (conditionSegments_kind hconditions c hc)

/-- An ambiguity is all that the rehearsal can have against paths that can be filed. -/
theorem ambiguous_iff_not_stages {r : Router} {route : Route}
    (hfileable : ∀ p ∈ route.paths, ∀ s ∈ p.segments, s.isFileable = true) :
    (∃ added held, (Trie.stageAll r.table.trie (route.entries r.catalog.length) .empty).outcome =
      .error (.ambiguous added held)) ↔ ¬r.Stages route := by
  have hentries : ∀ e ∈ route.entries r.catalog.length, ∀ s ∈ e.2, s.isFileable = true := by
    intro e he
    have hmem := List.mem_map_of_mem (f := Prod.snd) he
    rw [route.map_snd_entries] at hmem
    rcases List.mem_map.1 hmem with ⟨p, hp, hsegments⟩
    rw [← hsegments]
    exact hfileable p hp
  constructor
  · intro hfound hstages
    rcases hfound with ⟨added, held, hfails⟩
    exact absurd (hfails.symm.trans hstages) (by simp)
  · intro hnot
    -- The rehearsal checks and inserts. Inserting does not fail where checking has passed, and a
    -- check fails for nothing else with segments that can be filed.
    cases houtcome :
        (Trie.stageAll r.table.trie (route.entries r.catalog.length) .empty).outcome with
    | ok _ => exact absurd houtcome hnot
    | error e =>
        rcases Trie.stageAll_eq_error hentries houtcome with ⟨added, held, rfl⟩
        exact ⟨added, held, rfl⟩

/-- A route whose paths can be filed does not pass the rehearsal exactly if
    one of them is in conflict with one in force, or with another of them. -/
theorem Coherent.not_stages_iff {r : Router} (h : Coherent r) {route : Route}
    (hfileable : ∀ p ∈ route.paths, ∀ s ∈ p.segments, s.isFileable = true) :
    ¬r.Stages route ↔ ∃ p ∈ route.paths, (∃ q ∈ r.paths, Conflict p.segments q.segments) ∨
      ∃ q ∈ route.paths, Conflict p.segments q.segments := by
  rw [h.stages_iff]
  constructor
  · intro hnot
    by_contra hfree
    refine hnot ⟨hfileable, fun p hp q hq hconflict => ?_, ?_⟩
    · exact hfree ⟨p, hp, Or.inl ⟨q, hq, hconflict.symm⟩⟩
    · refine List.Pairwise.imp_of_mem (fun hp hq _ hconflict => ?_)
        (List.pairwise_of_forall fun _ _ => trivial)
      exact hfree ⟨_, hp, Or.inr ⟨_, hq, hconflict⟩⟩
  · intro hfound hall
    rcases hall with ⟨_, hheld, hpairs⟩
    rcases hfound with ⟨p, hp, ⟨q, hq, hconflict⟩ | ⟨q, hq, hconflict⟩⟩
    · exact hheld p hp q hq hconflict.symm
    · -- The two are different paths, so one of them comes before the other.
      have hne : p ≠ q := by
        rintro rfl
        exact Conflict.irrefl _ hconflict
      have hsymm : Std.Symm fun p q : Path => ¬Conflict p.segments q.segments :=
        ⟨fun _ _ hfree hback => hfree hback.symm⟩
      exact hpairs.forall hp hq hne hconflict

/-- The rehearsal of a registration finds an ambiguity exactly if a new path
    is in conflict with one in force, or with another new one. If it finds
    none, the paths can be inserted one after the other. So no registration is
    given up when a part of its paths is already in the tree, and none that
    could be carried out is refused. -/
theorem Reachable.staged_ambiguous_iff [Host] {r : Router} (hr : Reachable r)
    {spec : RouteSpec} {route : Route} (hroute : spec.route? r.options = .ok route)
    (hkeys : ∀ p ∈ route.paths, ∀ c ∈ p.conditions, c.value.isKey = true) :
    let entries := route.entries r.catalog.length
    let staged := Trie.stageAll r.table.trie entries .empty
    ((∃ added held, staged.outcome = .error (.ambiguous added held)) ↔
      ∃ p ∈ route.paths, (∃ q ∈ r.paths, Conflict p.segments q.segments) ∨
        ∃ q ∈ route.paths, Conflict p.segments q.segments) ∧
    ((¬∃ added held, staged.outcome = .error (.ambiguous added held)) →
      staged.outcome = .ok () ∧ (Trie.insertAll entries r.table.trie).outcome = .ok ()) := by
  intro entries staged
  have hfileable := hr.coherent.fileable hroute hkeys
  have hambiguous := ambiguous_iff_not_stages (r := r) hfileable
  refine ⟨hambiguous.trans (hr.coherent.not_stages_iff hfileable), fun hnone => ?_⟩
  have hstages : r.Stages route := by
    by_contra hnot
    exact hnone (hambiguous.2 hnot)
  exact ⟨hstages, Trie.insertAll_ok_of_stageAll_ok _ (Trie.rehearsed_empty _) hstages⟩

/-- Two names in one place, and the second registration is called ambiguous for it. -/
theorem Reachable.staged_ambiguous_of_names :
    let _ : Host := .idle
    let spec := fun pattern => (⟨pattern, [], [], [], .none, .none, .none, []⟩ : RouteSpec)
    let r := ((Router.make ⟨defaultDelimiters, defaultMethods.map .text⟩).add
      (spec "/a/:x")).router
    ∃ route, (spec "/a/:y").route? r.options = .ok route ∧
      (Trie.stageAll r.table.trie (route.entries r.catalog.length) .empty).outcome =
        .error (.ambiguous ":y" ":x") ∧
      ∃ p ∈ route.paths, (∃ q ∈ r.paths, Conflict p.segments q.segments) ∨
        ∃ q ∈ route.paths, Conflict p.segments q.segments := by
  intro _ spec r
  have hmake : Options.make? .none .none =
      .ok ⟨defaultDelimiters, defaultMethods.map .text⟩ := by cbv
  have hr : r.Reachable := .step (.make hmake) (.add _ (spec "/a/:x"))
  let p : Path := ⟨defaultMethods.map fun m => ⟨.text m, .wildcard⟩, [.separator "/",
    .literal "a", .separator "/", .var ⟨"y", none, .none, some "/", none⟩]⟩
  let route : Route := ⟨"/a/:y", [p], [], [], [], .none, none, ["/", "."], .none, true, none⟩
  have hroute : (spec "/a/:y").route? r.options = .ok route := by
    unfold r spec route p
    cbv
  have hfails : (Trie.stageAll r.table.trie (route.entries r.catalog.length) .empty).outcome =
      .error (.ambiguous ":y" ":x") := by
    unfold r spec route p
    cbv
  have hkeys : ∀ q ∈ route.paths, ∀ c ∈ q.conditions, c.value.isKey = true := by
    intro q hq c hc
    rw [List.mem_singleton.1 hq] at hc
    rcases List.mem_map.1 hc with ⟨m, _, rfl⟩
    rfl
  exact ⟨route, hroute, hfails,
    (staged_ambiguous_iff hr hroute hkeys).1.1 ⟨_, _, hfails⟩⟩

end Router

end PathRouting
