import PathRouting.Proofs.Index.Memory
import PathRouting.Proofs.Router.Atomicity
import PathRouting.Proofs.Trie.Admission
import PathRouting.Router.Generation

/-!
# Reachable Routers

A router starts without routes and is changed by its operations only. Most of
them leave alone what matters for matching: the tree, the routes in force, and
the paths of every route. A registration either leaves the router alone or
puts the paths of one route behind those that are there, and a reset takes all
of them out.

So at every moment the tree is one that was filled by inserting the paths of
the routes in force, in the order of their registration. The index was filled
with the same paths in the same order, with lookups in between. The index of a
single route was filled when the route was made, before all lookups in it.

## Main definitions

* `numbered`, `Router.entered`: Paths by number, and those of the routes in
  force.
* `Route.Alike`, `Router.Alike`: What an operation leaves alone that registers
  nothing.
* `Router.Step`, `Router.Reachable`: The operations of a router, and the
  routers that they lead to.
* `Router.Coherent`: The tree of a router holds the paths of its routes in
  force.
* `Router.filed`, `Router.Furnished`: The indexes hold them as well.

## Theorems

* `RouteSpec.paths_of_route?`: The paths of a route are compiled and have one
  list of conditions.
* `Router.add_cases`, `Router.step_cases`: What a registration, and any
  operation, can do to a router.
* `Router.entered_commit`: The paths of a route come behind those that are
  there.
* `Router.Reachable.coherent`, `Router.Reachable.furnished`: Every reachable
  router is coherent and furnished.
* `Router.Reachable.exists_route`: Where the paths in force come from.
-/

namespace PathRouting

/-- The paths of a route by number. -/
def numbered (route : Nat) (paths : List Path) : List (PathId × Path) :=
  paths.mapIdx fun position p => (⟨route, position⟩, p)

theorem map_numbered {β : Type} (f : PathId × Path → β) (route : Nat) (paths : List Path) :
    (numbered route paths).map f = paths.mapIdx fun position p => f (⟨route, position⟩, p) := by
  refine List.ext_getElem? fun n => ?_
  simp [numbered, Function.comp_def]

theorem map_snd_numbered (route : Nat) (paths : List Path) :
    (numbered route paths).map Prod.snd = paths := by
  refine List.ext_getElem? fun n => ?_
  simp [numbered]

theorem mem_numbered {route : Nat} {paths : List Path} {id : PathId} {p : Path} :
    (id, p) ∈ numbered route paths ↔ id.route = route ∧ paths[id.position]? = some p := by
  rw [numbered, List.mem_mapIdx]
  constructor
  · intro hfound
    rcases hfound with ⟨position, hlt, hpair⟩
    cases hpair
    exact ⟨rfl, List.getElem?_eq_getElem hlt⟩
  · intro hfound
    rcases hfound with ⟨rfl, hp⟩
    rcases List.getElem?_eq_some_iff.1 hp with ⟨hlt, rfl⟩
    exact ⟨id.position, hlt, rfl⟩

/-- The tree takes the paths of a route by number. -/
theorem Route.entries_eq (r : Route) (route : Nat) :
    r.entries route = entriesOf (numbered route r.paths) := by
  refine List.ext_getElem? fun n => ?_
  simp [entries, entriesOf, numbered, Function.comp_def]

/-- The conditions of a route are on the attributes of the options, in order. -/
theorem conditionSegments_kind {kinds : List Value} {given : Fields}
    {conditions : List Condition} (h : conditionSegments kinds given = .ok conditions) :
    ∀ c ∈ conditions, c.kind ∈ kinds := by
  unfold conditionSegments at h
  simp only at h
  split at h
  · intro c hc
    rcases mem_of_mapM_ok h hc with ⟨kind, hkind, hvalue⟩
    rcases bind_eq_ok.1 hvalue with ⟨value, _, hcondition⟩
    cases hcondition
    exact hkind
  · split at h <;> cases h

/-- The paths of a route are compiled and have one list of conditions. -/
theorem RouteSpec.paths_of_route? [Host] {spec : RouteSpec} {options : Options} {route : Route}
    (h : spec.route? options = .ok route) :
    ∃ conditions, conditionSegments options.methods spec.conditions = .ok conditions ∧
      ∀ p ∈ route.paths, p.conditions = conditions ∧ p.Compiled options.delimiters := by
  rcases bind_eq_ok.1 h with ⟨compiled, hcompile, h⟩
  rcases bind_eq_ok.1 h with ⟨conditions, hconditions, h⟩
  rcases bind_eq_ok.1 h with ⟨origin, _, h⟩
  cases h
  refine ⟨conditions, hconditions, fun p hp => ?_⟩
  rcases List.mem_map.1 hp with ⟨parts, hparts, rfl⟩
  exact ⟨rfl, _, _, _, _, _, hcompile, hparts⟩

/-- A route that is made writes as the router reads, and has an index over its paths. -/
theorem RouteSpec.index_of_route? [Host] {spec : RouteSpec} {options : Options} {route : Route}
    (h : spec.route? options = .ok route) :
    route.delimiters = options.delimiters ∧ route.index = Route.indexOf route.paths := by
  rcases bind_eq_ok.1 h with ⟨compiled, _, h⟩
  rcases bind_eq_ok.1 h with ⟨conditions, _, h⟩
  rcases bind_eq_ok.1 h with ⟨origin, _, h⟩
  cases h
  exact ⟨rfl, rfl⟩

/-- The index of a route is filled path by path. -/
theorem indexFrom_eq (n : Nat) (idx : KeyIndex Nat) (paths : List Path) :
    Route.indexFrom n idx paths = (KeyIndex.filing (paths.mapIdx fun i p =>
      (p.signature, n + i))).foldl KeyIndex.step idx := by
  induction paths generalizing n idx with
  | nil => rfl
  | cons p rest ih =>
      rw [Route.indexFrom, ih, List.mapIdx_cons]
      simp only [Nat.add_right_comm n, Nat.add_assoc]
      rfl

theorem registerPaths_eq (route position : Nat) (idx : KeyIndex PathId) (paths : List Path) :
    registerPaths route position paths idx = (KeyIndex.filing (paths.mapIdx fun i p =>
      (p.signature, ⟨route, position + i⟩))).foldl KeyIndex.step idx := by
  induction paths generalizing position idx with
  | nil => rfl
  | cons p rest ih =>
      rw [registerPaths, ih, List.mapIdx_cons]
      simp only [Nat.add_right_comm position, Nat.add_assoc]
      rfl

section Related

variable {β : Type} {R : β → β → Prop}

theorem rel_refl (h : ∀ b, R b b) (x : Option β) : Option.Rel R x x := by
  cases x with
  | none => exact .none
  | some b => exact .some (h b)

theorem rel_trans (h : ∀ {b c d}, R b c → R c d → R b d) {x y z : Option β}
    (hxy : Option.Rel R x y) (hyz : Option.Rel R y z) : Option.Rel R x z := by
  cases hxy with
  | none => exact hyz
  | some hbc =>
      cases hyz with
      | some hcd => exact .some (h hbc hcd)

end Related

/-- The routes have the same paths, and write them alike. They may differ in
    name, destination and origin, and in what the index has learnt. -/
structure Route.Alike (x y : Route) : Prop where
  paths : y.paths = x.paths
  delimiters : y.delimiters = x.delimiters
  index : Option.Rel KeyIndex.Learnt x.index y.index

namespace Route.Alike

theorem refl (x : Route) : x.Alike x :=
  ⟨rfl, rfl, rel_refl .refl x.index⟩

theorem trans {x y z : Route} (h : x.Alike y) (h' : y.Alike z) : x.Alike z :=
  ⟨h'.paths.trans h.paths, h'.delimiters.trans h.delimiters, rel_trans .trans h.index h'.index⟩

end Route.Alike

namespace Router

/-- The paths of the routes in force by number, in the order of registration.
    The tree and the index hold numbers, and this is the list that tells what
    they stand for. -/
def entered (r : Router) : List (PathId × Path) :=
  r.table.routes.flatMap fun n => numbered n ((r.route? n).elim [] Route.paths)

/-- A path is in force under a number if it has its place in a route in force. -/
theorem mem_entered {r : Router} {id : PathId} {p : Path} :
    (id, p) ∈ r.entered ↔ id.route ∈ r.table.routes ∧
      ∃ route, r.route? id.route = some route ∧ route.paths[id.position]? = some p := by
  rw [entered, List.mem_flatMap]
  constructor
  · intro hfound
    rcases hfound with ⟨n, hn, hmem⟩
    rcases mem_numbered.1 hmem with ⟨rfl, hp⟩
    -- A number without a route stands for no paths.
    cases hroute : r.route? id.route with
    | none =>
        rw [hroute] at hp
        cases hp
    | some route =>
        rw [hroute] at hp
        exact ⟨hn, route, rfl, hp⟩
  · intro hfound
    rcases hfound with ⟨hn, route, hroute, hp⟩
    refine ⟨id.route, hn, mem_numbered.2 ⟨rfl, ?_⟩⟩
    rw [hroute]
    exact hp

/-- The routers match alike, and their routes are alike. They may differ in
    names and in what the index has learnt. -/
structure Alike (r r' : Router) : Prop where
  options : r'.options = r.options
  trie : r'.table.trie = r.table.trie
  routes : r'.table.routes = r.table.routes
  index : KeyIndex.Learnt r.table.index r'.table.index
  names : (∀ e ∈ r.table.names, e.1.isKey = true) → ∀ e ∈ r'.table.names, e.1.isKey = true
  route? : ∀ n, Option.Rel Route.Alike (r.route? n) (r'.route? n)

namespace Alike

theorem refl (r : Router) : Alike r r :=
  ⟨rfl, rfl, rfl, .refl _, id, fun n => rel_refl .refl (r.route? n)⟩

theorem trans {r r' r'' : Router} (h : Alike r r') (h' : Alike r' r'') : Alike r r'' :=
  ⟨h'.options.trans h.options, h'.trie.trans h.trie, h'.routes.trans h.routes,
    h.index.trans h'.index, fun hkeys => h'.names (h.names hkeys),
    fun n => rel_trans .trans (h.route? n) (h'.route? n)⟩

variable {r r' : Router}

theorem exists_route? (h : Alike r r') {n : Nat} {x : Route} (hx : r'.route? n = some x) :
    ∃ y, r.route? n = some y ∧ y.Alike x := by
  have hn := h.route? n
  rw [hx] at hn
  cases hy : r.route? n with
  | none =>
      rw [hy] at hn
      cases hn
  | some y =>
      rw [hy] at hn
      cases hn with
      | some halike => exact ⟨y, rfl, halike⟩

theorem length_catalog (h : Alike r r') : r'.catalog.length = r.catalog.length := by
  have hend : ∀ n, r'.catalog.length ≤ n ↔ r.catalog.length ≤ n := by
    intro n
    rw [← List.getElem?_eq_none_iff, ← List.getElem?_eq_none_iff]
    have hn := h.route? n
    rw [Router.route?, Router.route?] at hn
    generalize r.catalog[n]? = x at hn ⊢
    generalize r'.catalog[n]? = y at hn ⊢
    cases hn with
    | none => exact Iff.rfl
    | some _ => exact iff_of_false (Option.some_ne_none _) (Option.some_ne_none _)
  exact Nat.le_antisymm ((hend _).2 le_rfl) ((hend _).1 le_rfl)

theorem paths_route? (h : Alike r r') (n : Nat) :
    (r'.route? n).elim [] Route.paths = (r.route? n).elim [] Route.paths := by
  have hn := h.route? n
  generalize r.route? n = x at hn ⊢
  generalize r'.route? n = y at hn ⊢
  cases hn with
  | none => rfl
  | some halike => exact halike.paths

theorem entered (h : Alike r r') : r'.entered = r.entered := by
  rw [Router.entered, h.routes]
  exact congrArg (fun f => List.flatMap f r.table.routes)
    (funext fun n => congrArg (numbered n) (h.paths_route? n))

end Alike

/-- A change to one route that leaves it alike. -/
theorem alike_modifyRoute {r : Router} {route : Nat} {f : Route → Route}
    (h : ∀ x, r.route? route = some x → x.Alike (f x)) :
    Alike r (r.modifyRoute route f) := by
  refine ⟨rfl, rfl, rfl, .refl _, id, fun n => ?_⟩
  by_cases hn : route = n
  · rw [← hn, route?_modify_self]
    cases hroute : r.route? route with
    | none => exact .none
    | some x => exact .some (h x hroute)
  · rw [route?_modify_other r f hn]
    exact (Alike.refl r).route? n

/-- What is bound to a route is a name that was given, or one that was bound before. -/
theorem isKey_of_mem_bindName {name : Value} (hname : name.isKey = true) {route : Nat}
    {names : List (Value × Nat)} (h : ∀ e ∈ names, e.1.isKey = true) :
    ∀ e ∈ bindName name route names, e.1.isKey = true := by
  induction names with
  | nil => simpa [bindName] using hname
  | cons e rest ih =>
      rcases List.forall_mem_cons.1 h with ⟨hfirst, hrest⟩
      rw [bindName]
      split
      · exact List.forall_mem_cons.2 ⟨hfirst, hrest⟩
      · exact List.forall_mem_cons.2 ⟨hfirst, ih hrest⟩

theorem alike_nameRoute (r : Router) (name : Value) (route : Nat) :
    Alike r (r.nameRoute name route).1 := by
  unfold nameRoute
  split
  · next hkey =>
    have hbound : Alike r { r with table := { r.table with
        names := bindName name route r.table.names } } :=
      ⟨rfl, rfl, rfl, .refl _, isKey_of_mem_bindName hkey, (Alike.refl r).route?⟩
    exact hbound.trans (alike_modifyRoute fun _ _ => ⟨rfl, rfl, rel_refl .refl _⟩)
  · exact .refl r

theorem alike_redirectRoute (r : Router) (destination : Value) (route : Nat) :
    Alike r (r.redirectRoute destination route) :=
  alike_modifyRoute fun _ _ => ⟨rfl, rfl, rel_refl .refl _⟩

theorem alike_generate (r : Router) (names : Value) : Alike r (r.generate names).1 := by
  unfold generate
  split
  · exact .refl r
  · exact ⟨rfl, rfl, rfl, .find _ _, id, (Alike.refl r).route?⟩

/-- Choosing a path of a route teaches its index only. -/
theorem alike_findPath (x : Route) (names : Value) : x.Alike (x.findPath names).1 := by
  unfold Route.findPath
  split
  · exact .refl x
  · next idx hidx =>
    split
    · exact .refl x
    · next vs _ =>
      refine ⟨rfl, rfl, ?_⟩
      rw [hidx]
      exact .some (.find idx (Value.texts vs))

theorem alike_generateFrom (r : Router) (route : Nat) (names : Value) :
    Alike r (r.generateFrom route names).1 := by
  unfold generateFrom
  split
  · exact .refl r
  · next x hx =>
    refine alike_modifyRoute fun y hy => ?_
    cases hx.symm.trans hy
    exact alike_findPath x names

theorem alike_pathFor (r : Router) (params : Fields) (name : Value) :
    Alike r (r.pathFor params name).1 := by
  unfold pathFor
  split
  · exact alike_generate r _
  · split
    · exact .refl r
    · split
      · exact .refl r
      · exact alike_generateFrom r _ _

theorem alike_urlFor [Host] (r : Router) (params : Fields) (name : Value) :
    Alike r (r.urlFor params name).1 := by
  have hpath := alike_pathFor r params name
  unfold urlFor
  split
  · next heq =>
    rw [heq] at hpath
    exact hpath
  · next heq =>
    rw [heq] at hpath
    exact hpath
  · next heq =>
    rw [heq] at hpath
    split
    · exact hpath
    · exact hpath.trans (alike_modifyRoute fun _ _ => ⟨rfl, rfl, rel_refl .refl _⟩)

/-- A registration that fails before or in the rehearsal leaves the router alone;
    one that gets past it puts the route in force, whatever becomes of the name. -/
theorem add_cases [Host] (r : Router) (spec : RouteSpec) :
    ((r.add spec).router = r ∧ (∃ e, (r.add spec).outcome = .error e) ∧
        ∀ route, spec.route? r.options = .ok route → ¬r.Stages route) ∨
      ∃ route, spec.route? r.options = .ok route ∧ r.Stages route ∧
        Alike (r.commit route
          (Trie.insertAll (route.entries r.catalog.length) r.table.trie).trie)
          (r.add spec).router := by
  by_cases hstaged : ∃ route, spec.route? r.options = .ok route ∧ r.Stages route
  · rcases hstaged with ⟨route, hroute, hstages⟩
    refine Or.inr ⟨route, hroute, hstages, ?_⟩
    -- What the rehearsal lets through is inserted without a failure, so the failure of the
    -- insertion is a case that does not occur. A name that is given leaves the router alike.
    have hlive := Trie.insertAll_ok_of_stageAll_ok _ (Trie.rehearsed_empty r.table.trie) hstages
    have hok : (Trie.stageAll r.table.trie (route.entries r.catalog.length) .empty).outcome =
        .ok () := hstages
    by_cases hnone : spec.name.isNone = true
    · simp only [add, hroute, hok, hlive, if_pos hnone]
      exact .refl _
    · have hnamed := alike_nameRoute (r.commit route
        (Trie.insertAll (route.entries r.catalog.length) r.table.trie).trie) spec.name
        r.catalog.length
      simp only [add, hroute, hok, hlive, if_neg hnone]
      split
      · next heq => cases heq
      · exact hnamed
      · exact hnamed
  · have hnot : ∀ route, spec.route? r.options = .ok route → ¬r.Stages route :=
      fun route hroute hstages => hstaged ⟨route, hroute, hstages⟩
    rcases add_of_not_staged hnot with ⟨e, events, hfails⟩
    have hadd : r.add spec = ⟨r, .error e, events⟩ := hfails spec.name
    exact Or.inl ⟨by rw [hadd], ⟨e, by rw [hadd]⟩, hnot⟩

/-- The operations of a router. Recognition and rendering do not change it. A
    registration is a step whether it succeeds or fails, and a lookup is one
    because of what the indexes learn. -/
inductive Step [Host] : Router → Router → Prop
  | add (r : Router) (spec : RouteSpec) : Step r (r.add spec).router
  | name (r : Router) (name : Value) (route : Nat) : Step r (r.nameRoute name route).1
  | redirect (r : Router) (destination : Value) (route : Nat) :
      Step r (r.redirectRoute destination route)
  | reset (r : Router) : Step r r.reset
  | generate (r : Router) (names : Value) : Step r (r.generate names).1
  | generateFrom (r : Router) (route : Nat) (names : Value) :
      Step r (r.generateFrom route names).1
  | urlFor (r : Router) (params : Fields) (name : Value) : Step r (r.urlFor params name).1

/-- The routers that the operations lead to, from one that was set up with
    options. Invariants are proved of these by the steps, and everything that
    is said of "every moment" is said of them. -/
inductive Reachable [Host] : Router → Prop
  | make {delimiters methods : Value} {options : Options}
      (valid : Options.make? delimiters methods = .ok options) : Reachable (.make options)
  | step {r r' : Router} (reachable : Reachable r) (step : Step r r') : Reachable r'

/-- What an operation can do to a router. A registration that is refused
    changes nothing, and neither does a lookup, up to what the indexes have
    learnt. Every invariant is a short case analysis over these, and no other
    proof opens an operation. -/
theorem step_cases [Host] {r r' : Router} (h : Step r r') :
    r' = r.reset ∨ Alike r r' ∨
      ∃ spec route, RouteSpec.route? spec r.options = .ok route ∧ r.Stages route ∧
        Alike (r.commit route
          (Trie.insertAll (route.entries r.catalog.length) r.table.trie).trie) r' := by
  cases h with
  | add spec =>
      rcases add_cases r spec with ⟨hsame, _⟩ | ⟨route, hroute, hstages, halike⟩
      · rw [hsame]
        exact Or.inr (Or.inl (.refl r))
      · exact Or.inr (Or.inr ⟨spec, route, hroute, hstages, halike⟩)
  | reset => exact Or.inl rfl
  | name name route => exact Or.inr (Or.inl (alike_nameRoute r name route))
  | redirect destination route => exact Or.inr (Or.inl (alike_redirectRoute r destination route))
  | generate names => exact Or.inr (Or.inl (alike_generate r names))
  | generateFrom route names => exact Or.inr (Or.inl (alike_generateFrom r route names))
  | urlFor params name => exact Or.inr (Or.inl (alike_urlFor r params name))

/-- The tree of the router was filled with the paths of its routes in force,
    and the options are acceptable. That is all that recognition depends on,
    so a theorem on recognition needs nothing else of how a router came about. -/
structure Coherent (r : Router) : Prop where
  built : r.table.trie.Built r.options.delimiters r.entered
  known : ∀ n ∈ r.table.routes, n < r.catalog.length
  valid : ∃ delimiters methods, Options.make? delimiters methods = .ok r.options

theorem Coherent.of_alike {r r' : Router} (h : Coherent r) (halike : Alike r r') :
    Coherent r' := by
  refine ⟨?_, ?_, ?_⟩
  · rw [halike.trie, halike.options, halike.entered]
    exact h.built
  · intro n hn
    rw [halike.length_catalog]
    rw [halike.routes] at hn
    exact h.known n hn
  · rw [halike.options]
    exact h.valid

theorem coherent_make {delimiters methods : Value} {options : Options}
    (h : Options.make? delimiters methods = .ok options) : Coherent (make options) :=
  ⟨.empty, fun _ hn => absurd hn List.not_mem_nil, delimiters, methods, h⟩

/-- A route of a router in which a route was put in force is that route, or
    was there before. -/
theorem route?_commit_cases {r : Router} {route : Route} {trie : Trie PathId} {n : Nat} {x : Route}
    (hx : (r.commit route trie).route? n = some x) : r.route? n = some x ∨ x = route := by
  by_cases hn : n < r.catalog.length
  · refine Or.inl (Eq.trans ?_ hx)
    simp [route?, Router.commit, List.getElem?_append_left hn]
  · have hat : [route][n - r.catalog.length]? = some x := by
      rw [← hx]
      simp [route?, Router.commit, List.getElem?_append_right (Nat.le_of_not_lt hn)]
    exact Or.inr (List.mem_singleton.1 (List.mem_of_getElem? hat))

/-- The paths of a route that is put in force come behind those that are there. -/
theorem entered_commit {r : Router} (hknown : ∀ n ∈ r.table.routes, n < r.catalog.length)
    (route : Route) (trie : Trie PathId) :
    (r.commit route trie).entered = r.entered ++ numbered r.catalog.length route.paths := by
  have hnew : (r.commit route trie).route? r.catalog.length = some route := by
    simp [route?, commit]
  have hold : ∀ n ∈ r.table.routes, (r.commit route trie).route? n = r.route? n := by
    intro n hn
    simp [route?, commit, List.getElem?_append_left (hknown n hn)]
  rw [entered, commit, List.flatMap_append, List.flatMap_singleton]
  refine congrArg₂ (· ++ ·) (List.flatMap_congr fun n hn => ?_) ?_
  · exact congrArg (fun x => numbered n (x.elim [] Route.paths)) (hold n hn)
  · exact congrArg (fun x => numbered r.catalog.length (x.elim [] Route.paths)) hnew

/-- A route whose paths were tried out can be put in force. -/
theorem Coherent.commit [Host] {r : Router} (h : Coherent r) {spec : RouteSpec} {route : Route}
    (hroute : spec.route? r.options = .ok route) (hstages : r.Stages route) :
    Coherent (r.commit route
      (Trie.insertAll (route.entries r.catalog.length) r.table.trie).trie) := by
  have hlive := Trie.insertAll_ok_of_stageAll_ok _ (Trie.rehearsed_empty r.table.trie) hstages
  rcases spec.paths_of_route? hroute with ⟨_, _, hpaths⟩
  refine ⟨?_, ?_, h.valid⟩
  · rw [entered_commit h.known]
    rw [Route.entries_eq] at hlive ⊢
    refine h.built.insertAll (fun e he => ?_) hlive
    have hmem : e.2 ∈ (numbered r.catalog.length route.paths).map Prod.snd :=
      List.mem_map_of_mem he
    rw [map_snd_numbered] at hmem
    exact (hpaths _ hmem).2
  · intro n hn
    -- The new route has the number of the routes there were, which is below the number there are
    -- now.
    have hlength : ∀ trie, (r.commit route trie).catalog.length = r.catalog.length + 1 := by
      simp [Router.commit]
    rw [hlength]
    rcases List.mem_append.1 hn with hn | hn
    · exact Nat.lt_succ_of_lt (h.known n hn)
    · rw [List.mem_singleton.1 hn]
      exact Nat.lt_succ_self _

/-- Neither a registration that succeeds nor one that fails makes a router incoherent. -/
theorem Coherent.add [Host] {r : Router} (h : Coherent r) (spec : RouteSpec) :
    Coherent (r.add spec).router := by
  rcases add_cases r spec with ⟨hsame, _⟩ | ⟨route, hroute, hstages, halike⟩
  · rw [hsame]
    exact h
  · exact (h.commit hroute hstages).of_alike halike

/-- No operation makes a router incoherent. The tree is changed only by
    forgetting all routes and by putting one in force, and there the rehearsal
    has shown that every path goes in. -/
theorem Coherent.step [Host] {r r' : Router} (h : Coherent r) (hstep : Step r r') :
    Coherent r' := by
  rcases step_cases hstep with rfl | halike | ⟨spec, route, hroute, hstages, halike⟩
  · exact ⟨.empty, fun _ hn => absurd hn List.not_mem_nil, h.valid⟩
  · exact h.of_alike halike
  · exact (h.commit hroute hstages).of_alike halike

/-- Every reachable router is coherent. -/
theorem Reachable.coherent [Host] {r : Router} (h : Reachable r) : Coherent r := by
  induction h with
  | make valid => exact coherent_make valid
  | step _ hstep ih => exact ih.step hstep

/-- Every path in force is one of a route that was made for the options. -/
theorem Reachable.exists_route [Host] {r : Router} (h : Reachable r) :
    ∀ e ∈ r.entered, ∃ spec route, RouteSpec.route? spec r.options = .ok route ∧
      e.2 ∈ route.paths := by
  induction h with
  | make _ => exact fun _ he => absurd he List.not_mem_nil
  | step hreachable hstep ih =>
      rcases step_cases hstep with rfl | halike | ⟨spec, route, hroute, _, halike⟩
      · exact fun _ he => absurd he List.not_mem_nil
      · rw [halike.entered, halike.options]
        exact ih
      · rw [halike.entered, halike.options, entered_commit hreachable.coherent.known]
        intro e he
        rcases List.mem_append.1 he with he | he
        · exact ih e he
        · exact ⟨spec, route, hroute, List.mem_of_getElem? (mem_numbered.1 he).2⟩

/-- The paths of the routes in force as they are filed in the index. -/
def filed (r : Router) : KeyIndex.Entries PathId :=
  r.entered.map fun e => (e.2.signature, e.1)

/-- The index of the router was filled with the paths of its routes in force,
    that of a route with its own, before any lookup. Routes write as the
    router reads, and their names are fit for a table. It is to the generation
    of URLs what coherence is to recognition. -/
structure Furnished (r : Router) : Prop where
  index : ∃ uses, r.table.index = .ofUses uses ∧ KeyIndex.registrations uses = r.filed
  route : ∀ n x, r.route? n = some x → x.delimiters = r.options.delimiters ∧
    Option.Rel KeyIndex.Learnt (Route.indexOf x.paths) x.index
  names : ∀ e ∈ r.table.names, e.1.isKey = true

theorem Furnished.of_alike {r r' : Router} (h : Furnished r) (halike : Alike r r') :
    Furnished r' := by
  -- Lookups are added to what was done with an index, and register nothing.
  refine ⟨?_, fun n x hx => ?_, halike.names h.names⟩
  · rcases h.index with ⟨uses, huses, hfiled⟩
    have hlearnt := halike.index
    rw [huses] at hlearnt
    rcases hlearnt.exists_uses with ⟨lookups, hidx, hnone⟩
    refine ⟨_, hidx, ?_⟩
    rw [KeyIndex.registrations_append, hnone, List.append_nil, hfiled, filed, filed,
      halike.entered]
  · rcases halike.exists_route? hx with ⟨y, hy, hyx⟩
    rcases h.route n y hy with ⟨hdelimiters, hindex⟩
    rw [hyx.delimiters, hyx.paths, halike.options]
    exact ⟨hdelimiters, rel_trans .trans hindex hyx.index⟩

/-- A route that is put in force comes with its index, and is filed in that of
    the router. -/
theorem Furnished.commit [Host] {r : Router} (h : Furnished r) (hcoherent : Coherent r)
    {spec : RouteSpec} {route : Route} (hroute : spec.route? r.options = .ok route)
    (trie : Trie PathId) : Furnished (r.commit route trie) := by
  refine ⟨?_, fun n x hx => ?_, h.names⟩
  · rcases h.index with ⟨uses, huses, hfiled⟩
    refine ⟨uses ++ KeyIndex.filing (route.paths.mapIdx fun i p =>
      (p.signature, ⟨r.catalog.length, 0 + i⟩)), ?_, ?_⟩
    · rw [KeyIndex.ofUses_append, ← huses, ← registerPaths_eq]
      rfl
    · rw [KeyIndex.registrations_append, KeyIndex.registrations_filing, hfiled, filed, filed,
        entered_commit hcoherent.known, List.map_append, map_numbered]
      simp only [Nat.zero_add]
  · rcases route?_commit_cases hx with hold | rfl
    · exact h.route n x hold
    · rcases spec.index_of_route? hroute with ⟨hdelimiters, hindex⟩
      rw [hindex]
      exact ⟨hdelimiters, rel_refl .refl _⟩

/-- No operation leaves a router without its indexes. -/
theorem Furnished.step [Host] {r r' : Router} (h : Furnished r) (hcoherent : Coherent r)
    (hstep : Step r r') : Furnished r' := by
  rcases step_cases hstep with rfl | halike | ⟨spec, route, hroute, _, halike⟩
  · exact ⟨⟨[], rfl, rfl⟩, h.route, fun _ he => absurd he List.not_mem_nil⟩
  · exact h.of_alike halike
  · exact (h.commit hcoherent hroute _).of_alike halike

/-- Every reachable router is furnished. -/
theorem Reachable.furnished [Host] {r : Router} (h : Reachable r) : Furnished r := by
  induction h with
  | make _ =>
      refine ⟨⟨[], rfl, rfl⟩, fun n x hx => ?_, fun _ he => absurd he List.not_mem_nil⟩
      cases hx
  | step hreachable hstep ih => exact ih.step hreachable.coherent hstep

/-- The attributes that conditions are on can be told apart in a table. -/
theorem Coherent.isKey_of_methods {r : Router} (h : Coherent r) :
    ∀ kind ∈ r.options.methods, kind.isKey = true := by
  have hkeys : ∀ {vs : List Value}, areKeys vs = true → ∀ v ∈ vs, v.isKey = true := by
    intro vs
    induction vs with
    | nil => exact fun _ _ hv => absurd hv List.not_mem_nil
    | cons v rest ih =>
        intro hall
        rw [areKeys, Bool.and_eq_true] at hall
        exact List.forall_mem_cons.2 ⟨hall.1, ih hall.2⟩
  -- The options were checked when they were made, step by step: what is left of the last step is
  -- that all attributes may be keys.
  rcases h.valid with ⟨delimiters, methods, hvalid⟩
  rcases bind_eq_ok.1 hvalid with ⟨given, _, hvalid⟩
  rcases bind_eq_ok.1 hvalid with ⟨ds, _, hvalid⟩
  rcases bind_eq_ok.1 hvalid with ⟨elements, _, hvalid⟩
  rcases bind_eq_ok.1 hvalid with ⟨ms, hmethods, hoptions⟩
  unfold methods? at hmethods
  split at hmethods
  · cases hmethods
  · next hall =>
    split at hmethods
    · cases hmethods
      rw [← Except.ok.inj hoptions]
      exact hkeys (by simpa using hall)
    · cases hmethods

end Router

end PathRouting
