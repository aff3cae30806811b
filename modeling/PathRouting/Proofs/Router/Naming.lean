import PathRouting.Proofs.Router.Reachable
import PathRouting.Proofs.Trie.Refinement

/-!
# Generation by Name and Without

A path can be chosen among all routes, or among those of a single route that
is asked for by name. The two choices are made in different indexes. That of
the router knows more names, so it can leave more of the given names over for
the path to use; it is filled while it is in use, and some of its answers are
out of date. That of a route is filled once, before it is asked.

Still, a path that the router chooses is the one that its route chooses. A
path is chosen only if it uses all of the names that are left, so these are
names of the path, and the index of the route leaves the same. Both indexes
take the first path that serves them, and the paths of a route stand in both
in the same order.

A name leads to the route that it was given last. So a route may carry a name
that leads to another one, and then the path is chosen there.

## Main definitions

* `Path.answers`: The path is one that a lookup of some names may give.
* `Router.remaining`: The names that a lookup in the index of the router asks
  for.

## Theorems

* `Route.find_of_learnt`: What the index of a route finds.
* `Router.Furnished.scan_of_generate`: What the router chooses is the first of
  all paths.
* `Router.exists_find?_of_scan`: It is the first of the paths of its route.
* `Router.remaining_eq_of_serves`: The index of the route asks for the same
  names.
* `Router.Furnished.generateFrom_of_scan`: So the route chooses it.
* `Router.generateFrom_of_generate`: The route chooses the path that the
  router chooses.
-/

namespace PathRouting

/-- The path has variables, and serves the names. -/
def Path.answers (p : Path) (names : Finset String) : Bool :=
  p.signature.isDynamic && decide (p.signature.Serves names)

/-- A scan of paths that are listed by number. -/
theorem scan_paths {β : Type} (f : PathId × Path → β) (paths : List (PathId × Path))
    (names : Finset String) :
    KeyIndex.scan (paths.map fun e => (e.2.signature, f e)) names =
      (paths.find? fun e => e.2.answers names).map f := by
  rw [KeyIndex.scan, List.find?_map, Option.map_map]
  rfl

namespace Route

/-- The index of a route was filled before all lookups, so what it finds is
    the first path of the route that serves the names left. In general a
    lookup may be out of date; it is not where nothing is registered any more. -/
theorem find_of_learnt {paths : List Path} {idx : KeyIndex Nat}
    (h : KeyIndex.Learnt (Route.indexFrom 0 .empty paths) idx) (names : List String) (n : Nat) :
    (idx.find names).2 = ((numbered n paths).find? fun e => e.2.answers
      (names.toFinset ∩ (paths.flatMap fun q => q.signature.keys).toFinset)).map
        fun e => e.1.position := by
  have hentries : (paths.mapIdx fun i p => (p.signature, 0 + i)) =
      (numbered n paths).map fun e => (e.2.signature, e.1.position) := by
    rw [map_numbered]
    simp only [Nat.zero_add]
  have hkeys : ((numbered n paths).map fun e => (e.2.signature, e.1.position)).flatMap
      (fun e => e.1.keys) = paths.flatMap fun q => q.signature.keys := by
    conv_rhs => rw [← map_snd_numbered n paths]
    rw [List.flatMap_map, List.flatMap_map]
  rw [indexFrom_eq, hentries] at h
  rcases KeyIndex.Learnt.exists_uses h with ⟨lookups, rfl, hnone⟩
  rw [KeyIndex.find_of_current (KeyIndex.current_filing_append hnone _), KeyIndex.search_ofUses,
    KeyIndex.asks_eq, KeyIndex.registrations_append, KeyIndex.registrations_filing, hnone,
    List.append_nil, hkeys, scan_paths]

/-- A route has an index unless it has a single path, or none. -/
theorem indexOf_cases (paths : List Path) :
    (Route.indexOf paths = none ∧ paths.length ≤ 1) ∨
      Route.indexOf paths = some (Route.indexFrom 0 .empty paths) := by
  rcases paths with _ | ⟨p, _ | ⟨q, rest⟩⟩
  · exact Or.inl ⟨rfl, Nat.zero_le 1⟩
  · exact Or.inl ⟨rfl, Nat.le_refl 1⟩
  · exact Or.inr rfl

end Route

namespace Router

variable {r : Router}

/-- The names that are left of those given: those of some path in force. An index
    compares sets of names, and these sets are without the names that no path has. -/
def remaining (r : Router) (names : List String) : Finset String :=
  names.toFinset ∩ (r.filed.flatMap fun e => e.1.keys).toFinset

/-- What the router chooses is the first path in force that serves the names left. -/
theorem Furnished.scan_of_generate (h : Furnished r) {names : Value} {id : PathId}
    (hgenerate : (r.generate names).2 = .ok (some id)) :
    ∃ vs, names.nameSet? = .ok vs ∧
      KeyIndex.scan r.filed (r.remaining (Value.texts vs)) = some id := by
  rcases h.index with ⟨uses, huses, hfiled⟩
  unfold generate at hgenerate
  split at hgenerate
  · cases hgenerate
  · next vs hvs =>
    have hfind : ((KeyIndex.ofUses uses).find (Value.texts vs)).2 = some id := by
      rw [← huses]
      exact Except.ok.inj hgenerate
    have hscan := KeyIndex.scan_of_find hfind
    rw [KeyIndex.asks_eq, hfiled] at hscan
    exact ⟨vs, hvs, hscan⟩

/-- A path that is the first of all is the first of its route. -/
theorem exists_find?_of_scan {names : Finset String} {id : PathId}
    (hscan : KeyIndex.scan r.filed names = some id) :
    ∃ x p, r.route? id.route = some x ∧ id.route ∈ r.table.routes ∧
      (numbered id.route x.paths).find? (fun e => e.2.answers names) = some (id, p) := by
  rw [filed, scan_paths, Option.map_eq_some_iff] at hscan
  rcases hscan with ⟨⟨_, p⟩, hfind, rfl⟩
  rcases mem_entered.1 (List.mem_of_find?_eq_some hfind) with ⟨hroute, x, hx, _⟩
  rw [entered, List.find?_flatMap] at hfind
  rcases List.exists_of_findSome?_eq_some hfind with ⟨n, _, hat⟩
  rcases mem_numbered.1 (List.mem_of_find?_eq_some hat) with ⟨rfl, _⟩
  rw [hx] at hat
  exact ⟨x, p, hx, hroute, hat⟩

/-- The index of a route leaves the same of the names as that of the router,
    if they are all names of one of its paths. The two disregard different
    names, those of no path of the route and those of no path at all. -/
theorem remaining_eq_of_serves {x : Route} {p : Path} {n : Nat} {names : List String}
    (hx : r.route? n = some x) (hn : n ∈ r.table.routes) (hp : p ∈ x.paths)
    (hserves : p.signature.Serves (r.remaining names)) :
    names.toFinset ∩ (x.paths.flatMap fun q => q.signature.keys).toFinset = r.remaining names := by
  have hfiled : ∀ q ∈ x.paths, ∃ e ∈ r.filed, e.1 = q.signature := by
    intro q hq
    rcases List.getElem?_of_mem hq with ⟨position, hposition⟩
    have hmem : (⟨n, position⟩, q) ∈ r.entered := mem_entered.2 ⟨hn, x, hx, hposition⟩
    exact ⟨_, List.mem_map_of_mem hmem, rfl⟩
  -- A name of the route is one of the router, and a name that is left is one of the path.
  ext y
  rw [Finset.mem_inter, List.mem_toFinset, List.mem_toFinset, List.mem_flatMap]
  constructor
  · intro hboth
    rcases hboth with ⟨hy, q, hq, hkey⟩
    rcases hfiled q hq with ⟨e, he, hsignature⟩
    rw [← hsignature] at hkey
    exact Finset.mem_inter.2 ⟨List.mem_toFinset.2 hy,
      List.mem_toFinset.2 (List.mem_flatMap.2 ⟨e, he, hkey⟩)⟩
  · intro hy
    have hkey := hserves.2.1 hy
    exact ⟨List.mem_toFinset.1 (Finset.mem_inter.1 hy).1, p, hp, List.mem_toFinset.1 hkey⟩

/-- The route of a path that is the first of all that serve the names left chooses it. -/
theorem Furnished.generateFrom_of_scan (h : Furnished r) {names : Value} {vs : List Value}
    (hvs : names.nameSet? = .ok vs) {id : PathId}
    (hscan : KeyIndex.scan r.filed (r.remaining (Value.texts vs)) = some id) :
    (r.generateFrom id.route names).2 = .ok (some id) := by
  rcases exists_find?_of_scan hscan with ⟨x, p, hx, hroute, hfirst⟩
  have hp := (mem_numbered.1 (List.mem_of_find?_eq_some hfirst)).2
  have hserves := List.find?_some hfirst
  rw [Path.answers, Bool.and_eq_true, decide_eq_true_iff] at hserves
  have hremaining := remaining_eq_of_serves hx hroute (List.mem_of_getElem? hp) hserves.2
  have hfound : (x.findPath names).2 = .ok (some id.position) := by
    have hindex := (h.route _ x hx).2
    rcases Route.indexOf_cases x.paths with ⟨hnone, hlength⟩ | hsome
    · -- A single path is chosen without further ado.
      rw [hnone] at hindex
      have hlt := (List.getElem?_eq_some_iff.1 hp).1
      have hposition : id.position = 0 := by omega
      cases hidx : x.index with
      | none => simp [Route.findPath, hidx, hposition]
      | some idx =>
          rw [hidx] at hindex
          cases hindex
    · rw [hsome] at hindex
      cases hidx : x.index with
      | none =>
          rw [hidx] at hindex
          cases hindex
      | some idx =>
          -- Both indexes ask for the same names, and the path is the first of its route.
          rw [hidx] at hindex
          cases hindex with
          | some hlearnt =>
              have hfind := Route.find_of_learnt hlearnt (Value.texts vs) id.route
              rw [hremaining, hfirst] at hfind
              simp [Route.findPath, hidx, hvs, hfind]
  unfold generateFrom
  rw [hx]
  simp only [hfound]
  rfl

/-- What the router chooses, it chooses again, and so does the route of the
    path, as long as nothing was registered. -/
theorem Furnished.generateFrom_of_alike (h : Furnished r) {r' : Router} (halike : Alike r r')
    {names : Value} {id : PathId} (hgenerate : (r.generate names).2 = .ok (some id)) :
    (r'.generateFrom id.route names).2 = .ok (some id) := by
  have hfiled : r'.filed = r.filed := congrArg (List.map _) halike.entered
  rcases h.scan_of_generate hgenerate with ⟨vs, hvs, hscan⟩
  refine (h.of_alike halike).generateFrom_of_scan hvs ?_
  rw [remaining, hfiled]
  exact hscan

/-- Without a name, a path is chosen among all routes. -/
theorem pathFor_none (r : Router) (params : Fields) {name : Value} (h : name.isNone = true) :
    r.pathFor params name = r.generate (.dict params) := by
  rw [pathFor, if_pos h]

/-- What the making of a URL leaves of the router, if it was not asked for by name. -/
theorem table_urlFor [Host] (r : Router) (params : Fields) :
    (r.urlFor params .none).1.table = (r.generate (.dict params)).1.table := by
  rw [urlFor, pathFor_none r params rfl]
  split
  · next heq => rw [heq]
  · next heq => rw [heq]
  · next heq =>
    rw [heq]
    split
    · rfl
    · rfl

/-- Asked again, the router chooses the same path. -/
theorem generate_again [Host] (r : Router) (params : Fields) :
    ((r.urlFor params .none).1.generate (.dict params)).2 = (r.generate (.dict params)).2 := by
  rw [generate, table_urlFor, generate]
  cases hvs : (Value.dict params).nameSet? with
  | error e => rfl
  | ok vs => exact congrArg Except.ok (KeyIndex.find_find _ _)

/-- A name that leads to a route is fit for a table. -/
theorem Furnished.isKey_of_lookupName (h : Furnished r) {name : Value} {route : Nat}
    (hname : lookupName name r.table.names = some route) : name.isKey = true := by
  rcases Option.map_eq_some_iff.1 hname with ⟨e, he, _⟩
  have hsame := List.find?_some he
  rw [← Value.isKey_congr (Value.same_iff_form_eq.1 hsame)]
  exact h.names e (List.mem_of_find?_eq_some he)

/-- The route of the path that a router chooses for some names chooses the
    same path for them. So a URL is made from the same path by name, as long
    as the name leads to the route of the path. A name that was given to a
    second route leads to that one, and the URL may be another. -/
theorem generateFrom_of_generate [Host] (h : Reachable r) :
    (∀ names id, (r.generate names).2 = .ok (some id) →
      ((r.generate names).1.generateFrom id.route names).2 = .ok (some id)) ∧
    ∀ params name id, (r.pathFor params .none).2 = .ok (some id) →
      lookupName name r.table.names = some id.route →
      ((r.urlFor params .none).1.pathFor params name).2 = .ok (some id) := by
  have hfurnished := h.furnished
  refine ⟨fun names id hgenerate => ?_, fun params name id hpath hname => ?_⟩
  · exact hfurnished.generateFrom_of_alike (alike_generate r names) hgenerate
  · rw [pathFor_none r params rfl] at hpath
    by_cases hnone : name.isNone = true
    · rw [pathFor_none _ params hnone, generate_again]
      exact hpath
    · have hkey := hfurnished.isKey_of_lookupName hname
      have hnames : (r.urlFor params .none).1.table.names = r.table.names := by
        rw [table_urlFor, generate]
        split <;> rfl
      rw [pathFor, if_neg hnone, hkey, hnames, hname]
      exact hfurnished.generateFrom_of_alike (alike_urlFor r params .none) hpath

/-- Two routes with several paths, both named. The page has a number: the
    second path of the first route is chosen, without a name and with it. -/
theorem generateFrom_of_generate_of_two :
    let _ : Host := .idle
    let options : Options := ⟨defaultDelimiters, defaultMethods.map .text⟩
    let spec := fun (pattern name : String) =>
      (⟨pattern, [], [], [], .none, .none, .text name, []⟩ : RouteSpec)
    let r := ((make options).add (spec "/list(/:page(/:size))" "list")).router
    let r' := (r.add (spec "/:user(/:page)" "user")).router
    let params := [("page", .int 2)]
    (r'.pathFor params .none).2 = .ok (some ⟨0, 1⟩) ∧
      ((r'.urlFor params .none).1.pathFor params (.text "list")).2 =
        .ok (some ⟨0, 1⟩) := by
  intro _ options spec r r' params
  have hmake : Options.make? .none .none = .ok options := by cbv
  have hreachable : r'.Reachable :=
    .step (.step (.make hmake) (.add _ _)) (.add _ _)
  have hpath : (r'.pathFor params .none).2 = .ok (some ⟨0, 1⟩) := by
    unfold r' r params spec options
    cbv
  have hname : lookupName (.text "list") r'.table.names = some 0 := by
    unfold r' r spec options
    cbv
  exact ⟨hpath, (generateFrom_of_generate hreachable).2 _ _ _ hpath hname⟩

/-- Two routes of one name: the name leads to the second one, and the path is
    chosen in the first one. -/
theorem pathFor_ne_of_name_given_twice :
    let _ : Host := .idle
    let options : Options := ⟨defaultDelimiters, defaultMethods.map .text⟩
    let spec := fun (pattern name : String) =>
      (⟨pattern, [], [], [], .none, .none, .text name, []⟩ : RouteSpec)
    let r := ((make options).add (spec "/a/:x" "n")).router
    let r' := (r.add (spec "/b/:x" "n")).router
    let params := [("x", .text "1")]
    r'.Reachable ∧ (r'.pathFor params .none).2 = .ok (some ⟨0, 0⟩) ∧
      (r'.route? 0).map Route.name = some (.text "n") ∧
      ((r'.urlFor params .none).1.pathFor params (.text "n")).2 =
        .ok (some ⟨1, 0⟩) := by
  intro _ options spec r r' params
  have hmake : Options.make? .none .none = .ok options := by cbv
  refine ⟨.step (.step (.make hmake) (.add _ _)) (.add _ _), ?_, ?_, ?_⟩
  · unfold r' r params spec options
    cbv
  · unfold r' r spec options
    cbv
  · unfold r' r params spec options
    cbv

end Router

end PathRouting
