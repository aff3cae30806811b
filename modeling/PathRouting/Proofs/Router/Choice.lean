import PathRouting.Proofs.Pattern.Spacing
import PathRouting.Proofs.Router.Naming

/-!
# When a Route Has a Path to Offer

A route is asked for a path by some names, and uses only those that one of its
paths has. A path can be generated from these if it has them all, and needs no
others.

That there is such a path does not mean that the route finds it. Its index
files a path under all of its names, and under those it needs together with
some that have a default; it does not file it under those it needs alone. So a
path with defaults can be found only by one of the names that have them, and
is missed when a caller leaves all of these to their defaults. A path without
defaults is not missed, a path without variables is what the route falls back
on, and a route with a single path has no index and offers that path in any
case.

## Main definitions

* `Route.FromPattern`: A route that was made from a pattern, and has been in
  use since.
* `Route.used`: The names that a route uses.
* `Route.Finds`, `Route.Offers`: A route finds a path that can be generated,
  and has one to offer.

## Theorems

* `Signature.serves_iff_of_defaulted`: When a lookup may give a path.
* `Route.findPath_of_single`, `Route.findPath_of_several`: What a route offers.
* `Route.finds_iff`: When a route finds a path that can be generated.
* `Router.Reachable.fromPattern`: The routes of a router were made from
  patterns.
* `Router.renderPath_pathFor`, `Router.urlFor_eq`: A URL is made from the path
  that is chosen, and choosing it makes no difference to the URL.
* `Router.usable_path_found`: So a URL is made by name.
* `Router.usable_path_missed`: It need not be made from a path that has
  defaults.
-/

namespace PathRouting

theorem Signature.mem_required_iff {s : Signature} (h : s.keys.Nodup) {name : String} :
    name ∈ s.required ↔ name ∈ s.keys ∧ name ∉ s.defaulted := by
  rw [← undefaulted_eq_required h, undefaulted, List.mem_filter]
  simp

theorem Signature.defaulted_subset (s : Signature) : s.defaulted ⊆ s.keys :=
  (List.Sublist.map _ List.filter_sublist).subset

/-- A lookup may give a path that can be generated from the names, if it has
    no defaults or one of the names has. -/
theorem Signature.serves_iff_of_defaulted {s : Signature} (h : s.keys.Nodup)
    {names : List String} :
    s.Serves names.toFinset ↔
      s.admits names = true ∧ (s.defaulted = [] ∨ ∃ n ∈ s.defaulted, n ∈ names) := by
  rw [serves_iff_of_nodup h, ← and_assoc, ← admits_iff_subset]
  refine and_congr_right fun hall => ?_
  rw [admits_iff] at hall
  constructor
  · rintro (hother | hneeded)
    · -- A name that is not needed is one with a default.
      have hexists : ∃ n ∈ names, n ∉ s.required := by
        by_contra hnone
        push Not at hnone
        refine hother (Finset.ext fun n => ?_)
        rw [List.mem_toFinset, List.mem_toFinset]
        exact ⟨hnone n, hall.1 n⟩
      rcases hexists with ⟨n, hn, hfree⟩
      rw [mem_required_iff h, not_and_not_right] at hfree
      exact Or.inr ⟨n, hfree (hall.2 n hn), hn⟩
    · refine Or.inl (List.eq_nil_iff_forall_not_mem.2 fun n hn => ?_)
      have hkey : n ∈ s.keys.toFinset := List.mem_toFinset.2 (s.defaulted_subset hn)
      rw [hneeded, List.mem_toFinset, mem_required_iff h] at hkey
      exact hkey.2 hn
  · rintro (hnone | ⟨n, hn, hname⟩)
    · refine Or.inr (Finset.ext fun n => ?_)
      rw [List.mem_toFinset, List.mem_toFinset, mem_required_iff h, hnone]
      simp
    · refine Or.inl fun heq => ?_
      have hneeded : n ∈ s.required := List.mem_toFinset.1 (heq ▸ List.mem_toFinset.2 hname)
      exact ((mem_required_iff h).1 hneeded).2 hn

theorem Value.texts_map_text (names : List String) : texts (names.map .text) = names := by
  rw [texts, List.filterMap_map]
  exact List.filterMap_some

namespace Path

theorem keys_signature (p : Path) : p.signature.keys = p.keys := by
  simp [signature, Signature.keys, keys, Function.comp_def]

theorem defaulted_signature (p : Path) : p.signature.defaulted = p.defaulted := by
  simp [signature, Signature.defaulted, defaulted, List.filter_map, Function.comp_def]

/-- The variables of a compiled path have names of their own. -/
theorem Compiled.nodup_keys {delimiters : List String} {p : Path} (h : p.Compiled delimiters) :
    p.keys.Nodup := by
  have hnames := h.nodup_variableNames
  rwa [Pattern.variableNames, ← List.map_filterMap] at hnames

theorem admits_texts (p : Path) (names : List String) :
    p.admits (names.map .text) = p.signature.admits names := by
  rw [admits, Value.texts_map_text]
  simp

/-- A path with variables answers to names that it can be generated from, if
    it has no defaults or one of the names has. -/
theorem answers_iff {p : Path} (h : p.keys.Nodup) {names : List String} :
    p.answers names.toFinset = true ↔ p.isDynamic = true ∧ p.admits (names.map .text) = true ∧
      (p.defaulted = [] ∨ ∃ n ∈ p.defaulted, n ∈ names) := by
  have hdynamic : p.signature.isDynamic = p.isDynamic := by
    simp [signature, Signature.isDynamic, isDynamic]
  rw [← keys_signature] at h
  rw [answers, Bool.and_eq_true, decide_eq_true_iff, Signature.serves_iff_of_defaulted h, hdynamic,
    admits_texts, defaulted_signature]

section Static

variable {p : Path} (h : p.isDynamic = false)

include h

theorem binders_of_static : p.binders = [] := by
  simpa [isDynamic] using h

theorem defaulted_of_static : p.defaulted = [] := by
  rw [defaulted, binders_of_static h]
  rfl

theorem admits_nil_of_static : p.admits ([].map Value.text) = true := by
  rw [admits_texts, signature, binders_of_static h]
  rfl

theorem eq_nil_of_static {names : List String} (hadmits : p.admits (names.map .text) = true) :
    names = [] := by
  rw [admits_texts, Signature.admits_iff, keys_signature, keys, binders_of_static h] at hadmits
  exact List.eq_nil_iff_forall_not_mem.2 fun n hn => List.not_mem_nil (hadmits.2 n hn)

end Static

end Path

namespace Route

/-- The names that a route uses: those that one of its paths has. Other
    parameters have no say in which path is chosen, and go to the query string. -/
def used (x : Route) (names : List Value) : List String :=
  (Value.texts names).filter fun name => x.paths.any fun p => p.keys.contains name

/-- The route was made from a pattern. In use since then, it may have got
    another name, destination or origin, and its index may have learnt. -/
def FromPattern [Host] (delimiters : List String) (x : Route) : Prop :=
  ∃ pattern compiled conditions given requirements defaults destination origin routed,
    Pattern.compile delimiters pattern requirements defaults = .ok compiled ∧
      (make pattern compiled conditions given requirements defaults destination origin delimiters
        routed).Alike x

variable {delimiters : List String} {x : Route}

theorem FromPattern.compiled [Host] (h : x.FromPattern delimiters) :
    ∀ p ∈ x.paths, p.Compiled delimiters := by
  rcases h with ⟨pattern, compiled, conditions, given, requirements, defaults, destination, origin,
    routed, hcompile, halike⟩
  intro p hp
  rw [halike.paths] at hp
  rcases List.mem_map.1 hp with ⟨parts, hparts, rfl⟩
  exact ⟨_, _, _, _, _, hcompile, hparts⟩

theorem FromPattern.index [Host] (h : x.FromPattern delimiters) :
    Option.Rel KeyIndex.Learnt (indexOf x.paths) x.index := by
  rcases h with ⟨pattern, compiled, conditions, given, requirements, defaults, destination, origin,
    routed, _, halike⟩
  rw [halike.paths]
  exact halike.index

/-- The path that a route falls back on has no variables. -/
theorem staticPath?_eq_some {i : Nat} {p : Path} (h : x.staticPath? = some i)
    (hp : x.paths[i]? = some p) : p.isDynamic = false := by
  rcases List.findIdx?_eq_some_iff_getElem.1 h with ⟨hlt, hstatic, _⟩
  rw [List.getElem?_eq_getElem hlt] at hp
  cases hp
  simpa using hstatic

/-- A route falls back on a path if it has one without variables. -/
theorem exists_staticPath? {p : Path} (hp : p ∈ x.paths) (hstatic : p.isDynamic = false) :
    ∃ i q, x.staticPath? = some i ∧ x.paths[i]? = some q := by
  have hsome : x.staticPath?.isSome = true := by
    rw [staticPath?, List.findIdx?_isSome, List.any_eq_true]
    exact ⟨p, hp, by rw [hstatic]; rfl⟩
  rcases Option.isSome_iff_exists.1 hsome with ⟨i, hi⟩
  rcases List.findIdx?_eq_some_iff_getElem.1 hi with ⟨hlt, _⟩
  exact ⟨i, _, hi, List.getElem?_eq_getElem hlt⟩

/-- The names that a route uses are those that a lookup in its index is left
    with. A route looks through the names of all its paths, with or without an
    index, so both ways of finding a path start from the same names. -/
theorem toFinset_used (x : Route) (names : List Value) :
    (x.used names).toFinset = (Value.texts names).toFinset ∩
      (x.paths.flatMap fun p => p.signature.keys).toFinset := by
  ext name
  simp [used, Path.keys_signature]

section Offers

variable (hindex : Option.Rel KeyIndex.Learnt (indexOf x.paths) x.index)

include hindex

/-- A route without an index offers its first path, whatever the names are. -/
theorem findPath_of_single (hlength : x.paths.length ≤ 1) (names : Value) :
    (x.findPath names).2 = .ok (some 0) := by
  have hnone : indexOf x.paths = none := by
    rcases hpaths : x.paths with _ | ⟨p, _ | ⟨q, rest⟩⟩
    · rfl
    · rfl
    · rw [hpaths, List.length_cons, List.length_cons] at hlength
      omega
  rw [hnone] at hindex
  cases hidx : x.index with
  | none => rw [findPath, hidx]
  | some idx =>
      rw [hidx] at hindex
      cases hindex

/-- A route with an index offers the first path that answers to the names it
    uses, or else its first path without variables. The latter is not in the
    index, which holds dynamic paths only. -/
theorem findPath_of_several (hlength : 1 < x.paths.length) {names : Value} {vs : List Value}
    (hvs : names.nameSet? = .ok vs) :
    (x.findPath names).2 = .ok ((((numbered 0 x.paths).find? fun e =>
      e.2.answers (x.used vs).toFinset).map fun e => e.1.position).or x.staticPath?) := by
  rcases indexOf_cases x.paths with ⟨_, hsingle⟩ | hsome
  · omega
  · rw [hsome] at hindex
    cases hidx : x.index with
    | none =>
        rw [hidx] at hindex
        cases hindex
    | some idx =>
        rw [hidx] at hindex
        cases hindex with
        | some hlearnt =>
            have hfind := find_of_learnt hlearnt (Value.texts vs) 0
            rw [← toFinset_used] at hfind
            simp only [findPath, hidx, hvs, hfind]

end Offers

/-- The route finds a path that can be generated from the names it uses. What
    it finds otherwise, its only path or a static one, may still lack a value. -/
def Finds (x : Route) (names : Value) (vs : List Value) : Prop :=
  ∃ i p, (x.findPath names).2 = .ok (some i) ∧ x.paths[i]? = some p ∧
    p.admits ((x.used vs).map .text) = true

/-- The path can be generated from the names, and a lookup for them does not
    miss it: it is the only path of the route, has no defaults, or is asked
    for by a name that has one. -/
def Offers (x : Route) (names : List String) (p : Path) : Prop :=
  p ∈ x.paths ∧ p.admits (names.map .text) = true ∧
    (x.paths.length = 1 ∨ p.defaulted = [] ∨ ∃ n ∈ p.defaulted, n ∈ names)

/-- A route finds a path that can be generated from the names it uses exactly
    if it has one to offer. -/
theorem finds_iff [Host] (h : x.FromPattern delimiters) {names : Value} {vs : List Value}
    (hvs : names.nameSet? = .ok vs) : x.Finds names vs ↔ ∃ p, x.Offers (x.used vs) p := by
  have hdistinct := fun p hp => (h.compiled p hp).nodup_keys
  by_cases hlength : x.paths.length ≤ 1
  · rw [Finds, findPath_of_single h.index hlength]
    constructor
    · rintro ⟨i, p, hi, hp, hadmits⟩
      have hmem := List.mem_of_getElem? hp
      have hpos := List.length_pos_of_mem hmem
      exact ⟨p, hmem, hadmits, Or.inl (by omega)⟩
    · rintro ⟨p, hp, hadmits, _⟩
      rcases List.getElem?_of_mem hp with ⟨i, hi⟩
      have hlt := (List.getElem?_eq_some_iff.1 hi).1
      have hfirst : i = 0 := by omega
      rw [hfirst] at hi
      exact ⟨0, p, rfl, hi, hadmits⟩
  · rw [Finds, findPath_of_several h.index (by omega) hvs]
    cases hfind : (numbered 0 x.paths).find? fun e => e.2.answers (x.used vs).toFinset with
    | some e =>
        -- What is found answers to the names, so it is one of the paths that are looked for.
        have hposition := (mem_numbered.1 (List.mem_of_find?_eq_some hfind)).2
        have hmem := List.mem_of_getElem? hposition
        have hanswers := List.find?_some hfind
        rw [Path.answers_iff (hdistinct _ hmem)] at hanswers
        exact iff_of_true ⟨_, _, rfl, hposition, hanswers.2.1⟩
          ⟨_, hmem, hanswers.2.1, Or.inr hanswers.2.2⟩
    | none =>
        constructor
        · rintro ⟨i, p, hi, hp, hadmits⟩
          have hstatic := staticPath?_eq_some (Except.ok.inj hi) hp
          have hnone := Path.defaulted_of_static hstatic
          exact ⟨p, List.mem_of_getElem? hp, hadmits, Or.inr (Or.inl hnone)⟩
        · rintro ⟨p, hp, hadmits, hcause⟩
          -- A path with variables would have answered.
          have hstatic : p.isDynamic = false := by
            by_contra hdynamic
            have hanswers := (Path.answers_iff (hdistinct p hp)).2
              ⟨by simpa using hdynamic, hadmits, hcause.resolve_left (by omega)⟩
            rcases List.getElem?_of_mem hp with ⟨i, hi⟩
            exact List.find?_eq_none.1 hfind (⟨0, i⟩, p) (mem_numbered.2 ⟨rfl, hi⟩) hanswers
          have hnames := Path.eq_nil_of_static hstatic hadmits
          rcases exists_staticPath? hp hstatic with ⟨i, q, hi, hq⟩
          refine ⟨i, q, congrArg Except.ok hi, hq, ?_⟩
          rw [hnames]
          exact Path.admits_nil_of_static (staticPath?_eq_some hi hq)

theorem FromPattern.of_alike [Host] {y : Route} (h : x.FromPattern delimiters)
    (halike : x.Alike y) : y.FromPattern delimiters := by
  rcases h with ⟨pattern, compiled, conditions, given, requirements, defaults, destination, origin,
    routed, hcompile, hmade⟩
  exact ⟨pattern, compiled, conditions, given, requirements, defaults, destination, origin, routed,
    hcompile, hmade.trans halike⟩

end Route

/-- A route that is made for a router is made from a pattern. -/
theorem RouteSpec.fromPattern [Host] {spec : RouteSpec} {options : Options} {route : Route}
    (h : spec.route? options = .ok route) : route.FromPattern options.delimiters := by
  rcases bind_eq_ok.1 h with ⟨compiled, hcompile, h⟩
  rcases bind_eq_ok.1 h with ⟨conditions, _, h⟩
  rcases bind_eq_ok.1 h with ⟨origin, _, h⟩
  cases h
  exact ⟨_, _, _, _, _, _, _, _, _, hcompile, .refl _⟩

namespace Router

/-- The routes of a router were made from patterns, whether or not they are in force. -/
theorem Reachable.fromPattern [Host] {r : Router} (h : Reachable r) {n : Nat} {x : Route}
    (hx : r.route? n = some x) : x.FromPattern r.options.delimiters := by
  induction h generalizing n x with
  | make _ => cases hx
  | @step r r' hreachable hstep ih =>
      rcases step_cases hstep with rfl | halike | ⟨spec, route, hroute, _, halike⟩
      · exact ih hx
      · rcases halike.exists_route? hx with ⟨y, hy, hyx⟩
        rw [halike.options]
        exact (ih hy).of_alike hyx
      · rcases halike.exists_route? hx with ⟨y, hy, hyx⟩
        rw [halike.options]
        refine Route.FromPattern.of_alike ?_ hyx
        rcases route?_commit_cases hy with hold | rfl
        · exact ih hold
        · exact spec.fromPattern hroute

/-- With a name, a path is chosen in the route that the name leads to. -/
theorem pathFor_of_lookupName {r : Router} {name : Value} {n : Nat} (hsome : name.isNone = false)
    (hkey : name.isKey = true) (hname : lookupName name r.table.names = some n)
    (params : Fields) : r.pathFor params name = r.generateFrom n (.dict params) := by
  rw [pathFor, hsome, hkey, hname]
  rfl

/-- Choosing a path of a route changes its index only. -/
theorem exists_index_findPath (x : Route) (names : Value) :
    ∃ idx, (x.findPath names).1 = { x with index := idx } := by
  unfold Route.findPath
  split
  · exact ⟨x.index, rfl⟩
  · split
    · exact ⟨x.index, rfl⟩
    · exact ⟨_, rfl⟩

/-- What an index learns while a path is chosen makes no difference to a path
    that is rendered, nor to its URL. A choice leaves another router behind,
    and the rendering takes place in that one. -/
theorem renderPath_generateFrom [Host] (r : Router) (n : Nat) (names : Value) (params : Fields)
    (id : PathId) :
    (r.generateFrom n names).1.renderPath params id = r.renderPath params id ∧
      ∀ url, (r.generateFrom n names).1.absoluteUrl id.route url = r.absoluteUrl id.route url := by
  unfold generateFrom
  split
  · exact ⟨rfl, fun _ => rfl⟩
  · next x hx =>
    rcases exists_index_findPath x names with ⟨idx, hlearnt⟩
    by_cases hn : n = id.route
    · rw [hn] at hx ⊢
      constructor
      · simp only [renderPath, route?_modify_self, hx, hlearnt, Option.map_some]
        rfl
      · intro url
        simp only [absoluteUrl, route?_modify_self, hx, hlearnt, Option.map_some]
        rfl
    · exact ⟨by simp only [renderPath, route?_modify_other r _ hn],
        fun _ => by simp only [absoluteUrl, route?_modify_other r _ hn]⟩

/-- So it is with a name or without. -/
theorem renderPath_pathFor [Host] (r : Router) (given : Fields) (name : Value) (params : Fields)
    (id : PathId) :
    (r.pathFor given name).1.renderPath params id = r.renderPath params id ∧
      ∀ url, (r.pathFor given name).1.absoluteUrl id.route url = r.absoluteUrl id.route url := by
  unfold pathFor
  split
  · unfold generate
    split <;> exact ⟨rfl, fun _ => rfl⟩
  · split
    · exact ⟨rfl, fun _ => rfl⟩
    · split
      · exact ⟨rfl, fun _ => rfl⟩
      · exact renderPath_generateFrom r _ _ params id

/-- A URL is made from the path that is chosen for the parameters. -/
theorem urlFor_eq [Host] (r : Router) (params : Fields) (name : Value) :
    (r.urlFor params name).2 = (r.pathFor params name).2.bind fun found =>
      match found with
      | none => .error (.generation (.unmatched params.names.mergeSort))
      | some id => r.renderUrl params id := by
  have hsame := renderPath_pathFor r params name params
  unfold urlFor
  cases hpath : r.pathFor params name with
  | mk r' found =>
      rw [hpath] at hsame
      rcases found with e | _ | id
      · rfl
      · rfl
      · obtain ⟨hpath, hurl⟩ := hsame id
        simp only [Except.bind, renderUrl]
        rw [← hpath]
        cases r'.renderPath params id with
        | error e => rfl
        | ok url => exact hurl url

/-- The URL is made from the path that the route finds. -/
theorem urlFor_of_findPath [Host] {r : Router} {params : Fields} {name : Value} {n i : Nat}
    {x : Route} (hsome : name.isNone = false) (hkey : name.isKey = true)
    (hname : lookupName name r.table.names = some n) (hx : r.route? n = some x)
    (hfind : (x.findPath (.dict params)).2 = .ok (some i)) :
    (r.urlFor params name).2 = r.renderUrl params ⟨n, i⟩ := by
  have hpath : (r.pathFor params name).2 = .ok (some ⟨n, i⟩) := by
    rw [pathFor_of_lookupName hsome hkey hname]
    simp only [generateFrom, hx, hfind]
    rfl
  rw [urlFor_eq, hpath]
  rfl

/-- The names of some parameters are a set of names. -/
theorem nameSet?_dict (params : Fields) :
    (Value.dict params).nameSet? = .ok (params.names.map .text) := by
  have hkeys : ∀ names : List String, areKeys (names.map .text) = true := by
    intro names
    induction names with
    | nil => rfl
    | cons name rest ih => exact ih
  have helements : (Value.dict params).elements? = some (params.names.map .text) := by
    rw [Value.elements?, Fields.names, List.map_map]
    rfl
  rw [Value.nameSet?, helements]
  exact if_pos (hkeys _)

/-- A route finds a path that can be generated from the names it uses if there
    is one that a lookup does not miss, and only then. So a URL is made by the
    name of the route from such a path. A path is missed by the names it needs
    alone when it has defaults: it is filed under these names together with some
    that have a default, or under all of them, but not under the former only. -/
theorem usable_path_found [Host] :
    (∀ (delimiters : List String) (x : Route) (names : Value) (vs : List Value),
      x.FromPattern delimiters → names.nameSet? = .ok vs →
        (x.Finds names vs ↔ ∃ p, x.Offers (x.used vs) p)) ∧
    ∀ (r : Router) (params : Fields) (name : Value) (n : Nat) (x : Route), Reachable r →
      name.isNone = false → lookupName name r.table.names = some n → r.route? n = some x →
      (∃ p, x.Offers (x.used (params.names.map .text)) p) →
      ∃ i p, x.paths[i]? = some p ∧
        p.admits ((x.used (params.names.map .text)).map .text) = true ∧
        (r.urlFor params name).2 = r.renderUrl params ⟨n, i⟩ := by
  refine ⟨fun delimiters x names vs hx hvs => Route.finds_iff hx hvs,
    fun r params name n x hreachable hsome hname hx hoffers => ?_⟩
  rcases (Route.finds_iff (hreachable.fromPattern hx) (nameSet?_dict params)).2 hoffers with
    ⟨i, p, hfind, hp, hadmits⟩
  have hkey := hreachable.furnished.isKey_of_lookupName hname
  exact ⟨i, p, hp, hadmits, urlFor_of_findPath hsome hkey hname hx hfind⟩

/-- A path is missed by the only name that it needs, since another one has a
    default. So no URL is made, although the path can be rendered. -/
theorem usable_path_missed :
    let _ : Host := .idle
    let options : Options := ⟨defaultDelimiters, defaultMethods.map .text⟩
    let spec : RouteSpec :=
      ⟨"/:a/:b(/:c)", [], [], [("b", .text "1")], .none, .none, .text "n", []⟩
    let r := ((make options).add spec).router
    let params := [("a", .text "x")]
    r.Reachable ∧ ∃ x p, r.route? 0 = some x ∧ p ∈ x.paths ∧
      p.admits ((x.used [.text "a"]).map .text) = true ∧
      (x.findPath (.list [.text "a"])).2 = .ok none ∧
      x.render p params = .ok "/x/1" ∧
      (r.urlFor params (.text "n")).2 = .error (.generation (.unmatched ["a"])) := by
  intro _ options spec r params
  have hmake : Options.make? .none .none = .ok options := by cbv
  let a : Variable := ⟨"a", none, .none, some "/", none⟩
  let b : Variable := ⟨"b", none, .text "1", some "/", none⟩
  let c : Variable := ⟨"c", none, .none, some "/", none⟩
  let conditions : List Condition := defaultMethods.map fun kind => ⟨.text kind, .wildcard⟩
  let short : List Segment := [.separator "/", .var a, .separator "/", .var b]
  let long : List Segment := short ++ [.separator "/", .var c]
  let x : Route := { Route.make "/:a/:b(/:c)" [long, short] conditions [] []
    [("b", .text "1")] .none none defaultDelimiters true with name := .text "n" }
  -- The shorter path can be rendered from the one name, but is only looked up under both.
  refine ⟨.step (.make hmake) (.add _ _), x, ⟨conditions, short⟩, ?_, ?_, ?_, ?_, ?_, ?_⟩
  · unfold r spec options x long short a b c conditions
    cbv
  · exact List.mem_cons_of_mem _ List.mem_cons_self
  · unfold x long short a b c conditions
    cbv
  · unfold x long short a b c conditions
    cbv
  · unfold x long short a b c conditions params
    cbv
  · unfold r spec options params
    cbv

/-- Of two paths, the one without a default is found for the name that both
    need, and the other one for both names. -/
theorem usable_path_found_of_two :
    let _ : Host := .idle
    let options : Options := ⟨defaultDelimiters, defaultMethods.map .text⟩
    let spec : RouteSpec :=
      ⟨"/list/:page(/:size)", [], [], [("size", .int 10)], .none, .none, .text "list", []⟩
    let r := ((make options).add spec).router
    let params := [("page", .int 2)]
    ∃ x, r.route? 0 = some x ∧
      x.Finds (.list [.text "size", .text "page"]) [.text "size", .text "page"] ∧
      ∃ i p, x.paths[i]? = some p ∧ p.admits [.text "page"] = true ∧
        (r.urlFor params (.text "list")).2 = r.renderUrl params ⟨0, i⟩ := by
  intro _ options spec r params
  have hmake : Options.make? .none .none = .ok options := by cbv
  have hreachable : r.Reachable := .step (.make hmake) (.add _ _)
  let page : Variable := ⟨"page", none, .none, some "/", none⟩
  let size : Variable := ⟨"size", none, .int 10, some "/", none⟩
  let conditions : List Condition := defaultMethods.map fun kind => ⟨.text kind, .wildcard⟩
  let compiled : List (List Segment) :=
    [[.separator "/", .literal "list", .separator "/", .var page, .separator "/", .var size],
      [.separator "/", .literal "list", .separator "/", .var page]]
  let x : Route := { Route.make "/list/:page(/:size)" compiled conditions [] []
    [("size", .int 10)] .none none defaultDelimiters true with name := .text "list" }
  have hx : r.route? 0 = some x := by
    unfold r spec options x compiled conditions page size
    cbv
  have hname : lookupName (.text "list") r.table.names = some 0 := by
    unfold r spec options
    cbv
  have hused : x.used [.text "size", .text "page"] = ["size", "page"] := by
    unfold x compiled conditions page size
    cbv
  have hneeded : x.used [.text "page"] = ["page"] := by
    unfold x compiled conditions page size
    cbv
  -- A name with a default may be given or not: the longer path is found for both names, the shorter
  -- one for the name that it needs.
  rcases @usable_path_found Host.idle with ⟨hroute, hrouter⟩
  refine ⟨x, hx, (hroute _ x _ _ (hreachable.fromPattern hx) rfl).2 ?_, ?_⟩
  · rw [hused]
    exact ⟨⟨conditions, compiled[0]⟩, by simp [x, Route.make, compiled], by cbv,
      Or.inr (Or.inr ⟨"size", by decide, by decide⟩)⟩
  · have hoffers : ∃ p, x.Offers (x.used [.text "page"]) p := by
      rw [hneeded]
      exact ⟨⟨conditions, compiled[1]⟩, by simp [x, Route.make, compiled], by cbv,
        Or.inr (Or.inl rfl)⟩
    have hfound := hrouter r params (.text "list") 0 x hreachable rfl hname hx hoffers
    rcases hfound with ⟨i, p, hp, hadmits, hurl⟩
    have hnames : x.used (Fields.names params |>.map .text) = ["page"] := hneeded
    rw [hnames] at hadmits
    exact ⟨i, p, hp, hadmits, hurl⟩

end Router

end PathRouting
