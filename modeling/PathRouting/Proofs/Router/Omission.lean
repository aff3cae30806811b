import PathRouting.Proofs.Route.Refusal
import PathRouting.Proofs.Router.Query

/-!
# Parameters Without a Value

A parameter that is given as the absent value counts as not given. This is how
a path takes the values of its variables, where a default steps in, and how it
leaves parameters over for the query string. On a path that is chosen, the
parameters can therefore be replaced by those that have a value.

The path is chosen by the names of the parameters alone. A name without a
value is a name all the same, and may lead to another path than the rest of
the names does, or to none. A URL is independent of the parameters without a
value as far as the choice is, and that is the case if no path that is looked
at has a variable of such a name.

## Main definitions

* `Fields.given`: The parameters that have a value.
* `Router.heeded`: The names that make a difference to the choice of a path.
* `Router.SameOutcome`: Two attempts to make a URL come to the same.

## Theorems

* `Fields.lookup_given`: A parameter that has no value is one that is not there.
* `render_given`, `extraParams_given`: What is made of a path is the same.
* `Router.renderPath_given`, `Router.renderUrl_given`: So is its URL.
* `KeyIndex.find_congr`, `Route.findPath_given`, `Router.pathFor_given`: The
  choice is the same if the names that are heeded have values.
* `Router.urlFor_given`: Where the same path is chosen, the URL is the same.
* `Router.urlFor_ne_of_absent`: Where it is not, there may be a URL for the
  one and none for the other.
-/

namespace PathRouting

/-- The parameters that have a value. -/
def Fields.given (params : Fields) : Fields :=
  params.filter fun e => !e.2.isNone

/-! ## What is made of a path -/

section Given

variable {params : Fields}

theorem Fields.names_given_sublist (params : Fields) : params.given.names.Sublist params.names :=
  List.Sublist.map _ List.filter_sublist

/-- Looking up a parameter that has no value is looking up one that is not there. -/
theorem Fields.lookup_given (hnodup : params.names.Nodup) (name : String) :
    params.given.lookup name = (params.lookup name).filter (!·.isNone) := by
  induction params with
  | nil => rfl
  | cons e rest ih =>
      obtain ⟨key, x⟩ := e
      rw [Fields.names, List.map_cons, List.nodup_cons] at hnodup
      have hrest := ih hnodup.2
      rw [Fields.given] at hrest ⊢
      by_cases hname : name = key
      · -- The name is not there again, so without a value there is nothing under it.
        subst hname
        have habsent : List.lookup name rest = none := Fields.lookup_eq_none_iff.2 hnodup.1
        by_cases hx : x.isNone = true
        · simp [hx, hrest, habsent, Option.filter]
        · simp [hx, Option.filter]
      · have hne : (name == key) = false := by simpa using hname
        by_cases hx : x.isNone = true
        · simp [List.lookup_cons, hx, hrest, hne]
        · simp [List.lookup_cons, hx, hrest, hne]

theorem valueIn?_given (hnodup : params.names.Nodup) (v : Variable) :
    v.valueIn? params.given = v.valueIn? params := by
  unfold Variable.valueIn?
  rw [Fields.lookup_given hnodup, Option.filter_filter]
  simp

theorem valueFor_given (hnodup : params.names.Nodup) (pattern : String) (v : Variable) :
    valueFor pattern v params.given = valueFor pattern v params := by
  rw [valueFor_eq, valueFor_eq, valueIn?_given hnodup]

variable [Host]

theorem renderParts_given (hnodup : params.names.Nodup) (pattern delimiter safe : String)
    (parts : List Segment) : renderParts pattern delimiter safe params.given parts =
      renderParts pattern delimiter safe params parts := by
  induction parts with
  | nil => rfl
  | cons s rest ih =>
      cases s with
      | var v => rw [renderParts, renderParts, valueFor_given hnodup, ih]
      | literal text | separator mark | condition c => rw [renderParts, renderParts, ih] <;> simp

/-- A path is rendered from the parameters that have a value. -/
theorem render_given (hnodup : params.names.Nodup) (x : Route) (p : Path) :
    x.render p params.given = x.render p params := by
  unfold Route.render
  cases x.delimiters with
  | nil => rfl
  | cons delimiter rest => exact renderParts_given hnodup _ _ _ _

omit [Host] in
/-- The parameters that a path leaves over are among those that have a value. -/
theorem extraParams_given (hnodup : params.names.Nodup) (p : Path) :
    extraParams p params.given = extraParams p params := by
  have hleft := leftover_extraParams p params.given
  have hfilter : (params.given.filter fun e => decide (e.1 ∉ p.keys) && !e.2.isNone) =
      params.filter fun e => decide (e.1 ∉ p.keys) && !e.2.isNone := by
    rw [Fields.given, List.filter_filter]
    simp
  exact Path.Leftover.unique hnodup ⟨hfilter ▸ hleft.perm, hleft.ascending⟩
    (leftover_extraParams p params)

end Given

/-! ## Which path is chosen -/

/-- An index is asked by the names that are significant to it. Two sets of
    names that have the same of these share an answer, also one that was kept
    from before. -/
theorem KeyIndex.find_congr {α : Type} {idx : KeyIndex α} {names others : List String}
    (h : idx.relevant names = idx.relevant others) :
    (idx.find names).2 = (idx.find others).2 := by
  unfold KeyIndex.find
  rw [h]

/-- The names that make a difference to the choice of a path: those of the
    paths in force, or of a named route if it has several paths. A named route
    with a single path has no choice to make. -/
def Router.heeded (r : Router) (name : Value) : List String :=
  if name.isNone then r.filed.flatMap fun e => e.1.keys
  else
    match (lookupName name r.table.names).bind r.route? with
    | none => []
    | some x => if x.paths.length ≤ 1 then [] else x.paths.flatMap Path.keys

section Choice

variable {params : Fields}

/-- A name that has a value wherever it is heeded is there with its value. -/
theorem Fields.mem_names_given {heeded : List String}
    (h : ∀ e ∈ params, e.2.isNone = true → e.1 ∉ heeded) {name : String} (hname : name ∈ heeded) :
    name ∈ params.given.names ↔ name ∈ params.names := by
  refine ⟨fun hmem => (Fields.names_given_sublist params).subset hmem, fun hmem => ?_⟩
  obtain ⟨e, he, rfl⟩ := List.mem_map.1 hmem
  have hsome : e.2.isNone = false := by
    by_contra hnone
    exact h e he (by simpa using hnone) hname
  exact List.mem_map_of_mem (List.mem_filter.2 ⟨he, by simp [hsome]⟩)

/-- A route chooses the same path. -/
theorem Route.findPath_given [Host] {delimiters : List String} {x : Route}
    (hx : x.FromPattern delimiters)
    (h : 1 < x.paths.length → ∀ e ∈ params, e.2.isNone = true → e.1 ∉ x.paths.flatMap Path.keys) :
    (x.findPath (.dict params.given)).2 = (x.findPath (.dict params)).2 := by
  by_cases hlength : x.paths.length ≤ 1
  · rw [Route.findPath_of_single hx.index hlength, Route.findPath_of_single hx.index hlength]
  · have hseveral : 1 < x.paths.length := by omega
    have hused : (x.used (params.given.names.map .text)).toFinset =
        (x.used (params.names.map .text)).toFinset := by
      rw [Route.toFinset_used, Route.toFinset_used, Value.texts_map_text, Value.texts_map_text]
      ext name
      simp only [Finset.mem_inter, List.mem_toFinset, Path.keys_signature]
      exact and_congr_left (Fields.mem_names_given (h hseveral))
    rw [Route.findPath_of_several hx.index hseveral (Router.nameSet?_dict _),
      Route.findPath_of_several hx.index hseveral (Router.nameSet?_dict _), hused]

namespace Router

/-- Among all routes, the same path is chosen. The names without a value are
    heeded by none of them, so they are left out before the index is asked. -/
theorem Furnished.generate_given {r : Router} (hr : Furnished r)
    (h : ∀ e ∈ params, e.2.isNone = true → e.1 ∉ r.filed.flatMap fun e => e.1.keys) :
    (r.generate (.dict params.given)).2 = (r.generate (.dict params)).2 := by
  obtain ⟨uses, huses, hfiled⟩ := hr.index
  have hrelevant : r.table.index.relevant params.given.names =
      r.table.index.relevant params.names := by
    refine List.filter_congr fun name hname => ?_
    -- What is significant to the index is a name of a path in force.
    have hheeded : name ∈ r.filed.flatMap fun e => e.1.keys := by
      rw [huses, (KeyIndex.holds_ofUses uses).significant, hfiled] at hname
      exact List.mem_flatMap.2 hname
    rw [Bool.eq_iff_iff, List.contains_iff_mem, List.contains_iff_mem]
    exact Fields.mem_names_given h hheeded
  have hfind := KeyIndex.find_congr hrelevant
  simp only [generate, nameSet?_dict, Value.texts_map_text, hfind]

/-- The same path is chosen if the names that are heeded have values. -/
theorem Reachable.pathFor_given [Host] {r : Router} (hr : Reachable r) {name : Value}
    (h : ∀ e ∈ params, e.2.isNone = true → e.1 ∉ r.heeded name) :
    (r.pathFor params.given name).2 = (r.pathFor params name).2 := by
  unfold heeded at h
  by_cases hnone : name.isNone = true
  · rw [if_pos hnone] at h
    rw [pathFor_none r _ hnone, pathFor_none r _ hnone]
    exact hr.furnished.generate_given h
  · rw [if_neg hnone] at h
    unfold pathFor
    rw [if_neg hnone, if_neg hnone]
    -- With a name, the path is chosen among those of the route that it leads to, if it leads to
    -- one.
    split
    · rfl
    · cases hname : lookupName name r.table.names with
      | none => rfl
      | some n =>
          simp only
          unfold generateFrom
          cases hx : r.route? n with
          | none => rfl
          | some x =>
              simp only [hname, Option.bind_some, hx] at h
              have hsame : (x.findPath (.dict params.given)).2 = (x.findPath (.dict params)).2 :=
                Route.findPath_given (hr.fromPattern hx) fun hseveral => by
                  simpa [hseveral] using h
              simp only [hsame]

end Router

end Choice

/-! ## What becomes of the parameters -/

namespace Router

/-- Two attempts to make a URL come to the same: to one URL or one fault, or
    both find that there is none to be made. What the fault says then may
    differ, since it lists what was given. -/
def SameOutcome (a b : Except Fault String) : Prop :=
  a = b ∨ (∃ e, a = .error (.generation e)) ∧ ∃ e, b = .error (.generation e)

/-- A path is rendered, with its query, from the parameters that have a value. -/
theorem renderPath_given [Host] {params : Fields} (hnodup : params.names.Nodup) (r : Router)
    (id : PathId) : SameOutcome (r.renderPath params id) (r.renderPath params.given id) := by
  unfold renderPath
  cases r.route? id.route with
  | none => exact Or.inr ⟨⟨_, rfl⟩, _, rfl⟩
  | some x =>
      simp only
      cases x.paths[id.position]? with
      | none => exact Or.inr ⟨⟨_, rfl⟩, _, rfl⟩
      | some p =>
          simp only [render_given hnodup, extraParams_given hnodup]
          exact Or.inl rfl

/-- A path is made a URL of by the parameters that have a value. -/
theorem renderUrl_given [Host] {params : Fields} (hnodup : params.names.Nodup) (r : Router)
    (id : PathId) : SameOutcome (r.renderUrl params id) (r.renderUrl params.given id) := by
  unfold renderUrl
  rcases renderPath_given hnodup r id with hsame | ⟨⟨e, he⟩, e', he'⟩
  · rw [hsame]
    exact Or.inl rfl
  · rw [he, he']
    exact Or.inr ⟨⟨e, rfl⟩, e', rfl⟩

/-- Parameters without a value make no difference to a URL, other than to the
    choice of its path. They make none to that if no path that is looked at has
    a variable of such a name. So the two calls differ only where a name
    without a value counts in the choice of a path, which then lacks the value. -/
theorem urlFor_given [Host] {r : Router} (hr : Reachable r) (params : Fields)
    (hnodup : params.names.Nodup) (name : Value) :
    ((r.pathFor params name).2 = (r.pathFor params.given name).2 →
      SameOutcome (r.urlFor params name).2 (r.urlFor params.given name).2) ∧
    ((∀ e ∈ params, e.2.isNone = true → e.1 ∉ r.heeded name) →
      SameOutcome (r.urlFor params name).2 (r.urlFor params.given name).2) := by
  have hchosen : (r.pathFor params name).2 = (r.pathFor params.given name).2 →
      SameOutcome (r.urlFor params name).2 (r.urlFor params.given name).2 := by
    intro hpath
    rw [urlFor_eq, urlFor_eq, ← hpath]
    rcases (r.pathFor params name).2 with e | _ | id
    · exact Or.inl rfl
    · exact Or.inr ⟨⟨_, rfl⟩, _, rfl⟩
    · exact renderUrl_given hnodup r id
  exact ⟨hchosen, fun h => hchosen (hr.pathFor_given h).symm⟩

/-- The tag is not a name of the path. The user is, but the route has no other
    path to choose and the path has a default for it. -/
theorem urlFor_given_of_default :
    let _ : Host := .idle
    let options : Options := ⟨defaultDelimiters, defaultMethods.map .text⟩
    let r := ((make options).add
      ⟨"/users/:id", [], [], [("id", .int 7)], .none, .none, .text "user", []⟩).router
    SameOutcome (r.urlFor [("tag", .none), ("id", .int 1)] .none).2
        (r.urlFor [("id", .int 1)] .none).2 ∧
      SameOutcome (r.urlFor [("id", .none)] (.text "user")).2
        (r.urlFor [] (.text "user")).2 := by
  intro _ options r
  have hmake : Options.make? .none .none = .ok options := by cbv
  have hreachable : Reachable r := .step (.make hmake) (.add _ _)
  have hall : r.heeded .none = ["id"] := by
    unfold r options
    cbv
  have hnamed : r.heeded (.text "user") = [] := by
    unfold r options
    cbv
  -- Neither of the absent parameters is heeded: without a name only the one of the path is, and
  -- with the name there is nothing to choose.
  constructor
  · refine (urlFor_given hreachable [("tag", .none), ("id", .int 1)] (by decide) .none).2 ?_
    rw [hall]
    decide
  · refine (urlFor_given hreachable [("id", .none)] (by decide) (.text "user")).2 ?_
    rw [hnamed]
    decide

/-- A name without a value leads to a path that needs a value for it, though
    there is a path that does not. -/
theorem urlFor_ne_of_absent :
    let _ : Host := .idle
    let options : Options := ⟨defaultDelimiters, defaultMethods.map .text⟩
    let spec := fun (pattern : String) =>
      (⟨pattern, [], [], [], .none, .none, .none, []⟩ : RouteSpec)
    let r := (((make options).add (spec "/:a")).router.add (spec "/:a/:b")).router
    let params : Fields := [("a", .int 1), ("b", .none)]
    (r.urlFor params .none).2 = .error (.generation (.missing "b" "/:a/:b")) ∧
      (r.urlFor params.given .none).2 = .ok "/1" := by
  intro _ options spec r params
  constructor
  · unfold r spec options params
    cbv
  · unfold r spec options params
    cbv

end Router

end PathRouting
