import PathRouting.Proofs.Router.Choice

/-!
# The Query String of a URL

A URL is a path rendered from the parameters, with the parameters behind it
that the path has no variable for. These come in ascending order of their
names. A list, a tuple or a dictionary gives one item for each of its
elements, any other value gives one item, and the absent value counts as not
given.

A value with a number that cannot be written has no text to give, and then
there is no URL. So the items of the parameters left over are there whenever a
URL is.

An empty list gives no item at all. Whether there is a query string is decided
by the parameters that are left over and not by their items, so that a path
whose only parameters left over are empty has a question mark behind it and
nothing else.

## Main definitions

* `Value.queryTexts`: The texts of the items that a value gives.
* `Path.Leftover`: The parameters that a path leaves over.
* `queryPairs`, `encodePairs`: The items of some parameters, and their encoding.

## Theorems

* `leftover_extraParams`, `Path.Leftover.unique`: The parameters left over are
  put in order, for which there is one way.
* `query_eq`, `withQuery_eq_ok_iff`: A query string is made of the items.
* `Router.renderUrl_eq_ok_iff`: The stages of making a URL.
* `Router.urlFor_query`: What a URL consists of.
-/

namespace PathRouting

/-- The texts that a value is written as in a query string, one for each item,
    if they can be written. -/
def Value.queryTexts : Value → Except Fault (List String)
  | .list items | .tuple items => items.mapM Value.plain
  | .dict fields => .ok (Fields.names fields)
  | v => do return [← v.plain]

/-- The parameters are those that the path has no variable for and that are
    not absent, in ascending order of their names. The order is a matter of
    code points, so that equal parameters make equal URLs. -/
structure Path.Leftover (p : Path) (params extra : Fields) : Prop where
  perm : extra.Perm (params.filter fun e => decide (e.1 ∉ p.keys) && !e.2.isNone)
  ascending : extra.Pairwise fun a b => a.1 ≤ b.1

/-- The items of some parameters, by name, one parameter after the other. A
    parameter with several items gives its name to each of them, and one with
    none is not there. -/
def queryPairs : Fields → Except Fault (List (String × String))
  | [] => .ok []
  | (name, v) :: rest => do
    return (← v.queryTexts).map (fun s => (name, s)) ++ (← queryPairs rest)

/-- Some items as a query string. -/
def encodePairs (pairs : List (String × String)) : String :=
  "&".intercalate (pairs.map fun e => Text.formEncode e.1 ++ "=" ++ Text.formEncode e.2)

/-! ## The parameters left over -/

theorem leftover_extraParams (p : Path) (params : Fields) :
    p.Leftover params (extraParams p params) := by
  have hsorted : (params.mergeSort fun a b => a.1 ≤ b.1).Pairwise
      fun a b => decide (a.1 ≤ b.1) = true := by
    apply List.pairwise_mergeSort
    · intro a b c hab hbc
      exact decide_eq_true (le_trans (of_decide_eq_true hab) (of_decide_eq_true hbc))
    · intro a b
      simpa using le_total a.1 b.1
  constructor
  · have hfilter : (fun e : String × Value => decide (e.1 ∉ p.keys) && !e.2.isNone) =
        fun e => !p.keys.contains e.1 && !e.2.isNone := by
      funext e
      simp
    rw [hfilter]
    exact (List.mergeSort_perm params _).filter _
  · exact (hsorted.filter _).imp fun h => of_decide_eq_true h

/-- Where no name is given twice, there is one order for the parameters left over. -/
theorem Path.Leftover.unique {p : Path} {params extra extra' : Fields}
    (hnodup : params.names.Nodup) (h : p.Leftover params extra) (h' : p.Leftover params extra') :
    extra = extra' := by
  refine List.Perm.eq_of_pairwise (fun a b ha hb hab hba => ?_) h.ascending h'.ascending
    (h.perm.trans h'.perm.symm)
  have hmem := (List.mem_filter.1 (h.perm.mem_iff.1 ha)).1
  have hmem' := (List.mem_filter.1 (h'.perm.mem_iff.1 hb)).1
  exact List.inj_on_of_nodup_map hnodup hmem hmem' (le_antisymm hab hba)

theorem parameterTexts_eq (v : Value) : parameterTexts v = v.queryTexts := by
  cases v with
  | dict fields => exact (congrArg _ List.map_map.symm).trans (mapM_plain_text _)
  | text s => rfl
  | _ => rfl

/-- The items of a query string are the encoded pairs, and where a value
    cannot be written, both fail. -/
theorem mapM_queryItem (params : Fields) :
    (params.mapM fun e => queryItem e.1 e.2).map List.flatten =
      (queryPairs params).map
        (List.map fun e => Text.formEncode e.1 ++ "=" ++ Text.formEncode e.2) := by
  induction params with
  | nil => rfl
  | cons e rest ih =>
      obtain ⟨name, v⟩ := e
      rw [List.mapM_cons, queryPairs, queryItem, parameterTexts_eq]
      cases v.queryTexts with
      | error fault => rfl
      | ok texts =>
          let items := texts.map fun s => Text.formEncode name ++ "=" ++ Text.formEncode s
          -- What the first parameter gives is put in front of the rest, on both sides.
          calc _ = ((rest.mapM fun e => queryItem e.1 e.2).map List.flatten).map (items ++ ·) := by
                cases rest.mapM fun e => queryItem e.1 e.2 <;> rfl
            _ = _ := by
                rw [ih]
                cases queryPairs rest with
                | error fault => rfl
                | ok pairs =>
                    simp [items, Except.map, pure, Except.pure, bind, Except.bind,
                      Function.comp_def]

/-- A query string is made of the items of its parameters. -/
theorem query_eq (params : Fields) : query params = (queryPairs params).map encodePairs := by
  calc query params
      = ((params.mapM fun e => queryItem e.1 e.2).map List.flatten).map "&".intercalate := by
        unfold query
        cases params.mapM fun e => queryItem e.1 e.2 <;> rfl
    _ = (queryPairs params).map encodePairs := by
        rw [mapM_queryItem]
        cases queryPairs params <;> rfl

/-- A path with its query is made of the rendered path and the items, with a
    question mark between them as soon as a parameter is left over. A
    parameter that is an empty list is left over and has no items, so the
    question mark can be the last character. -/
theorem withQuery_eq_ok_iff {text whole : String} {extra : Fields} :
    withQuery text extra = .ok whole ↔ ∃ pairs, queryPairs extra = .ok pairs ∧
      whole = if extra = [] then text else text ++ "?" ++ encodePairs pairs := by
  cases extra with
  | nil =>
      constructor
      · intro h
        exact ⟨[], rfl, (Except.ok.inj h).symm⟩
      · rintro ⟨_, _, rfl⟩
        rfl
  | cons first rest =>
      rw [withQuery, query_eq]
      cases queryPairs (first :: rest) with
      | error fault => simp [Except.map, bind, Except.bind]
      | ok pairs => simp [Except.map, pure, Except.pure, bind, Except.bind, eq_comm]

namespace Router

/-- A route without an origin leaves a URL as it is. -/
theorem absoluteUrl_eq {r : Router} {n : Nat} {x : Route} (hx : r.route? n = some x)
    (url : String) : r.absoluteUrl n url = x.origin.elim (.ok url) fun o => o.absolute url := by
  rw [absoluteUrl, hx, Option.bind_some]
  cases x.origin <;> rfl

/-- The stages of making a URL from a path. -/
theorem renderUrl_eq_ok_iff [Host] {r : Router} {params : Fields} {id : PathId} {url : String} :
    r.renderUrl params id = .ok url ↔
      ∃ x p text whole, r.route? id.route = some x ∧ x.paths[id.position]? = some p ∧
        x.render p params = .ok text ∧ withQuery text (extraParams p params) = .ok whole ∧
        x.origin.elim (.ok whole) (fun o => o.absolute whole) = .ok url := by
  unfold renderUrl
  rw [bind_eq_ok]
  unfold renderPath
  cases hx : r.route? id.route with
  | none => simp
  | some x =>
      cases hp : x.paths[id.position]? with
      | none => simp [hp]
      | some p =>
          simp only [hp, bind_eq_ok, absoluteUrl_eq hx]
          -- The number leads to the route and the path in it, and to no others.
          constructor
          · rintro ⟨whole, ⟨text, htext, hwhole⟩, hurl⟩
            exact ⟨x, p, text, whole, rfl, hp, htext, hwhole, hurl⟩
          · rintro ⟨x', p', text, whole, hx', hp', htext, hwhole, hurl⟩
            cases hx'
            cases hp.symm.trans hp'
            exact ⟨whole, ⟨text, htext, hwhole⟩, hurl⟩

/-- A URL of a route without a host is the rendered path, with the parameters
    left over behind it, all of which can be written. The items are encoded
    pairs in the order of their names, those of a list in its own order. If
    there are parameters left over but no items, all of them empty lists, the
    question mark stands there alone. -/
theorem urlFor_query [Host] {r : Router} {params : Fields} {name : Value} {url : String}
    (h : (r.urlFor params name).2 = .ok url) :
    ∃ id x p text, (r.pathFor params name).2 = .ok (some id) ∧ r.route? id.route = some x ∧
      x.paths[id.position]? = some p ∧ x.render p params = .ok text ∧
      ((∀ o, x.origin = some o → o.host.truthy = false) →
        ∃ extra pairs, p.Leftover params extra ∧ queryPairs extra = .ok pairs ∧
          (pairs ≠ [] → url = text ++ "?" ++ encodePairs pairs) ∧
          (pairs = [] → url = if extra = [] then text else text ++ "?")) := by
  rw [urlFor_eq] at h
  obtain ⟨found, hfound, h⟩ := bind_eq_ok.1 h
  cases found with
  | none => cases h
  | some id =>
      obtain ⟨x, p, text, whole, hx, hp, htext, hwhole, hurl⟩ := renderUrl_eq_ok_iff.1 h
      refine ⟨id, x, p, text, hfound, hx, hp, htext, fun hhost => ?_⟩
      have hbare : url = whole := by
        cases horigin : x.origin with
        | none =>
            rw [horigin] at hurl
            exact (Except.ok.inj hurl).symm
        | some o =>
            rw [horigin, Option.elim_some, Origin.absolute, hhost o horigin] at hurl
            exact (Except.ok.inj hurl).symm
      obtain ⟨pairs, hpairs, hwhole⟩ := withQuery_eq_ok_iff.1 hwhole
      refine ⟨extraParams p params, pairs, leftover_extraParams p params, hpairs,
        fun hsome => ?_, fun hnone => ?_⟩
      · -- Where there is an item, there is a parameter that it belongs to.
        have hextra : extraParams p params ≠ [] := by
          intro hnil
          rw [hnil] at hpairs
          cases hpairs
          exact hsome rfl
        rw [hbare, hwhole, if_neg hextra]
      · rw [hbare, hwhole, hnone, encodePairs]
        simp

/-- The only parameter left over is an empty list. There is nothing behind the
    question mark. -/
theorem urlFor_query_of_empty_list :
    let _ : Host := .idle
    let options : Options := ⟨defaultDelimiters, defaultMethods.map .text⟩
    let r := ((make options).add
      ⟨"/users/:id", [], [], [], .none, .none, .none, []⟩).router
    let params : Fields := [("tag", .list []), ("id", .int 1)]
    (r.urlFor params .none).2 = .ok "/users/1?" ∧
      ∃ x p text, r.route? 0 = some x ∧ x.paths[0]? = some p ∧
        x.render p params = .ok text ∧
        p.Leftover params [("tag", .list [])] ∧ queryPairs [("tag", .list [])] = .ok [] ∧
        "/users/1?" = text ++ "?" := by
  intro _ options r params
  have hurl : (urlFor r params .none).2 = .ok "/users/1?" := by
    unfold r options params
    cbv
  have hchosen : (r.pathFor params .none).2 = .ok (some ⟨0, 0⟩) := by
    unfold r options params
    cbv
  have horigin : (r.route? 0).map Route.origin = some none := by
    unfold r options
    cbv
  have hkeys : ((r.route? 0).bind fun x => x.paths[0]?).map Path.keys = some ["id"] := by
    unfold r options
    cbv
  -- The law says what the URL is made of; that it is this route and this path is computed.
  obtain ⟨id, x, p, text, hid, hx, hp, htext, hquery⟩ := urlFor_query hurl
  cases hchosen.symm.trans hid
  simp only [hx, hp, Option.map_some, Option.bind_some, Option.some.injEq] at horigin hkeys
  obtain ⟨extra, pairs, hleftover, hpairs, _, hempty⟩ := hquery fun o ho => by
    simp [horigin] at ho
  have hextra : extra = [("tag", .list [])] := by
    have hperm := hleftover.perm
    rw [hkeys] at hperm
    exact List.perm_singleton.1 hperm
  subst hextra
  cases hpairs
  exact ⟨hurl, x, p, text, hx, hp, htext, hleftover, rfl, hempty rfl⟩

end Router

end PathRouting
