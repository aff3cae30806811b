import PathRouting.Proofs.Router.Restoration

/-!
# Conditions Are Met

The conditions of a path stand in front of it, one for every attribute that
the options name, in their order. The attributes of a request stand in front
of its tokens in the same way. So a match takes the conditions one by one,
each over its own attribute, and whichever child the search went over, the
attribute does for the condition.

Lists are no keys. A condition on a list is one on a tuple, and an attribute
that is a list is turned into a tuple before the search. It is the tuple that
a validator is asked about, which shows: a validator that judges the text of a
value can tell the two apart.

## Main definitions

* `Value.fixed`: A list as the tuple of its items.
* `attributesOf`: Attributes of a request as the search looks at them.
* `Condition.MetBy`: The condition is met by an attribute.

## Theorems

* `conditionSegments_kinds`, `conditionSegments_values`: What the conditions
  of a route are on, and what they may require.
* `Run.admits`, `Run.metBy`: The attributes on a run do for the conditions,
  and meet them.
* `Router.conditions_of_recognize`: The conditions of a path that is found are
  met.
* `Router.exists_match_of_refused_list`: A validator that refuses a list may
  accept its tuple.
-/

namespace PathRouting

/-- A list as the tuple of its items, which can be compared as a key. -/
def Value.fixed : Value → Value
  | .list items => .tuple items
  | v => v

theorem Value.isNone_fixed (v : Value) : v.fixed.isNone = v.isNone := by
  cases v <;> rfl

theorem conditionSegments_kinds {kinds : List Value} {given : Fields}
    {conditions : List Condition} (h : conditionSegments kinds given = .ok conditions) :
    conditions.map Condition.kind = kinds := by
  unfold conditionSegments at h
  simp only at h
  split at h
  · clear * - h
    -- The conditions that were given no longer matter: there is one for every attribute.
    induction kinds generalizing conditions with
    | nil =>
        cases h
        rfl
    | cons kind rest ih =>
        rw [List.mapM_cons] at h
        rcases bind_eq_ok.1 h with ⟨c, hc, h⟩
        rcases bind_eq_ok.1 h with ⟨more, hmore, h⟩
        rcases bind_eq_ok.1 hc with ⟨value, _, hc⟩
        cases hc
        cases h
        rw [List.map_cons, ih hmore]
  · split at h <;> cases h

/-- No condition requires that an attribute is absent, or a list. -/
theorem conditionSegments_values {kinds : List Value} {given : Fields}
    {conditions : List Condition} (h : conditionSegments kinds given = .ok conditions) :
    ∀ c ∈ conditions, c.value.isNone = false ∧ c.value.fixed = c.value := by
  have hvalue : ∀ {kind v x : Value}, conditionValue kind v = .ok x →
      x.isNone = false ∧ x.fixed = x := by
    intro kind v x hx
    unfold conditionValue at hx
    split at hx
    · rcases bind_eq_ok.1 hx with ⟨w, _, hx⟩
      cases hx
      exact ⟨rfl, rfl⟩
    · split at hx
      · -- An absent value is refused, even if the message about it cannot be written.
        rcases bind_eq_ok.1 hx with ⟨_, _, hx⟩
        cases hx
      · cases hx
        exact ⟨rfl, rfl⟩
      · next hnone hlist =>
        cases hx
        cases v with
        | none => exact absurd rfl hnone
        | list items => exact absurd rfl (hlist items)
        | _ => exact ⟨rfl, rfl⟩
  unfold conditionSegments at h
  simp only at h
  split at h
  · intro c hc
    rcases mem_of_mapM_ok h hc with ⟨kind, _, hcondition⟩
    rcases bind_eq_ok.1 hcondition with ⟨value, hx, hcondition⟩
    cases hcondition
    exact hvalue hx
  · split at h <;> cases h

variable [Host]

/-- Some attributes of a request as the search looks at them, with lists as tuples. -/
def attributesOf (request : Option Fields) (names : List String) : List Condition :=
  names.map fun name => ⟨.text name, (attributeOf request name).fixed⟩

/-- The attributes of a request, if they can be looked up, are there in the
    order of the options. Paths have their conditions in the same order, so a
    condition meets the attribute it is on. -/
theorem attributeTokens_eq_fixed {kinds : List Value} {request : Option Fields}
    {tokens : List Token} (h : attributeTokens kinds request = .ok tokens) :
    ∃ names : List String, kinds = names.map Value.text ∧
      tokens = (attributesOf request names).map .attribute := by
  induction kinds generalizing tokens with
  | nil =>
      cases h
      exact ⟨[], rfl, rfl⟩
  | cons kind rest ih =>
      rw [attributeTokens, List.mapM_cons] at h
      rcases bind_eq_ok.1 h with ⟨token, htoken, h⟩
      rcases bind_eq_ok.1 h with ⟨more, hmore, h⟩
      cases h
      rcases ih hmore with ⟨names, rfl, rfl⟩
      -- Only a text can be the name of an attribute.
      cases kind with
      | text name =>
          cases htoken
          refine ⟨name :: names, rfl, congrArg (fun v => Token.attribute ⟨_, v⟩ :: _) ?_⟩
          cases attributeOf request name <;> rfl
      | _ => cases htoken

/-- The attributes on a run do for the conditions. -/
theorem Run.admits {α : Type} {delimiters : List String} {es : Entries α}
    {conditions attributes : List Condition} {segments : List Segment} {tokens : List Token}
    {choices : List Nat} {b : Bindings} (hlength : conditions.length = attributes.length)
    (h : Run delimiters es (conditions.map Segment.condition ++ segments)
      (attributes.map Token.attribute ++ tokens) none choices b) :
    ∀ d ∈ conditions, ∃ c ∈ attributes, d.Admits c := by
  induction conditions generalizing es attributes choices b with
  | nil => exact fun _ hd => absurd hd List.not_mem_nil
  | cons d more ih =>
      cases attributes with
      | nil => cases hlength
      | cons c others =>
          -- The first condition takes the first attribute, and the rest is a run again.
          have hsplit : d.Admits c → (∀ d ∈ more, ∃ c ∈ others, d.Admits c) →
              ∀ d' ∈ d :: more, ∃ c' ∈ c :: others, d'.Admits c' := by
            intro hfirst hmore
            refine List.forall_mem_cons.2 ⟨⟨c, List.mem_cons_self, hfirst⟩, fun d' hd => ?_⟩
            rcases hmore d' hd with ⟨c', hc, hadmits⟩
            exact ⟨c', List.mem_cons_of_mem _ hc, hadmits⟩
          have hrest : more.length = others.length := Nat.succ.inj hlength
          cases h with
          | exact compares kind value onward =>
              refine hsplit ?_ (ih hrest onward)
              unfold Condition.Admits
              split
              · exact kind
              · next w hvalue =>
                rw [Condition.isPattern, hvalue] at compares
                cases compares
              · exact ⟨kind, value⟩
          | judged present equal accepts onward =>
              exact hsplit ⟨equal, present, accepts⟩ (ih hrest onward)
          | anything wildcard kind onward =>
              refine hsplit ?_ (ih hrest onward)
              rcases d with ⟨k, value⟩
              cases value with
              | wildcard => exact kind
              | _ => cases wildcard

/-- The condition is met by an attribute: it is the wildcard, or it compares
    and the attribute is the same key, or it judges and accepts the attribute,
    which is there. Lists count as tuples throughout. -/
def Condition.MetBy (c : Condition) (v : Value) : Prop :=
  c.isWildcard = true ∨ (c.isPattern = false ∧ c.value.fixed.same v.fixed = true) ∨
    ∃ w, c.value = .validator w ∧ v.isNone = false ∧ w.accepts v.fixed = .ok true

/-- An attribute that does for a condition meets it. -/
theorem Condition.Admits.metBy {c : Condition} {kind v : Value} (hfixed : c.value.fixed = c.value)
    (h : c.Admits ⟨kind, v.fixed⟩) : c.MetBy v := by
  rcases c with ⟨own, value⟩
  unfold Condition.Admits at h
  split at h
  · next hvalue =>
    refine Or.inl ?_
    rw [Condition.isWildcard, hvalue]
  · next w hvalue =>
    refine Or.inr (Or.inr ⟨w, hvalue, ?_, h.2.2⟩)
    rw [← v.isNone_fixed]
    exact h.2.1
  · next hwildcard hvalidator =>
    refine Or.inr (Or.inl ⟨?_, by rw [hfixed]; exact h.2⟩)
    cases value with
    | validator w => exact absurd rfl (hvalidator w)
    | _ => rfl

/-- A condition that an absent attribute meets is the wildcard. -/
theorem Condition.MetBy.wildcard {c : Condition} (hpresent : c.value.isNone = false)
    (hfixed : c.value.fixed = c.value) (h : c.MetBy .none) : c.isWildcard = true := by
  rcases h with h | ⟨_, hsame⟩ | ⟨_, _, hnone, _⟩
  · exact h
  · rw [hfixed, Value.same_iff_form_eq] at hsame
    rw [Value.isNone_congr hsame] at hpresent
    cases hpresent
  · cases hnone

/-- The attributes on a run meet the conditions. A condition has taken the
    attribute that it is on, since it looked it up by name. The induction is
    on the run, with the options gone through alongside. -/
theorem Run.metBy {α : Type} {delimiters : List String} {es : Entries α}
    {request : Option Fields} {names : List String} {conditions : List Condition}
    {segments : List Segment} {tokens : List Token} {choices : List Nat} {b : Bindings}
    (hkinds : conditions.map Condition.kind = names.map .text)
    (hfixed : ∀ c ∈ conditions, c.value.fixed = c.value)
    (h : Run delimiters es (conditions.map Segment.condition ++ segments)
      ((attributesOf request names).map Token.attribute ++ tokens) none choices b) :
    ∀ c ∈ conditions, ∃ name, c.kind = .text name ∧ c.MetBy (attributeOf request name) := by
  have hlength : conditions.length = (attributesOf request names).length := by
    rw [← List.length_map (f := Condition.kind), hkinds, attributesOf, List.length_map,
      List.length_map]
  intro c hc
  rcases h.admits hlength c hc with ⟨a, ha, hadmits⟩
  rcases List.mem_map.1 ha with ⟨name, _, rfl⟩
  -- The attribute that was taken has the kind of the condition, so it is the one that the condition
  -- is on.
  have hkind : c.kind ∈ names.map Value.text := by
    rw [← hkinds]
    exact List.mem_map_of_mem hc
  rcases List.mem_map.1 hkind with ⟨own, _, hown⟩
  have hform := hadmits.kind
  rw [← hown] at hform
  refine ⟨name, ?_, hadmits.metBy (hfixed c hc)⟩
  rw [← hown]
  exact congrArg Value.text (Form.text.inj hform)

namespace Router

/-- A path in force has a condition on every attribute of the options, and
    none of them requires that the attribute is absent, or a list. Where
    nothing was required the condition is the wildcard, and a list was fixed
    as a tuple when the route was made. -/
theorem Reachable.conditions {r : Router} (h : Reachable r) {id : PathId} {p : Path}
    (hp : (id, p) ∈ r.entered) : p.conditions.map Condition.kind = r.options.methods ∧
      ∀ c ∈ p.conditions, c.value.isNone = false ∧ c.value.fixed = c.value := by
  rcases h.exists_route _ hp with ⟨spec, route, hroute, hmem⟩
  rcases spec.paths_of_route? hroute with ⟨conditions, hconditions, hpaths⟩
  rw [(hpaths p hmem).1]
  exact ⟨conditionSegments_kinds hconditions, conditionSegments_values hconditions⟩

variable {r : Router} {request : Option Fields} {path : Option String} {m : Match}

/-- The conditions of a path that is found are met, one for every attribute
    that the options name. So a request that is not there finds no path with a
    condition, unless nothing at all has one of the attributes. What it means
    to meet a condition is said without the tree: the value is equal, or the
    validator accepts it, or anything will do. -/
theorem conditions_of_recognize (h : Reachable r)
    (hmatch : r.recognize request path = .ok (some m)) :
    ∃ p, (m.path, p) ∈ r.entered ∧ p.conditions.map Condition.kind = r.options.methods ∧
      (∀ c ∈ p.conditions, ∃ name, c.kind = .text name ∧ c.MetBy (attributeOf request name)) ∧
      (request = none →
        (∀ name, .text name ∈ r.options.methods → Host.inherent name = .none) →
        ∀ c ∈ p.conditions, c.isWildcard = true) := by
  rcases exists_text_of_recognize hmatch with ⟨text, _, hmatch⟩
  rw [matchPath_eq] at hmatch
  rcases bind_eq_ok.1 hmatch with ⟨tokens, htokens, hmatch⟩
  rcases attributeTokens_eq_fixed htokens with ⟨names, hnames, rfl⟩
  rcases bind_eq_ok.1 hmatch with ⟨found, hfind, hmatch⟩
  rcases Option.map_eq_some_iff.1 (Except.ok.inj hmatch) with ⟨⟨id, b⟩, rfl, rfl⟩
  -- What is found is on a run of the path, and a run has taken the attributes by the conditions.
  rcases h.coherent.built.run_of_find (.of_append _ _) hfind with ⟨p, hp, choices, hrun⟩
  rcases h.conditions hp with ⟨hkinds, hvalues⟩
  have hmet := hrun.metBy (hkinds.trans hnames) fun c hc => (hvalues c hc).2
  refine ⟨p, hp, hkinds, hmet, fun hnone hnature c hc => ?_⟩
  rcases hmet c hc with ⟨name, hkind, hmeets⟩
  have hname : .text name ∈ r.options.methods := by
    rw [← hkinds, ← hkind]
    exact List.mem_map_of_mem hc
  -- Without a request every attribute is absent, which only a wildcard takes.
  have habsent : attributeOf request name = .none := by
    rw [hnone]
    exact hnature name hname
  rw [habsent] at hmeets
  exact hmeets.wildcard (hvalues c hc).1 (hvalues c hc).2

omit [Host] in
/-- A request for a route that is there for one list of subdomains. -/
theorem conditions_of_recognize_list :
    let _ : Host := .idle
    let options : Options := ⟨defaultDelimiters, defaultMethods.map .text⟩
    let r := ((make options).add
      ⟨"/p", [], [("subdomains", .list [.text "a"])], [], .none, .none, .none, []⟩).router
    let request : Fields := [("subdomains", .list [.text "a"])]
    let m : Match := ⟨⟨0, 0⟩, []⟩
    r.recognize (some request) (some "/p") = .ok (some m) ∧
      ∃ p, (m.path, p) ∈ r.entered ∧ ∀ c ∈ p.conditions, ∃ name, c.kind = .text name ∧
        c.MetBy (attributeOf (some request) name) := by
  intro _ options r request m
  have hmake : Options.make? .none .none = .ok options := by cbv
  have hmatch : r.recognize (some request) (some "/p") = .ok (some m) := by
    unfold r options
    cbv
  rcases conditions_of_recognize (.step (.make hmake) (.add _ _)) hmatch with
    ⟨p, hp, _, hmet, _⟩
  exact ⟨hmatch, p, hp, hmet⟩

omit [Host] in
/-- A validator is asked about the tuple of a list, and may accept that when
    it refuses the list. -/
theorem exists_match_of_refused_list :
    let _ : Host := .idle
    let options : Options := ⟨defaultDelimiters, defaultMethods.map .text⟩
    let request : Fields := [("subdomains", .list [.text "a"])]
    let sent : Value := attributeOf (some request) "subdomains"
    ∃ (x : Regex) (r : Router) (m : Match) (p : Path) (c : Condition),
      Regex.compile? Host.character ".*,." .plain = .ok x ∧
      r = ((make options).add
        ⟨"/p", [], [("subdomains", .regex x)], [], .none, .none, .none, []⟩).router ∧
      r.Reachable ∧
      r.recognize (some request) (some "/p") = .ok (some m) ∧
      (m.path, p) ∈ r.entered ∧ c ∈ p.conditions ∧ c.kind = .text "subdomains" ∧
      ¬(c.isWildcard = true ∨ c.value.fixed.same sent.fixed = true ∨
        ∃ w, c.value = .validator w ∧ sent.isNone = false ∧
          w.accepts sent = .ok true) := by
  intro _ options request sent
  have hmake : Options.make? .none .none = .ok options := by cbv
  have hread : Regex.read? Host.character .plain ".*,.".toList =
      .ok (.seq (.loop 0 none .greedy .any) (.seq (.char 44) .any), .plain) := by cbv
  let x : Regex := ⟨".*,.", .plain, _, _, .plain, hread⟩
  have hcompile : Regex.compile? Host.character ".*,." .plain = .ok x := by cbv
  let r := ((make options).add
    ⟨"/p", [], [("subdomains", .regex x)], [], .none, .none, .none, []⟩).router
  let conditions : List Condition := (defaultMethods.dropLast.map fun name =>
    ⟨.text name, .wildcard⟩) ++ [⟨.text "subdomains", .validator (.regex x)⟩]
  let p : Path := ⟨conditions, [.separator "/", .literal "p"]⟩
  have hentered : r.entered = [(⟨0, 0⟩, p)] := by
    unfold r p conditions options
    cbv
  -- The list of one item is written without a comma, and the tuple of it with one.
  have hrefuses : @Validator.accepts Host.idle (.regex x) sent = .ok false := by
    unfold sent request
    cbv
  have hmatch : r.recognize (some request) (some "/p") = .ok (some ⟨⟨0, 0⟩, []⟩) := by
    unfold r options
    set_option maxRecDepth 4000 in
    cbv
  refine ⟨x, r, _, p, _, hcompile, rfl, .step (.make hmake) (.add _ _), hmatch, ?_,
    List.mem_append_right _ (List.mem_singleton_self _), rfl, ?_⟩
  · rw [hentered]
    exact List.mem_singleton_self _
  · intro hmet
    rcases hmet with h | h | ⟨w, hw, _, haccepts⟩
    · cases h
    · cases h
    · cases hw
      rw [hrefuses] at haccepts
      cases haccepts

end Router

end PathRouting
