import PathRouting.Proofs.Route.CleanValues
import PathRouting.Proofs.Router.Order

/-!
# A Match Is Rendered as the Text It Came From

A text is cut into tokens, and a match accounts for all of them: on the run of
a path without globs, every segment takes one token. A literal or a separator
is its token, and a variable is bound to it. Rendering the path puts the
tokens back, one for each segment.

What a variable is bound to was accepted by the validator of the node it was
found at. The node may have been made for a variable of another route, but
variables share a node only if they accept the same, so the run of the path
itself says that its own variable accepts the token. The bindings go over the
defaults of the route and win, and the names of the variables are distinct, so
each of them finds its own token again. A token of unreserved characters is
written as it is.

## Theorems

* `Layout.names`: A match binds the variables of the path, in order.
* `Run.renderParts_eq`: The parts on a run are rendered as its tokens.
* `Router.Coherent.exists_run`: What is recognized is on a run of the path
  proper.
* `Router.render_of_recognize`: A path without globs is rendered as the text
  it matched.
-/

namespace PathRouting

variable {α : Type} {delimiters : List String}

/-- A match binds the variables of the path in order, and nothing else. -/
theorem Layout.names {parts : List Segment} {pieces : List String} {b : Bindings}
    (h : Layout delimiters parts pieces b) : b.map Prod.fst = Pattern.variableNames parts := by
  induction h with
  | nil => rfl
  | literal onward ih | separator onward ih => exact ih
  | single kind mark onward ih | greedy kind spells onward ih => exact congrArg (_ :: ·) ih
  | @several s piece separators v parts pieces b kind greedy mark among ends onward ih =>
      have hseparators : Pattern.variableNames (separators.map Segment.separator) = [] := by
        rw [Pattern.variableNames, List.filterMap_map]
        exact List.filterMap_eq_nil_iff.2 fun _ _ => rfl
      have hnames : Pattern.variableNames (.var v :: (separators.map Segment.separator ++ parts)) =
          v.name :: (Pattern.variableNames (separators.map Segment.separator) ++
            Pattern.variableNames parts) :=
        congrArg (v.name :: ·) List.filterMap_append
      rw [hnames, hseparators, List.map_cons, ih]
      rfl

variable [Host] {pattern delimiter safe : String} {params : Fields}

/-- A variable writes an unreserved text that it accepts as it is. -/
theorem renderVariable_eq_self {v : Variable} {s : String}
    (haccepts : v.accepts (.text s) = .ok true)
    (hs : ∀ c ∈ s.toList, Text.isUnreserved c = true) :
    renderVariable pattern delimiter safe v (.text s) = .ok s := by
  have hvalid : validate pattern v [s] = .ok () :=
    validate_eq_ok.2 fun t ht => List.mem_singleton.1 ht ▸ haccepts
  rw [renderVariable, renderText, hvalid, Text.percentEncode_eq_self _ hs]
  rfl

/-- The parts on a run are rendered as its tokens, if the parameters give back
    what was bound and need no encoding. The induction is on the run, which
    never opens a glob. A variable was asked by the search for the very text
    that the rendering asks it for, so no check can fail. -/
theorem Run.renderParts_eq {es : Entries α} {parts : List Segment} {tokens : List Token}
    {glob : Option OpenGlob} {choices : List Nat} {b : Bindings}
    (hrun : Run delimiters es parts tokens glob choices b) (hglob : glob = none)
    (hsingle : ∀ v, Segment.var v ∈ parts → v.glob = none) {pieces : List String}
    (htokens : tokens = pieces.map Token.ofText)
    (hparams : ∀ name s, (name, .one (.text s)) ∈ b → params.lookup name = some (.text s) ∧
      ∀ c ∈ s.toList, Text.isUnreserved c = true) :
    renderParts pattern delimiter safe params parts = .ok (String.join pieces) := by
  induction hrun generalizing pieces with
  | stop =>
      rw [List.map_eq_nil_iff.1 htokens.symm]
      rfl
  | exact | judged | anything => cases pieces <;> cases htokens
  | @literal es s segments rest glob choices b onward ih =>
      rcases List.map_eq_cons_iff.1 htokens.symm with ⟨x, pieces, rfl, hx, htexts⟩
      cases hx
      subst hglob
      have hrest := ih rfl (fun v hv => hsingle v (List.mem_cons_of_mem _ hv)) htexts.symm hparams
      rw [renderParts_cons_text rfl rfl, hrest, String.join_cons]
      rfl
  | @separator es s segments rest glob choices b onward ih =>
      rcases List.map_eq_cons_iff.1 htokens.symm with ⟨x, pieces, rfl, hx, htexts⟩
      cases hx
      have hrest := ih hglob (fun v hv => hsingle v (List.mem_cons_of_mem _ hv)) htexts.symm hparams
      rw [renderParts_cons_text rfl rfl, hrest, String.join_cons]
      rfl
  | @single es s v segments rest glob choices b mark kind accepts onward ih =>
      rcases List.map_eq_cons_iff.1 htokens.symm with ⟨x, pieces, rfl, hx, htexts⟩
      cases hx
      subst hglob
      have hrest := ih rfl (fun u hu => hsingle u (List.mem_cons_of_mem _ hu)) htexts.symm
        fun name t ht => hparams name t (List.mem_cons_of_mem _ ht)
      -- The parameter is the token that was bound. The validator accepted it on the run, and it
      -- needs no encoding, so it is rendered as it is.
      rcases hparams v.name s List.mem_cons_self with ⟨hlookup, hs⟩
      have hvalue : valueFor pattern v params = .ok (.text s) := by
        rw [valueFor, hlookup]
        rfl
      rw [renderParts, hvalue, hrest, String.join_cons]
      exact congrArg (· >>= fun front => .ok (front ++ String.join pieces))
        (renderVariable_eq_self accepts hs)
  | several mark kind greedy accepts onward ih | greedy mark kind =>
      rw [hsingle _ List.mem_cons_self] at kind
      cases kind
  | skip | take => cases hglob

namespace Router

variable {r : Router} {request : Option Fields} {path : Option String} {m : Match}

/-- What is recognized is the path text of the request, unless one was given. -/
theorem exists_text_of_recognize (h : r.recognize request path = .ok (some m)) :
    ∃ text, (path = some text ∨ path = none ∧
      (request.bind fun fields => fields.lookup "path") = some (.text text)) ∧
      r.matchPath text request = .ok (some m) := by
  unfold recognize at h
  split at h
  · next text => exact ⟨text, Or.inl rfl, h⟩
  · split at h
    · cases h
    · next text hpath => exact ⟨text, Or.inr ⟨rfl, hpath⟩, h⟩
    · cases h

/-- What is found for a path text is a path in force, and the tokens of the
    text are on a run of the path proper. -/
theorem Coherent.exists_run (h : Coherent r) {text : String}
    (hmatch : r.matchPath text request = .ok (some m)) :
    ∃ p, (m.path, p) ∈ r.entered ∧ ∃ (es : Entries PathId) (choices : List Nat),
      Run r.options.delimiters es p.parts
        ((Tokens.tokens r.options.delimiters text).map Token.ofText) none choices m.bindings := by
  rw [matchPath_eq] at hmatch
  rcases bind_eq_ok.1 hmatch with ⟨tokens, htokens, hmatch⟩
  rcases attributeTokens_eq_ok htokens with ⟨attributes, rfl, _⟩
  rcases bind_eq_ok.1 hmatch with ⟨found, hfind, hmatch⟩
  rcases Option.map_eq_some_iff.1 (Except.ok.inj hmatch) with ⟨⟨id, b⟩, rfl, rfl⟩
  rcases h.built.run_of_find (.of_append attributes _) hfind with ⟨p, hp, choices, hrun⟩
  have hparts : ∀ c, Segment.condition c ∉ p.parts :=
    fun c hc => (h.built.compiled _ hp).fits _ hc
  rcases hrun.exists_parts hparts with ⟨es, others, hproper⟩
  exact ⟨p, hp, es, others, hproper⟩

omit [Host] in
/-- What is bound in a match is a parameter of it, whatever the defaults of
    the route are. Defaults come first and are overridden, also those for
    variables of another path of the route. -/
theorem lookup_params (hnames : (m.bindings.map Prod.fst).Nodup) {name s : String}
    (hmem : (name, .one (.text s)) ∈ m.bindings) :
    (r.params m).lookup name = some (.text s) := by
  refine Fields.lookup_update ?_ (List.mem_map.2 ⟨_, hmem, rfl⟩) _
  rw [Fields.names, List.map_map]
  exact hnames

/-- A path without globs is rendered as the text that it matched, from the
    parameters of the match, if all that was bound consists of unreserved
    characters. The variable at a node may be that of another route; since
    both have one position, it has accepted what this one would accept. -/
theorem render_of_recognize (h : Reachable r) (hmatch : r.recognize request path = .ok (some m)) :
    ∃ text route p, (path = some text ∨ path = none ∧
        (request.bind fun fields => fields.lookup "path") = some (.text text)) ∧
      r.route? m.path.route = some route ∧ route.paths[m.path.position]? = some p ∧
      ((∀ v ∈ p.binders, v.isGlob = false) →
        (∀ name s, (name, .one (.text s)) ∈ m.bindings →
          ∀ c ∈ s.toList, Text.isUnreserved c = true) →
        route.render p (r.params m) = .ok text) := by
  have hcoherent := h.coherent
  rcases exists_text_of_recognize hmatch with ⟨text, htext, hfound⟩
  rcases hcoherent.exists_run hfound with ⟨p, hp, es, choices, hrun⟩
  rcases mem_entered.1 hp with ⟨_, route, hroute, hposition⟩
  have hcompiled := hcoherent.built.compiled _ hp
  refine ⟨text, route, p, htext, hroute, hposition, fun hglobs hclean => ?_⟩
  have hsingle : ∀ v, Segment.var v ∈ p.parts → v.glob = none := by
    intro v hv
    have hglob := hglobs v (Path.mem_binders hv)
    rwa [Variable.isGlob, Option.isSome_eq_false_iff, Option.isNone_iff_eq_none] at hglob
  -- What is bound are the variables of the path, and these have names of their own.
  have hnames : (m.bindings.map Prod.fst).Nodup := by
    have hmarks : ∀ mark, Segment.separator mark ∈ p.parts →
        Tokens.isDelimiter r.options.delimiters mark = true := by
      intro mark hmark
      rcases hcompiled.fits _ hmark with ⟨c, _, hc⟩
      exact hc
    have hlayout : Layout _ _ _ _ := hrun.behind_of_parts rfl hmarks
    rw [hlayout.names]
    exact hcompiled.nodup_variableNames
  -- A route writes with the delimiters that the router reads with.
  have hdelimiters : route.delimiters ≠ [] := by
    rcases hcoherent.valid with ⟨given, methods, hvalid⟩
    rw [(h.furnished.route _ route hroute).1]
    exact (Options.single hvalid).1
  rcases route.exists_render hdelimiters with ⟨delimiter, _, safe, hrenders⟩
  have hrendered : renderParts route.pattern delimiter safe (r.params m) p.parts =
      .ok (String.join (Tokens.tokens r.options.delimiters text)) :=
    hrun.renderParts_eq rfl hsingle rfl fun name s hmem =>
      ⟨lookup_params hnames hmem, hclean name s hmem⟩
  rw [hrenders, hrendered, Tokens.join_tokens]

omit [Host] in
/-- The variable stands at the node of another route, and the route has a
    default besides. -/
theorem render_of_recognize_shared :
    let _ : Host := .idle
    let options : Options := ⟨defaultDelimiters, defaultMethods.map .text⟩
    let spec := fun pattern defaults =>
      (⟨pattern, [], [], defaults, .none, .none, .none, []⟩ : RouteSpec)
    let r := ((make options).add (spec "/:id/edit" [])).router
    let r' := (r.add (spec "/:id(/:page)" [("page", .int 1)])).router
    let m : Match := ⟨⟨1, 1⟩, [("id", .one (.text "a-42"))]⟩
    r'.recognize none (some "/a-42") = .ok (some m) ∧
      ∃ route p, r'.route? 1 = some route ∧ route.paths[1]? = some p ∧
        route.render p (r'.params m) = .ok "/a-42" := by
  intro _ options spec r r' m
  have hmake : Options.make? .none .none = .ok options := by cbv
  have hreachable : r'.Reachable :=
    .step (.step (.make hmake) (.add _ _)) (.add _ _)
  have hmatch : r'.recognize none (some "/a-42") = .ok (some m) := by
    unfold r' r m spec options
    cbv
  rcases render_of_recognize hreachable hmatch with
    ⟨text, route, p, htext, hroute, hp, hrender⟩
  have htext : text = "/a-42" := by
    rcases htext with hgiven | ⟨hnone, _⟩
    · exact (Option.some.inj hgiven).symm
    · cases hnone
  -- What the law asks of the path and of what was bound is computed.
  have hglobs : ∀ v ∈ p.binders, v.isGlob = false := by
    have hall : ((r'.route? 1).bind fun x => x.paths[1]?).all
        (fun q => q.binders.all fun v => !v.isGlob) = true := by
      unfold r' r spec options
      cbv
    have hroute : r'.route? 1 = some route := hroute
    have hp : route.paths[1]? = some p := hp
    rw [hroute, Option.bind_some, hp, Option.all_some, List.all_eq_true] at hall
    intro v hv
    simpa using hall v hv
  have hclean : ∀ name s, (name, .one (.text s)) ∈ m.bindings →
      ∀ c ∈ s.toList, Text.isUnreserved c = true := by
    intro name s hmem
    cases List.mem_singleton.1 hmem
    have hall : "a-42".toList.all Text.isUnreserved = true := by cbv
    exact List.all_eq_true.1 hall
  rw [htext] at hrender
  exact ⟨hmatch, route, p, hroute, hp, hrender hglobs hclean⟩

end Router

end PathRouting
