import PathRouting.Proofs.Router.Order
import PathRouting.Proofs.Trie.Cursor

/-!
# Recognition Does Not Stumble

What a request brings is not under the control of a router: its attributes may
be of any kind, with lists and dictionaries among them that no table can be
asked for, and its path may be any text. A router is to find a path for it or
none, and to fail only where something fails that it was given: a validator,
or an attribute whose name is not a text.

Both tellings of the search are covered. The one over lists of tokens finds
something or nothing, and the one by position and slot finds the same, which
means that it never reads behind the last token, never writes to a slot that
is not there, and comes to an end.

## Main definitions

* `PathText`: The path text that a request is recognized by.

## Theorems

* `Router.recognize_eq_matchPath`: A request is recognized by its path text.
* `Router.Coherent.searchAt_eq_find`: The search by position finds what the
  search finds.
* `Router.recognize_safe`: Where validators are total, a request leads
  somewhere or nowhere.
-/

namespace PathRouting

/-- The path text that a request is recognized by: the one that is given, or
    else its own. -/
def PathText (request : Option Fields) (path : Option String) (text : String) : Prop :=
  path = some text ∨
    path = none ∧ (request.bind fun fields => fields.lookup "path") = some (.text text)

namespace Router

variable [Host] {r : Router}

/-- A request is recognized by its path text. -/
theorem recognize_eq_matchPath {request : Option Fields} {path : Option String} {text : String}
    (h : PathText request path text) : r.recognize request path = r.matchPath text request := by
  rcases h with rfl | ⟨rfl, hown⟩
  · rfl
  · rw [recognize, hown]

/-- The variables in the tree of a router have what they need, so the search
    by position finds what the search finds. -/
theorem Coherent.searchAt_eq_find (h : Coherent r) (tokens : List Token) :
    r.table.trie.searchAt r.options.delimiters tokens 0 [] none =
      raised (r.table.trie.find r.options.delimiters tokens) :=
  Trie.searchAt_eq_find fun _ hcarries =>
    Trie.Holds.fits_of_carries hcarries h.built.holds h.built.sound

/-- Where the validators of a router come out with a verdict on what a request
    puts to them and the attributes that conditions may be on are named by
    texts, the request is recognized without a failure, whatever its
    attributes are. One that cannot be a key is not looked up, and only
    conditions that judge are asked about it. The search by position and slot
    comes to the same answer, without reading a token or writing to a slot
    that is not there. -/
theorem recognize_safe (h : Reachable r) {request : Option Fields} (htotal : Total r request)
    (hnames : ∀ kind ∈ r.options.methods, ∃ name, kind = .text name) {path : Option String}
    {text : String} (htext : PathText request path text) :
    ∃ attributes found, attributeTokens r.options.methods request = .ok attributes ∧
      r.recognize request path = .ok found ∧
      r.table.trie.searchAt r.options.delimiters
          (attributes ++ (Tokens.tokens r.options.delimiters text).map .ofText) 0 [] none =
        .ok (found.map fun m => (m.path, m.bindings)) := by
  rcases exists_attributeTokens request hnames with ⟨attributes, hattributes⟩
  rcases h.coherent.exists_matchPath htotal hnames text with ⟨found, hfound⟩
  refine ⟨attributes, found, hattributes, (recognize_eq_matchPath htext).trans hfound, ?_⟩
  rw [h.coherent.searchAt_eq_find]
  -- The match is made of the answer of the search over the same tokens.
  rw [matchPath_eq, hattributes] at hfound
  rcases bind_eq_ok.1 hfound with ⟨_, hsame, hfound⟩
  cases hsame
  rcases bind_eq_ok.1 hfound with ⟨answer, hfind, hmatch⟩
  rw [hfind, ← Except.ok.inj hmatch, Option.map_map]
  exact congrArg Except.ok Option.map_id'.symm

omit [Host] in
/-- A router with a glob and a greedy variable, and a request whose attributes
    no table can be asked for. The greedy match ends behind the last token. -/
theorem recognize_safe_of_unhashable :
    let _ : Host := .idle
    let options : Options := ⟨defaultDelimiters, defaultMethods.map .text⟩
    let spec := fun pattern => (⟨pattern, [], [], [], .none, .none, .none, []⟩ : RouteSpec)
    let r := (((make options).add (spec "/*dirs/edit")).router.add
      (spec "/x/\x7b!rest,.*\x7d")).router
    let request : Option Fields := some [("method", .list [.list []]), ("host", .dict [])]
    ∃ attributes, attributeTokens r.options.methods request = .ok attributes ∧
      Trie.searchAt r.options.delimiters (attributes ++
          (Tokens.tokens r.options.delimiters "/x/a/b").map .ofText) 0 r.table.trie [] none =
        .ok (some (⟨1, 0⟩, [("rest", .one (.text "a/b"))])) := by
  intro _ options spec r request
  have hmake : Options.make? .none .none = .ok options := by cbv
  have hreachable : Reachable r := .step (.step (.make hmake) (.add _ _)) (.add _ _)
  have hplain : ((r.paths.flatMap Path.conditions).all fun c => !c.isPattern) = true := by
    unfold r spec options
    cbv
  -- The only validator is the expression of the greedy variable.
  have hkinds : ((r.paths.flatMap Path.parts).filterMap fun s =>
      s.var?.bind Variable.validator).map Validator.kind = ["RegexValidator"] := by
    unfold r spec options
    cbv
  have htotal : Total r request := by
    refine hreachable.coherent.total_of_plain (fun p hp c hc => ?_) (fun p hp v hv s => ?_) request
    · simpa using List.all_eq_true.1 hplain c (List.mem_flatMap.2 ⟨p, hp, hc⟩)
    · rw [Variable.accepts]
      cases hw : v.validator with
      | none => exact ⟨true, rfl⟩
      | some w =>
          have hkind : w.kind ∈ ["RegexValidator"] := by
            rw [← hkinds]
            exact List.mem_map_of_mem
              (List.mem_filterMap.2 ⟨_, List.mem_flatMap.2 ⟨p, hp, hv⟩, hw⟩)
          cases w with
          | regex e => exact ⟨_, rfl⟩
          | _ => simp [Validator.kind] at hkind
  have hmethods : r.options.methods = defaultMethods.map .text := by
    unfold r spec options
    cbv
  have hnames : ∀ kind ∈ r.options.methods, ∃ name, kind = .text name := by
    intro kind hkind
    rw [hmethods] at hkind
    rcases List.mem_map.1 hkind with ⟨name, _, rfl⟩
    exact ⟨name, rfl⟩
  have hmatch : (r.recognize request (some "/x/a/b")).map (Option.map fun m =>
      (m.path, m.bindings)) = .ok (some (⟨1, 0⟩, [("rest", .one (.text "a/b"))])) := by
    unfold r request spec options
    cbv
  have htext : PathText request (some "/x/a/b") "/x/a/b" := Or.inl rfl
  rcases recognize_safe hreachable htotal hnames htext with
    ⟨attributes, found, hattributes, hfound, hsearch⟩
  rw [hfound] at hmatch
  exact ⟨attributes, hattributes, hsearch.trans (congrArg Except.ok (Except.ok.inj hmatch))⟩

omit [Host] in
/-- An attribute without a name cannot be asked of a request, although a
    router can be set up with it. -/
theorem recognize_ne_ok_of_unnamed :
    let _ : Host := .idle
    let options : Options := ⟨defaultDelimiters, [.none]⟩
    let spec : RouteSpec := ⟨"/a", [], [], [], .none, .none, .none, []⟩
    let r := ((make options).add spec).router
    Options.make? .none (.tuple [.none]) = .ok options ∧ r.Reachable ∧
      (∀ request, r.Total request) ∧ (r.routes.map Route.pattern = ["/a"]) ∧
      r.recognize none (some "/a") = .error (.type .notText) := by
  intro _ options spec r
  have hmake : Options.make? .none (.tuple [.none]) = .ok options := by cbv
  have hreachable : Reachable r := .step (.make hmake) (.add _ _)
  have hplain : ((r.paths.flatMap Path.conditions).all fun c => !c.isPattern) = true := by
    unfold r spec options
    cbv
  have hnone : ((r.paths.flatMap Path.parts).all fun s => !s.isVariable) = true := by
    unfold r spec options
    cbv
  -- There is no validator at all in the path, so the failure is that of the attribute alone.
  refine ⟨hmake, hreachable, fun request => ?_, ?_, ?_⟩
  · refine hreachable.coherent.total_of_plain (fun p hp c hc => ?_) (fun p hp v hv s => ?_) request
    · simpa using List.all_eq_true.1 hplain c (List.mem_flatMap.2 ⟨p, hp, hc⟩)
    · have hvariable := List.all_eq_true.1 hnone _ (List.mem_flatMap.2 ⟨p, hp, hv⟩)
      cases hvariable
  · unfold r spec options
    cbv
  · unfold r spec options
    cbv

end Router

end PathRouting
