import PathRouting.Proofs.Router.Ambiguity
import PathRouting.Proofs.Trie.Order
import PathRouting.Router.Recognition

/-!
# The Order of Registration

Routes may be registered in any order. Whether all of them are accepted is a
matter of each on its own and of pairs of paths, and a conflict has no
direction. What a request leads to is then a matter of the paths that are
there: the trees differ in shape, but they hold the same paths and give the
same answers.

Routes are known by number, and the numbers do depend on the order. What is
compared are the routes behind them.

## Main definitions

* `Router.addAll`: Several registrations.
* `RouteSpec.paths`: The paths of a route that is asked for.
* `RouteSpec.Addable`: Nothing is wrong with the route in itself.
* `Router.shown`: A match without the number of its route.

## Theorems

* `Router.Coherent.addAll_eq_ok`: When all of several routes are accepted.
* `Router.routes_addAll`: The routes in force after several registrations.
* `Router.recognize_of_perm`: The order of registration makes no difference.
-/

namespace PathRouting

/-- The paths of the route that is asked for; none if it cannot be made. -/
def RouteSpec.paths [Host] (options : Options) (spec : RouteSpec) : List Path :=
  match spec.route? options with
  | .ok route => route.paths
  | .error _ => []

theorem RouteSpec.paths_eq [Host] {options : Options} {spec : RouteSpec} {route : Route}
    (h : spec.route? options = .ok route) : spec.paths options = route.paths := by
  rw [paths, h]

/-- The route under the name it is registered by. -/
def RouteSpec.named (spec : RouteSpec) (route : Route) : Route :=
  if spec.name.isNone then route else { route with name := spec.name }

theorem RouteSpec.paths_named (spec : RouteSpec) (route : Route) :
    (spec.named route).paths = route.paths := by
  unfold named
  split <;> rfl

/-- The route that is asked for, as it is registered. -/
def RouteSpec.registered? [Host] (options : Options) (spec : RouteSpec) : Option Route :=
  match spec.route? options with
  | .ok route => some (spec.named route)
  | .error _ => none

theorem RouteSpec.flatMap_registered? [Host] (options : Options) (specs : List RouteSpec) :
    (specs.filterMap (RouteSpec.registered? options)).flatMap Route.paths =
      specs.flatMap (RouteSpec.paths options) := by
  induction specs with
  | nil => rfl
  | cons spec rest ih =>
      rw [List.filterMap_cons, List.flatMap_cons, ← ih, registered?, paths]
      cases spec.route? options with
      | error e => rfl
      | ok route => exact congrArg (· ++ _) (spec.paths_named route)

/-- Nothing is wrong with the route in itself: it can be made, its name may be
    a key, and its paths can be filed. -/
def RouteSpec.Addable [Host] (options : Options) (spec : RouteSpec) : Prop :=
  spec.name.isKey = true ∧ ∃ route, spec.route? options = .ok route ∧
    ∀ p ∈ route.paths, ∀ s ∈ p.segments, s.isFileable = true

namespace Router

/-- The router with several routes added, if none of them is refused. The
    first refusal ends it, so that the routes behind it are not tried. -/
def addAll [Host] : List RouteSpec → Router → Except Fault Router
  | [], r => .ok r
  | spec :: rest, r =>
    match (r.add spec).outcome with
    | .error e => .error e
    | .ok _ => addAll rest (r.add spec).router

/-- A match without the number of its route, which tells nothing about the route. -/
def shown (r : Router) (m : Match) : Option Route × Nat × Bindings :=
  (r.route? m.path.route, m.path.position, m.bindings)

variable {r r' : Router} {spec : RouteSpec} {specs : List RouteSpec}

/-- A registration succeeds if the name may be a key and the paths pass the rehearsal. -/
theorem add_eq_ok [Host] :
    (∃ n, (r.add spec).outcome = .ok n) ↔
      spec.name.isKey = true ∧ ∃ route, spec.route? r.options = .ok route ∧ r.Stages route := by
  by_cases hstaged : ∃ route, spec.route? r.options = .ok route ∧ r.Stages route
  · rcases hstaged with ⟨route, hroute, hstages⟩
    -- Past the rehearsal, only the name can be refused.
    rw [(add_eq_of_staged hroute hstages).2]
    constructor
    · intro hok
      rcases hok with ⟨n, hn⟩
      split at hn
      · next hkey => exact ⟨hkey, route, hroute, hstages⟩
      · cases hn
    · intro hboth
      exact ⟨_, if_pos hboth.1⟩
  · rcases add_of_not_staged fun route hroute hstages => hstaged ⟨route, hroute, hstages⟩ with
      ⟨e, events, hfails⟩
    have hadd : r.add spec = ⟨r, .error e, events⟩ := hfails spec.name
    refine iff_of_false (fun hok => ?_) fun hboth => hstaged hboth.2
    rcases hok with ⟨n, hn⟩
    rw [hadd] at hn
    cases hn

/-- A registration that succeeds puts its route in force, under its name. -/
theorem add_of_ok [Host] {n : Nat} (h : (r.add spec).outcome = .ok n) :
    ∃ route, spec.route? r.options = .ok route ∧ (r.add spec).router.options = r.options ∧
      (r.add spec).router.catalog = r.catalog ++ [spec.named route] ∧
      (r.add spec).router.table.routes = r.table.routes ++ [r.catalog.length] := by
  rcases add_eq_ok.1 ⟨n, h⟩ with ⟨hkey, route, hroute, hstages⟩
  have hlive := Trie.insertAll_ok_of_stageAll_ok _ (Trie.rehearsed_empty r.table.trie) hstages
  have hroutes := (add_eq_of_staged hroute hstages).1
  -- What the registration does is computed, with and without a name to be given.
  unfold Stages at hstages
  by_cases hnone : spec.name.isNone = true
  · refine ⟨route, hroute, ?_, ?_, hroutes⟩
    · simp only [add, hroute, hstages, hlive, if_pos hnone]
      rfl
    · simp only [add, hroute, hstages, hlive, if_pos hnone, RouteSpec.named]
      rfl
  · refine ⟨route, hroute, ?_, ?_, hroutes⟩
    · simp only [add, hroute, hstages, hlive, if_neg hnone, nameRoute, if_pos hkey]
      rfl
    · simp only [add, hroute, hstages, hlive, if_neg hnone, nameRoute, if_pos hkey,
        RouteSpec.named, modifyRoute, commit]
      simp [List.modify_eq_take_drop]

/-- The routes in force after a registration that succeeds. -/
theorem Coherent.routes_add [Host] (h : Coherent r) {n : Nat}
    (hok : (r.add spec).outcome = .ok n) :
    (r.add spec).router.routes = r.routes ++ (spec.registered? r.options).toList := by
  rcases add_of_ok hok with ⟨route, hroute, _, hcatalog, hroutes⟩
  have hold : ∀ n ∈ r.table.routes, (r.add spec).router.route? n = r.route? n := by
    intro n hn
    rw [route?, hcatalog, List.getElem?_append_left (h.known n hn), route?]
  have hnew : (r.add spec).router.route? r.catalog.length = some (spec.named route) := by
    rw [route?, hcatalog, List.getElem?_concat_length]
  rw [routes, hroutes, List.filterMap_append, List.filterMap_congr hold, routes]
  refine congrArg (r.table.routes.filterMap r.route? ++ ·) ?_
  rw [List.filterMap_cons, hnew, RouteSpec.registered?, hroute]
  rfl

theorem Coherent.paths_add [Host] (h : Coherent r) {n : Nat}
    (hok : (r.add spec).outcome = .ok n) :
    (r.add spec).router.paths = r.paths ++ spec.paths r.options := by
  rcases add_of_ok hok with ⟨route, hroute, _⟩
  rw [paths, h.routes_add hok, List.flatMap_append, RouteSpec.paths_eq hroute,
    RouteSpec.registered?, hroute, Option.toList_some, List.flatMap_singleton,
    RouteSpec.paths_named]
  rfl

/-- All of several routes are accepted if nothing is wrong with any of them,
    and none of their paths is in conflict with one in force or with another
    of theirs. Conflicts are mutual, so none of this depends on the order, and
    a permutation of the routes is accepted as well. -/
theorem Coherent.addAll_eq_ok [Host] (h : Coherent r) :
    (∃ r', addAll specs r = .ok r') ↔
      (∀ spec ∈ specs, spec.Addable r.options) ∧
      (∀ p ∈ specs.flatMap (RouteSpec.paths r.options), ∀ q ∈ r.paths,
        ¬Conflict q.segments p.segments) ∧
      (specs.flatMap (RouteSpec.paths r.options)).Pairwise fun p q =>
        ¬Conflict p.segments q.segments := by
  induction specs generalizing r with
  | nil => simp [addAll]
  | cons spec rest ih =>
      rw [List.forall_mem_cons, List.flatMap_cons, List.forall_mem_append, List.pairwise_append,
        addAll]
      cases houtcome : (r.add spec).outcome with
      | error e =>
          -- The first route is refused, for one of the reasons there are.
          refine iff_of_false (by simp) fun hall => ?_
          rcases hall with ⟨⟨⟨hkey, route, hroute, hfileable⟩, _⟩, ⟨hheld, _⟩, hpairs, _⟩
          rw [RouteSpec.paths_eq hroute] at hheld hpairs
          rcases add_eq_ok.2 ⟨hkey, route, hroute, h.stages_iff.2 ⟨hfileable, hheld, hpairs⟩⟩ with
            ⟨n, hn⟩
          rw [houtcome] at hn
          cases hn
      | ok n =>
          rcases add_of_ok houtcome with ⟨route, hroute, hoptions, _⟩
          rcases add_eq_ok.1 ⟨n, houtcome⟩ with ⟨hkey, route', hroute', hstages⟩
          cases hroute.symm.trans hroute'
          rcases h.stages_iff.1 hstages with ⟨hfileable, hheld, hpairs⟩
          have hfirst : spec.Addable r.options := ⟨hkey, route, hroute, hfileable⟩
          simp only
          rw [ih (h.add spec), hoptions, h.paths_add houtcome, RouteSpec.paths_eq hroute]
          -- The paths in force are now those from before and those of the first route.
          constructor
          · intro hall
            rcases hall with ⟨hrest, hfree, hothers⟩
            exact ⟨⟨hfirst, hrest⟩,
              ⟨hheld, fun p hp q hq => hfree p hp q (List.mem_append_left _ hq)⟩, hpairs, hothers,
              fun q hq p hp => hfree p hp q (List.mem_append_right _ hq)⟩
          · intro hall
            rcases hall with ⟨⟨_, hrest⟩, ⟨_, hfree⟩, _, hothers, hbetween⟩
            refine ⟨hrest, fun p hp q hq => ?_, hothers⟩
            rcases List.mem_append.1 hq with hq | hq
            · exact hfree p hp q hq
            · exact hbetween q hq p hp

/-- The routes in force after several registrations, and the router they leave. -/
theorem Coherent.routes_addAll [Host] (h : Coherent r) (hadded : addAll specs r = .ok r') :
    Coherent r' ∧ r'.options = r.options ∧
      r'.routes = r.routes ++ specs.filterMap (RouteSpec.registered? r.options) := by
  induction specs generalizing r with
  | nil =>
      cases hadded
      exact ⟨h, rfl, (List.append_nil _).symm⟩
  | cons spec rest ih =>
      rw [addAll] at hadded
      split at hadded
      · cases hadded
      · next n hok =>
        rcases add_of_ok hok with ⟨route, hroute, hoptions, _⟩
        rcases ih (h.add spec) hadded with ⟨hcoherent, hoptions', hroutes⟩
        refine ⟨hcoherent, hoptions'.trans hoptions, ?_⟩
        rw [hroutes, h.routes_add hok, hoptions, List.append_assoc, List.filterMap_cons]
        cases spec.registered? r.options <;> rfl

/-- The paths in force after several registrations. -/
theorem Coherent.paths_addAll [Host] (h : Coherent r) (hadded : addAll specs r = .ok r') :
    r'.paths = r.paths ++ specs.flatMap (RouteSpec.paths r.options) := by
  rw [paths, (h.routes_addAll hadded).2.2, List.flatMap_append, RouteSpec.flatMap_registered?,
    paths]

/-- What ends at the same places is the same path of the same route, whatever
    its number is, if no two paths have the same places. Numbers depend on the
    order of registration, and so do answers that consist of them; they are
    compared by the routes they stand for. -/
theorem shown_eq_of_holder (hroutes : r.routes.Perm r'.routes)
    (hdistinct : (r'.paths.map fun p => p.segments.map Segment.place).Nodup)
    {places : List Place} {a x : PathId} (b : Bindings)
    (ha : holder (entriesOf r.entered) places = some a)
    (hx : holder (entriesOf r'.entered) places = some x) :
    r.shown ⟨a, b⟩ = r'.shown ⟨x, b⟩ := by
  -- The path, and the route that it belongs to.
  rcases mem_of_holder ha with ⟨segments, hmem, hplaces⟩
  rcases List.mem_map.1 hmem with ⟨⟨_, p⟩, hp, hpair⟩
  simp only [Prod.mk.injEq] at hpair
  rcases hpair with ⟨rfl, rfl⟩
  rcases mem_entered.1 hp with ⟨hn, route, hroute, hposition⟩
  have hother : route ∈ r'.routes :=
    hroutes.mem_iff.1 (List.mem_filterMap.2 ⟨_, hn, hroute⟩)
  rcases List.mem_filterMap.1 hother with ⟨n, hn', hroute'⟩
  have hp' : (⟨n, _⟩, p) ∈ r'.entered := mem_entered.2 ⟨hn', route, hroute', hposition⟩
  -- The path that ends there in the other router can only be the same one.
  rcases mem_of_holder hx with ⟨segments', hmem', hplaces'⟩
  rcases List.mem_map.1 hmem' with ⟨⟨_, q⟩, hq, hpair⟩
  simp only [Prod.mk.injEq] at hpair
  rcases hpair with ⟨rfl, rfl⟩
  rw [← map_snd_entered, List.map_map] at hdistinct
  have hsame := List.inj_on_of_nodup_map hdistinct hp' hq (hplaces.trans hplaces'.symm)
  cases hsame
  rw [shown, shown, hroute, hroute']

variable [Host]

/-- The attributes of a request can be looked up. -/
theorem attributeTokens_eq_ok {kinds : List Value} {request : Option Fields}
    {tokens : List Token} (h : attributeTokens kinds request = .ok tokens) :
    ∃ attributes : List Condition, tokens = attributes.map Token.attribute ∧
      ∀ c ∈ attributes, c.kind.isKey = true := by
  induction kinds generalizing tokens with
  | nil =>
      cases h
      exact ⟨[], rfl, fun _ hc => absurd hc List.not_mem_nil⟩
  | cons kind rest ih =>
      rw [attributeTokens, List.mapM_cons] at h
      rcases bind_eq_ok.1 h with ⟨token, htoken, h⟩
      rcases bind_eq_ok.1 h with ⟨more, hmore, h⟩
      cases h
      rcases ih hmore with ⟨attributes, rfl, hkeys⟩
      cases kind with
      | text name =>
          cases htoken
          exact ⟨_ :: attributes, rfl, List.forall_mem_cons.2 ⟨rfl, hkeys⟩⟩
      | _ => cases htoken

/-- They are there if every attribute of the options has a text for a name. -/
theorem exists_attributeTokens {kinds : List Value} (request : Option Fields)
    (h : ∀ kind ∈ kinds, ∃ name, kind = .text name) :
    ∃ tokens, attributeTokens kinds request = .ok tokens := by
  induction kinds with
  | nil => exact ⟨[], rfl⟩
  | cons kind rest ih =>
      rcases List.forall_mem_cons.1 h with ⟨⟨name, rfl⟩, hrest⟩
      rcases ih hrest with ⟨more, hmore⟩
      unfold attributeTokens at hmore ⊢
      rw [List.mapM_cons, hmore]
      exact ⟨_, rfl⟩

/-- The search of a path text, once the attributes are there. -/
theorem matchPath_eq (r : Router) (text : String) (request : Option Fields) :
    r.matchPath text request = do
      let attributes ← attributeTokens r.options.methods request
      let found ← r.table.trie.find r.options.delimiters
        (attributes ++ (Tokens.tokens r.options.delimiters text).map .ofText)
      return found.map fun (path, bindings) => ⟨path, bindings⟩ := by
  have hbring :
      bringAttributes ((Tokens.tokens r.options.delimiters text).map .ofText) = false := by
    cases Tokens.tokens r.options.delimiters text <;> rfl
  rw [matchPath, matchTokens, hbring]
  rfl

/-- The request brings the attribute to a search. -/
def Brings (r : Router) (request : Option Fields) (c : Condition) : Prop :=
  ∃ tokens, attributeTokens r.options.methods request = .ok tokens ∧ Brought tokens c

/-- The validators of the paths in force come out with a verdict on all that a
    search for the request may put to them: its attributes, and texts. Nothing
    is asked of them on other values, which they may well fail on. -/
def Total (r : Router) (request : Option Fields) : Prop :=
  ∀ p ∈ r.paths, ∀ s ∈ p.segments, ∀ w x, s.Asks (r.Brings request) w x →
    ∃ verdict, w.accepts x = .ok verdict

/-- Where no condition judges, only the validators of variables are asked, and
    only about texts. So nothing in a request can make a search fail, and what
    the order of registration decides, who is asked first, is of no
    consequence. -/
theorem Coherent.total_of_plain (h : Coherent r)
    (hplain : ∀ p ∈ r.paths, ∀ c ∈ p.conditions, c.isPattern = false)
    (htexts : ∀ p ∈ r.paths, ∀ v, Segment.var v ∈ p.parts → ∀ s, ∃ verdict,
      v.accepts (.text s) = .ok verdict) (request : Option Fields) : Total r request := by
  intro p hp s hs w x hasks
  have hfits : ∀ s ∈ p.parts, s.Fits r.options.delimiters := by
    rw [← map_snd_entered] at hp
    rcases List.mem_map.1 hp with ⟨e, he, rfl⟩
    exact (h.built.compiled e he).fits
  -- A segment among the conditions is a condition, and no segment of the path proper is one.
  cases hasks with
  | condition here same present =>
      rcases List.mem_append.1 hs with hcondition | hpart
      · rcases List.mem_map.1 hcondition with ⟨c, hc, heq⟩
        cases heq
        exact absurd (hplain p hp _ hc) nofun
      · exact absurd (hfits _ hpart) id
  | @var v _ held text =>
      rcases List.mem_append.1 hs with hcondition | hpart
      · rcases List.mem_map.1 hcondition with ⟨_, _, heq⟩
        cases heq
      · rcases htexts p hp v hpart text with ⟨verdict, hverdict⟩
        rw [Variable.accepts, held] at hverdict
        exact ⟨verdict, hverdict⟩

/-- Where validators are total, a search over the attributes of a request and
    the tokens of a path finds something or nothing. -/
theorem Coherent.find_ne_error (h : Coherent r) {request : Option Fields}
    (htotal : Total r request) {tokens : List Token}
    (htokens : attributeTokens r.options.methods request = .ok tokens) (pieces : List String)
    (e : Fault) :
    r.table.trie.find r.options.delimiters (tokens ++ pieces.map Token.ofText) ≠ .error e := by
  have hmem : ∀ x ∈ r.entered, x.2 ∈ r.paths := by
    intro x hx
    rw [← map_snd_entered]
    exact List.mem_map_of_mem hx
  -- Texts are no attributes, so what the tokens bring is what the request brings.
  have hbrought : ∀ c, Brought (tokens ++ pieces.map Token.ofText) c → Brought tokens c := by
    intro c hc
    rcases List.mem_append.1 hc with hc | hc
    · exact hc
    · rcases List.mem_map.1 hc with ⟨s, _, heq⟩
      cases heq
  rcases attributeTokens_eq_ok htokens with ⟨attributes, rfl, hkeys⟩
  intro hfind
  -- A fault would be one of a validator that was asked, or of an attribute that cannot be looked
  -- up. Attributes are named by texts, which can.
  rcases h.built.faulty_of_find (.of_append attributes pieces) hfind with
    ⟨w, x, ⟨y, hy, s, hs, hasks⟩, haccepts⟩ | ⟨⟨c, hc, hkind⟩, _⟩
  · have hasked : s.Asks (r.Brings request) w x :=
      hasks.mono fun c hc => ⟨_, htokens, hbrought c hc⟩
    rcases htotal y.2 (hmem y hy) s hs w x hasked with ⟨verdict, hverdict⟩
    rw [haccepts] at hverdict
    cases hverdict
  · rcases List.mem_map.1 (hbrought c hc) with ⟨d, hd, heq⟩
    cases heq
    rw [hkeys c hd] at hkind
    cases hkind

/-- So every path text leads somewhere or nowhere, if the attributes have
    texts for names. -/
theorem Coherent.exists_matchPath (h : Coherent r) {request : Option Fields}
    (htotal : Total r request) (hnames : ∀ kind ∈ r.options.methods, ∃ name, kind = .text name)
    (text : String) : ∃ found, r.matchPath text request = .ok found := by
  rcases exists_attributeTokens request hnames with ⟨tokens, htokens⟩
  have hok := h.find_ne_error htotal htokens (Tokens.tokens r.options.delimiters text)
  rw [matchPath_eq, htokens]
  cases hfind : r.table.trie.find r.options.delimiters (tokens ++
      (Tokens.tokens r.options.delimiters text).map Token.ofText) with
  | error e => exact absurd hfind (hok e)
  | ok found =>
      simp only [bind, Except.bind] at hfind ⊢
      rw [hfind]
      exact ⟨_, rfl⟩

/-- Two routers have the same routes in force, in some order, and none of what
    the order could make a difference to: no condition that judges, no
    repeated expression, no fault, and no two paths with the same places.
    Names and indexes are left out, which a recognition does not look at. -/
structure Reordered (r r' : Router) : Prop where
  left : Coherent r
  right : Coherent r'
  options : r'.options = r.options
  routes : r.routes.Perm r'.routes
  plain : ∀ p ∈ r.paths, ∀ c ∈ p.conditions, c.isPattern = false
  unechoed : ∀ p ∈ r.paths, ∀ v, Segment.var v ∈ p.parts → v.echoes = false
  total : ∀ request, Total r request
  distinct : (r.paths.map fun p => p.segments.map Segment.place).Nodup

namespace Reordered

theorem paths (h : Reordered r r') : r.paths.Perm r'.paths :=
  h.routes.flatMap_right Route.paths

/-- The trees of the routers hold the same paths. -/
theorem rearranged (h : Reordered r r') :
    Trie.Rearranged r.options.delimiters r.table.trie r.entered r'.table.trie r'.entered := by
  refine ⟨h.left.built, h.options ▸ h.right.built, fun p => ?_, fun p hp s hs => ?_, ?_⟩
  · rw [map_snd_entered, map_snd_entered]
    exact h.paths.mem_iff
  · rcases List.mem_append.1 hs with hcondition | hpart
    · rcases List.mem_map.1 hcondition with ⟨c, hc, rfl⟩
      rw [map_snd_entered] at hp
      rw [Segment.place_condition (h.plain p hp c hc)]
      rfl
    · -- Compiling leaves no condition in the path proper.
      rcases List.mem_map.1 hp with ⟨e, he, rfl⟩
      have hfits := (h.left.built.compiled e he).fits s hpart
      cases s with
      | condition c => exact absurd hfits id
      | literal text | separator mark | var v => rfl
  · rw [map_snd_entered]
    exact h.unechoed

/-- What may be put to the validators is the same in both routers. -/
theorem total_right (h : Reordered r r') (request : Option Fields) : Total r' request := by
  intro p hp s hs w x hasks
  refine h.total request p (h.paths.mem_iff.2 hp) s hs w x (hasks.mono fun c hc => ?_)
  rw [Brings, h.options] at hc
  exact hc

/-- A path text leads to the same path of the same route, with the same bindings. -/
theorem matchPath (h : Reordered r r') (text : String) (request : Option Fields) :
    (r.matchPath text request).map (Option.map r.shown) =
      (r'.matchPath text request).map (Option.map r'.shown) := by
  rw [matchPath_eq, matchPath_eq, h.options]
  cases hattributes : attributeTokens r.options.methods request with
  | error e => rfl
  | ok tokens =>
      let pieces := Tokens.tokens r.options.delimiters text
      have htokens : Orderly (tokens ++ pieces.map Token.ofText) := by
        rcases attributeTokens_eq_ok hattributes with ⟨attributes, rfl, _⟩
        exact .of_append attributes pieces
      have hdistinct := (h.paths.map fun p => p.segments.map Segment.place).nodup_iff.1 h.distinct
      -- In neither router can the search go wrong.
      have hright : ∀ e, r'.table.trie.find r.options.delimiters
          (tokens ++ pieces.map Token.ofText) ≠ .error e := by
        rw [← h.options] at hattributes ⊢
        exact h.right.find_ne_error (h.total_right request) hattributes pieces
      cases hfind : r.table.trie.find r.options.delimiters
          (tokens ++ pieces.map Token.ofText) with
      | error e => exact absurd hfind (h.left.find_ne_error (h.total request) hattributes pieces e)
      | ok found =>
          cases found with
          | none =>
              have hnone := h.rearranged.find_none htokens hright hfind
              simp only [bind, Except.bind, pieces] at hfind hnone ⊢
              rw [hfind, hnone]
              rfl
          | some found =>
              rcases h.rearranged.find_some (a := found.1) (b := found.2) htokens hright hfind with
                ⟨places, x, ha, hx, hsome⟩
              have hshown := shown_eq_of_holder h.routes hdistinct found.2 ha hx
              simp only [bind, Except.bind, pieces] at hfind hsome ⊢
              rw [hfind, hsome]
              exact congrArg (fun m => Except.ok (some m)) hshown

end Reordered

/-- Several routes may be registered in any order. In one order all of them are
    accepted if and only if they are in another, and then every request leads to
    the same path of the same route, with the same bindings. The conditions of
    the routes are values or left open, no two paths have the same places, no
    requirement repeats the expression of a greedy variable, and the validators
    of variables are total on texts, which is all that they are asked. -/
theorem recognize_of_perm {delimiters methods : Value} {options : Options}
    (hoptions : Options.make? delimiters methods = .ok options)
    {specs others : List RouteSpec} (hperm : specs.Perm others)
    (hplain : ∀ p ∈ specs.flatMap (RouteSpec.paths options), ∀ c ∈ p.conditions,
      c.isPattern = false)
    (hdistinct : ((specs.flatMap (RouteSpec.paths options)).map fun p =>
      p.segments.map Segment.place).Nodup)
    (hechoes : ∀ p ∈ specs.flatMap (RouteSpec.paths options), ∀ v, Segment.var v ∈ p.parts →
      v.echoes = false)
    (htotal : ∀ p ∈ specs.flatMap (RouteSpec.paths options), ∀ v, Segment.var v ∈ p.parts →
      ∀ s, ∃ verdict, v.accepts (.text s) = .ok verdict) :
    ((∃ r, addAll specs (make options) = .ok r) ↔
      ∃ r', addAll others (make options) = .ok r') ∧
    ∀ r r', addAll specs (make options) = .ok r → addAll others (make options) = .ok r' →
      (∀ request path, (r.recognize request path).map (Option.map r.shown) =
        (r'.recognize request path).map (Option.map r'.shown)) ∧
      ((∀ kind ∈ options.methods, ∃ name, kind = .text name) →
        ∀ request text, ∃ found, r.recognize request (some text) = .ok found) := by
  have hmake := coherent_make hoptions
  have hpaths := hperm.flatMap_right (RouteSpec.paths options)
  refine ⟨?_, fun r r' hr hr' => ?_⟩
  · -- What success depends on does not depend on the order.
    rw [hmake.addAll_eq_ok, hmake.addAll_eq_ok]
    refine and_congr ?_ (and_congr ?_ ?_)
    · exact forall_congr' fun spec => imp_congr_left hperm.mem_iff
    · exact forall_congr' fun p => imp_congr_left hpaths.mem_iff
    · exact hpaths.pairwise_iff fun hfree hback => hfree hback.symm
  · rcases hmake.routes_addAll hr with ⟨hleft, hopt, hroutes⟩
    rcases hmake.routes_addAll hr' with ⟨hright, hopt', hroutes'⟩
    have hin : r.paths = specs.flatMap (RouteSpec.paths options) := hmake.paths_addAll hr
    have hreordered : Reordered r r' := by
      refine ⟨hleft, hright, hopt'.trans hopt.symm, ?_, ?_, ?_, ?_, ?_⟩
      · rw [hroutes, hroutes']
        exact (hperm.filterMap _).append_left _
      · rw [hin]
        exact hplain
      · rw [hin]
        exact hechoes
      · exact hleft.total_of_plain (by rwa [hin]) (by rwa [hin])
      · rw [hin]
        exact hdistinct
    refine ⟨fun request path => ?_, fun hnames request text => ?_⟩
    · unfold recognize
      cases path with
      | some text => exact hreordered.matchPath text request
      | none =>
          cases request.bind fun fields => fields.lookup "path" with
          | none => rfl
          | some v =>
              cases v with
              | text s => exact hreordered.matchPath s request
              | _ => rfl
    · have hnames' : ∀ kind ∈ r.options.methods, ∃ name, kind = .text name := by
        rw [hopt]
        exact hnames
      exact hleft.exists_matchPath (hreordered.total request) hnames' text

omit [Host] in
/-- Two routes that share some texts, in both orders. -/
theorem recognize_of_swap :
    let _ : Host := .idle
    let options : Options := ⟨defaultDelimiters, defaultMethods.map .text⟩
    let spec := fun pattern => (⟨pattern, [], [], [], .none, .none, .none, []⟩ : RouteSpec)
    ∃ r r', addAll [spec "/a/:x", spec "/:y/b"] (make options) = .ok r ∧
      addAll [spec "/:y/b", spec "/a/:x"] (make options) = .ok r' ∧
      (∃ m, r.recognize (some []) (some "/a/b") = .ok (some m)) ∧
      ∀ request path, (r.recognize request path).map (Option.map r.shown) =
        (r'.recognize request path).map (Option.map r'.shown) := by
  intro _ options spec
  let conditions : List Condition := defaultMethods.map fun m => ⟨.text m, .wildcard⟩
  let first : Path := ⟨conditions, [.separator "/", .literal "a", .separator "/",
    .var ⟨"x", none, .none, some "/", none⟩]⟩
  let second : Path := ⟨conditions, [.separator "/", .var ⟨"y", none, .none, some "/", none⟩,
    .separator "/", .literal "b"]⟩
  have hmake : Options.make? .none .none = .ok options := by cbv
  have hpaths : [spec "/a/:x", spec "/:y/b"].flatMap (RouteSpec.paths options) =
      [first, second] := by
    unfold spec options first second conditions
    cbv
  have hplain : ∀ p ∈ [first, second], ∀ c ∈ p.conditions, c.isPattern = false := by
    intro p hp c hc
    have hconditions : p.conditions = conditions := by
      rcases List.mem_pair.1 hp with rfl | rfl <;> rfl
    rw [hconditions] at hc
    rcases List.mem_map.1 hc with ⟨m, _, rfl⟩
    rfl
  have hdistinct : ([first, second].map fun p => p.segments.map Segment.place).Nodup := by
    unfold first second conditions
    decide
  -- Neither of the variables has a validator.
  have hfree : ∀ p ∈ [first, second], ∀ v, Segment.var v ∈ p.parts → v.validator = none := by
    have hall : ∀ p ∈ [first, second], ∀ s ∈ p.parts,
        (s.var?.all fun v => v.validator.isNone) = true := by
      unfold first second
      decide
    intro p hp v hv
    simpa [Segment.var?] using hall p hp _ hv
  have hechoes : ∀ p ∈ [first, second], ∀ v, Segment.var v ∈ p.parts → v.echoes = false := by
    have hall : ∀ p ∈ [first, second], ∀ s ∈ p.parts,
        (s.var?.all fun v => !v.echoes) = true := by
      unfold first second
      decide
    intro p hp v hv
    simpa [Segment.var?] using hall p hp _ hv
  have htotal : ∀ p ∈ [first, second], ∀ v, Segment.var v ∈ p.parts → ∀ s, ∃ verdict,
      v.accepts (.text s) = .ok verdict := by
    intro p hp v hv s
    rw [Variable.accepts, hfree p hp v hv]
    exact ⟨true, rfl⟩
  rw [← hpaths] at hplain hdistinct hechoes htotal
  have hall := recognize_of_perm hmake (List.Perm.swap (spec "/:y/b") (spec "/a/:x") []) hplain
    hdistinct hechoes htotal
  have hfirst : ∃ r, addAll [spec "/a/:x", spec "/:y/b"] (make options) = .ok r ∧
      ∃ m, r.recognize (some []) (some "/a/b") = .ok (some m) := by
    have h0 : ((make options).add (spec "/a/:x")).outcome = .ok 0 := by
      unfold options spec
      cbv
    have h1 : (((make options).add (spec "/a/:x")).router.add (spec "/:y/b")).outcome = .ok 1 := by
      unfold options spec
      cbv
    refine ⟨_, by rw [addAll, h0, addAll, h1, addAll], ⟨⟨0, 0⟩, [("x", .one (.text "b"))]⟩, ?_⟩
    unfold options spec
    cbv
  rcases hfirst with ⟨r, hr, hm⟩
  rcases hall.1.1 ⟨r, hr⟩ with ⟨r', hr'⟩
  exact ⟨r, r', hr, hr', hm, (hall.2 r r' hr hr').1⟩

end Router

end PathRouting
