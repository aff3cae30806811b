import PathRouting.Proofs.Router.Choice
import PathRouting.Report

/-!
# Names Shown and Names Looked Up

A name is kept twice: the table of a router leads from the name to a route,
and the route shows the name in reports. The two are written together whenever
a name is given, but not always in the same place. A route that is given a
second name shows that one only, while both lead to it. A name that is given
to a second route leads there, while the first route goes on showing it.

So whether the name that a route shows leads back to the route is a matter of
the names given since. To speak of these, a router is run with a log that is
written along: the names given since the routes were last forgotten, with the
routes they were given to. The table answers with the latest entry for a name,
and a route shows the latest entry for the route. Both are the same entry
exactly if no entry behind it has the name.

## Main definitions

* `Router.Operation`: What can be done with a router.
* `Router.Logged`, `Router.Logged.after`, `Router.run`: A router with the
  names it was given.
* `Router.SameNames`: What an operation leaves alone that gives no name.
* `Router.Logged.Agrees`: Table and routes are what the log says.
* `Router.givenSince`: The names given since a route was last given one.

## Theorems

* `lookupName_bindName`: What a name leads to after one was bound.
* `Router.reachable_iff_exists_run`: The reachable routers are those that runs
  lead to.
* `Router.add_steps`: A registration puts a route without a name in force, and
  then names it.
* `Router.Logged.Agrees.named`, `Router.Logged.Agrees.after`: What an
  operation preserves.
* `Router.agrees_run`: So table and routes are what the log says after every
  run.
* `Router.shown_name_leads_back`: When the name that a route shows leads to
  the route.
-/

namespace PathRouting

/-- What a name leads to is decided by the first entry that has it. -/
theorem lookupName_cons (name : Value) (e : Value × Nat) (names : List (Value × Nat)) :
    lookupName name (e :: names) = if e.1.same name then some e.2 else lookupName name names := by
  by_cases hsame : e.1.same name = true <;> simp [lookupName, hsame]

/-- What a name leads to after one was bound to a route. -/
theorem lookupName_bindName (name other : Value) (route : Nat) (names : List (Value × Nat)) :
    lookupName other (bindName name route names) =
      if name.same other then some route else lookupName other names := by
  induction names with
  | nil => exact lookupName_cons other (name, route) []
  | cons e rest ih =>
      rw [bindName, lookupName_cons]
      split
      · next hname =>
        -- The entry stands under the form of the name.
        have hform : e.1.same other = name.same other := by
          rw [Value.same, Value.same, Value.same_iff_form_eq.1 hname]
        rw [lookupName_cons, hform]
        split <;> rfl
      · next hname =>
        rw [lookupName_cons, ih]
        split
        · next hfirst =>
          have hother : ¬name.same other = true := fun hother =>
            hname (Value.same_iff_form_eq.2 ((Value.same_iff_form_eq.1 hfirst).trans
              (Value.same_iff_form_eq.1 hother).symm))
          rw [if_neg hother]
        · rfl

namespace Router

section Logs

variable {given : List (Value × Nat)} {name : Value} {route : Nat}

/-- The names given since a route was last given one, the latest first. -/
def givenSince (route : Nat) (given : List (Value × Nat)) : List (Value × Nat) :=
  given.takeWhile fun e => e.2 != route

/-- The latest entry for a name is the latest one for its route exactly if the
    name was not given since. The log is a list of pairs, and the two questions
    ask for the first pair with a name and the first pair with a route. -/
theorem lookupName_eq_iff (h : (given.find? fun e => e.2 == route) = some (name, route)) :
    lookupName name given = some route ↔ ∀ e ∈ givenSince route given, e.1.same name = false := by
  -- On the log, from its latest entry back to that of the route.
  induction given with
  | nil => cases h
  | cons e rest ih =>
      by_cases hroute : e.2 = route
      · rw [List.find?_cons_of_pos (by simpa using hroute)] at h
        cases h
        simp [lookupName_cons, givenSince, Value.same]
      · have hother : (e.2 == route) = false := by simpa using hroute
        rw [List.find?_cons_of_neg (by simp [hother])] at h
        rw [givenSince, List.takeWhile_cons_of_pos (by simp [bne, hother]), List.forall_mem_cons,
          lookupName_cons]
        by_cases hsame : e.1.same name = true
        · simp [hsame, hroute]
        · rw [if_neg hsame]
          exact (ih h).trans (iff_and_self.2 fun _ => by simpa using hsame)

end Logs

/-- What can be done with a router that may change it. Every operation is
    there, with all of its arguments, so that a run is a list of them and a
    statement on runs leaves nothing out. -/
inductive Operation where
  | add (spec : RouteSpec)
  | name (name : Value) (route : Nat)
  | redirect (destination : Value) (route : Nat)
  | reset
  | generate (names : Value)
  | generateFrom (route : Nat) (names : Value)
  | urlFor (params : Fields) (name : Value)

/-- A router with the names that were given since its routes were last
    forgotten, and the routes they were given to, the latest first. -/
structure Logged where
  router : Router
  given : List (Value × Nat)

namespace Logged

/-- The log with a name that a route was given, unless it was refused. -/
def noted (name : Value) (route : Nat) (given : List (Value × Nat)) :
    Except Fault Unit → List (Value × Nat)
  | .ok () => (name, route) :: given
  | .error _ => given

/-- A route is given a name. -/
def named (l : Logged) (name : Value) (route : Nat) : Logged :=
  ⟨(l.router.nameRoute name route).1, noted name route l.given (l.router.nameRoute name route).2⟩

/-- What an operation makes of a router and its log. A registration gives a
    name if one is asked for, and the others but naming and resetting have
    nothing to do with names. -/
def after [Host] (l : Logged) : Operation → Logged
  | .add spec =>
    let done := l.router.add spec
    ⟨done.router, match done.outcome with
      | .ok route => if spec.name.isNone then l.given else (spec.name, route) :: l.given
      | .error _ => l.given⟩
  | .name name route => l.named name route
  | .redirect destination route => ⟨l.router.redirectRoute destination route, l.given⟩
  | .reset => ⟨l.router.reset, []⟩
  | .generate names => ⟨(l.router.generate names).1, l.given⟩
  | .generateFrom route names => ⟨(l.router.generateFrom route names).1, l.given⟩
  | .urlFor params name => ⟨(l.router.urlFor params name).1, l.given⟩

/-- What an operation makes of a router is a step of the router. -/
theorem step_after [Host] (l : Logged) (op : Operation) : Step l.router (l.after op).router := by
  cases op with
  | add spec => exact .add _ spec
  | name name route => exact .name _ name route
  | redirect destination route => exact .redirect _ destination route
  | reset => exact .reset _
  | generate names => exact .generate _ names
  | generateFrom route names => exact .generateFrom _ route names
  | urlFor params name => exact .urlFor _ params name

/-- Every step of a router is made by an operation. -/
theorem exists_after [Host] {l : Logged} {r : Router} (h : Step l.router r) :
    ∃ op, (l.after op).router = r := by
  cases h with
  | add spec => exact ⟨.add spec, rfl⟩
  | name name route => exact ⟨.name name route, rfl⟩
  | redirect destination route => exact ⟨.redirect destination route, rfl⟩
  | reset => exact ⟨.reset, rfl⟩
  | generate names => exact ⟨.generate names, rfl⟩
  | generateFrom route names => exact ⟨.generateFrom route names, rfl⟩
  | urlFor params name => exact ⟨.urlFor params name, rfl⟩

end Logged

/-- A router with its log after a run of operations. The log is written beside
    the router, and nothing in the router depends on it. -/
def run [Host] (options : Options) (ops : List Operation) : Logged :=
  ops.foldl Logged.after ⟨make options, []⟩

theorem run_append [Host] (options : Options) (ops : List Operation) (op : Operation) :
    run options (ops ++ [op]) = (run options ops).after op :=
  List.foldl_append

/-- The routers that the operations lead to are those that runs lead to. -/
theorem reachable_iff_exists_run [Host] {r : Router} :
    Reachable r ↔ ∃ delimiters methods options ops,
      Options.make? delimiters methods = .ok options ∧ (run options ops).router = r := by
  constructor
  · intro h
    induction h with
    | make valid => exact ⟨_, _, _, [], valid, rfl⟩
    -- A step is one more operation at the end of the run.
    | step _ hstep ih =>
        rcases ih with ⟨delimiters, methods, options, ops, hmake, rfl⟩
        rcases Logged.exists_after hstep with ⟨op, hop⟩
        exact ⟨delimiters, methods, options, ops ++ [op], hmake, by rw [run_append, hop]⟩
  · rintro ⟨delimiters, methods, options, ops, hmake, rfl⟩
    induction ops using List.reverseRecOn with
    | nil => exact .make hmake
    | append_singleton ops op ih =>
        rw [run_append]
        exact ih.step (Logged.step_after _ op)

/-- A registration leaves the router alone and is refused, or puts a route
    without a name in force and then gives it the name that is asked for. -/
theorem add_steps (l : Logged) (spec : RouteSpec) [Host] :
    l.after (.add spec) = l ∨ ∃ route trie, route.name = .none ∧
      l.after (.add spec) =
        if spec.name.isNone then ⟨l.router.commit route trie, l.given⟩
        else Logged.named ⟨l.router.commit route trie, l.given⟩ spec.name
          l.router.catalog.length := by
  by_cases hstaged : ∃ route, spec.route? l.router.options = .ok route ∧ l.router.Stages route
  · rcases hstaged with ⟨route, hroute, hstages⟩
    have hlive := Trie.insertAll_ok_of_stageAll_ok _ (Trie.rehearsed_empty l.router.table.trie)
      hstages
    -- The name is not part of the route that is made.
    have hunnamed : route.name = .none := by
      rcases bind_eq_ok.1 hroute with ⟨compiled, _, hroute⟩
      rcases bind_eq_ok.1 hroute with ⟨conditions, _, hroute⟩
      rcases bind_eq_ok.1 hroute with ⟨origin, _, hroute⟩
      cases hroute
      rfl
    refine Or.inr ⟨route,
      (Trie.insertAll (route.entries l.router.catalog.length) l.router.table.trie).trie,
      hunnamed, ?_⟩
    unfold Stages at hstages
    by_cases hnone : spec.name.isNone = true
    · simp only [Logged.after, add, hroute, hstages, hlive, if_pos hnone]
    · by_cases hkey : spec.name.isKey = true
      · simp only [Logged.after, Logged.named, add, hroute, hstages, hlive, if_neg hnone,
          nameRoute, if_pos hkey]
        rfl
      · simp only [Logged.after, Logged.named, add, hroute, hstages, hlive, if_neg hnone,
          nameRoute, if_neg hkey]
        rfl
  · rcases add_of_not_staged fun route hroute hstages => hstaged ⟨route, hroute, hstages⟩ with
      ⟨e, events, hfails⟩
    have hadd : l.router.add spec = ⟨l.router, .error e, events⟩ := hfails spec.name
    exact Or.inl (by simp only [Logged.after, hadd])

/-- The routers show and look up the same names. -/
structure SameNames (r r' : Router) : Prop where
  names : r'.table.names = r.table.names
  routes : r'.table.routes = r.table.routes
  shown : ∀ k, (r'.route? k).map Route.name = (r.route? k).map Route.name

theorem sameNames_modifyRoute (r : Router) (route : Nat) {f : Route → Route}
    (h : ∀ x, r.route? route = some x → (f x).name = x.name) :
    SameNames r (r.modifyRoute route f) := by
  refine ⟨rfl, rfl, fun k => ?_⟩
  by_cases hk : route = k
  · rw [← hk, route?_modify_self, Option.map_map]
    cases hroute : r.route? route with
    | none => rfl
    | some x => exact congrArg some (h x hroute)
  · rw [route?_modify_other r f hk]

theorem sameNames_generate (r : Router) (names : Value) : SameNames r (r.generate names).1 := by
  unfold generate
  split <;> exact ⟨rfl, rfl, fun _ => rfl⟩

theorem sameNames_generateFrom (r : Router) (route : Nat) (names : Value) :
    SameNames r (r.generateFrom route names).1 := by
  unfold generateFrom
  split
  · exact ⟨rfl, rfl, fun _ => rfl⟩
  · next x hx =>
    refine sameNames_modifyRoute r route fun y hy => ?_
    cases hx.symm.trans hy
    rcases exists_index_findPath x names with ⟨idx, hlearnt⟩
    rw [hlearnt]

theorem sameNames_pathFor (r : Router) (params : Fields) (name : Value) :
    SameNames r (r.pathFor params name).1 := by
  unfold pathFor
  split
  · exact sameNames_generate r _
  · split
    · exact ⟨rfl, rfl, fun _ => rfl⟩
    · split
      · exact ⟨rfl, rfl, fun _ => rfl⟩
      · exact sameNames_generateFrom r _ _

theorem sameNames_urlFor [Host] (r : Router) (params : Fields) (name : Value) :
    SameNames r (r.urlFor params name).1 := by
  have hpath := sameNames_pathFor r params name
  unfold urlFor
  split
  · next heq =>
    rw [heq] at hpath
    exact hpath
  · next heq =>
    rw [heq] at hpath
    exact hpath
  · next r' id heq =>
    rw [heq] at hpath
    split
    · exact hpath
    · have hused := sameNames_modifyRoute r' id.route (f := fun x =>
        { x with origin := x.origin.map Origin.used }) fun _ _ => rfl
      exact ⟨hused.names.trans hpath.names, hused.routes.trans hpath.routes,
        fun k => (hused.shown k).trans (hpath.shown k)⟩

namespace Logged

/-- The table leads from a name to the route of its latest entry in the log,
    and a route in force that shows a name shows that of its latest entry. The
    table and the routes are written one after the other, and the log is what
    both can be compared with. -/
structure Agrees (l : Logged) : Prop where
  table : ∀ name, lookupName name l.router.table.names = lookupName name l.given
  shown : ∀ k ∈ l.router.table.routes, ∀ name, (l.router.route? k).map Route.name = some name →
    name.isNone = false → (l.given.find? fun e => e.2 == k) = some (name, k)
  keys : ∀ e ∈ l.given, e.1.isKey = true

namespace Agrees

variable {l : Logged}

/-- An operation that has nothing to do with names preserves the agreement. -/
theorem of_sameNames (h : l.Agrees) {r' : Router} (hsame : SameNames l.router r') :
    Agrees ⟨r', l.given⟩ := by
  refine ⟨fun name => ?_, fun k hk name hname => ?_, h.keys⟩
  · rw [hsame.names]
    exact h.table name
  · rw [hsame.routes] at hk
    rw [hsame.shown] at hname
    exact h.shown k hk name hname

/-- A name that is given is written in both places. -/
theorem named (h : l.Agrees) (name : Value) (route : Nat) : (l.named name route).Agrees := by
  by_cases hkey : name.isKey = true
  -- The new entry is the latest one for its name and for its route, and for no others.
  · simp only [Logged.named, nameRoute, if_pos hkey, noted]
    refine ⟨fun other => ?_, fun k hk shown hshown hsome => ?_,
      List.forall_mem_cons.2 ⟨hkey, h.keys⟩⟩
    · rw [lookupName_cons, ← h.table]
      exact lookupName_bindName name other route l.router.table.names
    · by_cases hroute : route = k
      · rw [← hroute, route?_modify_self, Option.map_map] at hshown
        rcases Option.map_eq_some_iff.1 hshown with ⟨x, _, rfl⟩
        rw [List.find?_cons_of_pos (by simpa using hroute), hroute]
        rfl
      · rw [route?_modify_other _ _ hroute] at hshown
        rw [List.find?_cons_of_neg (by simpa using hroute)]
        exact h.shown k hk shown hshown hsome
  · simp only [Logged.named, nameRoute, if_neg hkey, noted]
    exact h

/-- A route that is put in force shows no name. -/
theorem commit (h : l.Agrees) {route : Route} (hroute : route.name = .none) (trie : Trie PathId) :
    Agrees ⟨l.router.commit route trie, l.given⟩ := by
  refine ⟨h.table, fun k hk name hname hsome => ?_, h.keys⟩
  rcases Option.map_eq_some_iff.1 hname with ⟨x, hx, rfl⟩
  rcases route?_commit_cases hx with hold | rfl
  · rcases List.mem_append.1 hk with hk | hk
    · exact h.shown k hk x.name (by rw [hold]; rfl) hsome
    · -- There was no route of the new number.
      rw [List.mem_singleton.1 hk, route?, List.getElem?_eq_none (le_refl _)] at hold
      cases hold
  · rw [hroute] at hsome
    cases hsome

/-- No operation makes table and routes disagree with the log. -/
theorem after [Host] (h : l.Agrees) (op : Operation) : (l.after op).Agrees := by
  cases op with
  | add spec =>
      rcases add_steps l spec with hsame | ⟨route, trie, hroute, hafter⟩
      · rw [hsame]
        exact h
      · rw [hafter]
        split
        · exact h.commit hroute trie
        · exact (h.commit hroute trie).named _ _
  | name name route => exact h.named name route
  | redirect destination route => exact h.of_sameNames (sameNames_modifyRoute _ _ fun _ _ => rfl)
  | reset => exact ⟨fun _ => rfl, fun _ hk => absurd hk List.not_mem_nil,
      fun _ he => absurd he List.not_mem_nil⟩
  | generate names => exact h.of_sameNames (sameNames_generate _ names)
  | generateFrom route names => exact h.of_sameNames (sameNames_generateFrom _ route names)
  | urlFor params name => exact h.of_sameNames (sameNames_urlFor _ params name)

end Agrees

end Logged

/-- Table and routes are what the log says after every run. The induction is
    on the operations; only a registration and the giving of a name write
    anything to the log, and only forgetting all routes clears it. -/
theorem agrees_run [Host] (options : Options) (ops : List Operation) :
    (run options ops).Agrees := by
  induction ops using List.reverseRecOn with
  | nil => exact ⟨fun _ => rfl, fun _ hk => absurd hk List.not_mem_nil,
      fun _ he => absurd he List.not_mem_nil⟩
  | append_singleton ops op ih =>
      rw [run_append]
      exact ih.after op

/-- A path that is chosen in a route is one of the route. -/
theorem route_of_generateFrom {r : Router} {route : Nat} {names : Value} {id : PathId}
    (h : (r.generateFrom route names).2 = .ok (some id)) : id.route = route := by
  unfold generateFrom at h
  split at h
  · cases h
  · next x _ =>
    rcases hfound : (x.findPath names).2 with e | _ | position
    · simp only [hfound] at h
      cases h
    · simp only [hfound] at h
      cases h
    · simp only [hfound] at h
      cases h
      rfl

/-- After every run, the name that a route in force shows, in a report as
    well, is the one it was given last. It leads back to the route exactly if
    it was not given to another route since, and then it gives URLs of that
    route. A name that was given twice is shown by both routes and leads to
    the later one. -/
theorem shown_name_leads_back [Host] (options : Options) (ops : List Operation) :
    let r := (run options ops).router
    let given := (run options ops).given
    ∀ k ∈ r.table.routes, ∀ x, r.route? k = some x → x.name.isNone = false →
      (given.find? fun e => e.2 == k) = some (x.name, k) ∧
      (lookupName x.name r.table.names = some k ↔
        ∀ e ∈ givenSince k given, e.1.same x.name = false) ∧
      (∀ report, x.report = .ok report → report.name = x.name) ∧
      (lookupName x.name r.table.names = some k → ∀ params,
        r.pathFor params x.name = r.generateFrom k (.dict params) ∧
        ∀ url, (r.urlFor params x.name).2 = .ok url → ∃ position,
          (r.generateFrom k (.dict params)).2 = .ok (some ⟨k, position⟩) ∧
          r.renderUrl params ⟨k, position⟩ = .ok url) := by
  intro r given k hk x hx hsome
  have hagrees := agrees_run options ops
  have hlatest := hagrees.shown k hk x.name (by rw [hx]; rfl) hsome
  have hkey : x.name.isKey = true := hagrees.keys _ (List.mem_of_find?_eq_some hlatest)
  -- The route shows its latest name in the log, and the table leads from a name to the latest route
  -- in the log. So all is said about the log.
  refine ⟨hlatest, ?_, fun report hreport => Route.report_name hreport, fun hleads params => ?_⟩
  · rw [hagrees.table]
    exact lookupName_eq_iff hlatest
  · have hpath : r.pathFor params x.name = r.generateFrom k (.dict params) :=
      pathFor_of_lookupName hsome hkey hleads params
    refine ⟨hpath, fun url hurl => ?_⟩
    rw [urlFor_eq, hpath] at hurl
    rcases bind_eq_ok.1 hurl with ⟨_ | id, hfound, hrender⟩
    · cases hrender
    · have hroute := route_of_generateFrom hfound
      subst hroute
      exact ⟨id.position, hfound, hrender⟩

/-- Two routes were given one name. The first one was given another name
    since, so the names that they show lead back to them. -/
theorem shown_name_leads_back_of_rename :
    let options : Options := ⟨defaultDelimiters, defaultMethods.map .text⟩
    let spec := fun pattern => (⟨pattern, [], [], [], .none, .none, .text "n", []⟩ : RouteSpec)
    let l := @run Host.idle options [.add (spec "/a"), .add (spec "/b"), .name (.text "m") 0]
    l.router.table.routes = [0, 1] ∧ l.router.routes.map Route.name = [.text "m", .text "n"] ∧
      lookupName (.text "m") l.router.table.names = some 0 ∧
      lookupName (.text "n") l.router.table.names = some 1 := by
  intro options spec l
  have hroutes : l.router.table.routes = [0, 1] := by
    unfold l spec options
    cbv
  have hgiven : l.given = [(.text "m", 0), (.text "n", 1), (.text "n", 0)] := by
    unfold l spec options
    cbv
  have hnames : (l.router.route? 0).map Route.name = some (.text "m") ∧
      (l.router.route? 1).map Route.name = some (.text "n") := by
    unfold l spec options
    cbv
  have hshown : l.router.routes.map Route.name = [.text "m", .text "n"] := by
    unfold l spec options
    cbv
  -- For each of the two, nothing behind the latest entry of the route has its name.
  rcases Option.map_eq_some_iff.1 hnames.1 with ⟨x, hx, hm⟩
  rcases Option.map_eq_some_iff.1 hnames.2 with ⟨y, hy, hn⟩
  have hfirst := (@shown_name_leads_back Host.idle options _ 0 (by rw [hroutes]; decide) x hx
    (by rw [hm]; rfl)).2.1
  have hsecond := (@shown_name_leads_back Host.idle options _ 1 (by rw [hroutes]; decide) y hy
    (by rw [hn]; rfl)).2.1
  rw [hm] at hfirst
  rw [hn] at hsecond
  refine ⟨hroutes, hshown, hfirst.2 ?_, hsecond.2 ?_⟩
  · change ∀ e ∈ givenSince 0 l.given, _
    rw [hgiven]
    simp [givenSince]
  · change ∀ e ∈ givenSince 1 l.given, _
    rw [hgiven]
    simp [givenSince, Value.same, Value.form]

/-- Two routes of one name: both show it, and it leads to the second one. -/
theorem lookupName_ne_of_name_given_twice :
    let options : Options := ⟨defaultDelimiters, defaultMethods.map .text⟩
    let spec := fun pattern => (⟨pattern, [], [], [], .none, .none, .text "n", []⟩ : RouteSpec)
    let r := (@run Host.idle options [.add (spec "/a"), .add (spec "/b")]).router
    r.table.routes = [0, 1] ∧
      r.report.map (fun report => report.routes.map RouteReport.name) =
        .ok [.text "n", .text "n"] ∧
      lookupName (.text "n") r.table.names = some 1 ∧
      (@urlFor Host.idle r [] (.text "n")).2 = .ok "/b" := by
  intro options spec r
  refine ⟨?_, ?_, ?_, ?_⟩
  · unfold r spec options
    cbv
  · unfold r spec options
    cbv
  · unfold r spec options
    cbv
  · unfold r spec options
    cbv

end Router

end PathRouting
