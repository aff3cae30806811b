import PathRouting.Proofs.Router.Ambiguity
import PathRouting.Proofs.Trie.Shape

/-!
# The Three Records of a Router

A router keeps what was registered in three places: in the list of the routes
in force, in the tree, and in the index of parameter names. A registration
changes them one after the other, may fail before or after that, and may put
paths in the place of others.

The list is the record that the other two are measured by. Its paths in order,
each with the number of its route and its own, were inserted into the tree and
filed in the index, and nothing else was, whatever the operations were in
between. So the tree is in shape, and its walk lists the paths that no later
one is identical to. The index has slips for the dynamic paths, numbered in
their order.

## Main definitions

* `Path.places`: What makes paths identical to the tree.
* `Router.Prevails`: A path in force that no later one is identical to.
* `Router.dynamic`: The paths in force with variables.
* `Router.Consistent`: The tree and the index agree with the list of routes.

## Theorems

* `Router.Reachable.nodup_entered`: Every path in force has a number of its own.
* `Router.Reachable.mem_slips_iff`, `Router.Reachable.exists_slip`: What is in
  the index.
* `Router.Reachable.consistent`: The records of every reachable router agree.
-/

namespace PathRouting

/-- The places that a path leads through. Paths with the same places are
    identical to the tree: the one that comes later takes the end of the other. -/
def Path.places (p : Path) : List Place :=
  p.segments.map Segment.place

theorem nodup_numbered (route : Nat) (paths : List Path) :
    ((numbered route paths).map Prod.fst).Nodup := by
  have hpositions : ((numbered route paths).map Prod.fst).map PathId.position =
      List.range paths.length := by
    rw [List.map_map, map_numbered]
    refine List.ext_getElem? fun n => ?_
    by_cases hn : n < paths.length
    · simp [hn]
    · simp [Nat.le_of_not_lt hn]
  refine List.Nodup.of_map PathId.position ?_
  rw [hpositions]
  exact List.nodup_range

namespace Router

/-- The path is in force under the number, and no later one is identical to
    it. A path that does not prevail is never found by a request, although its
    route is in force. -/
def Prevails (r : Router) (id : PathId) (p : Path) : Prop :=
  ∃ front back, r.entered = front ++ (id, p) :: back ∧ ∀ e ∈ back, e.2.places ≠ p.places

/-- The paths in force with variables, in the order of registration. -/
def dynamic (r : Router) : List (PathId × Path) :=
  r.entered.filter fun e => e.2.isDynamic

/-- The tree and the index of the router agree with its list of routes. The
    fields are what a maintainer would look for when one of them seems off:
    what the tree lists and how deep it is, what is in the index, and that
    both name paths of routes in force. -/
structure Consistent (r : Router) : Prop where
  /-- The numbered paths are those of the routes in force, in order. -/
  entered : r.entered.map Prod.snd = r.routes.flatMap Route.paths
  distinct : (r.entered.map Prod.fst).Nodup
  /-- The walk lists the paths that prevail, and each of them once. -/
  listed : ∀ id, id ∈ r.table.trie.toList ↔ ∃ p, r.Prevails id p
  once : r.table.trie.toList.Nodup
  depth : ∀ n node, r.table.trie.Below n node → node.depth = n
  /-- A path leads to the end of the last one that is identical to it. -/
  ends : ∀ e ∈ r.entered, ∃ node last q, r.table.trie.follow e.2.segments = some node ∧
    node.terminal = some last ∧ r.Prevails last q ∧ q.places = e.2.places
  /-- The slips are those of the dynamic paths, and have the numbers of these. -/
  filed : ∀ slip, slip ∈ r.table.index.slips ↔
    (∃ p, r.dynamic[slip.sequence]? = some (slip.path, p) ∧ slip.signature = p.signature) ∧
      ∃ set ∈ slip.signature.keySets, slip.size = set.length ∧ slip.name ∈ set
  /-- No dynamic path is left out. -/
  covered : ∀ n id p, r.dynamic[n]? = some (id, p) →
    ∃ slip ∈ r.table.index.slips, slip.sequence = n ∧ slip.path = id

theorem Reachable.nodup_routes [Host] {r : Router} (h : Reachable r) : r.table.routes.Nodup := by
  induction h with
  | make _ => exact List.nodup_nil
  | step hreachable hstep ih =>
      rcases step_cases hstep with rfl | halike | ⟨spec, route, _, _, halike⟩
      · exact List.nodup_nil
      · rw [halike.routes]
        exact ih
      · rw [halike.routes]
        -- The number of the new route is larger than those of the others.
        refine List.nodup_append'.2 ⟨ih, List.nodup_singleton _, fun n hn hnew => ?_⟩
        have hlt := hreachable.coherent.known n hn
        rw [List.mem_singleton.1 hnew] at hlt
        exact Nat.lt_irrefl _ hlt

/-- Every path in force has a number of its own. -/
theorem Reachable.nodup_entered [Host] {r : Router} (h : Reachable r) :
    (r.entered.map Prod.fst).Nodup := by
  have hroute : ∀ {n : Nat} {id : PathId},
      id ∈ (numbered n ((r.route? n).elim [] Route.paths)).map Prod.fst → id.route = n := by
    intro n id hid
    rcases List.mem_map.1 hid with ⟨e, he, rfl⟩
    exact (mem_numbered.1 he).1
  rw [entered, List.map_flatMap, List.nodup_flatMap]
  refine ⟨fun n _ => nodup_numbered n _, h.nodup_routes.imp fun hne id hid hother => hne ?_⟩
  rw [← hroute hid, hroute hother]

/-- What ends in the tree where some places lead is the path with them that
    prevails. A path prevails over those before it that have its places, of
    other routes as well, and these are in force without ever being found. -/
theorem holder_entered_iff {r : Router} {places : List Place} {id : PathId} :
    holder (entriesOf r.entered) places = some id ↔ ∃ p, r.Prevails id p ∧ p.places = places := by
  rw [holder_eq_some_iff]
  constructor
  · intro hlast
    rcases hlast with ⟨front, segments, back, hsplit, hplaces, hback⟩
    rcases List.map_eq_append_iff.1 hsplit with ⟨before, rest, hentered, _, hrest⟩
    rcases List.map_eq_cons_iff.1 hrest with ⟨e, behind, rfl, he, hbehind⟩
    cases he
    refine ⟨e.2, ⟨before, behind, hentered, fun f hf hsame => ?_⟩, hplaces⟩
    rw [← hbehind] at hback
    exact hback _ (List.mem_map_of_mem hf) (hsame.trans hplaces)
  · intro hfound
    rcases hfound with ⟨p, ⟨before, behind, hentered, hbehind⟩, rfl⟩
    refine ⟨entriesOf before, p.segments, entriesOf behind, ?_, rfl, fun f hf => ?_⟩
    · rw [hentered, entriesOf, List.map_append]
      rfl
    · rcases List.mem_map.1 hf with ⟨e, he, rfl⟩
      exact hbehind e he

/-- The dynamic paths as they are filed in the index. -/
theorem dynamic_filed (r : Router) :
    KeyIndex.dynamic r.filed = r.dynamic.map fun e => (e.2.signature, e.1) := by
  have hdynamic : ∀ p : Path, p.signature.isDynamic = p.isDynamic := by
    intro p
    rw [Signature.isDynamic, Path.isDynamic, Path.signature, List.isEmpty_map]
  rw [KeyIndex.dynamic, filed, dynamic, List.filter_map]
  refine congrArg _ (List.filter_congr fun e _ => ?_)
  exact hdynamic e.2

/-- The slips in the index are those of the dynamic paths in force. Static
    paths are not in it at all, and dynamic ones stay in it even where a later
    path with the same places is found instead of them. -/
theorem Reachable.mem_slips_iff [Host] {r : Router} (h : Reachable r) {slip : Slip PathId} :
    slip ∈ r.table.index.slips ↔
      (∃ p, r.dynamic[slip.sequence]? = some (slip.path, p) ∧ slip.signature = p.signature) ∧
        ∃ set ∈ slip.signature.keySets, slip.size = set.length ∧ slip.name ∈ set := by
  rcases h.furnished.index with ⟨uses, hindex, hregistrations⟩
  have hfiled := (KeyIndex.holds_ofUses uses).filed
  rw [← hindex, hregistrations, dynamic_filed] at hfiled
  rw [hfiled, List.getElem?_map, Option.map_eq_some_iff]
  refine and_congr_left fun _ => ⟨fun hat => ?_, fun hat => ?_⟩
  · rcases hat with ⟨e, he, hpair⟩
    rcases Prod.mk.inj hpair with ⟨hsignature, hpath⟩
    exact ⟨e.2, by rw [he, ← hpath], hsignature.symm⟩
  · rcases hat with ⟨p, hp, hsignature⟩
    exact ⟨(slip.path, p), hp, by rw [hsignature]⟩

/-- No dynamic path is left out of the index. -/
theorem Reachable.exists_slip [Host] {r : Router} (h : Reachable r) {n : Nat} {id : PathId}
    {p : Path} (hp : r.dynamic[n]? = some (id, p)) :
    ∃ slip ∈ r.table.index.slips, slip.sequence = n ∧ slip.path = id := by
  have hbinders : p.binders ≠ [] := by
    simpa [Path.isDynamic] using (List.mem_filter.1 (List.mem_of_getElem? hp)).2
  rcases List.exists_mem_of_ne_nil _ hbinders with ⟨v, hv⟩
  -- The set of all of its names selects a path, and there is a slip for each of them.
  have hname : v.name ∈ p.signature.keys :=
    List.mem_map.2 ⟨(v.name, v.hasDefault), List.mem_map_of_mem hv, rfl⟩
  exact ⟨⟨p.signature.keys.length, v.name, n, p.signature, id⟩,
    h.mem_slips_iff.2 ⟨⟨p, hp, rfl⟩, _, List.mem_cons_self, rfl, hname⟩, rfl, rfl⟩

/-- The tree, the index and the list of routes agree at every moment, whatever
    was registered, refused, named, reset or looked up before. All that is
    used of a router is that it is coherent and furnished, which every
    operation preserves. -/
theorem Reachable.consistent [Host] {r : Router} (h : Reachable r) : r.Consistent := by
  have hbuilt := h.coherent.built
  have hdistinct := h.nodup_entered
  have hids : (entriesOf r.entered).map Prod.fst = r.entered.map Prod.fst := by
    rw [entriesOf, List.map_map]
    rfl
  -- The parts of the consistency in order, each from what is known of the tree that was filled or
  -- of the index.
  refine ⟨r.map_snd_entered, hdistinct, fun id => ?_, ?_, fun n node hbelow => ?_,
    fun e he => ?_, fun slip => h.mem_slips_iff, fun n id p hp => ?_⟩
  · rw [hbuilt.shaped.mem_toList hbuilt.holds]
    simp only [holder_entered_iff]
    constructor
    · rintro ⟨_, p, hp, _⟩
      exact ⟨p, hp⟩
    · rintro ⟨p, hp⟩
      exact ⟨_, p, hp, rfl⟩
  · exact hbuilt.shaped.nodup_toList hbuilt.holds (hids ▸ hdistinct)
  · rw [hbuilt.shaped.depth_below hbelow, Nat.zero_add]
  · have hentry : (e.1, e.2.segments) ∈ entriesOf r.entered := mem_entriesOf he
    rcases hbuilt.holds.exists_follow hentry (hbuilt.fileable e he) with
      ⟨node, hfollow, _, hterminal⟩
    rcases holder_of_mem hentry with ⟨last, hlast⟩
    rcases holder_entered_iff.1 hlast with ⟨q, hq, hplaces⟩
    exact ⟨node, last, q, hfollow, hterminal.trans hlast, hq, hplaces⟩
  · exact h.exists_slip hp

/-- Two routes, the second of which takes the place of one of the paths of the
    first, and a third that is refused. The walk lists the path of the second
    route and the other one of the first. -/
theorem consistent_of_overridden :
    let _ : Host := .idle
    let options : Options := ⟨defaultDelimiters, defaultMethods.map .text⟩
    let spec := fun pattern : String =>
      (⟨pattern, [], [], [], .none, .none, .none, []⟩ : RouteSpec)
    let r := ((make options).add (spec "/list(/:page)")).router
    let r' := (r.add (spec "/list")).router
    let r'' := (r'.add (spec "/list/:size")).router
    r''.entered.map Prod.fst = [⟨0, 0⟩, ⟨0, 1⟩, ⟨1, 0⟩] ∧
      r''.table.trie.toList = [⟨1, 0⟩, ⟨0, 0⟩] ∧ r''.Consistent := by
  intro _ options spec r r' r''
  have hmake : Options.make? .none .none = .ok options := by cbv
  have hreachable : r''.Reachable :=
    .step (.step (.step (.make hmake) (.add _ _)) (.add _ _)) (.add _ _)
  refine ⟨?_, ?_, hreachable.consistent⟩
  · unfold r'' r' r spec options
    cbv
  · unfold r'' r' r spec options
    cbv

end Router

end PathRouting
