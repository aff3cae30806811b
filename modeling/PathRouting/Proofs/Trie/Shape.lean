import Mathlib.Data.List.Nodup
import PathRouting.Proofs.Trie.Contents

/-!
# The Shape of a Tree

A tree is in shape if every node is as deep as it was made and no two children
of a node have the same place. A child can then be reached by its place in one
way only, so the walk through the tree meets every node once, and what it
meets is what ends where the places of some path lead.

Insertions keep a tree in shape, those that are refused included, for they
only ever make nodes behind places that had none. What ends at a node has
already been described by the entries of the tree. So the walk lists, for
every sequence of places that an entry has, the last entry that has it, and
nothing else.

## Main definitions

* `Trie.Shaped`: The tree is in shape from some depth on.
* `Trie.Below`: The nodes of a tree, with their distance from the root.
* `Trie.follow`: The node that some segments lead to.
* `LastAt`: The last entry with its places.

## Theorems

* `Trie.Shaped.insert`: Insertions keep a tree in shape, whatever becomes of
  them.
* `Trie.Shaped.depth_below`: How deep a node was made is how far it is from
  the root.
* `holder_eq_some_iff`: What ends where some places lead is the last entry
  with them.
* `Trie.Shaped.mem_toList`, `Trie.Shaped.nodup_toList`: What the walk lists,
  and how often.
* `Trie.Holds.exists_follow`: An entry leads to the node at which the last
  entry with its places ends.
-/

namespace PathRouting

variable {α : Type}

theorem holder_eq_none_iff {es : Entries α} {places : List Place} :
    holder es places = none ↔ ∀ e ∈ es, e.2.map Segment.place ≠ places := by
  induction es with
  | nil => simp [holder]
  | cons e rest ih => simp [holder, ih, and_comm]

/-- The terminal is that of the last entry with its places. -/
def LastAt (es : Entries α) (places : List Place) (a : α) : Prop :=
  ∃ front segments back, es = front ++ (a, segments) :: back ∧
    segments.map Segment.place = places ∧ ∀ e ∈ back, e.2.map Segment.place ≠ places

/-- What ends where some places lead is the last entry with them. -/
theorem holder_eq_some_iff {es : Entries α} {places : List Place} {a : α} :
    holder es places = some a ↔ LastAt es places a := by
  constructor
  · intro h
    induction es with
    | nil => cases h
    | cons e rest ih =>
        rw [holder, Option.or_eq_some_iff] at h
        rcases h with h | ⟨hnone, h⟩
        · rcases ih h with ⟨front, segments, back, hrest, hlast⟩
          exact ⟨e :: front, segments, back, by rw [hrest, List.cons_append], hlast⟩
        · rw [Option.ite_none_right_eq_some] at h
          rcases h with ⟨hplaces, ha⟩
          cases ha
          exact ⟨[], e.2, rest, rfl, hplaces, holder_eq_none_iff.1 hnone⟩
  · intro h
    rcases h with ⟨front, segments, back, rfl, hplaces, hlast⟩
    rw [holder_append, holder, holder_eq_none_iff.2 hlast, if_pos hplaces]
    rfl

/-- The terminals behind a place are among those in front of it, in order. -/
theorem after_sublist (p : Place) (es : Entries α) :
    ((after p es).map Prod.fst).Sublist (es.map Prod.fst) := by
  induction es with
  | nil => exact List.Sublist.slnil
  | cons e rest ih =>
      rcases e with ⟨a, segments⟩
      cases segments with
      | nil => exact ih.cons a
      | cons s more =>
          by_cases hplace : s.place = p
          · simpa [after, hplace] using ih.cons_cons a
          · simpa [after, hplace] using ih.cons a

/-- Where no terminal occurs twice, what ends at two sequences of places shows
    them to be one. -/
theorem places_eq_of_holder {es : Entries α} (hnodup : (es.map Prod.fst).Nodup) {a : α}
    {places others : List Place} (h : holder es places = some a)
    (hother : holder es others = some a) : places = others := by
  rcases mem_of_holder h with ⟨segments, hmem, rfl⟩
  rcases mem_of_holder hother with ⟨segments', hmem', rfl⟩
  have hsame : (a, segments) = (a, segments') :=
    List.inj_on_of_nodup_map hnodup hmem hmem' rfl
  rw [(Prod.mk.inj hsame).2]

namespace Trie

/-- The tree is in shape from some depth on: every node is as deep as it was
    made, and its children can be told apart by their places. Unlike the
    description by entries, this survives a refused insertion without anything
    being known about the path. -/
inductive Shaped : Nat → Trie α → Prop
  | intro {n : Nat} {t : Trie α} (depth : t.depth = n)
      (keyed : ∀ e ∈ t.fixed, ∃ key, e.1.edgeKey? = some key)
      (fixed : (t.fixed.map fun e => e.1.edgeKey?).Nodup) (judged : t.judgedPlaces.Nodup)
      (child : ∀ e ∈ t.children, Shaped (n + 1) e.2) : Shaped n t

/-- The nodes of a tree, with their distance from its root. -/
inductive Below : Trie α → Nat → Trie α → Prop
  | root (t : Trie α) : Below t 0 t
  | child {t child node : Trie α} {s : Segment} {n : Nat} (edge : (s, child) ∈ t.children)
      (below : Below child n node) : Below t (n + 1) node

/-- The node that some segments lead to, one child after the other. -/
def follow : List Segment → Trie α → Option (Trie α)
  | [], t => some t
  | s :: rest, t =>
    match t.child? s with
    | .ok (some child) => follow rest child
    | _ => none

theorem mem_children {t child : Trie α} {s : Segment} :
    (s, child) ∈ t.children ↔ (s, child) ∈ t.fixed ∨
      (∃ e ∈ t.judged, s = .condition ⟨e.1.1, .validator e.1.2⟩ ∧ child = e.2) ∨
        ∃ v, s = .var v ∧ t.binder = some (v, child) := by
  rw [children, List.mem_append, List.mem_append, or_assoc, List.mem_map, List.mem_map]
  refine or_congr_right (or_congr ⟨fun h => ?_, fun h => ?_⟩ ⟨fun h => ?_, fun h => ?_⟩)
  · rcases h with ⟨e, he, hpair⟩
    cases hpair
    exact ⟨e, he, rfl, rfl⟩
  · rcases h with ⟨e, he, rfl, rfl⟩
    exact ⟨e, he, rfl⟩
  · rcases h with ⟨e, he, hpair⟩
    cases hpair
    exact ⟨e.1, rfl, Option.mem_toList.1 he⟩
  · rcases h with ⟨v, rfl, hbinder⟩
    exact ⟨(v, child), Option.mem_toList.2 hbinder, rfl⟩

/-- What is behind a place is a child. -/
theorem mem_children_of_childAt? {t child : Trie α} {p : Place} {s : Segment}
    (h : t.childAt? p = some (s, child)) : (s, child) ∈ t.children := by
  rw [mem_children]
  cases p with
  | fixed key => exact Or.inl (List.mem_of_find?_eq_some h)
  | judged kind validator =>
      rcases Option.map_eq_some_iff.1 h with ⟨e, he, hs⟩
      cases hs
      exact Or.inr (Or.inl ⟨e, List.mem_of_find?_eq_some he, rfl, rfl⟩)
  | binder position =>
      rcases binder_of_childAt? h with ⟨v, rfl, _, hbinder⟩
      exact Or.inr (Or.inr ⟨v, rfl, hbinder⟩)

/-- An entry of a table that is redirected is one that was there, or leads to
    the new tree. -/
theorem mem_redirect {β : Type} {p : β × Trie α → Bool} {new : β} {child : Trie α}
    {l : List (β × Trie α)} {e : β × Trie α} (h : e ∈ redirect p new child l) :
    e ∈ l ∨ e.2 = child := by
  induction l with
  | nil => exact Or.inr (congrArg Prod.snd (List.mem_singleton.1 h))
  | cons first rest ih =>
      rw [redirect] at h
      split at h
      · rcases List.mem_cons.1 h with rfl | h
        · exact Or.inr rfl
        · exact Or.inl (List.mem_cons_of_mem _ h)
      · rcases List.mem_cons.1 h with rfl | h
        · exact Or.inl List.mem_cons_self
        · exact (ih h).imp_left (List.mem_cons_of_mem _)

/-- A child after one was set is a child that was there, or the new one. -/
theorem mem_children_setChild {t child other : Trie α} {s u : Segment}
    (h : (u, other) ∈ (t.setChild s child).children) :
    (∃ w, (w, other) ∈ t.children) ∨ other = child := by
  rw [mem_children] at h
  simp only [mem_children]
  -- Only the table of the segment changes.
  rcases s.place_cases with ⟨key, hkey⟩ | ⟨kind, v, rfl⟩ | ⟨v, rfl⟩
  · rw [setChild_of_edgeKey? hkey] at h
    rcases h with h | h | h
    · rcases mem_redirect h with h | h
      · exact Or.inl ⟨u, Or.inl h⟩
      · exact Or.inr h
    · exact Or.inl ⟨u, Or.inr (Or.inl h)⟩
    · exact Or.inl ⟨u, Or.inr (Or.inr h)⟩
  · rcases h with h | ⟨e, he, rfl, rfl⟩ | h
    · exact Or.inl ⟨u, Or.inl h⟩
    · rcases mem_redirect he with he | he
      · exact Or.inl ⟨_, Or.inr (Or.inl ⟨e, he, rfl, rfl⟩)⟩
      · exact Or.inr he
    · exact Or.inl ⟨u, Or.inr (Or.inr h)⟩
  · rcases h with h | h | ⟨w, rfl, hbinder⟩
    · exact Or.inl ⟨u, Or.inl h⟩
    · exact Or.inl ⟨u, Or.inr (Or.inl h)⟩
    · exact Or.inr (Prod.mk.inj (Option.some.inj hbinder)).2.symm

theorem depth_setChild (t : Trie α) (s : Segment) (child : Trie α) :
    (t.setChild s child).depth = t.depth := by
  rcases s.place_cases with ⟨key, hkey⟩ | ⟨kind, v, rfl⟩ | ⟨v, rfl⟩
  · rw [setChild_of_edgeKey? hkey]
    rfl
  · rfl
  · rfl

/-- The keys of the children for texts and exact conditions are in the table
    they were made in, and a new one is at the end. -/
theorem map_edgeKey?_setChild {t : Trie α} {s : Segment} (child : Trie α) :
    ((t.setChild s child).fixed.map fun e => e.1.edgeKey?) =
      if s.edgeKey?.isSome && !(t.fixed.map fun e => e.1.edgeKey?).contains s.edgeKey? then
        (t.fixed.map fun e => e.1.edgeKey?) ++ [s.edgeKey?]
      else t.fixed.map fun e => e.1.edgeKey? := by
  rcases s.place_cases with ⟨key, hkey⟩ | ⟨kind, v, rfl⟩ | ⟨v, rfl⟩
  · rw [setChild_of_edgeKey? hkey, ← hkey]
    refine (map_redirect Segment.edgeKey? s child t.fixed).trans ?_
    rw [hkey]
    cases (t.fixed.map fun e => e.1.edgeKey?).contains (some key) <;> rfl
  · rfl
  · rfl

/-- A node that was just made is in shape. -/
theorem shaped_fresh (n : Nat) : Shaped n (fresh n : Trie α) :=
  .intro rfl (fun _ he => absurd he List.not_mem_nil) List.nodup_nil List.nodup_nil
    fun _ he => absurd he List.not_mem_nil

namespace Shaped

variable {n : Nat} {t child : Trie α}

theorem depth_eq (h : Shaped n t) : t.depth = n := by
  rcases h with ⟨hdepth, _, _, _, _⟩
  exact hdepth

theorem child_shaped (h : Shaped n t) {s : Segment} (he : (s, child) ∈ t.children) :
    Shaped (n + 1) child := by
  rcases h with ⟨_, _, _, _, hchild⟩
  exact hchild _ he

/-- No two children have the same place. -/
theorem pairwise_place (h : Shaped n t) :
    t.children.Pairwise fun e f => e.1.place ≠ f.1.place := by
  rcases h with ⟨_, hkeyed, hfixed, hjudged, _⟩
  have hplace : ∀ e ∈ t.fixed, ∃ key, e.1.place = .fixed key := fun e he =>
    (hkeyed e he).imp fun _ => Segment.edgeKey?_eq_some.1
  rw [children, List.pairwise_append, List.pairwise_append, List.pairwise_map, List.pairwise_map]
  -- Places of different kinds differ; within a kind they are the keys of a table.
  refine ⟨⟨?_, List.pairwise_map.1 hjudged, fun e he f hf => ?_⟩, ?_, fun e he f hf => ?_⟩
  · refine (List.pairwise_map.1 hfixed).imp_of_mem fun {e f} he hf hne hsame => hne ?_
    rcases hkeyed e he with ⟨key, hkey⟩
    rw [Segment.edgeKey?_eq_some] at hkey
    rw [Segment.edgeKey?_eq_some.2 hkey, Segment.edgeKey?_eq_some.2 (hsame.symm.trans hkey)]
  · rcases hplace e he with ⟨key, hkey⟩
    rcases List.mem_map.1 hf with ⟨f, _, rfl⟩
    exact fun hsame => nomatch hkey.symm.trans hsame
  · cases t.binder with
    | none => exact List.Pairwise.nil
    | some e => exact List.pairwise_singleton _ _
  · rcases List.mem_map.1 hf with ⟨f, _, rfl⟩
    rcases List.mem_append.1 he with he | he
    · rcases hplace e he with ⟨key, hkey⟩
      exact fun hsame => nomatch hkey.symm.trans hsame
    · rcases List.mem_map.1 he with ⟨e, _, rfl⟩
      exact fun hsame => nomatch hsame

/-- A child is what is behind its place. -/
theorem childAt?_of_mem (h : Shaped n t) {s : Segment} (he : (s, child) ∈ t.children) :
    t.childAt? s.place = some (s, child) := by
  rcases h with ⟨_, hkeyed, hfixed, hjudged, _⟩
  rcases mem_children.1 he with hfile | ⟨e, hfile, rfl, rfl⟩ | ⟨v, rfl, hbinder⟩
  · rcases hkeyed _ hfile with ⟨key, hkey⟩
    rcases List.getElem?_of_mem hfile with ⟨i, hi⟩
    have hfind := (find?_of_nodup hfixed hi).1
    rw [Segment.edgeKey?_eq_some.1 hkey]
    rwa [hkey] at hfind
  · rcases List.getElem?_of_mem hfile with ⟨i, hi⟩
    exact congrArg (Option.map _) (find?_of_nodup hjudged hi).1
  · exact childAt?_of_binder hbinder

theorem setTerminal (h : Shaped n t) (path : α) : Shaped n (t.setTerminal path) := by
  rcases h with ⟨hdepth, hkeyed, hfixed, hjudged, hchild⟩
  exact .intro hdepth hkeyed hfixed hjudged hchild

/-- Setting a child that is in shape keeps a tree in shape. -/
theorem setChild (h : Shaped n t) (hnew : Shaped (n + 1) child) (s : Segment) :
    Shaped n (t.setChild s child) := by
  rcases h with ⟨hdepth, hkeyed, hfixed, hjudged, hchild⟩
  have hkeys := map_edgeKey?_setChild (t := t) (s := s) child
  -- A child that is new gets a place that no child has, and one that is there keeps its place.
  refine .intro ((depth_setChild t s child).trans hdepth) (fun e he => ?_) ?_ ?_ fun e he => ?_
  · have hmem := List.mem_map_of_mem (f := fun e => e.1.edgeKey?) he
    rw [hkeys] at hmem
    rw [← Option.isSome_iff_exists]
    have hold : ∀ k ∈ t.fixed.map fun e => e.1.edgeKey?, k.isSome = true := by
      intro k hk
      rcases List.mem_map.1 hk with ⟨e, he, rfl⟩
      exact Option.isSome_iff_exists.2 (hkeyed e he)
    split at hmem
    · next hcond =>
      rcases List.mem_append.1 hmem with hmem | hmem
      · exact hold _ hmem
      · rw [List.mem_singleton.1 hmem]
        exact (Bool.and_eq_true_iff.1 hcond).1
    · exact hold _ hmem
  · rw [hkeys]
    split
    · next hcond =>
      refine List.nodup_append'.2 ⟨hfixed, List.nodup_singleton _, fun k hk hkey => ?_⟩
      rw [List.mem_singleton.1 hkey] at hk
      simp [hk] at hcond
    · exact hfixed
  · rw [judgedPlaces_setChild]
    split
    · next hcond =>
      refine List.nodup_append'.2 ⟨hjudged, List.nodup_singleton _, fun p hp hplace => ?_⟩
      rw [List.mem_singleton.1 hplace] at hp
      simp [hp] at hcond
    · exact hjudged
  · rcases mem_children_setChild he with ⟨w, hw⟩ | hsame
    · exact hchild (w, e.2) hw
    · rw [hsame]
      exact hnew

/-- An insertion keeps a tree in shape, whatever becomes of it. A refused one
    sets children on its way back too, and they are in shape as far as they
    were changed. -/
theorem insert (h : Shaped n t) (path : α) (segments : List Segment) :
    Shaped n (Trie.insert path segments t).trie := by
  induction segments generalizing n t with
  | nil => exact h.setTerminal path
  | cons s rest ih =>
      cases hstep : t.child? s with
      | error e =>
          rw [Trie.insert, hstep]
          exact h
      | ok c =>
          rw [insert_cons_trie hstep]
          -- The insertion goes on at the child, or at a new node that is one deeper.
          have hbelow : Shaped (n + 1) (c.getD (fresh (t.depth + 1))) := by
            cases c with
            | none =>
                rw [h.depth_eq]
                exact shaped_fresh (n + 1)
            | some child =>
                rcases Option.map_eq_some_iff.1 (child?_eq_ok.1 hstep).2.2 with ⟨e, he, hsame⟩
                rw [← hsame]
                exact h.child_shaped (mem_children_of_childAt? he)
          exact h.setChild (ih hbelow) s

/-- How deep a node was made is how far it is from the root. -/
theorem depth_below (h : Shaped n t) {m : Nat} {node : Trie α} (hbelow : t.Below m node) :
    node.depth = n + m := by
  induction hbelow generalizing n with
  | root t => exact h.depth_eq
  | child edge _ ih => rw [ih (h.child_shaped edge), Nat.add_assoc, Nat.add_comm 1]

end Shaped

/-- The walk lists what ends at the root, and then goes through the children. -/
theorem toList_eq (t : Trie α) :
    t.toList = t.terminal.toList ++ t.children.flatMap fun e => e.2.toList := by
  have hfixed : ∀ l : List (Segment × Trie α),
      fixedTerminals l = l.flatMap fun e => e.2.toList := by
    intro l
    induction l with
    | nil => rw [fixedTerminals, List.flatMap_nil]
    | cons e rest ih => rw [fixedTerminals, List.flatMap_cons, ih]
  have hjudged : ∀ l : List ((Value × Validator) × Trie α),
      judgedTerminals l = l.flatMap fun e => e.2.toList := by
    intro l
    induction l with
    | nil => rw [judgedTerminals, List.flatMap_nil]
    | cons e rest ih => rw [judgedTerminals, List.flatMap_cons, ih]
  have hbinder : ∀ o : Option (Variable × Trie α),
      binderTerminals o = o.toList.flatMap fun e => e.2.toList := by
    intro o
    cases o with
    | none => rw [binderTerminals, Option.toList_none, List.flatMap_nil]
    | some e => rw [binderTerminals, Option.toList_some, List.flatMap_singleton]
  rcases t with ⟨depth, terminal, fixed, judged, binder⟩
  rw [toList, hfixed, hjudged, hbinder, children, List.flatMap_append, List.flatMap_append,
    List.flatMap_map, List.flatMap_map, List.append_assoc, List.append_assoc, List.append_assoc]
  rfl

/-- What the walk lists is what ends where some places lead. The walk goes
    through all three tables of every node, and a child that it misses would
    be a path that is in force and not in the list. -/
theorem Shaped.mem_toList {n : Nat} {t : Trie α} {es : Entries α} (h : Shaped n t)
    (hholds : t.Holds es) {a : α} :
    a ∈ t.toList ↔ ∃ places, holder es places = some a := by
  constructor
  · intro ha
    induction h generalizing es with
    | @intro n t hdepth hkeyed hfixed hjudged hchild ih =>
        have hshaped : Shaped n t := .intro hdepth hkeyed hfixed hjudged hchild
        rw [toList_eq, List.mem_append, List.mem_flatMap] at ha
        rcases ha with ha | ⟨e, he, ha⟩
        · exact ⟨[], by rw [← hholds.terminal_eq, Option.mem_toList.1 ha]⟩
        · have hat := hshaped.childAt?_of_mem he
          rcases ih e he (hholds.child_holds hat) ha with ⟨places, hplaces⟩
          exact ⟨e.1.place :: places, by rw [← holder_after, hplaces]⟩
  · intro hfound
    rcases hfound with ⟨places, hplaces⟩
    -- Place by place, there is a child, since some entry goes on.
    induction places generalizing n t es with
    | nil =>
        rw [toList_eq, List.mem_append, hholds.terminal_eq, hplaces]
        exact Or.inl (by simp)
    | cons p places ih =>
        rw [← holder_after] at hplaces
        rcases mem_of_holder hplaces with ⟨segments, hmem, _⟩
        rcases mem_after.1 hmem with ⟨s, rfl, hentry⟩
        rcases hholds.child_of_mem hentry with ⟨u, child, hat⟩
        have hedge := mem_children_of_childAt? hat
        rw [toList_eq, List.mem_append, List.mem_flatMap]
        exact Or.inr ⟨(u, child), hedge,
          ih (h.child_shaped hedge) (hholds.child_holds hat) hplaces⟩

/-- Where no terminal was inserted twice, none is listed twice. -/
theorem Shaped.nodup_toList {n : Nat} {t : Trie α} {es : Entries α} (h : Shaped n t)
    (hholds : t.Holds es) (hnodup : (es.map Prod.fst).Nodup) : t.toList.Nodup := by
  induction h generalizing es with
  | @intro n t hdepth hkeyed hfixed hjudged hchild ih =>
      have hshaped : Shaped n t := .intro hdepth hkeyed hfixed hjudged hchild
      -- What is listed below a child ends where its place leads first.
      have hlisted : ∀ e ∈ t.children, ∀ a ∈ e.2.toList,
          ∃ places, holder es (e.1.place :: places) = some a := by
        intro e he a ha
        have hbelow := hholds.child_holds (hshaped.childAt?_of_mem he)
        rcases ((hchild e he).mem_toList hbelow).1 ha with ⟨places, hplaces⟩
        exact ⟨places, by rw [← holder_after, hplaces]⟩
      have hroot : t.terminal.toList.Nodup := by
        cases t.terminal with
        | none => exact List.nodup_nil
        | some a => exact List.nodup_singleton a
      rw [toList_eq, List.nodup_append']
      refine ⟨hroot, List.nodup_flatMap.2 ⟨fun e he => ?_, ?_⟩, fun a ha hchildren => ?_⟩
      · have hbelow := hholds.child_holds (hshaped.childAt?_of_mem he)
        exact ih e he hbelow (hnodup.sublist (after_sublist _ _))
      · refine hshaped.pairwise_place.imp_of_mem fun he hf hne a hae haf => hne ?_
        rcases hlisted _ he a hae with ⟨places, hplaces⟩
        rcases hlisted _ hf a haf with ⟨others, hothers⟩
        exact (List.cons.inj (places_eq_of_holder hnodup hplaces hothers)).1
      · rcases List.mem_flatMap.1 hchildren with ⟨e, he, hae⟩
        rcases hlisted e he a hae with ⟨places, hplaces⟩
        rw [hholds.terminal_eq, Option.mem_toList] at ha
        cases places_eq_of_holder hnodup ha hplaces

/-- Nothing is in the way of what leads to a child. -/
theorem blocks_of_childAt? {t child : Trie α} {p : Place} {s : Segment}
    (h : t.childAt? p = some (s, child)) : t.blocks p = false := by
  cases p with
  | binder position =>
      rcases binder_of_childAt? h with ⟨v, _, hposition, hbinder⟩
      simp [blocks, hbinder, hposition]
  | _ => rfl

/-- An entry leads to the node at which the last entry with its places ends. So
    what is found behind a path may be a later one that has taken its place. -/
theorem Holds.exists_follow {t : Trie α} {es : Entries α} (h : t.Holds es) {a : α}
    {segments : List Segment} (hmem : (a, segments) ∈ es)
    (hfileable : ∀ s ∈ segments, s.isFileable = true) :
    ∃ node, follow segments t = some node ∧ t.Below segments.length node ∧
      node.terminal = holder es (segments.map Segment.place) := by
  induction segments generalizing t es with
  | nil => exact ⟨t, rfl, .root t, h.terminal_eq⟩
  | cons s rest ih =>
      rcases List.forall_mem_cons.1 hfileable with ⟨hs, hrest⟩
      rcases h.child_of_mem hmem with ⟨u, child, hat⟩
      have hstep : t.child? s = .ok (some child) :=
        child?_eq_ok.2 ⟨hs, blocks_of_childAt? hat, by rw [hat]; rfl⟩
      rcases ih (h.child_holds hat) (mem_after.2 ⟨s, rfl, hmem⟩) hrest with
        ⟨node, hfollow, hbelow, hterminal⟩
      refine ⟨node, ?_, .child (mem_children_of_childAt? hat) hbelow, ?_⟩
      · rw [follow, hstep]
        exact hfollow
      · rw [hterminal, holder_after, List.map_cons]

/-- A tree that was filled is in shape. -/
theorem Built.shaped {delimiters : List String} {t : Trie α} {paths : List (α × Path)}
    (h : Built delimiters t paths) : Shaped 0 t := by
  induction h with
  | empty => exact shaped_fresh 0
  | insert _ _ _ ih => exact ih.insert _ _

end Trie

end PathRouting
