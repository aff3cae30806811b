import PathRouting.Proofs.Trie.Completeness

/-!
# A Tree with One Path

In a tree that holds a single path, every node was made for a segment of that
path. The search asks for exactly what the path asks for, and a cut of the
tokens for the path is a walk, even where a requirement repeats the expression
of a greedy variable.

So the path is found whenever the tokens can be cut for it, unless a validator
fails.

## Theorems

* `Trie.Holds.child_of_alone`: The node behind the first segment.
* `Trie.Walk.steps`: A cut for the path is a walk.
* `Trie.layout_of_alone`, `Trie.cut_of_alone`: What a match says about the
  tokens.
* `Trie.find_of_cut`: The path is found if there is a cut for it.
-/

namespace PathRouting

variable {α : Type} {delimiters : List String}

/-- Without conditions, a path is matched by the path proper. -/
theorem Path.segments_eq_parts (p : Path) (h : p.conditions = []) : p.segments = p.parts := by
  rw [Path.segments, h]
  rfl

namespace Trie

/-- The node behind the first segment of the only path was made for that
    segment, and holds the rest of the path. So a tree with one path is a
    chain, and a search in it has nowhere else to go. -/
theorem Holds.child_of_alone {t : Trie α} {a : α} {s : Segment} {segments : List Segment}
    (h : t.Holds [(a, s :: segments)]) :
    ∃ child, t.childAt? s.place = some (s, child) ∧ child.Holds [(a, segments)] := by
  rcases h.child_of_mem List.mem_cons_self with ⟨u, child, hat⟩
  rcases h.exists_label hat with ⟨a', rest, hlabel⟩
  cases List.mem_singleton.1 hlabel
  have hbelow := h.child_holds hat
  rw [after_cons_same] at hbelow
  exact ⟨child, hat, hbelow⟩

/-- The node behind a variable that comes first is that of the binder. -/
theorem Holds.binder_of_alone {t : Trie α} {a : α} {v : Variable} {segments : List Segment}
    (h : t.Holds [(a, .var v :: segments)]) :
    ∃ child, t.binder = some (v, child) ∧ child.Holds [(a, segments)] := by
  rcases h.child_of_alone with ⟨child, hat, hbelow⟩
  rcases binder_of_childAt? hat with ⟨w, hw, _, hleads⟩
  cases hw
  exact ⟨child, hleads, hbelow⟩

variable [Host]

/-- Walks lead over cuts for the only path, if that is a path proper. The tree
    behind every step is one with the rest of the path. -/
theorem Walk.steps (a : α) : Cut.Steps delimiters fun parts tokens glob =>
    (∀ c, Segment.condition c ∉ parts) → ∀ t : Trie α, t.Holds [(a, parts)] →
      ∃ choices b, Walk delimiters t tokens glob choices a b where
  stop _ t h := ⟨_, _, .stop (h.terminal_eq.trans rfl)⟩
  condition _ _ hplain := absurd List.mem_cons_self (hplain _)
  literal onward hplain t h := by
    rcases h.child_of_alone with ⟨child, hat, hbelow⟩
    rcases onward (fun c hc => hplain c (List.mem_cons_of_mem _ hc)) child hbelow with ⟨_, _, hwalk⟩
    exact ⟨_, _, .literal hat rfl hwalk⟩
  separator onward hplain t h := by
    rcases h.child_of_alone with ⟨child, hat, hbelow⟩
    rcases onward (fun c hc => hplain c (List.mem_cons_of_mem _ hc)) child hbelow with ⟨_, _, hwalk⟩
    exact ⟨_, _, .separator hat rfl hwalk⟩
  single kind mark accepts onward hplain t h := by
    rcases h.binder_of_alone with ⟨child, hleads, hbelow⟩
    rcases onward (fun c hc => hplain c (List.mem_cons_of_mem _ hc)) child hbelow with ⟨_, _, hwalk⟩
    exact ⟨_, _, .single mark hleads kind accepts hwalk⟩
  several kind greedy mark accepts onward hplain t h := by
    rcases h.binder_of_alone with ⟨child, hleads, hbelow⟩
    rcases onward (fun c hc => hplain c (List.mem_cons_of_mem _ hc)) child hbelow with ⟨_, _, hwalk⟩
    exact ⟨_, _, .several mark hleads kind greedy accepts hwalk⟩
  greedy := by
    intro s piece more v g r segments glob kind greedy regex mark spells last accepts onward hplain
      t h
    rcases h.binder_of_alone with ⟨child, hleads, hbelow⟩
    rcases onward (fun c hc => hplain c (List.mem_cons_of_mem _ hc)) child hbelow with ⟨_, _, hwalk⟩
    -- The variable of the node is that of the path, so it takes what spells the match.
    have htakes : greedyTake v g ((s :: piece ++ more).map Token.ofText) =
        .ok (some (String.join (s :: piece), (s :: piece).length)) :=
      greedyTake_eq_some.2 ⟨r, s :: piece, more, regex, rfl, rfl, spells, join_ne_empty last,
        rfl, last, accepts⟩
    rw [← drop_ofText s piece more] at hwalk
    exact ⟨_, _, .greedy mark hleads kind greedy htakes hwalk⟩
  skip mark onward hplain t h := by
    rcases onward hplain t h with ⟨_, _, hwalk⟩
    exact ⟨_, _, .skip mark hwalk⟩
  take mark accepts onward hplain t h := by
    rcases onward hplain t h with ⟨_, _, hwalk⟩
    exact ⟨_, _, .take mark accepts hwalk⟩

omit [Host] in
/-- A compiled path can be the only one in a tree. -/
theorem Built.alone {p : Path} (hcompiled : p.Compiled delimiters) (hproper : p.conditions = [])
    (a : α) : (Trie.insert a p.segments .empty).trie.Built delimiters [(a, p)] := by
  have hfileable : ∀ s ∈ p.segments, s.isFileable = true := by
    rw [p.segments_eq_parts hproper]
    intro s hs
    cases s with
    | condition c => exact absurd (hcompiled.fits _ hs) id
    | literal text | separator mark | var v => rfl
  rcases insert_eq_ok.2 ⟨hfileable, check_empty hfileable⟩ with ⟨old, hold⟩
  exact Built.empty.insert hcompiled hold

section Found

variable {p : Path} {a : α} {pieces : List String} {found : α × Bindings}

/-- What is found in a tree with one path is that path, on a run of the path proper. -/
theorem run_of_alone (hcompiled : p.Compiled delimiters) (hproper : p.conditions = [])
    (hfind : (Trie.insert a p.segments .empty).trie.find delimiters (pieces.map Token.ofText) =
      .ok (some found)) :
    found.1 = a ∧ ∃ choices, Run delimiters (entriesOf [(a, p)]) p.parts
      (pieces.map Token.ofText) none choices found.2 := by
  rcases (Built.alone hcompiled hproper a).run_of_find (.texts pieces) hfind with
    ⟨q, hq, choices, hrun⟩
  cases List.mem_singleton.1 hq
  rw [p.segments_eq_parts hproper] at hrun
  exact ⟨rfl, choices, hrun⟩

theorem layout_of_alone (hcompiled : p.Compiled delimiters) (hproper : p.conditions = [])
    (hfind : (Trie.insert a p.segments .empty).trie.find delimiters (pieces.map Token.ofText) =
      .ok (some found)) : Layout delimiters p.parts pieces found.2 := by
  rcases run_of_alone hcompiled hproper hfind with ⟨_, choices, hrun⟩
  refine hrun.behind_of_parts rfl fun m hm => ?_
  rcases hcompiled.fits _ hm with ⟨c, _, hmark⟩
  exact hmark

/-- The tokens are cut for the path that is found if there is no glob in it. -/
theorem cut_of_alone (hcompiled : p.Compiled delimiters) (hproper : p.conditions = [])
    (hsingles : ∀ v, Segment.var v ∈ p.parts → v.glob = none)
    (hfind : (Trie.insert a p.segments .empty).trie.find delimiters (pieces.map Token.ofText) =
      .ok (some found)) : Cut delimiters p.parts (pieces.map Token.ofText) := by
  rcases run_of_alone hcompiled hproper hfind with ⟨_, choices, hrun⟩
  exact hrun.cut hsingles fun c hc => hcompiled.fits _ hc

end Found

/-- The only path is found if the tokens can be cut for it, unless one of its
    validators fails on a text. Nothing is asked of the validators beforehand:
    with one path there is no other that a search could be distracted by, and
    a fault on the way can only come from the path itself. -/
theorem find_of_cut {p : Path} (hcompiled : p.Compiled delimiters) (hproper : p.conditions = [])
    {pieces : List String} (hcut : Cut delimiters p.parts (pieces.map Token.ofText)) (a : α) :
    let t := (Trie.insert a p.segments .empty).trie
    (∃ b, t.find delimiters (pieces.map Token.ofText) = .ok (some (a, b))) ∨
      ∃ e, t.find delimiters (pieces.map Token.ofText) = .error e ∧
        ∃ v ∈ p.binders, ∃ s, v.accepts (.text s) = .error e := by
  intro t
  have hfits := hcompiled.fits
  have hholds : t.Holds [(a, p.parts)] := by
    have hbuilt : t.Built delimiters [(a, p)] := Built.alone hcompiled hproper a
    have hentries := hbuilt.holds
    rw [entriesOf, List.map_singleton, p.segments_eq_parts hproper] at hentries
    exact hentries
  rcases (Walk.steps a).of_cut hcut none (fun c hc => hfits _ hc) t hholds with
    ⟨choices, b, hwalk⟩
  -- The cut is a walk, so the search has something to find. It can only be kept from it by a fault,
  -- which is then one of a variable on a text: the path has no conditions and the tokens bring no
  -- attributes.
  have hanswers : Answers _ _ (t.find delimiters (pieces.map Token.ofText)) :=
    find_answers (.texts pieces) t
  cases hfind : t.find delimiters (pieces.map Token.ofText) with
  | error e =>
      rw [hfind] at hanswers
      refine Or.inr ⟨e, rfl, ?_⟩
      rcases hanswers with ⟨w, x, hasks, hx⟩ | ⟨⟨c, hc, _⟩, _⟩
      · rcases hholds.asks_of_asks hasks with ⟨y, hy, s, hs, hlabel⟩
        rw [List.mem_singleton.1 hy] at hs
        cases hlabel with
        | condition => exact absurd (hfits _ hs) id
        | @var v _ held text =>
            refine ⟨v, Path.mem_binders hs, text, ?_⟩
            rw [Variable.accepts, held]
            exact hx
      · rcases List.mem_map.1 hc with ⟨_, _, hx⟩
        cases hx
  | ok found =>
      rw [hfind] at hanswers
      cases found with
      | none => exact absurd hwalk (hanswers choices (a, b))
      | some found =>
          have hpath := (run_of_alone hcompiled hproper hfind).1
          exact Or.inl ⟨found.2, by rw [← hpath]⟩

end Trie

end PathRouting
