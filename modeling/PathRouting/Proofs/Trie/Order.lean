import PathRouting.Proofs.Trie.Refinement

/-!
# The Order of Insertion

The order in which paths are inserted shapes a tree: in which order the
children of a node were made, and which of the paths that share a node has
given it its segment. A search sees little of that. The choices on a run are
the same in every tree, but for the numbers of the conditions that judge, and
what ends where several paths with the same places lead is the last of them.

So two trees that hold the same paths answer alike if no condition judges.
What they call a path by may differ from tree to tree, but it is what ends at
the same places.

## Main definitions

* `Unjudged`: No condition judges.
* `Trie.Rearranged`: Two trees hold the same paths, perhaps in another order.

## Theorems

* `Run.elsewhere`: A run does not depend on the other paths.
* `Trie.Rearranged.find_some`, `Trie.Rearranged.find_none`: The answers of two
  trees that hold the same paths.
-/

namespace PathRouting

variable {α β : Type} {delimiters : List String} {es : Entries α} {fs : Entries β}

/-- No condition in the entries judges. -/
def Unjudged (es : Entries α) : Prop :=
  ∀ e ∈ es, ∀ s ∈ e.2, s.place.isJudged = false

theorem Unjudged.after (h : Unjudged es) (p : Place) : Unjudged (after p es) := by
  intro e he u hu
  rcases mem_after.1 he with ⟨s, _, hmem⟩
  exact h _ hmem u (List.mem_cons_of_mem _ hu)

/-- There is no condition to be given a number. -/
theorem Unjudged.judging_eq (h : Unjudged es) : judging es = [] := by
  have hnone : (heads es).filter Place.isJudged = [] := by
    rw [List.filter_eq_nil_iff]
    intro p hp hjudged
    rcases List.mem_filterMap.1 hp with ⟨⟨a, segments⟩, hmem, hhead⟩
    cases segments with
    | nil => cases hhead
    | cons s rest =>
        cases hhead
        rw [h _ hmem s List.mem_cons_self] at hjudged
        cases hjudged
  rw [judging, hnone]
  rfl

variable [Host]

/-- A run of a path does not depend on the other paths, where no condition
    judges. The induction is on the run: every step leaves both lists of
    entries behind one place, and only conditions look at them. -/
theorem Run.elsewhere {segments : List Segment} {tokens : List Token}
    {glob : Option OpenGlob} {choices : List Nat} {b : Bindings}
    (hrun : Run delimiters es segments tokens glob choices b) (hes : Unjudged es)
    (hfs : Unjudged fs) (hsegments : ∀ s ∈ segments, s.place.isJudged = false) :
    Run delimiters fs segments tokens glob choices b := by
  induction hrun generalizing fs with
  | stop => exact .stop
  | exact compares kind value _ ih =>
      exact .exact compares kind value
        (ih (hes.after _) (hfs.after _) (List.forall_mem_cons.1 hsegments).2)
  | judged =>
      exact absurd (hsegments _ List.mem_cons_self) (by simp [Segment.place, Place.isJudged])
  | @anything _ c d segments rest glob choices b wildcard kind _ ih =>
      -- The number of a wildcard is that of the conditions that judge, and there are none on either
      -- side.
      have honward := ih (hes.after _) (hfs.after (Segment.condition d).place)
        (List.forall_mem_cons.1 hsegments).2
      rw [hes.judging_eq, ← hfs.judging_eq]
      exact .anything wildcard kind honward
  | literal _ ih =>
      exact .literal (ih (hes.after _) (hfs.after _) (List.forall_mem_cons.1 hsegments).2)
  | separator _ ih =>
      exact .separator (ih (hes.after _) (hfs.after _) (List.forall_mem_cons.1 hsegments).2)
  | single mark kind accepts _ ih =>
      exact .single mark kind accepts
        (ih (hes.after _) (hfs.after _) (List.forall_mem_cons.1 hsegments).2)
  | several mark kind greedy accepts _ ih =>
      exact .several mark kind greedy accepts
        (ih (hes.after _) (hfs.after _) (List.forall_mem_cons.1 hsegments).2)
  | greedy mark kind greedy regex spells last accepts _ ih =>
      exact .greedy mark kind greedy regex spells last accepts
        (ih (hes.after _) (hfs.after _) (List.forall_mem_cons.1 hsegments).2)
  | skip mark _ ih => exact .skip mark (ih hes hfs hsegments)
  | take mark accepts _ ih => exact .take mark accepts (ih hes hfs hsegments)

namespace Trie

/-- Two trees hold the same paths, perhaps in another order and by other
    names. No condition judges, and no requirement repeats an expression. -/
structure Rearranged (delimiters : List String) (t : Trie α) (paths : List (α × Path))
    (t' : Trie β) (others : List (β × Path)) : Prop where
  left : t.Built delimiters paths
  right : t'.Built delimiters others
  same : ∀ p, p ∈ paths.map Prod.snd ↔ p ∈ others.map Prod.snd
  unjudged : ∀ p ∈ paths.map Prod.snd, ∀ s ∈ p.segments, s.place.isJudged = false
  unechoed : ∀ p ∈ paths.map Prod.snd, ∀ v, Segment.var v ∈ p.parts → v.echoes = false

namespace Rearranged

variable {t : Trie α} {t' : Trie β} {paths : List (α × Path)} {others : List (β × Path)}
  {tokens : List Token} {choices : List Nat} {a : α} {b : Bindings}

omit [Host] in
theorem symm (h : Rearranged delimiters t paths t' others) :
    Rearranged delimiters t' others t paths :=
  ⟨h.right, h.left, fun p => (h.same p).symm, fun p hp => h.unjudged p ((h.same p).2 hp),
    fun p hp => h.unechoed p ((h.same p).2 hp)⟩

omit [Host] in
theorem unjudged_left (h : Rearranged delimiters t paths t' others) :
    Unjudged (entriesOf paths) := by
  intro e he
  rcases List.mem_map.1 he with ⟨q, hq, rfl⟩
  exact h.unjudged q.2 (List.mem_map_of_mem hq)

/-- The answer of the left tree is right for the runs of the paths. -/
theorem answers (h : Rearranged delimiters t paths t' others) (htokens : Orderly tokens) :
    Answers (Arrives delimiters paths tokens)
      (Faulty (Asked (Brought tokens) paths) (Brought tokens)) (t.find delimiters tokens) :=
  h.left.answers_arrivals (fun e he => h.unechoed e.2 (List.mem_map_of_mem he)) htokens

/-- What arrives in the left tree arrives in the right one, by the same
    choices and at the same places. -/
theorem arrives (h : Rearranged delimiters t paths t' others)
    (harrives : Arrives delimiters paths tokens choices (a, b)) :
    ∃ places x, holder (entriesOf paths) places = some a ∧
      holder (entriesOf others) places = some x ∧
      Arrives delimiters others tokens choices (x, b) := by
  rcases harrives with ⟨e, he, hrun, hholder⟩
  have hmem := List.mem_map_of_mem (f := Prod.snd) he
  rcases List.mem_map.1 ((h.same e.2).1 hmem) with ⟨e', he', hpath⟩
  have hentry : (e'.1, e.2.segments) ∈ entriesOf others := by
    rw [← hpath]
    exact List.mem_map_of_mem he'
  rcases holder_of_mem hentry with ⟨x, hx⟩
  have helsewhere := hrun.elsewhere h.unjudged_left h.symm.unjudged_left (h.unjudged e.2 hmem)
  refine ⟨_, x, hholder, hx, e', he', ?_, ?_⟩
  · rw [hpath]
    exact helsewhere
  · rw [hpath]
    exact hx

/-- What the left tree finds the right tree finds, with the same bindings and
    at the same places, unless a fault keeps it from answering. -/
theorem find_some (h : Rearranged delimiters t paths t' others) (htokens : Orderly tokens)
    (hok : ∀ e, t'.find delimiters tokens ≠ .error e)
    (hfind : t.find delimiters tokens = .ok (some (a, b))) :
    ∃ places x, holder (entriesOf paths) places = some a ∧
      holder (entriesOf others) places = some x ∧
      t'.find delimiters tokens = .ok (some (x, b)) := by
  have hleft := h.answers htokens
  rw [hfind] at hleft
  rcases hleft with ⟨choices, harrives, hleast⟩
  rcases h.arrives harrives with ⟨places, x, ha, hx, hother⟩
  have hright := h.symm.answers htokens
  cases hfind' : t'.find delimiters tokens with
  | error e => exact absurd hfind' (hok e)
  | ok found =>
      rw [hfind'] at hright
      cases found with
      | none => exact absurd hother (hright choices (x, b))
      | some found =>
          rcases hright with ⟨choices', harrives', hleast'⟩
          rcases hleast' choices (x, b) hother with hlt | ⟨_, hsame⟩
          · -- What comes first in one tree cannot come later in the other.
            rcases h.symm.arrives (a := found.1) (b := found.2) harrives' with
              ⟨_, y, _, _, hback⟩
            rcases hleast choices' (y, found.2) hback with hgt | ⟨heq, _⟩
            · exact absurd (List.lt_trans hlt hgt) (List.lt_irrefl _)
            · rw [heq] at hlt
              exact absurd hlt (List.lt_irrefl _)
          · exact ⟨places, x, ha, hx, by rw [hsame]⟩

/-- Where the left tree finds nothing, neither does the right one. -/
theorem find_none (h : Rearranged delimiters t paths t' others) (htokens : Orderly tokens)
    (hok : ∀ e, t'.find delimiters tokens ≠ .error e)
    (hfind : t.find delimiters tokens = .ok none) : t'.find delimiters tokens = .ok none := by
  cases hfind' : t'.find delimiters tokens with
  | error e => exact absurd hfind' (hok e)
  | ok found =>
      cases found with
      | none => rfl
      | some found =>
          have hok' : ∀ e, t.find delimiters tokens ≠ .error e := by
            intro e
            rw [hfind]
            exact fun h => nomatch h
          rcases h.symm.find_some (a := found.1) (b := found.2) htokens hok' hfind' with
            ⟨_, x, _, _, hsome⟩
          rw [hfind] at hsome
          cases hsome

end Rearranged

end Trie

end PathRouting
