import PathRouting.Proofs.Trie.Contents

/-!
# Which Paths a Tree Admits

A tree admits a path exactly if the path is in conflict with none of those it
was filled with, and the only thing it ever says against a path that can be
filed is that it is ambiguous. Whether several paths pass the rehearsal is
therefore a matter of pairs: each of them against the paths in the live tree,
and each against the others.

A conflict has no direction, so it does not matter which of two paths came
first.

## Theorems

* `Conflict.symm`: A conflict is mutual.
* `check_eq_error`, `insert_eq_error`, `stageAll_eq_error`: The only objection
  to a path that can be filed.
* `Built.check_eq_ok`: A tree admits what is in no conflict with its paths.
* `stageAll_eq_ok`: What the rehearsal accepts.
-/

namespace PathRouting

theorem Place.clashes_comm (p q : Place) : p.clashes q = q.clashes p := by
  cases p <;> cases q <;> simp only [clashes]
  exact bne_comm

/-- A conflict is mutual. -/
theorem Conflict.symm {as bs : List Segment} (h : Conflict as bs) : Conflict bs as := by
  induction h with
  | @here s u as bs hclash =>
      rw [Place.clashes_comm] at hclash
      exact .here hclash
  | later hplace _ ih => exact .later hplace.symm ih

namespace Trie

variable {α : Type}

/-- Only a variable can be refused once it is known that the segment can be
    filed. A literal or a condition with a usable key always finds room, since
    tables grow; but a node has place for one variable only. -/
theorem child?_eq_error {t : Trie α} {s : Segment} {e : Fault} (hs : s.isFileable = true)
    (h : t.child? s = .error e) : ∃ added held, e = .ambiguous added held := by
  have hkeyed : ∀ {b : Bool} {x : Option (Trie α)}, b = true →
      (if b then .ok x else .error (.type .notAKey) : Except Fault _) ≠ .error e := by
    intro b x hb
    rw [if_pos hb]
    exact fun h => nomatch h
  cases s with
  | literal text | separator mark => cases h
  | condition c =>
      rcases c with ⟨kind, value⟩
      cases value <;> exact absurd h (hkeyed hs)
  | var v =>
      rw [child?] at h
      split at h
      · cases h
      · split at h
        · cases h
        · exact ⟨_, _, (Except.error.inj h).symm⟩

/-- What the check says against a path that can be filed is that it is ambiguous. -/
theorem check_eq_error {t : Trie α} {segments : List Segment} {e : Fault}
    (hsegments : ∀ s ∈ segments, s.isFileable = true) (h : t.check segments = .error e) :
    ∃ added held, e = .ambiguous added held := by
  induction segments generalizing t with
  | nil => cases h
  | cons s rest ih =>
      rcases List.forall_mem_cons.1 hsegments with ⟨hs, hrest⟩
      rw [check] at h
      split at h
      · next e' hchild =>
        cases h
        exact child?_eq_error hs hchild
      · cases h
      · exact ih hrest h

theorem insert_eq_error {path : α} {t : Trie α} {segments : List Segment} {e : Fault}
    (hsegments : ∀ s ∈ segments, s.isFileable = true)
    (h : (insert path segments t).outcome = .error e) :
    ∃ added held, e = .ambiguous added held := by
  induction segments generalizing t with
  | nil => cases h
  | cons s rest ih =>
      rcases List.forall_mem_cons.1 hsegments with ⟨hs, hrest⟩
      rw [insert] at h
      split at h
      · next e' hchild =>
        cases h
        exact child?_eq_error hs hchild
      · exact ih hrest h

/-- A tree admits exactly the paths that are in no conflict with those it was
    filled with. This turns a question about nodes, what blocks a segment there,
    into one about pairs of paths, in which the tree does not occur any more. -/
theorem Built.check_eq_ok {delimiters : List String} {t : Trie α} {paths : List (α × Path)}
    (h : Built delimiters t paths) {segments : List Segment}
    (hsegments : ∀ s ∈ segments, s.isFileable = true) :
    t.check segments = .ok () ↔ ∀ e ∈ paths, ¬Conflict e.2.segments segments := by
  induction h with
  | empty => exact iff_of_true (check_empty hsegments) fun _ he => absurd he List.not_mem_nil
  | @insert t paths a p old _ _ accepted ih =>
      have hone : (∀ e ∈ [(a, p)], ¬Conflict e.2.segments segments) ↔
          ¬Conflict p.segments segments := by
        simp only [List.mem_singleton, forall_eq]
      rw [check_insert accepted hsegments, ih, List.forall_mem_append, hone]

section Rehearsal

variable [DecidableEq α] {live : Trie α}

/-- The rehearsal accepts the paths that can be filed, that both trees admit,
    and of which no two are in conflict. The second tree starts out empty and
    holds the paths rehearsed so far, so that new ones are compared among each
    other as well, before any of them is in force. -/
theorem stageAll_eq_ok {entries : Entries α} {staging : Trie α} :
    (stageAll live entries staging).outcome = .ok () ↔
      (∀ e ∈ entries, (∀ s ∈ e.2, s.isFileable = true) ∧ live.check e.2 = .ok () ∧
        staging.check e.2 = .ok ()) ∧
      entries.Pairwise fun a b => ¬Conflict a.2 b.2 := by
  induction entries generalizing staging with
  | nil => simp [stageAll]
  | cons e rest ih =>
      rw [List.forall_mem_cons, List.pairwise_cons, stageAll]
      cases hlive : live.check e.2 with
      | error fault => simp
      | ok _ =>
          simp only
          cases hone : (insert e.1 e.2 staging).outcome with
          | error fault =>
              -- The path cannot be put on the stage, for one of the two reasons there are.
              have hnot : ¬((∀ s ∈ e.2, s.isFileable = true) ∧ staging.check e.2 = .ok ()) := by
                intro hboth
                rcases insert_eq_ok.2 hboth with ⟨old, hold⟩
                rw [hone] at hold
                cases hold
              refine iff_of_false (by simp) fun hall => ?_
              exact hnot ⟨hall.1.1.1, hall.1.1.2.2⟩
          | ok old =>
              rcases insert_eq_ok.1 ⟨old, hone⟩ with ⟨hfileable, hcheck⟩
              simp only
              rw [ih]
              -- Behind it, the stage refuses what it refused before and what is in
              -- conflict with the path.
              constructor
              · intro hboth
                rcases hboth with ⟨hrest, hpairs⟩
                have hsplit : ∀ b ∈ rest, staging.check b.2 = .ok () ∧ ¬Conflict e.2 b.2 :=
                  fun b hb => (check_insert hone (hrest b hb).1).1 (hrest b hb).2.2
                exact ⟨⟨⟨hfileable, trivial, hcheck⟩, fun b hb =>
                    ⟨(hrest b hb).1, (hrest b hb).2.1, (hsplit b hb).1⟩⟩,
                  fun b hb => (hsplit b hb).2, hpairs⟩
              · intro hall
                rcases hall with ⟨⟨_, hrest⟩, hfirst, hpairs⟩
                refine ⟨fun b hb => ?_, hpairs⟩
                rcases hrest b hb with ⟨hb', hblive, hbcheck⟩
                exact ⟨hb', hblive, (check_insert hone hb').2 ⟨hbcheck, hfirst b hb⟩⟩

/-- The only objection of the rehearsal to paths that can be filed is that one
    of them is ambiguous. -/
theorem stageAll_eq_error {entries : Entries α} {staging : Trie α} {e : Fault}
    (hentries : ∀ x ∈ entries, ∀ s ∈ x.2, s.isFileable = true)
    (h : (stageAll live entries staging).outcome = .error e) :
    ∃ added held, e = .ambiguous added held := by
  induction entries generalizing staging with
  | nil => cases h
  | cons x rest ih =>
      rcases List.forall_mem_cons.1 hentries with ⟨hx, hrest⟩
      rw [stageAll] at h
      split at h
      · next e' hlive =>
        cases h
        exact check_eq_error hx hlive
      · simp only at h
        split at h
        · next e' hone =>
          cases h
          exact insert_eq_error hx hone
        · exact ih hrest h

end Rehearsal

end Trie

end PathRouting
