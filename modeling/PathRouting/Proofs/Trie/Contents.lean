import PathRouting.Proofs.Pattern.Fit
import PathRouting.Proofs.Trie.Insertion

/-!
# What a Tree Holds

A tree that was filled by inserting paths is described by the list of those
paths alone, in the order they were inserted: what ends at a node, what its
children were made for, and in which order those for conditions that judge
were made. The description of a child is what remains of the list behind its
place.

An insertion keeps a tree described if it succeeds, and adds its path to the
end of the list. That is the only thing later proofs need to know about
insertion.

## Main definitions

* `Entries`, `after`: The paths of a tree, and those behind a place.
* `judging`: The conditions that judge, in the order of their first appearance.
* `holder`: What ends where some places lead.
* `Trie.Holds`: The tree is described by the entries.
* `Trie.Built`: The tree was filled by inserting compiled paths.

## Theorems

* `holder_after`: What ends behind a place ends at it.
* `Trie.Holds.insert`: An insertion adds its path to the description.
* `Trie.Holds.child_of_mem`: A path in the description is in the tree, step by
  step.
* `Trie.Holds.judged_getElem`, `Trie.Holds.judged_of_childAt?`: The child for a
  condition that judges is known by its number.
* `Trie.Built.holds`: A tree that was filled is described by its paths.
-/

namespace PathRouting

/-- Paths by segments, with what ends there. -/
abbrev Entries (α : Type) := List (α × List Segment)

variable {α : Type}

/-- The entries that lead through a place, without the step to it. They
    describe the child behind the place, as all entries describe the tree. -/
def after (p : Place) (es : Entries α) : Entries α :=
  es.filterMap fun e =>
    match e.2 with
    | s :: rest => if s.place = p then some (e.1, rest) else none
    | [] => none

/-- The place is one for a condition that judges. -/
def Place.isJudged : Place → Bool
  | .judged _ _ => true
  | _ => false

/-- Where the entries lead first. -/
def heads (es : Entries α) : List Place :=
  es.filterMap fun e => e.2.head?.map Segment.place

/-- The places for conditions that judge, in the order of their first appearance. -/
def judging (es : Entries α) : List Place :=
  ((heads es).filter Place.isJudged).eraseDups

/-- What ends where some places lead. The entry that came last prevails, since
    an insertion overwrites what ended there before. -/
def holder : Entries α → List Place → Option α
  | [], _ => none
  | e :: rest, places =>
    (holder rest places).or (if e.2.map Segment.place = places then some e.1 else none)

theorem mem_after {p : Place} {es : Entries α} {a : α} {rest : List Segment} :
    (a, rest) ∈ after p es ↔ ∃ s, s.place = p ∧ (a, s :: rest) ∈ es := by
  rw [after, List.mem_filterMap]
  constructor
  · intro hfound
    rcases hfound with ⟨⟨b, segments⟩, hmem, h⟩
    cases segments with
    | nil => cases h
    | cons s more =>
        simp only [Option.ite_none_right_eq_some, Option.some.injEq, Prod.mk.injEq] at h
        rcases h with ⟨hplace, rfl, rfl⟩
        exact ⟨s, hplace, hmem⟩
  · intro hfound
    rcases hfound with ⟨s, hplace, hmem⟩
    exact ⟨(a, s :: rest), hmem, by simp [hplace]⟩

theorem after_append (p : Place) (es fs : Entries α) :
    after p (es ++ fs) = after p es ++ after p fs :=
  List.filterMap_append

theorem after_cons_same (a : α) (s : Segment) (rest : List Segment) :
    after s.place [(a, s :: rest)] = [(a, rest)] := by
  simp [after]

theorem after_cons_other {p : Place} {s : Segment} (h : p ≠ s.place) (a : α)
    (rest : List Segment) : after p [(a, s :: rest)] = [] := by
  simp [after, Ne.symm h]

theorem holder_append (es fs : Entries α) (places : List Place) :
    holder (es ++ fs) places = (holder fs places).or (holder es places) := by
  induction es with
  | nil => simp [holder]
  | cons e rest ih => rw [List.cons_append, holder, ih, holder, Option.or_assoc]

/-- What ends behind a place ends at it. -/
theorem holder_after (p : Place) (es : Entries α) (places : List Place) :
    holder (after p es) places = holder es (p :: places) := by
  induction es with
  | nil => rfl
  | cons e rest ih =>
      have hsplit : after p (e :: rest) = after p [e] ++ after p rest :=
        after_append p [e] rest
      rw [hsplit, holder_append, ih, holder]
      rcases e with ⟨a, segments⟩
      cases segments with
      | nil => simp [after, holder]
      | cons s more =>
          by_cases hplace : s.place = p
          · simp [after, holder, hplace]
          · simp [after, holder, hplace]

/-- Where an entry leads, something ends. -/
theorem holder_of_mem {es : Entries α} {a : α} {segments : List Segment}
    (h : (a, segments) ∈ es) : ∃ b, holder es (segments.map Segment.place) = some b := by
  induction es with
  | nil => exact absurd h List.not_mem_nil
  | cons e rest ih =>
      rw [holder]
      rcases List.mem_cons.1 h with rfl | h
      · cases holder rest (segments.map Segment.place) with
        | none => exact ⟨a, by simp⟩
        | some b => exact ⟨b, rfl⟩
      · rcases ih h with ⟨b, hb⟩
        exact ⟨b, by rw [hb]; rfl⟩

/-- Something ends only where an entry leads. -/
theorem mem_of_holder {es : Entries α} {places : List Place} {a : α}
    (h : holder es places = some a) :
    ∃ segments, (a, segments) ∈ es ∧ segments.map Segment.place = places := by
  induction es with
  | nil => cases h
  | cons e rest ih =>
      rw [holder, Option.or_eq_some_iff] at h
      rcases h with h | ⟨_, h⟩
      · rcases ih h with ⟨segments, hmem, hplaces⟩
        exact ⟨segments, List.mem_cons_of_mem _ hmem, hplaces⟩
      · simp only [Option.ite_none_right_eq_some, Option.some.injEq] at h
        rcases h with ⟨hplaces, rfl⟩
        exact ⟨e.2, List.mem_cons_self, hplaces⟩

/-- No element is left twice. -/
theorem nodup_eraseDups {β : Type} [BEq β] [LawfulBEq β] (l : List β) : l.eraseDups.Nodup := by
  -- On the length of the list: what is looked at next is the rest, filtered.
  induction hn : l.length using Nat.strongRecOn generalizing l with
  | _ n ih =>
    cases l with
    | nil => exact List.Pairwise.nil
    | cons b rest =>
        have hlength := List.length_filter_le (fun c => !c == b) rest
        rw [List.length_cons] at hn
        rw [List.eraseDups_cons, List.nodup_cons]
        refine ⟨fun h => ?_, ih _ (by omega) _ rfl⟩
        rw [List.mem_eraseDups, List.mem_filter] at h
        simp at h

theorem heads_append (es fs : Entries α) : heads (es ++ fs) = heads es ++ heads fs :=
  List.filterMap_append

theorem judging_append_nil (es : Entries α) (a : α) : judging (es ++ [(a, [])]) = judging es := by
  have hnone : heads [(a, ([] : List Segment))] = [] := rfl
  rw [judging, heads_append, hnone, List.append_nil, judging]

/-- A path leads through a new condition that judges, or the conditions stay
    as they are. -/
theorem judging_append_cons (es : Entries α) (a : α) (s : Segment) (rest : List Segment) :
    judging (es ++ [(a, s :: rest)]) =
      if s.place.isJudged && !(judging es).contains s.place then judging es ++ [s.place]
      else judging es := by
  have hone : heads [(a, s :: rest)] = [s.place] := rfl
  unfold judging
  rw [heads_append, hone]
  cases hjudged : s.place.isJudged with
  | false => simp [hjudged]
  | true =>
      by_cases hmem : s.place ∈ heads es
      · simp [List.eraseDups_append, List.removeAll, hjudged, hmem]
      · simp [List.eraseDups_append, List.removeAll, hjudged, hmem, List.eraseDups_cons]

namespace Trie

/-- The places of the children for conditions that judge, in order. -/
def judgedPlaces (t : Trie α) : List Place :=
  t.judged.map fun e => judgedPlace e.1

/-- The tree is described by the entries, which say what ends behind which
    segments. Every node is described by what remains of those entries that
    lead to it, so that a fact about a search is an induction on the tree in
    which no insertion occurs. -/
inductive Holds : Trie α → Entries α → Prop
  | intro {t : Trie α} {es : Entries α}
      (terminal : t.terminal = holder es [])
      (judged : t.judgedPlaces = judging es)
      (absent : ∀ p, t.childAt? p = none → after p es = [])
      (label : ∀ p s child, t.childAt? p = some (s, child) →
        ∃ a rest, (a, s :: rest) ∈ es)
      (child : ∀ p s child, t.childAt? p = some (s, child) → Holds child (after p es)) :
      Holds t es

/-- A node that was just made is described by no entry. -/
theorem holds_fresh (depth : Nat) : Holds (fresh depth : Trie α) [] := by
  have hnone : ∀ p, (fresh depth : Trie α).childAt? p = none := fun p => by cases p <;> rfl
  refine .intro rfl rfl (fun _ _ => rfl) (fun p s child h => ?_) fun p s child h => ?_
  · rw [hnone] at h
    cases h
  · rw [hnone] at h
    cases h

theorem terminal_setChild (t : Trie α) (s : Segment) (child : Trie α) :
    (t.setChild s child).terminal = t.terminal := by
  rcases s.place_cases with ⟨key, hkey⟩ | ⟨kind, v, rfl⟩ | ⟨v, rfl⟩
  · rw [setChild_of_edgeKey? hkey]
    rfl
  · rfl
  · rfl

/-- A child for a condition that judges is new, or the conditions stay as they are. -/
theorem judgedPlaces_setChild (t : Trie α) (s : Segment) (child : Trie α) :
    (t.setChild s child).judgedPlaces =
      if s.place.isJudged && !t.judgedPlaces.contains s.place then t.judgedPlaces ++ [s.place]
      else t.judgedPlaces := by
  rcases s.place_cases with ⟨key, hkey⟩ | ⟨kind, v, rfl⟩ | ⟨v, rfl⟩
  · rw [setChild_of_edgeKey? hkey, Segment.edgeKey?_eq_some.1 hkey]
    rfl
  · have hmap := map_redirect judgedPlace (kind, v) child t.judged
    have hplace : (Segment.condition ⟨kind, .validator v⟩).place = judgedPlace (kind, v) := rfl
    rw [← judges_eq] at hmap
    refine hmap.trans ?_
    change (if t.judgedPlaces.contains _ then t.judgedPlaces else t.judgedPlaces ++ [_]) = _
    rw [hplace]
    cases t.judgedPlaces.contains (judgedPlace (kind, v)) <;> rfl
  · rfl

/-- An insertion that succeeds adds its path to the description. This is the
    only statement about how insertions change a tree that a search is
    concerned with; all others follow from the description. -/
theorem Holds.insert {t : Trie α} {es : Entries α} (h : Holds t es) {path : α}
    {segments : List Segment} {old : Option α}
    (hold : (Trie.insert path segments t).outcome = .ok old) :
    Holds (Trie.insert path segments t).trie (es ++ [(path, segments)]) := by
  induction segments generalizing t es with
  | nil =>
      -- The path ends here, so nothing but the end changes.
      rcases h with ⟨hterminal, hjudged, habsent, hlabel, hchild⟩
      have hafter : ∀ p, after p (es ++ [(path, [])]) = after p es := fun p => by
        rw [after_append]
        exact List.append_nil _
      refine .intro ?_ ?_ ?_ ?_ ?_
      · rw [holder_append]
        rfl
      · rw [judging_append_nil]
        exact hjudged
      · intro p hp
        rw [hafter]
        exact habsent p hp
      · intro p s child hs
        rcases hlabel p s child hs with ⟨a, rest, hmem⟩
        exact ⟨a, rest, List.mem_append_left _ hmem⟩
      · intro p s child hs
        rw [hafter]
        exact hchild p s child hs
  | cons s rest ih =>
      rcases h with ⟨hterminal, hjudged, habsent, hlabel, hchild⟩
      rcases insert_cons_eq_ok.1 hold with ⟨c, hc, hrest⟩
      rcases child?_eq_ok.1 hc with ⟨_, hfree, hbehind⟩
      rw [insert_cons_trie hc]
      -- What was behind the place of the first segment, be it a new node.
      have hbelow : Holds (c.getD (fresh (t.depth + 1))) (after s.place es) := by
        cases hat : t.childAt? s.place with
        | none =>
            rw [habsent _ hat, ← hbehind, hat]
            exact holds_fresh _
        | some e =>
            rw [← hbehind, hat]
            exact hchild _ _ _ hat
      have hinserted := ih hbelow hrest
      -- Behind every other place, the new path adds nothing.
      have hother : ∀ p, p ≠ s.place → after p (es ++ [(path, s :: rest)]) = after p es := by
        intro p hp
        rw [after_append, after_cons_other hp, List.append_nil]
      refine .intro ?_ ?_ ?_ ?_ ?_
      · rw [terminal_setChild, hterminal, holder_append]
        rfl
      · rw [judgedPlaces_setChild, hjudged, judging_append_cons]
      · intro p hp
        rw [childAt?_setChild hfree, childAfter] at hp
        split at hp
        · cases hp
        · next hplace =>
          rw [hother p hplace]
          exact habsent p hp
      · intro p u child hu
        rw [childAt?_setChild hfree, childAfter] at hu
        split at hu
        -- The child keeps the segment it was first made for.
        · cases hat : t.childAt? p with
          | none =>
              rw [hat] at hu
              cases hu
              exact ⟨path, rest, List.mem_append_right _ List.mem_cons_self⟩
          | some e =>
              rw [hat] at hu
              cases hu
              rcases hlabel p _ _ hat with ⟨a, more, hmem⟩
              exact ⟨a, more, List.mem_append_left _ hmem⟩
        · rcases hlabel p u child hu with ⟨a, more, hmem⟩
          exact ⟨a, more, List.mem_append_left _ hmem⟩
      · intro p u child hu
        rw [childAt?_setChild hfree, childAfter] at hu
        split at hu
        · next hplace =>
          cases hu
          rw [hplace, after_append, after_cons_same]
          exact hinserted
        · next hplace =>
          rw [hother p hplace]
          exact hchild p u child hu

/-- A variable is behind its own place. -/
theorem childAt?_of_binder {t child : Trie α} {v : Variable} (h : t.binder = some (v, child)) :
    t.childAt? (.binder v.position) = some (.var v, child) := by
  simp [childAt?, h, Option.filter]

/-- What is behind a place for variables is the variable of the node. -/
theorem binder_of_childAt? {t child : Trie α} {position : Position} {s : Segment}
    (h : t.childAt? (.binder position) = some (s, child)) :
    ∃ v, s = .var v ∧ v.position = position ∧ t.binder = some (v, child) := by
  rcases Option.map_eq_some_iff.1 h with ⟨e, he, hs⟩
  cases hs
  rcases Option.filter_eq_some_iff.1 he with ⟨hbinder, hposition⟩
  exact ⟨e.1, rfl, eq_of_beq hposition, hbinder⟩

/-- Where no key occurs twice, an element is the first with its key. Tables of
    children are searched from the front, as a dictionary would be by its
    hashes, and here is why that makes no difference. -/
theorem find?_of_nodup {β γ : Type} [BEq γ] [LawfulBEq γ] {f : β → γ} {l : List β} {i : Nat}
    {b : β} (hnodup : (l.map f).Nodup) (hb : l[i]? = some b) :
    l.find? (fun x => f x == f b) = some b ∧ (l.map f).idxOf (f b) = i := by
  induction l generalizing i with
  | nil => cases hb
  | cons x rest ih =>
      rw [List.map_cons, List.nodup_cons] at hnodup
      cases i with
      | zero =>
          cases hb
          simp
      | succ i =>
          rw [List.getElem?_cons_succ] at hb
          -- The element is further on, so its key is not that of the first one.
          have hne : f x ≠ f b := by
            intro heq
            exact hnodup.1 (heq ▸ List.mem_map_of_mem (List.mem_of_getElem? hb))
          rcases ih hnodup.2 hb with ⟨hfind, hindex⟩
          rw [List.find?_cons_of_neg (by simpa using hne), List.map_cons, List.idxOf_cons,
            beq_false_of_ne hne]
          exact ⟨hfind, congrArg (· + 1) hindex⟩

namespace Holds

variable {t child : Trie α} {es : Entries α}

theorem terminal_eq (h : Holds t es) : t.terminal = holder es [] := by
  rcases h with ⟨hterminal, _, _, _, _⟩
  exact hterminal

/-- A child is described by what remains behind its place. -/
theorem child_holds (h : Holds t es) {p : Place} {s : Segment}
    (hat : t.childAt? p = some (s, child)) : Holds child (after p es) := by
  rcases h with ⟨_, _, _, _, hchild⟩
  exact hchild p s child hat

/-- What a child was made for is the first segment of an entry. -/
theorem exists_label (h : Holds t es) {p : Place} {s : Segment}
    (hat : t.childAt? p = some (s, child)) : ∃ a rest, (a, s :: rest) ∈ es := by
  rcases h with ⟨_, _, _, hlabel, _⟩
  exact hlabel p s child hat

/-- An entry leads to a child. -/
theorem child_of_mem (h : Holds t es) {a : α} {s : Segment} {rest : List Segment}
    (hmem : (a, s :: rest) ∈ es) : ∃ u child, t.childAt? s.place = some (u, child) := by
  rcases h with ⟨_, _, habsent, _, _⟩
  cases hat : t.childAt? s.place with
  | none =>
      have hafter := mem_after.2 ⟨s, rfl, hmem⟩
      rw [habsent _ hat] at hafter
      exact absurd hafter List.not_mem_nil
  | some e => exact ⟨e.1, e.2, rfl⟩

theorem judgedPlaces_eq (h : Holds t es) : t.judgedPlaces = judging es := by
  rcases h with ⟨_, hjudged, _, _, _⟩
  exact hjudged

theorem nodup_judgedPlaces (h : Holds t es) : t.judgedPlaces.Nodup := by
  rw [h.judgedPlaces_eq]
  exact nodup_eraseDups _

/-- A child for a condition that judges is behind its place, and its number is
    that of the condition. Such children are tried in the order they were made
    in, so a number stands for a turn of the search. -/
theorem judged_getElem (h : Holds t es) {i : Nat} {e : (Value × Validator) × Trie α}
    (he : t.judged[i]? = some e) :
    t.childAt? (judgedPlace e.1) = some (.condition ⟨e.1.1, .validator e.1.2⟩, e.2) ∧
      (judging es).idxOf (judgedPlace e.1) = i := by
  rcases find?_of_nodup h.nodup_judgedPlaces he with ⟨hfind, hindex⟩
  rw [← h.judgedPlaces_eq]
  exact ⟨congrArg (Option.map _) hfind, hindex⟩

/-- What is behind the place of a condition that judges has the number of that
    condition. -/
theorem judged_of_childAt? (h : Holds t es) {kind validator : Form} {s : Segment}
    (hat : t.childAt? (.judged kind validator) = some (s, child)) :
    ∃ e, t.judged[(judging es).idxOf (.judged kind validator)]? = some e ∧
      judgedPlace e.1 = .judged kind validator ∧
      s = .condition ⟨e.1.1, .validator e.1.2⟩ ∧ child = e.2 := by
  rcases Option.map_eq_some_iff.1 hat with ⟨e, he, hs⟩
  cases hs
  have hbeq := List.find?_some he
  have hplace : judgedPlace e.1 = .judged kind validator := eq_of_beq hbeq
  rcases List.getElem?_of_mem (List.mem_of_find?_eq_some he) with ⟨i, hi⟩
  refine ⟨e, ?_, hplace, rfl, rfl⟩
  rw [← hplace, (h.judged_getElem hi).2, hi]

end Holds

/-- The tree was filled by inserting compiled paths, each of which was
    accepted. The paths are listed in the order they came. -/
inductive Built (delimiters : List String) : Trie α → List (α × Path) → Prop
  | empty : Built delimiters .empty []
  | insert {t : Trie α} {paths : List (α × Path)} {a : α} {p : Path} {old : Option α}
      (built : Built delimiters t paths) (compiled : p.Compiled delimiters)
      (accepted : (Trie.insert a p.segments t).outcome = .ok old) :
      Built delimiters (Trie.insert a p.segments t).trie (paths ++ [(a, p)])

end Trie

/-- The paths as entries of a tree. -/
def entriesOf (paths : List (α × Path)) : Entries α :=
  paths.map fun e => (e.1, e.2.segments)

theorem mem_entriesOf {paths : List (α × Path)} {a : α} {p : Path} (h : (a, p) ∈ paths) :
    (a, p.segments) ∈ entriesOf paths :=
  List.mem_map.2 ⟨(a, p), h, rfl⟩

namespace Trie.Built

variable {delimiters : List String} {t : Trie α} {paths : List (α × Path)}

/-- A tree that was filled is described by its paths. -/
theorem holds (h : Built delimiters t paths) : t.Holds (entriesOf paths) := by
  induction h with
  | empty => exact holds_fresh 0
  | insert built compiled accepted ih =>
      rw [entriesOf, List.map_append]
      exact ih.insert accepted

/-- The segments of a path in a tree can be filed. -/
theorem fileable (h : Built delimiters t paths) :
    ∀ e ∈ paths, ∀ s ∈ e.2.segments, s.isFileable = true := by
  induction h with
  | empty => exact fun _ he => absurd he List.not_mem_nil
  | insert built compiled accepted ih =>
      intro e he
      rcases List.mem_append.1 he with he | he
      · exact ih e he
      · rw [List.mem_singleton.1 he]
        exact (insert_eq_ok.1 ⟨_, accepted⟩).1

/-- The paths in a tree are compiled. -/
theorem compiled (h : Built delimiters t paths) : ∀ e ∈ paths, e.2.Compiled delimiters := by
  induction h with
  | empty => exact fun _ he => absurd he List.not_mem_nil
  | insert built compiled accepted ih =>
      intro e he
      rcases List.mem_append.1 he with he | he
      · exact ih e he
      · rw [List.mem_singleton.1 he]
        exact compiled

/-- Inserting several paths adds all of them, if none is refused. -/
theorem insertAll [DecidableEq α] {more : List (α × Path)} (h : Built delimiters t paths)
    (hcompiled : ∀ e ∈ more, e.2.Compiled delimiters)
    (haccepted : (Trie.insertAll (entriesOf more) t).outcome = .ok ()) :
    Built delimiters (Trie.insertAll (entriesOf more) t).trie (paths ++ more) := by
  induction more generalizing t paths with
  | nil =>
      rw [List.append_nil]
      exact h
  | cons e rest ih =>
      rw [entriesOf, List.map_cons, Trie.insertAll] at haccepted ⊢
      split at haccepted
      · cases haccepted
      · next old hold =>
        have hone := h.insert (hcompiled e List.mem_cons_self) hold
        have hall := ih hone (fun e he => hcompiled e (List.mem_cons_of_mem _ he)) haccepted
        rw [List.append_assoc] at hall
        exact hall

end Trie.Built

end PathRouting
