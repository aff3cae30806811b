import Mathlib.Data.List.Nodup
import PathRouting.KeyIndex

/-!
# What an Index Holds

Registering a path leaves slips all over the drawers: one for each member of
each set of names that selects the path. What the slips come to is said here
once, so that the search need not look at how they were filed: the sizes of
the sets, that a set can be found that meets the names looked for, and which
slips there are after any number of registrations.

Static paths leave nothing behind. They are among the registrations all the
same, since nobody who registers paths has to know about it.

## Main definitions

* `KeyIndex.Entries`: Registrations, in order.
* `KeyIndex.dynamic`: Those of paths with variables, whose place is their
  number.
* `KeyIndex.Holds`: The index holds what was registered, and nothing else.

## Theorems

* `Signature.length_of_mem_keySets`, `Signature.exists_keySet`: How large the
  sets are that select a path, and that there is one of every such size.
* `KeyIndex.exists_added`: Registering a path adds names behind the
  significant ones.
* `KeyIndex.Holds.register`, `KeyIndex.Holds.find`: The operations of an
  index, step by step.
-/

namespace PathRouting

section Choose

variable {β : Type} {x : β} {chosen : List β}

theorem length_of_mem_choose {n : Nat} {elements : List β} (h : chosen ∈ choose n elements) :
    chosen.length = n := by
  induction elements generalizing n chosen with
  | nil =>
      cases n with
      | zero => simp [List.mem_singleton.1 h]
      | succ n => cases h
  | cons b rest ih =>
      cases n with
      | zero => simp [List.mem_singleton.1 h]
      | succ n =>
          rw [choose, List.mem_append, List.mem_map] at h
          rcases h with ⟨others, hothers, rfl⟩ | h
          · simp [ih hothers]
          · exact ih h

theorem mem_of_mem_choose {n : Nat} {elements : List β} (h : chosen ∈ choose n elements)
    (hx : x ∈ chosen) : x ∈ elements := by
  induction elements generalizing n chosen with
  | nil =>
      cases n with
      | zero => simp [List.mem_singleton.1 h] at hx
      | succ n => cases h
  | cons b rest ih =>
      cases n with
      | zero => simp [List.mem_singleton.1 h] at hx
      | succ n =>
          rw [choose, List.mem_append, List.mem_map] at h
          rcases h with ⟨others, hothers, rfl⟩ | h
          · rcases List.mem_cons.1 hx with rfl | hx
            · exact List.mem_cons_self
            · exact List.mem_cons_of_mem _ (ih hothers hx)
          · exact List.mem_cons_of_mem _ (ih h hx)

/-- As long as there are enough elements, so many can be chosen. -/
theorem exists_choose {n : Nat} {elements : List β} (hn : n ≤ elements.length) :
    ∃ chosen, chosen ∈ choose n elements := by
  induction elements generalizing n with
  | nil =>
      have hzero : n = 0 := by simpa using hn
      exact ⟨[], by simp [hzero, choose]⟩
  | cons b rest ih =>
      cases n with
      | zero => exact ⟨[], by simp [choose]⟩
      | succ n =>
          rw [List.length_cons] at hn
          rcases ih (n := n) (by omega) with ⟨others, hothers⟩
          exact ⟨b :: others, by simp [choose, hothers]⟩

/-- So many can be chosen with any of the elements among them. -/
theorem exists_choose_with {n : Nat} {elements : List β} (hx : x ∈ elements) (hpos : 0 < n)
    (hn : n ≤ elements.length) : ∃ chosen ∈ choose n elements, x ∈ chosen := by
  induction elements generalizing n with
  | nil => cases hx
  | cons b rest ih =>
      rw [List.length_cons] at hn
      rcases n with _ | n
      · omega
      -- Either the first element is the one, or it may be taken along or left out.
      rcases List.mem_cons.1 hx with rfl | hx
      · have henough : n ≤ rest.length := by omega
        rcases exists_choose henough with ⟨others, hothers⟩
        exact ⟨x :: others, by simp [choose, hothers], List.mem_cons_self⟩
      · by_cases hall : n + 1 ≤ rest.length
        · rcases ih hx (Nat.succ_pos n) hall with ⟨chosen, hchosen, hmem⟩
          exact ⟨chosen, by simp [choose, hchosen], hmem⟩
        · have hrest : 0 < rest.length := List.length_pos_of_mem hx
          rcases ih (n := n) hx (by omega) (by omega) with ⟨others, hothers, hmem⟩
          exact ⟨b :: others, by simp [choose, hothers], List.mem_cons_of_mem _ hmem⟩

end Choose

namespace Signature

variable {s : Signature} {x : String}

/-- A name of the path has a default or not. -/
theorem mem_keys_iff : x ∈ s.keys ↔ x ∈ s.undefaulted ∨ x ∈ s.optional := by
  rw [undefaulted, optional, List.mem_filter, List.mem_filter]
  by_cases hdefaulted : x ∈ s.defaulted <;> simp [hdefaulted]

theorem length_undefaulted_add : s.undefaulted.length + s.optional.length = s.keys.length := by
  have hsplit := List.length_eq_length_filter_add (l := s.keys) s.defaulted.contains
  rw [undefaulted, optional]
  omega

/-- A set that selects the path has names of the path in it. -/
theorem mem_keys_of_mem_keySets {set : List String} (hset : set ∈ s.keySets) (hx : x ∈ set) :
    x ∈ s.keys := by
  rw [keySets, List.mem_cons, List.mem_flatMap] at hset
  rcases hset with rfl | ⟨n, _, hset⟩
  · exact hx
  · rcases List.mem_map.1 hset with ⟨chosen, hchosen, rfl⟩
    rw [mem_keys_iff]
    rcases List.mem_append.1 hx with hx | hx
    · exact Or.inl hx
    · exact Or.inr (mem_of_mem_choose hchosen hx)

/-- A set that selects the path has all of its names, or at least one that has
    a default besides those that have none. -/
theorem length_of_mem_keySets {set : List String} (hset : set ∈ s.keySets) :
    set.length = s.keys.length ∨
      s.undefaulted.length < set.length ∧ set.length ≤ s.keys.length := by
  rw [keySets, List.mem_cons, List.mem_flatMap] at hset
  rcases hset with rfl | ⟨n, hn, hset⟩
  · exact Or.inl rfl
  · rcases List.mem_map.1 hset with ⟨chosen, hchosen, rfl⟩
    have hlength := length_of_mem_choose hchosen
    have hrange := List.mem_range.1 hn
    have hsplit := s.length_undefaulted_add
    rw [List.length_append]
    exact Or.inr ⟨by omega, by omega⟩

/-- There is a set of every such size, with one of the given names of the path in it.
    So a search that goes through the sizes misses no path that a scan would find. -/
theorem exists_keySet {names : List String} (hne : names ≠ [])
    (hnames : ∀ x ∈ names, x ∈ s.keys) {size : Nat}
    (hsize : size = s.keys.length ∨ s.undefaulted.length < size ∧ size ≤ s.keys.length) :
    ∃ set ∈ s.keySets, set.length = size ∧ ∃ x ∈ set, x ∈ names := by
  rcases List.exists_mem_of_ne_nil names hne with ⟨x, hx⟩
  rcases hsize with rfl | ⟨hlow, hhigh⟩
  · exact ⟨s.keys, List.mem_cons_self, rfl, x, hnames x hx, hx⟩
  · have hsplit := s.length_undefaulted_add
    -- So many of the names with a default complete the set.
    rcases Nat.exists_eq_add_of_lt hlow with ⟨n, hn⟩
    have hset : ∀ chosen ∈ choose (n + 1) s.optional, s.undefaulted ++ chosen ∈ s.keySets ∧
        (s.undefaulted ++ chosen).length = size := by
      intro chosen hchosen
      have hlength := length_of_mem_choose hchosen
      refine ⟨?_, by rw [List.length_append]; omega⟩
      rw [keySets, List.mem_cons, List.mem_flatMap]
      exact Or.inr ⟨n, List.mem_range.2 (by omega), List.mem_map_of_mem hchosen⟩
    by_cases hnone : x ∈ s.undefaulted
    · have henough : n + 1 ≤ s.optional.length := by omega
      rcases exists_choose henough with ⟨chosen, hchosen⟩
      exact ⟨_, (hset chosen hchosen).1, (hset chosen hchosen).2, x,
        List.mem_append_left _ hnone, hx⟩
    · have hoptional : x ∈ s.optional := (mem_keys_iff.1 (hnames x hx)).resolve_left hnone
      rcases exists_choose_with hoptional (Nat.succ_pos n) (by omega) with
        ⟨chosen, hchosen, hmem⟩
      exact ⟨_, (hset chosen hchosen).1, (hset chosen hchosen).2, x,
        List.mem_append_right _ hmem, hx⟩

end Signature

namespace KeyIndex

variable {α : Type}

/-- Registrations, in order. -/
abbrev Entries (α : Type) := List (Signature × α)

/-- The registrations of paths with variables. Such a path is known in the
    index by its place among them. -/
def dynamic (entries : Entries α) : Entries α :=
  entries.filter fun e => e.1.isDynamic

theorem dynamic_concat (entries : Entries α) (e : Signature × α) :
    dynamic (entries ++ [e]) =
      if e.1.isDynamic then dynamic entries ++ [e] else dynamic entries := by
  rw [dynamic, List.filter_append, List.filter_singleton]
  by_cases hdynamic : e.1.isDynamic = true <;> simp [hdynamic, dynamic]

theorem getElem?_concat_eq_some {β : Type} {l : List β} {b x : β} {n : Nat} :
    (l ++ [b])[n]? = some x ↔ l[n]? = some x ∨ n = l.length ∧ b = x := by
  rw [List.getElem?_append]
  by_cases hlt : n < l.length
  · simp [hlt, Nat.ne_of_lt hlt]
  · rw [if_neg hlt, List.getElem?_eq_none (Nat.le_of_not_lt hlt), List.getElem?_singleton]
    by_cases heq : n = l.length
    · simp [heq]
    · have hne : n - l.length ≠ 0 := by omega
      simp [heq, hne]

/-- A name that is counted is added at the end, unless it is there. -/
theorem map_fst_countUp (name : String) (counts : List (String × Nat)) :
    (countUp name counts).map Prod.fst = if name ∈ counts.map Prod.fst
      then counts.map Prod.fst else counts.map Prod.fst ++ [name] := by
  induction counts with
  | nil => rfl
  | cons c rest ih =>
      by_cases hname : c.1 = name
      · simp [countUp, hname]
      · have hother : ¬name = c.1 := fun h => hname h.symm
        simp only [countUp, if_neg hname, List.map_cons, ih, List.mem_cons, hother, false_or]
        split <;> rfl

/-- Counting names adds those that are new behind those that are there. -/
theorem exists_counted (names : List String) (counts : List (String × Nat)) :
    ∃ added, (names.foldl (fun counts name => countUp name counts) counts).map Prod.fst =
        counts.map Prod.fst ++ added ∧
      added.Nodup ∧ ∀ x, x ∈ added ↔ x ∉ counts.map Prod.fst ∧ x ∈ names := by
  induction names generalizing counts with
  | nil => exact ⟨[], by simp⟩
  | cons name rest ih =>
      -- The first name is counted before the rest, so it is known to the rest. Whether it is itself
      -- among the new ones depends on the counts that were there.
      rcases ih (countUp name counts) with ⟨added, hadded, hnodup, hmem⟩
      rw [map_fst_countUp] at hadded hmem
      rw [List.foldl_cons]
      by_cases hname : name ∈ counts.map Prod.fst
      · rw [if_pos hname] at hadded hmem
        refine ⟨added, hadded, hnodup, fun x => ?_⟩
        rw [hmem, List.mem_cons]
        constructor
        · exact fun h => ⟨h.1, Or.inr h.2⟩
        · intro h
          exact ⟨h.1, h.2.resolve_left fun heq => h.1 (heq ▸ hname)⟩
      · rw [if_neg hname] at hadded hmem
        refine ⟨name :: added, by rw [hadded, List.append_assoc]; rfl, ?_, fun x => ?_⟩
        · rw [List.nodup_cons, hmem]
          exact ⟨fun h => h.1 (by simp), hnodup⟩
        · rw [List.mem_cons, hmem, List.mem_append, List.mem_singleton, List.mem_cons]
          by_cases hx : x = name
          · simp [hx, hname]
          · simp [hx]

theorem mem_slipsFor {sequence : Nat} {signature : Signature} {path : α} {slip : Slip α} :
    slip ∈ slipsFor sequence signature path ↔
      (slip.sequence = sequence ∧ slip.signature = signature ∧ slip.path = path) ∧
        ∃ set ∈ signature.keySets, slip.size = set.length ∧ slip.name ∈ set := by
  rw [slipsFor, List.mem_flatMap]
  constructor
  · intro h
    rcases h with ⟨set, hset, hslip⟩
    rcases List.mem_map.1 hslip with ⟨name, hname, rfl⟩
    exact ⟨⟨rfl, rfl, rfl⟩, set, hset, rfl, hname⟩
  · intro h
    rcases h with ⟨⟨rfl, rfl, rfl⟩, set, hset, hsize, hname⟩
    exact ⟨set, hset, List.mem_map.2 ⟨slip.name, hname, by rw [← hsize]⟩⟩

/-- A path is filed under its names. -/
theorem mem_names_slipsFor {sequence : Nat} {signature : Signature} {path : α} {x : String} :
    x ∈ (slipsFor sequence signature path).map Slip.name ↔ x ∈ signature.keys := by
  rw [List.mem_map]
  constructor
  · intro h
    rcases h with ⟨slip, hslip, rfl⟩
    rcases (mem_slipsFor.1 hslip).2 with ⟨set, hset, _, hname⟩
    exact Signature.mem_keys_of_mem_keySets hset hname
  · intro hx
    exact ⟨⟨signature.keys.length, x, sequence, signature, path⟩,
      mem_slipsFor.2 ⟨⟨rfl, rfl, rfl⟩, _, List.mem_cons_self, rfl, hx⟩, rfl⟩

/-- Registering a path adds those of its names that are new behind the
    significant ones. -/
theorem exists_added (idx : KeyIndex α) (signature : Signature) (path : α) :
    ∃ added, (idx.register signature path).significant = idx.significant ++ added ∧
      added.Nodup ∧ ∀ x, x ∈ added ↔ x ∉ idx.significant ∧ x ∈ signature.keys := by
  by_cases hdynamic : signature.isDynamic = true
  · rcases exists_counted ((slipsFor idx.registered signature path).map Slip.name) idx.counts with
      ⟨added, hadded, hnodup, hmem⟩
    rw [List.foldl_map] at hadded
    refine ⟨added, ?_, hnodup, fun x => ?_⟩
    · rw [register, if_pos hdynamic]
      exact hadded
    · rw [hmem, mem_names_slipsFor]
      rfl
  · have hnone : signature.keys = [] := by
      simpa [Signature.isDynamic, Signature.keys] using hdynamic
    refine ⟨[], ?_, List.nodup_nil, fun x => by simp [hnone]⟩
    rw [register, if_neg hdynamic, List.append_nil]

/-- The index holds what was registered, and nothing else. Searches are about
    an index that holds some entries, and what it has learnt from lookups is
    no part of this. -/
structure Holds (idx : KeyIndex α) (entries : Entries α) : Prop where
  registered : idx.registered = (dynamic entries).length
  /-- Slips stand in the order of registration. -/
  ordered : idx.slips.Pairwise fun a b => a.sequence ≤ b.sequence
  filed : ∀ slip : Slip α, slip ∈ idx.slips ↔
    (dynamic entries)[slip.sequence]? = some (slip.signature, slip.path) ∧
      ∃ set ∈ slip.signature.keySets, slip.size = set.length ∧ slip.name ∈ set
  distinct : idx.significant.Nodup
  significant : ∀ x, x ∈ idx.significant ↔ ∃ e ∈ entries, x ∈ e.1.keys

namespace Holds

variable {idx : KeyIndex α} {entries : Entries α}

theorem empty : (KeyIndex.empty : KeyIndex α).Holds [] := by
  refine ⟨rfl, List.Pairwise.nil, fun slip => ?_, List.nodup_nil, fun x => ?_⟩
  · simp [KeyIndex.empty, dynamic]
  · simp [KeyIndex.empty, KeyIndex.significant]

/-- A registration is added at the end. -/
theorem register (h : idx.Holds entries) (signature : Signature) (path : α) :
    (idx.register signature path).Holds (entries ++ [(signature, path)]) := by
  rcases idx.exists_added signature path with ⟨added, hadded, hnodup, hmem⟩
  have hdistinct : (idx.register signature path).significant.Nodup := by
    rw [hadded]
    exact List.nodup_append'.2 ⟨h.distinct, hnodup, fun x hx hnew => ((hmem x).1 hnew).1 hx⟩
  have hsignificant : ∀ x, x ∈ (idx.register signature path).significant ↔
      ∃ e ∈ entries ++ [(signature, path)], x ∈ e.1.keys := by
    intro x
    rw [hadded, List.mem_append, hmem, h.significant]
    simp only [List.mem_append, List.mem_singleton, or_and_right, exists_or, exists_eq_left]
    by_cases hold : ∃ e ∈ entries, x ∈ e.1.keys <;> simp [hold]
  by_cases hdynamic : signature.isDynamic = true
  · have hslips : (idx.register signature path).slips =
        idx.slips ++ slipsFor idx.registered signature path := by
      rw [KeyIndex.register, if_pos hdynamic]
      rfl
    have hentries : dynamic (entries ++ [(signature, path)]) =
        dynamic entries ++ [(signature, path)] := by
      rw [dynamic_concat, if_pos hdynamic]
    -- The slips that were there have the numbers below, and the new ones have the next.
    have hbelow : ∀ slip ∈ idx.slips, slip.sequence < idx.registered := by
      intro slip hslip
      rw [h.registered]
      exact (List.getElem?_eq_some_iff.1 ((h.filed slip).1 hslip).1).1
    refine ⟨?_, ?_, fun slip => ?_, hdistinct, hsignificant⟩
    · rw [hentries, List.length_append, ← h.registered, KeyIndex.register, if_pos hdynamic]
      rfl
    · rw [hslips, List.pairwise_append]
      refine ⟨h.ordered, ?_, fun a ha b hb => ?_⟩
      · refine List.pairwise_of_forall_mem_list fun a ha b hb => ?_
        exact Nat.le_of_eq ((mem_slipsFor.1 ha).1.1.trans (mem_slipsFor.1 hb).1.1.symm)
      · rw [(mem_slipsFor.1 hb).1.1]
        exact Nat.le_of_lt (hbelow a ha)
    · rw [hslips, hentries, List.mem_append, mem_slipsFor, h.filed, h.registered,
        getElem?_concat_eq_some, or_and_right]
      refine or_congr_right ⟨fun hslip => ?_, fun hslip => ?_⟩
      · rcases hslip with ⟨⟨hnumber, rfl, rfl⟩, hset⟩
        exact ⟨⟨hnumber, rfl⟩, hset⟩
      · rcases hslip with ⟨⟨hnumber, hpair⟩, hset⟩
        cases hpair
        exact ⟨⟨hnumber, rfl, rfl⟩, hset⟩
  · have hsame : idx.register signature path = idx := if_neg hdynamic
    have hentries : dynamic (entries ++ [(signature, path)]) = dynamic entries := by
      rw [dynamic_concat, if_neg hdynamic]
    rw [hsame] at hdistinct hsignificant ⊢
    refine ⟨?_, h.ordered, fun slip => ?_, hdistinct, hsignificant⟩
    · rw [hentries]
      exact h.registered
    · rw [hentries]
      exact h.filed slip

theorem find (h : idx.Holds entries) (names : List String) : (idx.find names).1.Holds entries := by
  unfold KeyIndex.find
  simp only
  split
  · exact h
  · split
    · exact h
    · exact ⟨h.registered, h.ordered, h.filed, h.distinct, h.significant⟩

end Holds

end KeyIndex

end PathRouting
