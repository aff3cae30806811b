import Mathlib.Algebra.BigOperators.Group.Finset.Piecewise
import Mathlib.Data.List.Sublists
import Mathlib.Tactic.Ring
import PathRouting.Proofs.Index.Memory

/-!
# How Often a Name Is Filed

The index keeps a count beside the slips, which is never computed from them.
It goes up by one with every slip, so after any use of the index it is the
number of slips under the name.

How many slips a path leaves under one of its names depends on the defaults.
The sets that select a path are the set of all its names and, one for each
choice of one or more of the `d` names with a default, the set that has no
others of them. A name without a default is in all of the `2 ^ d` sets. A name
with one is in half of what can be chosen, which is in `2 ^ (d - 1)` sets, and
once more in the set of all names: that set is listed twice as soon as there
is a default at all.

## Main definitions

* `choices`: The ways to choose one or more of some elements.
* `Signature.filings`: How often a path is filed under a name.
* `KeyIndex.filed`: How many slips there are under a name.
* `KeyIndex.Tallied`: The counts are those of the slips, and of the
  registrations.
* `KeyIndex.sizes`: The sizes of sets that there are drawers for.

## Theorems

* `cons_choices_perm`, `count_flatten_choices`: Every sublist is chosen once,
  and an element is in half of them.
* `Signature.filings_eq`: How often a name is filed, by whether it has a
  default.
* `Signature.exists_keySet_toFinset`: Every set that a path is generated from
  selects it.
* `KeyIndex.Tallied.register`, `KeyIndex.tallied_ofUses`: The counts, for one
  step and a run.
* `KeyIndex.Holds.mem_drawer`: Where a path is found.
* `KeyIndex.filing_invariant`: What is filed after any use of the index.
-/

namespace PathRouting

section Choices

variable {β : Type}

/-- The choices of one size are the sublists of that length, listed in an
    order of their own. -/
theorem choose_perm_sublistsLen (n : Nat) (l : List β) : (choose n l).Perm (l.sublistsLen n) := by
  induction l generalizing n with
  | nil => cases n <;> simp [choose]
  | cons b rest ih =>
      cases n with
      | zero => simp [choose]
      | succ n =>
          rw [choose, List.sublistsLen_succ_cons]
          exact List.perm_append_comm.trans ((ih (n + 1)).append ((ih n).map _))

/-- The choices of any size but none at all. They are the names with a default
    that a set adds to the names without one. -/
def choices (l : List β) : List (List β) :=
  (List.range l.length).flatMap fun n => choose (n + 1) l

/-- With the empty choice, they are all of the sublists. The choices are
    listed by size, as the index files them, and the library counts sublists
    regardless of an order. -/
theorem cons_choices_perm (l : List β) : ([] :: choices l).Perm l.sublists' := by
  refine List.Perm.trans ?_ l.range_bind_sublistsLen_perm
  rw [List.range_succ_eq_map, List.flatMap_cons, List.sublistsLen_zero, List.flatMap_map]
  exact (List.Perm.flatMap_left _ fun n _ => choose_perm_sublistsLen (n + 1) l).cons []

theorem mem_choices_of_sublist {chosen l : List β} (h : chosen.Sublist l) (hne : chosen ≠ []) :
    chosen ∈ choices l := by
  have hmem : chosen ∈ [] :: choices l := (cons_choices_perm l).mem_iff.2 (List.mem_sublists'.2 h)
  exact (List.mem_cons.1 hmem).resolve_left hne

theorem length_choices (l : List β) : (choices l).length + 1 = 2 ^ l.length := by
  rw [← List.length_sublists', ← (cons_choices_perm l).length_eq, List.length_cons]

variable [DecidableEq β]

theorem count_flatten_map_append (x : β) (front : List β) (lists : List (List β)) :
    (lists.map (front ++ ·)).flatten.count x =
      lists.length * front.count x + lists.flatten.count x := by
  induction lists with
  | nil => simp
  | cons list rest ih =>
      simp only [List.map_cons, List.flatten_cons, List.count_append, List.length_cons, ih]
      ring

/-- Of all sublists, those that take an element along are as many as those
    that do not. -/
theorem count_flatten_sublists' (x : β) (l : List β) :
    l.sublists'.flatten.count x = l.count x * 2 ^ (l.length - 1) := by
  induction l with
  | nil => simp
  | cons b rest ih =>
      have hwith := count_flatten_map_append x [b] rest.sublists'
      simp only [List.singleton_append] at hwith
      rw [List.sublists'_cons, List.flatten_append, List.count_append, hwith,
        List.length_sublists', ih]
      rcases rest with _ | ⟨c, more⟩
      · simp
      · simp only [List.count_cons, List.count_nil, List.length_cons, Nat.add_sub_cancel, pow_succ]
        ring

theorem count_flatten_choices (x : β) (l : List β) :
    (choices l).flatten.count x = l.count x * 2 ^ (l.length - 1) := by
  rw [← count_flatten_sublists', ← (cons_choices_perm l).flatten.count_eq, List.flatten_cons,
    List.nil_append]

end Choices

namespace Signature

variable {s : Signature} {name : String}

/-- How often a path is filed under a name: in as many drawers as there are
    sets of its names that select it and have the name. -/
def filings (s : Signature) (name : String) : Nat :=
  s.keySets.flatten.count name

/-- A set that selects a path consists of all its names, or of those without a
    default and a choice of the others. -/
theorem keySets_eq (s : Signature) :
    s.keySets = s.keys :: (choices s.optional).map (s.undefaulted ++ ·) := by
  rw [keySets, choices, List.map_flatMap]

/-- Without a name that occurs twice, the names that are left out by choice
    are those with a default. -/
theorem optional_eq_defaulted (h : s.keys.Nodup) : s.optional = s.defaulted := by
  rw [optional, keys, List.filter_map]
  refine congrArg (List.map Prod.fst) (List.filter_congr fun b hb => ?_)
  rw [Function.comp_apply, Bool.eq_iff_iff, List.contains_iff_mem, mem_defaulted_iff h hb]

/-- The names that have to be given are in every set. Another name is in the
    set of all names and in half of the sets that are filed besides. The set
    of all names is filed on its own and among the choices as well, which is
    where the one more comes from. -/
theorem filings_eq (h : s.keys.Nodup) (name : String) :
    s.filings name =
      if name ∈ s.required then 2 ^ s.defaulted.length
      else if name ∈ s.defaulted then 1 + 2 ^ (s.defaulted.length - 1) else 0 := by
  have hsets := length_choices s.optional
  have hkeys : name ∈ s.keys ↔ name ∈ s.undefaulted ∨ name ∈ s.optional := mem_keys_iff
  have happart : name ∈ s.undefaulted → name ∉ s.defaulted := by simp [undefaulted]
  have hneeded : s.undefaulted.Nodup := h.filter _
  have hfree : s.optional.Nodup := h.filter _
  rw [filings, keySets_eq, List.flatten_cons, List.count_append, count_flatten_map_append,
    count_flatten_choices, h.count, hneeded.count, hfree.count]
  rw [undefaulted_eq_required h, optional_eq_defaulted h] at *
  by_cases hrequired : name ∈ s.required
  · simp only [hkeys, hrequired, happart hrequired, true_or, if_true, if_false]
    omega
  · by_cases hdefaulted : name ∈ s.defaulted
    · simp [hkeys, hrequired, hdefaulted]
    · simp [hkeys, hrequired, hdefaulted]

/-- Every set of names that a path is to be generated from is there: all of its
    names, and those without a default together with any of the others. Only
    the set of the names without a default is missing, if there are others. -/
theorem exists_keySet_toFinset (h : s.keys.Nodup) {names : Finset String}
    (hnames : names = s.keys.toFinset ∨ ∃ chosen ⊆ s.defaulted.toFinset, chosen.Nonempty ∧
      names = s.required.toFinset ∪ chosen) :
    ∃ set ∈ s.keySets, set.Nodup ∧ set.toFinset = names := by
  rcases hnames with rfl | ⟨chosen, hsubset, ⟨x, hx⟩, rfl⟩
  · exact ⟨s.keys, List.mem_cons_self, h, rfl⟩
  · -- The choice is listed in the order of the path.
    have hlisted : ∀ y ∈ chosen, y ∈ s.optional := fun y hy => by
      rw [optional_eq_defaulted h]
      exact List.mem_toFinset.1 (hsubset hy)
    refine ⟨s.undefaulted ++ s.optional.filter (· ∈ chosen), ?_, ?_, ?_⟩
    · rw [keySets_eq, List.mem_cons]
      refine Or.inr (List.mem_map_of_mem (mem_choices_of_sublist List.filter_sublist ?_))
      exact List.ne_nil_of_mem (List.mem_filter.2 ⟨hlisted x hx, by simpa using hx⟩)
    · refine List.nodup_append'.2 ⟨h.filter _, (h.filter _).filter _, fun y hy hfree => ?_⟩
      have hdefaulted : y ∈ s.defaulted := by
        rw [← optional_eq_defaulted h]
        exact List.mem_of_mem_filter hfree
      simp [undefaulted, hdefaulted] at hy
    · rw [← undefaulted_eq_required h]
      ext y
      simp only [List.mem_toFinset, List.mem_append, List.mem_filter, Finset.mem_union,
        decide_eq_true_eq]
      exact or_congr_right ⟨fun hy => hy.2, fun hy => ⟨hlisted y hy, hy⟩⟩

end Signature

namespace KeyIndex

variable {α : Type}

/-- A name that is counted is counted once more, and no other name is. -/
theorem lookup_countUp (name other : String) (counts : List (String × Nat)) :
    ((countUp name counts).lookup other).getD 0 =
      (counts.lookup other).getD 0 + if name = other then 1 else 0 := by
  induction counts with
  | nil =>
      by_cases hother : other = name
      · simp [countUp, hother]
      · simp [countUp, List.lookup_cons, beq_eq_false_iff_ne.2 hother, Ne.symm hother]
  | cons c rest ih =>
      rcases c with ⟨first, k⟩
      by_cases hname : first = name
      · by_cases hother : other = name
        · simp [countUp, hname, hother]
        · simp [countUp, hname, List.lookup_cons, beq_eq_false_iff_ne.2 hother, Ne.symm hother]
      · by_cases hother : other = first
        · simp [countUp, hname, hother, Ne.symm hname]
        · simp only [countUp, if_neg hname, List.lookup_cons, beq_eq_false_iff_ne.2 hother, ih]

/-- Counting names adds to the count of each how often it is among them. -/
theorem lookup_counted (names : List String) (counts : List (String × Nat)) (name : String) :
    ((names.foldl (fun counts name => countUp name counts) counts).lookup name).getD 0 =
      (counts.lookup name).getD 0 + names.count name := by
  induction names generalizing counts with
  | nil => rfl
  | cons next rest ih =>
      rw [List.foldl_cons, ih, lookup_countUp, List.count_cons]
      simp only [beq_iff_eq]
      omega

/-- How many slips there are under a name, of whatever size. -/
def filed (idx : KeyIndex α) (name : String) : Nat :=
  (idx.slips.map Slip.name).count name

/-- A path leaves a slip under a name for every set that has the name. -/
theorem map_name_slipsFor (sequence : Nat) (s : Signature) (path : α) :
    (slipsFor sequence s path).map Slip.name = s.keySets.flatten := by
  rw [slipsFor, List.map_flatMap]
  simp [List.flatMap_def, Function.comp_def]

/-- What is filed under a name goes back to the registrations, and is counted.
    The count is written apart from the slips, so that it could differ from
    them; that it does not is kept up from one use to the next. -/
structure Tallied (idx : KeyIndex α) (entries : Entries α) : Prop where
  counted : ∀ name, idx.count name = idx.filed name
  filed : ∀ name, idx.filed name = (entries.map (·.1.filings name)).sum

namespace Tallied

variable {idx : KeyIndex α} {entries : Entries α}

theorem empty : (KeyIndex.empty : KeyIndex α).Tallied [] :=
  ⟨fun _ => rfl, fun _ => rfl⟩

theorem register (h : idx.Tallied entries) (s : Signature) (path : α) :
    (idx.register s path).Tallied (entries ++ [(s, path)]) := by
  by_cases hdynamic : s.isDynamic = true
  · have hfiled : ∀ name, (idx.register s path).filed name = idx.filed name + s.filings name := by
      intro name
      rw [KeyIndex.register, if_pos hdynamic]
      simp only [KeyIndex.filed, file, List.map_append, List.count_append, map_name_slipsFor,
        Signature.filings]
    have hcount : ∀ name, (idx.register s path).count name = idx.count name + s.filings name := by
      intro name
      rw [KeyIndex.register, if_pos hdynamic, Signature.filings,
        ← map_name_slipsFor idx.registered s path, count, count, ← lookup_counted, List.foldl_map]
      rfl
    refine ⟨fun name => ?_, fun name => ?_⟩
    · rw [hcount, hfiled, h.counted]
    · rw [hfiled, h.filed]
      simp
  · have hsame : idx.register s path = idx := if_neg hdynamic
    -- A path without variables has no name to be filed under.
    have hnone : s.binders = [] := by simpa [Signature.isDynamic] using hdynamic
    have hfilings : ∀ name, s.filings name = 0 := fun name => by
      simp [Signature.filings, Signature.keySets, Signature.keys, Signature.optional, hnone]
    rw [hsame]
    exact ⟨h.counted, fun name => by simp [h.filed, hfilings]⟩

/-- A lookup files nothing. -/
theorem find (h : idx.Tallied entries) (names : List String) :
    (idx.find names).1.Tallied entries := by
  unfold KeyIndex.find
  simp only
  split
  · exact h
  · split
    · exact h
    · exact ⟨h.counted, h.filed⟩

theorem step (h : idx.Tallied entries) (use : Use α) :
    (idx.step use).Tallied (entries ++ registrations [use]) := by
  cases use with
  | register s path => exact h.register s path
  | find names =>
      rw [registrations, List.filterMap_cons_none rfl, List.filterMap_nil, List.append_nil]
      exact h.find names

end Tallied

theorem tallied_ofUses (uses : List (Use α)) : (ofUses uses).Tallied (registrations uses) := by
  induction uses using List.reverseRecOn with
  | nil => exact Tallied.empty
  | append_singleton before use ih =>
      rw [ofUses_append, registrations_append]
      exact ih.step use

/-- The sizes of the sets that there are slips for. -/
def sizes (idx : KeyIndex α) : Finset Nat :=
  (idx.slips.map Slip.size).toFinset

/-- Every slip under a name is in the drawer for its size. -/
theorem sum_length_filter (slips : List (Slip α)) (name : String) {sizes : Finset Nat}
    (hsizes : ∀ slip ∈ slips, slip.size ∈ sizes) :
    ∑ size ∈ sizes, (slips.filter fun slip => slip.size == size && slip.name == name).length =
      (slips.map Slip.name).count name := by
  simp only [← List.countP_eq_length_filter]
  induction slips with
  | nil => simp
  | cons slip rest ih =>
      rw [List.forall_mem_cons] at hsizes
      simp only [List.countP_cons, Finset.sum_add_distrib, ih hsizes.2, List.map_cons,
        List.count_cons, Nat.add_left_cancel_iff]
      by_cases hname : slip.name = name
      · simp [hname, hsizes.1]
      · simp [hname]

theorem sum_drawer (idx : KeyIndex α) (name : String) :
    ∑ size ∈ idx.sizes, (idx.drawer size name).length = idx.filed name :=
  sum_length_filter idx.slips name fun _ hslip =>
    List.mem_toFinset.2 (List.mem_map_of_mem hslip)

/-- A registered path with variables is known by the number of those before it. -/
theorem getElem?_dynamic {before after : Entries α} {e : Signature × α}
    (hdynamic : e.1.isDynamic = true) :
    (dynamic (before ++ e :: after))[(dynamic before).length]? = some e := by
  simp [dynamic, hdynamic]

/-- A path is found under each name of every set that selects it, among the
    sets of that size. -/
theorem Holds.mem_drawer {idx : KeyIndex α} {before after : Entries α} {s : Signature} {path : α}
    (h : idx.Holds (before ++ (s, path) :: after)) {set : List String} (hset : set ∈ s.keySets)
    {name : String} (hname : name ∈ set) :
    ⟨set.length, name, (dynamic before).length, s, path⟩ ∈ idx.drawer set.length name := by
  have hdynamic : s.isDynamic = true := by
    have hkey := Signature.mem_keys_of_mem_keySets hset hname
    rw [Signature.isDynamic, Bool.not_eq_true', List.isEmpty_eq_false_iff]
    intro hnone
    simp [Signature.keys, hnone] at hkey
  rw [drawer, List.mem_filter, h.filed]
  exact ⟨⟨getElem?_dynamic hdynamic, set, hset, rfl, hname⟩, by simp⟩

/-- In the drawers stands what was registered. A name counts for as many slips
    as there are under it in the drawers of all sizes, and every path has its
    share in them. The significant names are those of the paths, each drawer
    is in the order of registration, and a path is found under each name of
    every set it is to be generated from, in the drawer for the size of the
    set. Lookups in between make no difference to any of this. -/
theorem filing_invariant {uses : List (Use α)}
    (hdistinct : ∀ e ∈ registrations uses, e.1.keys.Nodup) :
    let idx := ofUses uses
    (∀ name,
      idx.count name = ∑ size ∈ idx.sizes, (idx.drawer size name).length ∧
      idx.count name = ((registrations uses).map fun e =>
        if name ∈ e.1.required then 2 ^ e.1.defaulted.length
        else if name ∈ e.1.defaulted then 1 + 2 ^ (e.1.defaulted.length - 1) else 0).sum) ∧
    idx.significant.toFinset = ((registrations uses).flatMap fun e => e.1.keys).toFinset ∧
    (∀ size name, (idx.drawer size name).Pairwise fun a b => a.sequence ≤ b.sequence) ∧
    ∀ before s path after, registrations uses = before ++ (s, path) :: after →
      ∀ names : Finset String,
        (names = s.keys.toFinset ∨ ∃ chosen ⊆ s.defaulted.toFinset, chosen.Nonempty ∧
          names = s.required.toFinset ∪ chosen) →
        ∀ name ∈ names, ⟨names.card, name, (dynamic before).length, s, path⟩ ∈
          idx.drawer names.card name := by
  intro idx
  -- What the index holds says where a slip is; the tally says how many there are.
  have hholds : idx.Holds (registrations uses) := holds_ofUses uses
  have htallied : idx.Tallied (registrations uses) := tallied_ofUses uses
  refine ⟨fun name => ⟨?_, ?_⟩, ?_, fun size name => hholds.ordered.filter _, ?_⟩
  · rw [sum_drawer, htallied.counted]
  · rw [htallied.counted, htallied.filed]
    refine congrArg List.sum (List.map_congr_left fun e he => ?_)
    exact Signature.filings_eq (hdistinct e he) name
  · ext x
    rw [List.mem_toFinset, List.mem_toFinset, hholds.significant, List.mem_flatMap]
  · intro before s path after hsplit names hnames name hname
    have hmem : (s, path) ∈ registrations uses := by simp [hsplit]
    -- A set of names is filed as a list without repetitions, so its size is that of the list.
    rcases Signature.exists_keySet_toFinset (hdistinct _ hmem) hnames with
      ⟨set, hset, hnodup, rfl⟩
    rw [List.mem_toFinset] at hname
    rw [hsplit] at hholds
    rw [List.toFinset_card_of_nodup hnodup]
    exact hholds.mem_drawer hset hname

/-- With two defaults, the name without one has four slips and each of the
    others three. A path with one name leaves two slips if that has a default. -/
theorem filing_invariant_of_two_paths :
    let uses : List (Use Nat) :=
      [.register ⟨[("day", false), ("month", true), ("page", true)]⟩ 0, .find ["day"],
        .register ⟨[("day", true)]⟩ 1]
    (ofUses uses).count "day" = 6 ∧ (ofUses uses).count "month" = 3 ∧
      ⟨2, "page", 0, ⟨[("day", false), ("month", true), ("page", true)]⟩, 0⟩ ∈
        (ofUses uses).drawer 2 "page" := by
  intro uses
  have hfiled := @filing_invariant Nat uses (by decide)
  refine ⟨(hfiled.1 "day").2.trans (by decide), (hfiled.1 "month").2.trans (by decide), ?_⟩
  exact hfiled.2.2.2 [] _ 0 _ rfl {"day", "page"}
    (Or.inr ⟨{"page"}, by decide, by decide, by decide⟩) "page" (by decide)

end KeyIndex

end PathRouting
