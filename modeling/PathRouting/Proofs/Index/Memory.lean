import Mathlib.Data.Finset.Lattice.Basic
import PathRouting.Proofs.Index.Search

/-!
# What a Lookup Remembers

An index is used in any order: paths are registered, and names looked up. The
first lookup that asks for a set of significant names searches for it, and its
answer is given for good, whatever is registered later.

That does no harm as long as a path was found. Registrations are only ever
added behind those that are there, and of the paths that serve the names the
first one is taken, so a path that was found once is what a new search would
find. Only an answer that there is no path can be out of date.

Sets of names are compared as lists by the index. It lists them in the order
in which the names became significant, and that order is never changed, so a
set has one list for good.

## Main definitions

* `KeyIndex.Use`, `KeyIndex.ofUses`: What is done with an index, and what
  becomes of it.
* `KeyIndex.filing`: Some registrations as uses.
* `KeyIndex.asks`: The set of significant names that a lookup asks for.
* `KeyIndex.New`: No lookup has asked for the set so far.
* `KeyIndex.Current`: Nothing was registered since a lookup asked for the set.
* `KeyIndex.Learnt`: An index from which lookups have led to another.

## Theorems

* `KeyIndex.relevant_eq_of_toFinset_eq`: A set has one list.
* `KeyIndex.lookup_eq_none_of_new`, `KeyIndex.lookup_foldl`: An answer is
  remembered from the first lookup on, and for good.
* `KeyIndex.scan_append_of_some`: What was found first stays the first.
* `KeyIndex.find_eq_earliest`: A lookup whose answer is new or still current
  finds the earliest path.
* `KeyIndex.find_eq_first_answer`: A lookup gives the answer of the first one
  for its set, and a path in it is what a search would find.
-/

namespace PathRouting

namespace KeyIndex

variable {α : Type}

/-- What is done with an index. -/
inductive Use (α : Type) where
  | register (signature : Signature) (path : α)
  | find (names : List String)

/-- The index after one more use. -/
def step (idx : KeyIndex α) : Use α → KeyIndex α
  | .register signature path => idx.register signature path
  | .find names => (idx.find names).1

/-- The index after some uses, in order. -/
def ofUses (uses : List (Use α)) : KeyIndex α :=
  uses.foldl step .empty

/-- The registrations among some uses, in order. -/
def registrations (uses : List (Use α)) : Entries α :=
  uses.filterMap fun
    | .register signature path => some (signature, path)
    | .find _ => none

/-- Registrations, as uses of an index. -/
def filing (entries : Entries α) : List (Use α) :=
  entries.map fun e => .register e.1 e.2

/-- The set of names that a lookup asks for: those that are significant at
    that moment. The same names may ask for more later on, when another path
    has brought one of them along. -/
def asks (before : List (Use α)) (names : List String) : Finset String :=
  ((ofUses before).relevant names).toFinset

/-- No lookup among the uses has asked for the set. -/
def New (uses : List (Use α)) (asked : Finset String) : Prop :=
  ∀ front names back, uses = front ++ .find names :: back → asks front names ≠ asked

/-- Nothing has been registered since a lookup asked for the set, if one has.
    Then the answer that is remembered is the one that a search would give. -/
def Current (uses : List (Use α)) (asked : Finset String) : Prop :=
  ∀ front names back, uses = front ++ .find names :: back → asks front names = asked →
    registrations back = []

/-- Nothing but lookups lies between the indexes. -/
def Learnt (idx idx' : KeyIndex α) : Prop :=
  ∃ lookups : List (List String), idx' = (lookups.map Use.find).foldl step idx

theorem ofUses_append (uses more : List (Use α)) :
    ofUses (uses ++ more) = more.foldl step (ofUses uses) :=
  List.foldl_append

theorem registrations_append (uses more : List (Use α)) :
    registrations (uses ++ more) = registrations uses ++ registrations more :=
  List.filterMap_append

theorem registrations_filing (entries : Entries α) : registrations (filing entries) = entries := by
  rw [registrations, filing, List.filterMap_map]
  exact List.filterMap_some

theorem Holds.step {idx : KeyIndex α} {entries : Entries α} (h : idx.Holds entries) (use : Use α) :
    (idx.step use).Holds (entries ++ registrations [use]) := by
  cases use with
  | register signature path => exact h.register signature path
  | find names =>
      rw [registrations, List.filterMap_cons_none rfl, List.filterMap_nil, List.append_nil]
      exact h.find names

theorem Holds.foldl {idx : KeyIndex α} {entries : Entries α} (h : idx.Holds entries)
    (uses : List (Use α)) :
    (uses.foldl KeyIndex.step idx).Holds (entries ++ registrations uses) := by
  induction uses generalizing idx entries with
  | nil => simpa [registrations] using h
  | cons use rest ih =>
      have hrest := ih (h.step use)
      rw [List.append_assoc, ← registrations_append] at hrest
      exact hrest

/-- An index holds what was registered, whatever was looked up in between. -/
theorem holds_ofUses (uses : List (Use α)) : (ofUses uses).Holds (registrations uses) :=
  Holds.empty.foldl uses

namespace Learnt

theorem refl (idx : KeyIndex α) : Learnt idx idx := ⟨[], rfl⟩

theorem find (idx : KeyIndex α) (names : List String) : Learnt idx (idx.find names).1 :=
  ⟨[names], rfl⟩

theorem trans {idx idx' idx'' : KeyIndex α} (h : Learnt idx idx') (h' : Learnt idx' idx'') :
    Learnt idx idx'' := by
  rcases h with ⟨lookups, rfl⟩
  rcases h' with ⟨more, rfl⟩
  exact ⟨lookups ++ more, by rw [List.map_append, List.foldl_append]⟩

/-- Lookups register nothing. -/
theorem exists_uses {uses : List (Use α)} {idx : KeyIndex α} (h : Learnt (ofUses uses) idx) :
    ∃ lookups : List (List String), idx = ofUses (uses ++ lookups.map Use.find) ∧
      registrations (lookups.map (Use.find (α := α))) = [] := by
  rcases h with ⟨lookups, rfl⟩
  refine ⟨lookups, (ofUses_append _ _).symm, ?_⟩
  rw [registrations, List.filterMap_map]
  exact List.filterMap_eq_nil_iff.2 fun _ _ => rfl

end Learnt

theorem nodup_relevant (uses : List (Use α)) (names : List String) :
    ((ofUses uses).relevant names).Nodup :=
  (holds_ofUses uses).distinct.filter _

/-- What a lookup asks for are those of its names that some registered path has. -/
theorem asks_eq (uses : List (Use α)) (names : List String) :
    asks uses names =
      names.toFinset ∩ ((registrations uses).flatMap fun e => e.1.keys).toFinset := by
  ext x
  rw [asks, Finset.mem_inter, List.mem_toFinset, List.mem_toFinset, List.mem_toFinset, relevant,
    List.mem_filter, (holds_ofUses uses).significant, List.mem_flatMap, List.contains_iff_mem,
    and_comm]

/-- A lookup leaves the significant names alone. -/
theorem significant_find (idx : KeyIndex α) (names : List String) :
    (idx.find names).1.significant = idx.significant := by
  unfold find
  simp only
  split
  · rfl
  · split <;> rfl

/-- Names become significant one after the other and remain so. A set of names
    is known by which of them are significant, in the order they became so,
    and later registrations add to the end of that order only. -/
theorem significant_prefix (idx : KeyIndex α) (uses : List (Use α)) :
    idx.significant <+: (uses.foldl step idx).significant := by
  induction uses generalizing idx with
  | nil => exact List.prefix_rfl
  | cons use rest ih =>
      refine List.IsPrefix.trans ?_ (ih (idx.step use))
      cases use with
      | register signature path =>
          rcases idx.exists_added signature path with ⟨added, hadded, _⟩
          exact ⟨added, hadded.symm⟩
      | find names =>
          have hsame := significant_find idx names
          exact ⟨[], by rw [List.append_nil]; exact hsame.symm⟩

/-- A set of significant names has one list, at any time. -/
theorem relevant_eq_of_toFinset_eq {before later : List (Use α)} {names others : List String}
    (h : asks (before ++ later) names = asks before others) :
    (ofUses (before ++ later)).relevant names = (ofUses before).relevant others := by
  have hprefix := significant_prefix (ofUses before) later
  rw [← ofUses_append] at hprefix
  rcases hprefix with ⟨added, hadded⟩
  have hdistinct := (holds_ofUses (before ++ later)).distinct
  have hmem : ∀ x, x ∈ (ofUses (before ++ later)).relevant names ↔
      x ∈ (ofUses before).relevant others := fun x => by
    rw [← List.mem_toFinset, ← List.mem_toFinset]
    exact Finset.ext_iff.1 h x
  simp only [relevant, List.mem_filter, List.contains_iff_mem] at hmem ⊢
  rw [← hadded] at hdistinct hmem ⊢
  -- The names that were added later are not in the set, since they were not significant before.
  have hlater : added.filter names.contains = [] := by
    rw [List.filter_eq_nil_iff]
    intro x hx hnames
    have hold := ((hmem x).1 ⟨List.mem_append_right _ hx, by simpa using hnames⟩).1
    exact (List.nodup_append'.1 hdistinct).2.2 hold hx
  rw [List.filter_append, hlater, List.append_nil]
  refine List.filter_congr fun x hx => ?_
  have hboth := hmem x
  simp only [List.mem_append, hx, true_or, true_and] at hboth
  rw [Bool.eq_iff_iff, List.contains_iff_mem, List.contains_iff_mem]
  exact hboth

section Answers

variable {idx : KeyIndex α} {key : List String} {answer : Option α}

theorem lookup_step (h : idx.answers.lookup key = some answer) (use : Use α) :
    (idx.step use).answers.lookup key = some answer := by
  cases use with
  | register signature path =>
      by_cases hdynamic : signature.isDynamic = true
      · rw [step, register, if_pos hdynamic]
        exact h
      · rw [step, register, if_neg hdynamic]
        exact h
  | find names =>
      unfold step find
      simp only
      split
      · exact h
      · split
        · exact h
        · next hnone =>
          -- What is added is for another set.
          have hother : (key == idx.relevant names) = false := by
            rw [beq_eq_false_iff_ne]
            intro hkey
            rw [hkey, hnone] at h
            cases h
          simp only [List.lookup_cons, hother]
          exact h

/-- An answer is remembered for good. Registering a path does not clear what
    was found before, nor that nothing was. -/
theorem lookup_foldl (h : idx.answers.lookup key = some answer) (uses : List (Use α)) :
    (uses.foldl step idx).answers.lookup key = some answer := by
  induction uses generalizing idx with
  | nil => exact h
  | cons use rest ih => exact ih (lookup_step h use)

/-- An answer that was not remembered before was given to a lookup for its set. -/
theorem eq_find_of_lookup_step {use : Use α} (hnone : idx.answers.lookup key = none)
    (h : (idx.step use).answers.lookup key = some answer) :
    ∃ names, use = .find names ∧ idx.relevant names = key := by
  cases use with
  | register signature path =>
      -- A registration leaves the answers alone.
      have hsame : (idx.register signature path).answers = idx.answers := by
        unfold register
        split <;> rfl
      rw [step, hsame, hnone] at h
      cases h
  | find names =>
      refine ⟨names, rfl, ?_⟩
      unfold step find at h
      simp only at h
      split at h
      · rw [hnone] at h
        cases h
      · split at h
        · rw [hnone] at h
          cases h
        -- The lookup adds an answer for its own set only.
        · by_contra hkey
          have hother : (key == idx.relevant names) = false :=
            beq_eq_false_iff_ne.2 fun heq => hkey heq.symm
          simp only [List.lookup_cons, hother, hnone] at h
          cases h

/-- Nothing is remembered for a set that no lookup has asked for. The
    induction is on the uses from the last one backward. -/
theorem lookup_eq_none_of_new {uses : List (Use α)} (h : New uses key.toFinset) :
    (ofUses uses).answers.lookup key = none := by
  induction uses using List.reverseRecOn with
  | nil => rfl
  | append_singleton front use ih =>
      have hfront : New front key.toFinset := by
        intro before names back hback
        exact h before names (back ++ [use]) (by rw [hback]; simp)
      cases hlookup : (ofUses (front ++ [use])).answers.lookup key with
      | none => rfl
      | some answer =>
          rw [ofUses_append] at hlookup
          rcases eq_find_of_lookup_step (ih hfront) hlookup with ⟨names, rfl, hkey⟩
          exact absurd (congrArg List.toFinset hkey) (h front names [] rfl)

/-- What a lookup gives is remembered, unless it asks for nothing. -/
theorem lookup_find {names : List String} (hne : idx.relevant names ≠ []) :
    (idx.find names).1.answers.lookup (idx.relevant names) = some (idx.find names).2 := by
  have hsome : (idx.relevant names).isEmpty = false := List.isEmpty_eq_false_iff.2 hne
  unfold find
  cases hanswer : idx.answers.lookup (idx.relevant names) with
  | some answer => simp [hsome, hanswer]
  | none => simp [hsome, hanswer]

/-- Asked again, the index gives the same answer. -/
theorem find_find (idx : KeyIndex α) (names : List String) :
    ((idx.find names).1.find names).2 = (idx.find names).2 := by
  have hrelevant : (idx.find names).1.relevant names = idx.relevant names := by
    rw [relevant, relevant, significant_find]
  by_cases hne : idx.relevant names = []
  · rw [find, hrelevant, find, hne]
    rfl
  · have hlookup := lookup_find hne
    rw [← hrelevant] at hlookup hne
    rw [find_remembered hlookup (List.isEmpty_eq_false_iff.2 hne)]

/-- The first lookup for a set searches. -/
theorem find_of_new {uses : List (Use α)} {names : List String}
    (h : New uses (asks uses names)) :
    ((ofUses uses).find names).2 = (ofUses uses).search ((ofUses uses).relevant names) := by
  have hnone := lookup_eq_none_of_new h
  unfold find
  simp only
  split
  · next hempty =>
    rw [List.isEmpty_iff.1 hempty]
    rfl
  · rw [hnone]

end Answers

/-- What was found first stays the first, whatever is registered behind it.
    This is why only an answer that there is nothing can be out of date. -/
theorem scan_append_of_some {entries : Entries α} {names : Finset String} {path : α}
    (h : scan entries names = some path) (more : Entries α) :
    scan (entries ++ more) names = some path := by
  rcases Option.map_eq_some_iff.1 h with ⟨e, he, rfl⟩
  rw [scan, List.find?_append, he]
  rfl

/-- A search goes through all that was registered. -/
theorem search_ofUses (uses : List (Use α)) (names : List String) :
    (ofUses uses).search ((ofUses uses).relevant names) =
      scan (registrations uses) (asks uses names) :=
  (holds_ofUses uses).search_eq_scan (nodup_relevant uses names)

/-- From a lookup for a set one gets back to the first one for it, in steps to
    an earlier one. The induction is on how much was done before. The first
    one had nothing to be reminded of, so it is the one that searched. -/
theorem exists_first_of_lookup {uses before : List (Use α)} {others : List String}
    {later : List (Use α)} (hsplit : uses = before ++ .find others :: later) :
    ∃ front more back, uses = front ++ .find more :: back ∧
      asks front more = asks before others ∧ New front (asks before others) := by
  induction hlength : before.length using Nat.strong_induction_on generalizing before others later
  next n ih =>
  by_cases hnew : New before (asks before others)
  · exact ⟨before, others, later, hsplit, rfl, hnew⟩
  · simp only [New, not_forall, ne_eq, not_not] at hnew
    rcases hnew with ⟨front, more, back, rfl, hearlier⟩
    have hshorter : front.length < n := by
      rw [← hlength, List.length_append, List.length_cons]
      omega
    have hfront : uses = front ++ .find more :: (back ++ .find others :: later) := by
      rw [hsplit, List.append_assoc, List.cons_append]
    have hfirst := ih front.length hshorter hfront rfl
    rwa [hearlier] at hfirst

/-- Every lookup has a first one for its set, which may be itself. -/
theorem exists_first (uses : List (Use α)) (names : List String) :
    ∃ before others later, uses ++ [.find names] = before ++ .find others :: later ∧
      asks before others = asks uses names ∧ New before (asks uses names) :=
  exists_first_of_lookup rfl

/-- A use that all uses are split at is the last one, or the last one comes behind it. -/
theorem last_cases {uses before later : List (Use α)} {last use : Use α}
    (hsplit : uses ++ [last] = before ++ use :: later) :
    (uses = before ∧ last = use ∧ later = []) ∨
      ∃ between, uses = before ++ use :: between ∧ later = between ++ [last] := by
  rcases List.eq_nil_or_concat' later with rfl | ⟨between, end', rfl⟩
  · rcases List.append_inj' hsplit rfl with ⟨rfl, hlast⟩
    exact Or.inl ⟨rfl, (List.cons.inj hlast).1, rfl⟩
  · rw [← List.cons_append, ← List.append_assoc] at hsplit
    rcases List.append_inj' hsplit rfl with ⟨rfl, hlast⟩
    exact Or.inr ⟨between, rfl, by rw [(List.cons.inj hlast).1]⟩

/-- The answer to a lookup is what the search gave at the first lookup for its set. -/
theorem find_eq_search_of_first {uses before later : List (Use α)} {names others : List String}
    (hsplit : uses ++ [.find names] = before ++ .find others :: later)
    (hasks : asks before others = asks uses names) (hnew : New before (asks uses names)) :
    ((ofUses uses).find names).2 = (ofUses before).search ((ofUses before).relevant others) := by
  rw [← hasks] at hnew
  rcases last_cases hsplit with ⟨rfl, hlast, _⟩ | ⟨between, rfl, _⟩
  · -- The lookup is the first one itself.
    cases hlast
    exact find_of_new hnew
  · -- The set is listed as it was then, and the answer to it is still there.
    have hkey : (ofUses (before ++ .find others :: between)).relevant names =
        (ofUses before).relevant others := relevant_eq_of_toFinset_eq hasks.symm
    by_cases hne : (ofUses before).relevant others = []
    · rw [find, hkey, hne]
      rfl
    · have hnow := lookup_foldl (lookup_find hne) between
      have hafter : between.foldl step ((ofUses before).find others).1 =
          ofUses (before ++ .find others :: between) := by
        rw [ofUses_append]
        rfl
      rw [hafter, ← hkey] at hnow
      rw [← hkey] at hne
      rw [find_remembered hnow (List.isEmpty_eq_false_iff.2 hne)]
      exact find_of_new hnew

/-- As long as nothing was registered since its set was asked for, a lookup
    gives what a search would find. -/
theorem find_of_current {uses : List (Use α)} {names : List String}
    (h : Current uses (asks uses names)) :
    ((ofUses uses).find names).2 = (ofUses uses).search ((ofUses uses).relevant names) := by
  rcases exists_first uses names with ⟨before, others, later, hsplit, hasks, hnew⟩
  rw [find_eq_search_of_first hsplit hasks hnew, search_ofUses, search_ofUses, hasks]
  rcases last_cases hsplit with ⟨rfl, _⟩ | ⟨between, rfl, _⟩
  · rfl
  · have hbetween := h before others between rfl hasks
    have hnone : registrations (.find others :: between) = registrations between := rfl
    rw [registrations_append, hnone, hbetween, List.append_nil]

/-- Where nothing is registered behind the first lookup, every answer is current. -/
theorem current_filing_append {entries : Entries α} {uses : List (Use α)}
    (h : registrations uses = []) (asked : Finset String) :
    Current (filing entries ++ uses) asked := by
  intro front names back hsplit _
  rcases List.append_eq_append_iff.1 hsplit with ⟨more, _, huses⟩ | ⟨more, hfiling, hmore⟩
  · rw [huses, registrations_append, List.append_eq_nil_iff] at h
    exact h.2
  · cases more with
    | nil =>
        rw [List.nil_append] at hmore
        rw [← hmore] at h
        exact h
    | cons use rest =>
        -- No lookup is among the registrations.
        cases hmore
        have hmem : Use.find names ∈ filing entries := by simp [hfiling]
        rcases List.mem_map.1 hmem with ⟨_, _, hregister⟩
        cases hregister

/-- A path that a lookup gives is the first among those registered that serves
    the names, no matter how long ago it was found. -/
theorem scan_of_find {uses : List (Use α)} {names : List String} {path : α}
    (h : ((ofUses uses).find names).2 = some path) :
    scan (registrations uses) (asks uses names) = some path := by
  rcases exists_first uses names with ⟨before, others, later, hsplit, hasks, hnew⟩
  rw [find_eq_search_of_first hsplit hasks hnew, search_ofUses, hasks] at h
  -- What was registered by then is the beginning of what is registered now.
  have hall := congrArg registrations hsplit
  rw [registrations_append, registrations_append] at hall
  have hnone : registrations [(.find names : Use α)] = [] := rfl
  rw [hnone, List.append_nil] at hall
  rw [hall]
  exact scan_append_of_some h _

end KeyIndex

/-- Without a name that occurs twice, a name tells whether it has a default. -/
theorem Signature.mem_defaulted_iff {s : Signature} (h : s.keys.Nodup) {b : String × Bool}
    (hb : b ∈ s.binders) : b.1 ∈ s.defaulted ↔ b.2 = true := by
  rw [defaulted, List.mem_map]
  constructor
  · rintro ⟨other, hother, hname⟩
    rcases List.mem_filter.1 hother with ⟨hmem, hdefault⟩
    rw [← List.inj_on_of_nodup_map h hmem hb hname]
    exact hdefault
  · exact fun hdefault => ⟨b, List.mem_filter.2 ⟨hb, hdefault⟩, rfl⟩

/-- Without a name that occurs twice, the names that have no default are those
    that have to be given. -/
theorem Signature.undefaulted_eq_required {s : Signature} (h : s.keys.Nodup) :
    s.undefaulted = s.required := by
  rw [undefaulted, required, keys, List.filter_map]
  refine congrArg (List.map Prod.fst) (List.filter_congr fun b hb => ?_)
  rw [Function.comp_apply, Bool.not_inj_iff, Bool.eq_iff_iff, List.contains_iff_mem,
    mem_defaulted_iff h hb]

/-- In terms of sets: a path serves names if those it needs are among them,
    they are all names of the path, and they are not just those it needs
    unless it has no others. Nothing of how the index files is left in this. -/
theorem Signature.serves_iff_of_nodup {s : Signature} (h : s.keys.Nodup) {names : Finset String} :
    s.Serves names ↔ s.required.toFinset ⊆ names ∧ names ⊆ s.keys.toFinset ∧
      (names ≠ s.required.toFinset ∨ s.keys.toFinset = s.required.toFinset) := by
  rw [Serves, undefaulted_eq_required h]
  have hsublist : s.required.Sublist s.keys := List.Sublist.map _ List.filter_sublist
  have hkeys := List.toFinset_card_of_nodup h
  have hrequired := List.toFinset_card_of_nodup (h.sublist hsublist)
  -- Only the last condition differs. Between two sets of which one is in the other, having the same
  -- size is being the same.
  refine and_congr_right fun hneeded => and_congr_right fun hused => ?_
  rw [← hkeys, ← hrequired]
  constructor
  · intro hcard
    by_cases heq : names = s.required.toFinset
    · refine Or.inr ?_
      rcases hcard with hcard | hcard
      · rw [← Finset.eq_of_subset_of_card_le hused (Nat.le_of_eq hcard.symm), heq]
      · rw [heq] at hcard
        exact absurd hcard (Nat.lt_irrefl _)
    · exact Or.inl heq
  · intro hsets
    rcases hsets with hne | heq
    · exact Or.inr (Finset.card_lt_card (hneeded.ssubset_of_ne fun h => hne h.symm))
    · rw [← heq] at hneeded
      exact Or.inl (congrArg Finset.card (hused.antisymm hneeded))

namespace KeyIndex

variable {α : Type}

/-- A lookup finds the earliest registered path that needs no other names than
    those asked for and uses all of them, where they are more than it needs or
    all that it has. It finds nothing only if there is no such path. For this,
    nothing may have been registered since the set of names was asked for
    before, which is so where all registrations come first. -/
theorem find_eq_earliest {uses : List (Use α)} {names : List String}
    (hdistinct : ∀ e ∈ registrations uses, e.1.keys.Nodup)
    (hcurrent : Current uses (asks uses names)) :
    let asked := names.toFinset ∩ ((registrations uses).flatMap fun e => e.1.keys).toFinset
    ((ofUses uses).find names).2 =
      ((registrations uses).find? fun e => e.1.isDynamic && decide
        (e.1.required.toFinset ⊆ asked ∧ asked ⊆ e.1.keys.toFinset ∧
          (asked ≠ e.1.required.toFinset ∨ e.1.keys.toFinset = e.1.required.toFinset))).map
        Prod.snd := by
  intro asked
  have hasked : asks uses names = asked := asks_eq uses names
  rw [find_of_current hcurrent, search_ofUses, hasked, scan]
  -- Both take the first path that fits, and with distinct names the same ones fit.
  refine congrArg (Option.map Prod.snd) ?_
  rw [← List.head?_filter, ← List.head?_filter]
  refine congrArg List.head? (List.filter_congr fun e he => ?_)
  rw [decide_eq_decide.2 (Signature.serves_iff_of_nodup (hdistinct e he))]

/-- The third path is registered after a lookup that found nothing for other names. -/
theorem find_eq_earliest_of_three :
    let uses : List (Use Nat) :=
      [.register ⟨[("day", false), ("month", false)]⟩ 0, .find ["day"],
        .register ⟨[("month", false), ("page", true)]⟩ 1, .find ["page", "year"],
        .register ⟨[("month", false), ("page", false)]⟩ 2]
    ((ofUses uses).find ["page", "month", "year"]).2 = some 1 := by
  intro uses
  have hcurrent : Current uses (asks uses ["page", "month", "year"]) := by
    intro front names back hsplit hasks
    simp only [uses] at hsplit
    -- One of the two lookups comes behind one use, the other behind three.
    rcases front with _ | ⟨_, _ | ⟨_, _ | ⟨_, _ | ⟨_, _ | ⟨_, _ | ⟨_, _⟩⟩⟩⟩⟩⟩ <;> cases hsplit
    · exact absurd hasks (by decide)
    · exact absurd hasks (by decide)
  exact (find_eq_earliest (by decide) hcurrent).trans (by decide)

/-- A lookup gives the answer that the search gave at the first lookup for the
    same set of names. If that was a path, a search among all that is
    registered now would find it again; so an answer is out of date only if it
    is that there is no path. -/
theorem find_eq_first_answer (uses : List (Use α)) (names : List String) :
    (∃ before others later, uses ++ [.find names] = before ++ .find others :: later ∧
      asks before others = asks uses names ∧ New before (asks uses names) ∧
      ((ofUses uses).find names).2 =
        (ofUses before).search ((ofUses before).relevant others)) ∧
    (∀ path, ((ofUses uses).find names).2 = some path →
      (ofUses uses).search ((ofUses uses).relevant names) = some path) ∧
    (((ofUses uses).find names).2 ≠ (ofUses uses).search ((ofUses uses).relevant names) →
      ((ofUses uses).find names).2 = none) := by
  -- A path that was found stays the earliest one, since later registrations come behind it.
  have hpath : ∀ path, ((ofUses uses).find names).2 = some path →
      (ofUses uses).search ((ofUses uses).relevant names) = some path := by
    intro path hfind
    rw [search_ofUses]
    exact scan_of_find hfind
  refine ⟨?_, hpath, fun hdiffers => ?_⟩
  · rcases exists_first uses names with ⟨before, others, later, hsplit, hasks, hnew⟩
    exact ⟨before, others, later, hsplit, hasks, hnew,
      find_eq_search_of_first hsplit hasks hnew⟩
  · cases hfind : ((ofUses uses).find names).2 with
    | none => rfl
    | some path => exact absurd (hfind.trans (hpath path hfind).symm) hdiffers

/-- An answer that is out of date: the path was registered after the lookup. -/
example :
    let uses : List (Use Nat) :=
      [.register ⟨[("day", false), ("month", false)]⟩ 0, .find ["day"],
        .register ⟨[("day", false)]⟩ 1]
    ((ofUses uses).find ["day"]).2 = none ∧
      (ofUses uses).search ((ofUses uses).relevant ["day"]) = some 1 := by
  decide

end KeyIndex

end PathRouting
