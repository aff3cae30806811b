import Mathlib.Data.Finset.Card
import Mathlib.Data.Finset.Dedup
import PathRouting.Proofs.Index.Filing

/-!
# The Search Is a Linear Scan

The search opens drawer after drawer, from the largest size down and for one
name after the other, and leaves a drawer early. A scan goes through the
registrations once and takes the first path that serves the names. The two
come to the same.

Within one size, what counts of the drawers is only which path in them is the
earliest: a drawer that is left early has nothing earlier in it, and the names
may come in any order. Of all the sizes, only the first counts: a path that
can be generated from all of the names and is filed under one of them in a
smaller set is also filed under one of them in a set that is as large as they
are many. The smaller sizes are gone through in vain.

## Main definitions

* `Signature.Serves`: The path is what a search for some names may give.
* `KeyIndex.scan`: The first path that serves the names.
* `KeyIndex.Earliest`: What a search has found in the slips it has seen.

## Theorems

* `KeyIndex.Earliest.improve`: One more drawer.
* `KeyIndex.Holds.ofSize_eq`: All drawers of a size.
* `Signature.files_of_files_le`: Smaller sizes have nothing more to offer.
* `KeyIndex.Holds.search_eq_scan`: The search is a scan.
-/

namespace PathRouting

namespace Signature

/-- The path is what a search for the names may give. It can be generated from
    them, and they are all of its names, or more than those of it that have no
    default. The latter excludes a path with defaults that is asked for by
    just the names it needs, since it is filed under no such set. -/
def Serves (s : Signature) (names : Finset String) : Prop :=
  s.required.toFinset ⊆ names ∧ names ⊆ s.keys.toFinset ∧
    (names.card = s.keys.length ∨ s.undefaulted.length < names.card)

instance (s : Signature) (names : Finset String) : Decidable (s.Serves names) :=
  inferInstanceAs (Decidable (_ ∧ _ ∧ _))

/-- The path is filed under one of the names in a set of the size. -/
def files (s : Signature) (relevant : List String) (size : Nat) : Bool :=
  s.keySets.any fun set => set.length == size && set.any relevant.contains

variable {s : Signature} {relevant : List String} {size : Nat}

theorem admits_iff : s.admits relevant = true ↔
    (∀ x ∈ s.required, x ∈ relevant) ∧ ∀ x ∈ relevant, x ∈ s.keys := by
  simp [admits]

theorem admits_iff_subset : s.admits relevant = true ↔
    s.required.toFinset ⊆ relevant.toFinset ∧ relevant.toFinset ⊆ s.keys.toFinset := by
  rw [admits_iff]
  simp [Finset.subset_iff]

theorem files_iff : s.files relevant size = true ↔
    ∃ set ∈ s.keySets, set.length = size ∧ ∃ x ∈ set, x ∈ relevant := by
  simp [files]

/-- If the path can be generated from the names, it is filed under one of them
    in a set of every size that one of its sets has. -/
theorem files_iff_of_admits (hne : relevant ≠ []) (hadmits : s.admits relevant = true) :
    s.files relevant size = true ↔
      size = s.keys.length ∨ s.undefaulted.length < size ∧ size ≤ s.keys.length := by
  rw [files_iff]
  constructor
  · intro h
    rcases h with ⟨set, hset, rfl, _⟩
    exact length_of_mem_keySets hset
  · exact exists_keySet hne (admits_iff.1 hadmits).2

/-- The names of the path are at least as many as those it can be generated from. -/
theorem length_le_of_admits (hnodup : relevant.Nodup) (hadmits : s.admits relevant = true) :
    relevant.length ≤ s.keys.length :=
  (List.subperm_of_subset hnodup (admits_iff.1 hadmits).2).length_le

/-- A path that is filed under one of the names in a smaller set is also filed
    under one of them in a set that is as large as they are many. So looking
    through the largest sets first does not pass over an earlier path. -/
theorem files_of_files_le (hnodup : relevant.Nodup) (hne : relevant ≠ [])
    (hadmits : s.admits relevant = true) (hsize : size ≤ relevant.length)
    (h : s.files relevant size = true) : s.files relevant relevant.length = true := by
  have hlength := length_le_of_admits hnodup hadmits
  rw [files_iff_of_admits hne hadmits] at h ⊢
  rcases h with heq | ⟨hlow, _⟩
  · exact Or.inl (by omega)
  · exact Or.inr ⟨by omega, hlength⟩

/-- To serve the names is to be generated from them and to be filed in a set
    that is as large as they are many. The first says nothing of filing, and
    the second alone says nothing of the names that the path needs besides. -/
theorem serves_iff (hnodup : relevant.Nodup) (hne : relevant ≠ []) :
    s.Serves relevant.toFinset ↔
      s.admits relevant = true ∧ s.files relevant relevant.length = true := by
  rw [Serves, ← and_assoc, ← admits_iff_subset, List.toFinset_card_of_nodup hnodup]
  refine and_congr_right fun h => ?_
  rw [files_iff_of_admits hne h]
  have hlength := length_le_of_admits hnodup h
  omega

end Signature

namespace KeyIndex

variable {α : Type}

/-- The first path that serves the names, in the order of registration. This
    is what the drawers and the counts are an arrangement of. -/
def scan (entries : Entries α) (names : Finset String) : Option α :=
  (entries.find? fun e => e.1.isDynamic && decide (e.1.Serves names)).map Prod.snd

theorem scan_eq (entries : Entries α) (names : Finset String) :
    scan entries names =
      ((dynamic entries).find? fun e => decide (e.1.Serves names)).map Prod.snd := by
  rw [scan, dynamic, List.find?_filter]
  simp only [Bool.decide_and, Bool.decide_eq_true]

/-- What a search has found in the slips that it has seen so far: nothing if no
    path in them can be generated from the names, and else one of the earliest. -/
def Earliest (relevant : List String) (seen : List (Slip α)) : Option (Slip α) → Prop
  | none => ∀ slip ∈ seen, slip.signature.admits relevant = false
  | some best => best ∈ seen ∧ best.signature.admits relevant = true ∧
      ∀ slip ∈ seen, slip.signature.admits relevant = true → best.sequence ≤ slip.sequence

variable {relevant : List String} {seen : List (Slip α)} {best : Option (Slip α)}

/-- Slips that cannot be better change nothing. -/
theorem Earliest.append (h : Earliest relevant seen best) {more : List (Slip α)}
    (hmore : ∀ slip ∈ more, slip.signature.admits relevant = true →
      ∃ b, best = some b ∧ b.sequence ≤ slip.sequence) :
    Earliest relevant (seen ++ more) best := by
  -- Without a best slip, a new one that serves would have to be behind one, which is not there.
  cases best with
  | none =>
      intro slip hslip
      rcases List.mem_append.1 hslip with hslip | hslip
      · exact h slip hslip
      · by_contra hadmits
        rcases hmore slip hslip (by simpa using hadmits) with ⟨_, hnone, _⟩
        cases hnone
  | some b =>
      rcases h with ⟨hmem, hadmits, hleast⟩
      refine ⟨List.mem_append_left _ hmem, hadmits, fun slip hslip hslips => ?_⟩
      rcases List.mem_append.1 hslip with hslip | hslip
      · exact hleast slip hslip hslips
      · rcases hmore slip hslip hslips with ⟨_, hb, hle⟩
        cases hb
        exact hle

/-- One more drawer. The induction is on what is left of it; the slips that
    were turned down join those that were seen. -/
theorem Earliest.improve (h : Earliest relevant seen best) {drawer : List (Slip α)}
    (hordered : drawer.Pairwise fun a b => a.sequence ≤ b.sequence) :
    Earliest relevant (seen ++ drawer) (improve relevant best drawer) := by
  induction drawer generalizing seen with
  | nil => simpa [KeyIndex.improve] using h
  | cons slip rest ih =>
      rw [List.pairwise_cons] at hordered
      unfold KeyIndex.improve
      by_cases hearly : best.any (·.sequence ≤ slip.sequence) = true
      · -- The best so far is as early as this slip, and so as all behind it.
        rw [if_pos hearly]
        rcases Option.any_eq_true _ _ |>.1 hearly with ⟨b, rfl, hle⟩
        have hb : b.sequence ≤ slip.sequence := by simpa using hle
        refine h.append fun x hx _ => ⟨b, rfl, ?_⟩
        rcases List.mem_cons.1 hx with rfl | hx
        · exact hb
        · exact Nat.le_trans hb (hordered.1 x hx)
      · rw [if_neg hearly]
        by_cases hadmits : slip.signature.admits relevant = true
        · -- The slip is earlier than the best so far, and than all behind it.
          rw [if_pos hadmits]
          refine ⟨by simp, hadmits, fun x hx hxadmits => ?_⟩
          rcases List.mem_append.1 hx with hx | hx
          · cases best with
            | none => simp [h x hx] at hxadmits
            | some b =>
                have hlt : slip.sequence < b.sequence := by simpa using hearly
                have hle := h.2.2 x hx hxadmits
                omega
          · rcases List.mem_cons.1 hx with rfl | hx
            · exact Nat.le_refl _
            · exact hordered.1 x hx
        · rw [if_neg hadmits]
          have hseen : Earliest relevant (seen ++ [slip]) best := by
            refine h.append fun x hx hxadmits => ?_
            rw [List.mem_singleton.1 hx] at hxadmits
            exact absurd hxadmits hadmits
          have hrest := ih hseen hordered.2
          rwa [List.append_assoc] at hrest

/-- All drawers of a size, for one name after the other. -/
theorem Earliest.foldl {idx : KeyIndex α} {size : Nat}
    (hordered : idx.slips.Pairwise fun a b => a.sequence ≤ b.sequence) (names : List String)
    (h : Earliest relevant seen best) :
    Earliest relevant (seen ++ names.flatMap (idx.drawer size))
      (names.foldl (fun best name => KeyIndex.improve relevant best (idx.drawer size name))
        best) := by
  induction names generalizing seen best with
  | nil => simpa using h
  | cons name rest ih =>
      have hdrawer := h.improve (hordered.filter fun slip => slip.size == size && slip.name == name)
      have hrest := ih hdrawer
      rw [List.append_assoc] at hrest
      exact hrest

variable {idx : KeyIndex α} {entries : Entries α}

/-- The drawers of a size hold the paths that are filed in it under one of the names. -/
theorem Holds.mem_drawers (h : idx.Holds entries) {size : Nat} {n : Nat} {e : Signature × α}
    (he : (dynamic entries)[n]? = some e) :
    (∃ slip ∈ relevant.flatMap (idx.drawer size),
      slip.sequence = n ∧ (slip.signature, slip.path) = e) ↔ e.1.files relevant size = true := by
  rw [Signature.files_iff]
  constructor
  · intro hfound
    rcases hfound with ⟨slip, hslip, _, rfl⟩
    rcases List.mem_flatMap.1 hslip with ⟨x, hx, hdrawer⟩
    rcases List.mem_filter.1 hdrawer with ⟨hmem, hlabel⟩
    rcases (h.filed slip).1 hmem with ⟨_, set, hset, hsize, hname⟩
    simp only [Bool.and_eq_true, beq_iff_eq] at hlabel
    exact ⟨set, hset, hsize.symm.trans hlabel.1, slip.name, hname, hlabel.2 ▸ hx⟩
  · intro hfiles
    rcases hfiles with ⟨set, hset, rfl, x, hx, hrelevant⟩
    refine ⟨⟨set.length, x, n, e.1, e.2⟩, List.mem_flatMap.2 ⟨x, hrelevant, ?_⟩, rfl, rfl⟩
    exact List.mem_filter.2 ⟨(h.filed _).2 ⟨he, set, hset, rfl, hx⟩, by simp⟩

/-- The drawers of a size give the first path that can be generated from the
    names and is filed in it under one of them. -/
theorem Holds.ofSize_eq (h : idx.Holds entries) (relevant : List String) (size : Nat) :
    idx.ofSize relevant size = ((dynamic entries).find? fun e =>
      e.1.admits relevant && e.1.files relevant size).map Prod.snd := by
  have hnothing : Earliest relevant ([] : List (Slip α)) none := by simp [Earliest]
  have hall : Earliest relevant (relevant.flatMap (idx.drawer size)) _ :=
    hnothing.foldl h.ordered relevant
  rw [ofSize]
  generalize relevant.foldl _ _ = best at hall
  cases best with
  | none =>
      -- Any path that fits would have a slip in one of the drawers.
      rw [List.find?_eq_none.2]
      · rfl
      · intro e he hfits
        rw [Bool.and_eq_true] at hfits
        rcases List.getElem?_of_mem he with ⟨n, hn⟩
        rcases (h.mem_drawers hn).2 hfits.2 with ⟨slip, hslip, _, rfl⟩
        rw [hall slip hslip] at hfits
        cases hfits.1
  | some best =>
      rcases hall with ⟨hmem, hadmits, hleast⟩
      have hfiled : best ∈ idx.slips := by
        rcases List.mem_flatMap.1 hmem with ⟨x, _, hdrawer⟩
        exact (List.mem_filter.1 hdrawer).1
      have hbest := ((h.filed best).1 hfiled).1
      have hfiles := (h.mem_drawers hbest).1 ⟨best, hmem, rfl, rfl⟩
      rcases List.getElem?_eq_some_iff.1 hbest with ⟨hlt, hat⟩
      have hfirst : (dynamic entries).find? (fun e =>
          e.1.admits relevant && e.1.files relevant size) =
            some (best.signature, best.path) := by
        rw [List.find?_eq_some_iff_getElem]
        refine ⟨by rw [hadmits, hfiles]; rfl, best.sequence, hlt, hat, fun n hn => ?_⟩
        -- An earlier path that fits would have an earlier slip in one of the drawers.
        by_contra hfits
        rw [Bool.not_eq_true', Bool.not_eq_false, Bool.and_eq_true] at hfits
        have hearlier : (dynamic entries)[n]? = some (dynamic entries)[n] :=
          List.getElem?_eq_getElem (Nat.lt_trans hn hlt)
        rcases (h.mem_drawers hearlier).2 hfits.2 with ⟨slip, hslip, hnumber, hpair⟩
        rw [← hpair] at hfits
        have hle := hleast slip hslip hfits.1
        omega
      rw [hfirst]
      rfl

/-- Where nothing is found for the largest size, nothing is found at all. The
    smaller sizes are gone through all the same, and this is a fact about the
    index and not about the search. -/
theorem Holds.searchFrom_eq_none (h : idx.Holds entries) (hnodup : relevant.Nodup)
    (hne : relevant ≠ []) (hnone : idx.ofSize relevant relevant.length = none) {size : Nat}
    (hsize : size ≤ relevant.length) : idx.searchFrom relevant size = none := by
  rw [h.ofSize_eq, Option.map_eq_none_iff, List.find?_eq_none] at hnone
  induction size with
  | zero => rfl
  | succ size ih =>
      have hhere : idx.ofSize relevant (size + 1) = none := by
        rw [h.ofSize_eq, Option.map_eq_none_iff, List.find?_eq_none]
        intro e he hfits
        rw [Bool.and_eq_true] at hfits
        have hlarge := Signature.files_of_files_le hnodup hne hfits.1 hsize hfits.2
        exact hnone e he (Bool.and_eq_true_iff.2 ⟨hfits.1, hlarge⟩)
      rw [searchFrom, hhere]
      exact ih (by omega)

/-- The search is a scan. Counts decide under which name the search looks
    first, and sizes in which drawers; neither has a say in what is found. -/
theorem Holds.search_eq_scan (h : idx.Holds entries) (hnodup : relevant.Nodup) :
    idx.search relevant = scan entries relevant.toFinset := by
  by_cases hne : relevant = []
  · -- Without names there is no size to look into, and no path with variables that serves.
    rw [hne, scan_eq, List.find?_eq_none.2]
    · rfl
    · intro e he hserves
      rw [decide_eq_true_eq] at hserves
      rcases hserves with ⟨_, _, hcard⟩
      have hdynamic := (List.mem_filter.1 he).2
      have hkeys : e.1.keys ≠ [] := by simpa [Signature.isDynamic, Signature.keys] using hdynamic
      have hpos := List.length_pos_iff.2 hkeys
      rw [List.toFinset_nil, Finset.card_empty] at hcard
      omega
  · have hscan : scan entries relevant.toFinset = idx.ofSize relevant relevant.length := by
      have hboth : (fun e : Signature × α => decide (e.1.Serves relevant.toFinset)) =
          fun e => e.1.admits relevant && e.1.files relevant relevant.length := by
        funext e
        rw [Bool.eq_iff_iff, decide_eq_true_eq, Bool.and_eq_true]
        exact Signature.serves_iff hnodup hne
      rw [scan_eq, h.ofSize_eq, hboth]
    rw [hscan, search]
    cases hsize : idx.ofSize relevant relevant.length with
    | none => exact h.searchFrom_eq_none hnodup hne hsize (Nat.le_refl _)
    | some path =>
        rcases Nat.exists_eq_succ_of_ne_zero (mt List.length_eq_zero_iff.1 hne) with ⟨n, hn⟩
        rw [hn] at hsize ⊢
        rw [searchFrom, hsize]

end KeyIndex

end PathRouting
