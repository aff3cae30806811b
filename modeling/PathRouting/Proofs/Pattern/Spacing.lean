import Mathlib.Data.List.Chain
import PathRouting.Proofs.Pattern.Fit

/-!
# Compiled Paths Are Spaced

In a compiled path, of two neighbours one is a separator. Literals that stood
side by side were merged into one, and a variable next to anything but a
separator is refused. The text of every segment therefore ends where its
neighbour starts with a delimiter.

The variables of a path are told apart by their names, so a value that is
given or bound under a name belongs to one of them.

## Main definitions

* `Apart`: One of two segments is a separator.
* `Beside`: Next to a variable there is a separator.

## Theorems

* `mergeLiterals_isChain`: Merging leaves no two literals side by side.
* `checkVariables_eq_ok_iff`: What is accepted of the variables of a sequence.
* `merged_isChain_apart`, `attach_isChain_apart`: The segments are spaced once
  they are merged, and stay so whatever is laid on them.
* `Path.Compiled.spaced`: The segments of a compiled path are spaced.
* `Path.Compiled.nodup_variableNames`: Its variables have names of their own.
-/

namespace PathRouting

namespace Pattern

/-- One of the two is a separator. The text of a sequence in which all
    neighbours are so can be cut into its segments again. -/
def Apart (s u : Segment) : Prop :=
  s.isSeparator = true ∨ u.isSeparator = true

/-- Whether a sequence is spaced shows in which of its segments are separators. -/
theorem isChain_apart_iff {segments : List Segment} : segments.IsChain Apart ↔
    (segments.map Segment.isSeparator).IsChain fun a b => a = true ∨ b = true := by
  rw [List.isChain_map]
  exact Iff.rfl

/-- Next to a variable there is a separator. -/
def Beside (s u : Segment) : Prop :=
  (s.isVariable = true → u.isSeparator = true) ∧ (u.isVariable = true → s.isSeparator = true)

instance (s u : Segment) : Decidable (Beside s u) :=
  inferInstanceAs (Decidable (_ ∧ _))

/-- Merging leaves no two literals side by side. -/
theorem mergeLiterals_isChain (segments : List Segment) :
    (mergeLiterals segments).IsChain fun s u => ∀ a b, s = .literal a → u ≠ .literal b := by
  induction segments with
  | nil => exact List.isChain_nil
  | cons s rest ih =>
      rcases mergeLiterals_cons_cases s rest with ⟨heq, hnone⟩ | ⟨a, b, more, rfl, hmore, heq⟩
      · rw [heq, List.isChain_cons]
        refine ⟨fun u hu a b ha hb => ?_, ih⟩
        obtain ⟨more, hmore⟩ := List.head?_eq_some_iff.1 (Option.mem_def.1 hu)
        exact hnone a b more ha (hb ▸ hmore)
      · -- What follows the merged literal followed the second of the two.
        rw [hmore, List.isChain_cons] at ih
        rw [heq, List.isChain_cons]
        exact ⟨fun u hu _ c _ => ih.1 u hu b c rfl, ih.2⟩

theorem variableNames_cons_text {s : Segment} (hs : s.isVariable = false) (rest : List Segment) :
    variableNames (s :: rest) = variableNames rest := by
  cases s with
  | var v => cases hs
  | literal text | separator mark | condition c => rfl

theorem not_isVariable_of_isSeparator {s : Segment} (hs : s.isSeparator = true) :
    s.isVariable = false := by
  cases s with
  | separator mark => rfl
  | literal text | condition c | var v => cases hs

/-- A neighbour that is accepted is a separator, or there is none. -/
theorem checkNeighbor_eq_ok_iff {v : Variable} {neighbor : Option Segment} :
    checkNeighbor v neighbor = .ok () ↔ ∀ s ∈ neighbor, s.isSeparator = true := by
  cases neighbor with
  | none => simp [checkNeighbor]
  | some s => by_cases hs : s.isSeparator = true <;> simp [checkNeighbor, hs]

theorem checkVariables_var {used : List String} {previous : Option Segment} {v : Variable}
    {rest : List Segment} :
    checkVariables used previous (.var v :: rest) = .ok () ↔
      v.name ∉ used ∧ (∀ s ∈ previous, s.isSeparator = true) ∧
      (∀ s ∈ rest.head?, s.isSeparator = true) ∧
      checkVariables (v.name :: used) (some (.var v)) rest = .ok () := by
  rw [← checkNeighbor_eq_ok_iff (v := v), ← checkNeighbor_eq_ok_iff (v := v), checkVariables]
  by_cases hused : v.name ∈ used
  · simp [hused, throw, throwThe, MonadExceptOf.throw, bind, Except.bind]
  · simp only [List.contains_iff_mem, hused, if_false, not_false_eq_true, true_and]
    constructor
    · intro h
      obtain ⟨_, hprevious, h⟩ := bind_eq_ok.1 h
      obtain ⟨_, hnext, h⟩ := bind_eq_ok.1 h
      exact ⟨hprevious, hnext, h⟩
    · rintro ⟨hprevious, hnext, h⟩
      exact bind_eq_ok.2 ⟨_, hprevious, bind_eq_ok.2 ⟨_, hnext, h⟩⟩

theorem checkVariables_text {s : Segment} (hs : s.isVariable = false) (used : List String)
    (previous : Option Segment) (rest : List Segment) :
    checkVariables used previous (s :: rest) = checkVariables used (some s) rest := by
  cases s with
  | var v => cases hs
  | literal text | separator mark | condition c => rfl

/-- What is accepted: no two variables have the same name, none has one that
    was used before, and a variable has separators next to it, also in front
    of the sequence. The check goes from left to right with the names seen so
    far, and what it comes to is a statement on the whole. -/
theorem checkVariables_eq_ok_iff {used : List String} {previous : Option Segment}
    {segments : List Segment} :
    checkVariables used previous segments = .ok () ↔
      (variableNames segments).Nodup ∧ (∀ name ∈ variableNames segments, name ∉ used) ∧
      segments.IsChain Beside ∧
      ∀ s ∈ previous, ∀ u ∈ segments.head?, u.isVariable = true → s.isSeparator = true := by
  induction segments generalizing used previous with
  | nil => simp [checkVariables, variableNames]
  | cons s rest ih =>
      cases hs : s.isVariable with
      | false =>
          rw [checkVariables_text hs, variableNames_cons_text hs, ih, List.isChain_cons]
          simp [Beside, hs, and_comm]
      | true =>
          obtain ⟨v, rfl⟩ := exists_var hs
          have hnames : variableNames (.var v :: rest) = v.name :: variableNames rest := rfl
          -- What is next to the variable is no variable, as it is a separator.
          have hnext : (∀ u ∈ rest.head?, Beside (.var v) u) ↔
              ∀ u ∈ rest.head?, u.isSeparator = true := by
            refine forall₂_congr fun u _ => ⟨fun h => h.1 hs, fun h => ⟨fun _ => h, fun hu => ?_⟩⟩
            rw [not_isVariable_of_isSeparator h] at hu
            cases hu
          rw [checkVariables_var, ih, hnames, List.nodup_cons, List.forall_mem_cons,
            List.isChain_cons, hnext]
          constructor
          · rintro ⟨hused, hprevious, hrest, hnodup, hfresh, hchain, -⟩
            refine ⟨⟨fun hmem => hfresh _ hmem List.mem_cons_self, hnodup⟩, ⟨hused, ?_⟩,
              ⟨hrest, hchain⟩, fun u hu _ _ _ => hprevious u hu⟩
            exact fun name hname hin => hfresh name hname (List.mem_cons_of_mem _ hin)
          · rintro ⟨⟨hname, hnodup⟩, ⟨hused, hfresh⟩, ⟨hrest, hchain⟩, hprevious⟩
            refine ⟨hused, fun u hu => hprevious u hu _ rfl hs, hrest, hnodup, ?_, hchain, ?_⟩
            · intro name hmem hin
              rcases List.mem_cons.1 hin with rfl | hin
              · exact hname hmem
              · exact hfresh name hmem hin
            · intro _ _ w hw hvar
              rw [not_isVariable_of_isSeparator (hrest w hw)] at hvar
              cases hvar

/-- A sequence without two literals side by side and with separators next to
    its variables is spaced, since it has nothing else in it. -/
theorem isChain_apart {segments : List Segment} (hplain : ∀ c, Segment.condition c ∉ segments)
    (hliterals : segments.IsChain fun s u => ∀ a b, s = .literal a → u ≠ .literal b)
    (hvariables : segments.IsChain Beside) : segments.IsChain Apart := by
  induction segments with
  | nil => exact List.isChain_nil
  | cons s rest ih =>
      rw [List.isChain_cons] at hliterals hvariables ⊢
      refine ⟨fun u hu => ?_, ih (fun c hc => hplain c (List.mem_cons_of_mem _ hc)) hliterals.2
        hvariables.2⟩
      have hboth := hvariables.1 u hu
      have humem := List.mem_of_mem_head? hu
      -- Next to a separator anything may stand. Of the other pairs, a variable has separators
      -- beside it, and two literals are excluded.
      cases s with
      | separator mark => exact Or.inl rfl
      | condition c => exact absurd List.mem_cons_self (hplain c)
      | var v => exact Or.inr (hboth.1 rfl)
      | literal a =>
          cases u with
          | separator mark => exact Or.inr rfl
          | condition c => exact absurd (List.mem_cons_of_mem _ humem) (hplain c)
          | var v => exact Or.inl (hboth.2 rfl)
          | literal b => exact absurd rfl (hliterals.1 _ hu a b rfl)

/-- An expansion that is accepted is spaced once it is merged. -/
theorem merged_isChain_apart [Host] {delimiters : List String} {pattern : String} {tree : List Part}
    (htree : parse delimiters pattern = .ok tree) {segments : List Segment}
    (hsegments : segments ∈ expand tree)
    (hcheck : checkVariables [] none (mergeLiterals segments) = .ok ()) :
    (mergeLiterals segments).IsChain Apart :=
  isChain_apart (fun _ hc => merged_fits htree hsegments _ hc) (mergeLiterals_isChain segments)
    (checkVariables_eq_ok_iff.1 hcheck).2.2.1

/-- What is laid on a variable leaves its name alone. -/
theorem layOn_name (validators : List (String × Validator)) (defaults : Fields) (v : Variable) :
    (layOn validators defaults v).name = v.name :=
  layOn_induction (p := fun w => w.name = v.name) (fun _ _ h => h) (fun _ _ h => h) rfl

section Attach

variable {delimiters : List String} {validators : List (String × Validator)} {defaults : Fields}
  {segments done : List Segment}

/-- What is laid on a sequence leaves its separators where they are. -/
theorem attach_isSeparator (h : attach delimiters validators defaults segments = .ok done) :
    done.map Segment.isSeparator = segments.map Segment.isSeparator := by
  refine map_eq_of_attach (fun s t hst => ?_) h
  cases hst <;> rfl

/-- What is laid on a sequence leaves the names of its variables alone. -/
theorem attach_variableNames (h : attach delimiters validators defaults segments = .ok done) :
    variableNames done = variableNames segments := by
  have hnames := map_eq_of_attach (f := fun s => s.var?.map Variable.name) (fun s t hst => ?_) h
  · simpa [variableNames, List.filterMap_map] using congrArg (List.filterMap id) hnames
  · cases hst with
    | plain => rfl
    | var v ahead => exact congrArg some (layOn_name validators defaults _)

/-- What is laid on a sequence leaves it spaced. -/
theorem attach_isChain_apart (h : attach delimiters validators defaults segments = .ok done)
    (happart : segments.IsChain Apart) : done.IsChain Apart := by
  rw [isChain_apart_iff] at happart ⊢
  rwa [attach_isSeparator h]

end Attach

end Pattern

/-- The variables of a compiled path have names of their own. -/
theorem Path.Compiled.nodup_variableNames {delimiters : List String} {p : Path}
    (h : p.Compiled delimiters) : (Pattern.variableNames p.parts).Nodup := by
  rcases h.exists_expansion with
    ⟨host, pattern, validators, defaults, tree, segments, _, _, hcheck, hattach⟩
  rw [Pattern.attach_variableNames hattach]
  exact (Pattern.checkVariables_eq_ok_iff.1 hcheck).1

/-- Of two neighbours in a compiled path, one is a separator. Literals were
    merged with each other, and the neighbours of variables were checked. -/
theorem Path.Compiled.spaced {delimiters : List String} {p : Path}
    (h : p.Compiled delimiters) : p.parts.IsChain Pattern.Apart := by
  rcases h.exists_expansion with
    ⟨host, pattern, validators, defaults, tree, segments, htree, hsegments, hcheck, hattach⟩
  exact Pattern.attach_isChain_apart hattach (Pattern.merged_isChain_apart htree hsegments hcheck)

end PathRouting
