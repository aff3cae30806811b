import PathRouting.Proofs.Pattern.Acceptance

/-!
# What Requirements and Defaults Change

Requirements and defaults are laid on the variables when the paths of a
pattern are made, path by path and variable by variable. Neither the
expansions of the pattern nor the rules for them depend on what is laid on. A
pattern that can be compiled with requirements and defaults can therefore be
compiled without them, to paths with the same segments, and the two results
are compared segment by segment.

A requirement takes the place of the validator that a variable has from the
pattern. The expression of a greedy variable is kept apart from its validator,
so it goes on to drive the match, and what it matches has to pass the
requirement as well.

What a variable gets depends on nothing but its name. Variables of one name
are therefore equipped alike, in whichever paths they are.

## Main definitions

* `Variable.Equipped`: A variable after its requirement and its default were
  laid on.
* `Segment.Equipped`: The same for a segment, which stays as it is if it is no
  variable.

## Theorems

* `lookup_validatorsOf`: The validators are those that the requirements stand
  for.
* `layOn_eq`, `equipped_layOn`: What is laid on a variable equips it.
* `exists_attach_bare`: A sequence that can be equipped can be left bare.
* `compile_bare`: A pattern that can be compiled can be compiled without
  requirements and defaults, and these change the variables that they name
  only.
-/

namespace PathRouting

/-- The second variable is the first with the requirement and the default
    under its name, if there are any. It is the same otherwise; so what is
    laid on a variable can be told from its name alone. -/
structure Variable.Equipped (requirements defaults : Fields) (v w : Variable) : Prop where
  name : w.name = v.name
  lookahead : w.lookahead = v.lookahead
  /-- Both variables take one token, or both take several, with the same greed
      and the same expression. -/
  matching : w.glob.map (fun g => (g.greedy, g.regex)) = v.glob.map fun g => (g.greedy, g.regex)
  /-- A requirement takes the place of the validator. It is checked apart from
      the expression of a greedy variable. -/
  required : ∀ x, requirements.lookup v.name = some x →
    ∃ u, Validator.ofValue? x = .ok u ∧ w.validator = some u ∧
      ∀ g, w.glob = some g → g.separate = true
  unrequired : requirements.lookup v.name = none → w.validator = v.validator ∧ w.glob = v.glob
  default : w.default = (defaults.lookup v.name).getD v.default

/-- The second segment is the first, or both are variables of which the second
    is equipped. -/
inductive Segment.Equipped (requirements defaults : Fields) : Segment → Segment → Prop
  | text {s : Segment} (hs : s.isVariable = false) : Segment.Equipped requirements defaults s s
  | var {v w : Variable} (h : v.Equipped requirements defaults w) :
      Segment.Equipped requirements defaults (.var v) (.var w)

namespace Pattern

variable {delimiters : List String} {requirements defaults : Fields}
  {validators : List (String × Validator)}

/-! ## One variable -/

/-- The validator under a name is the one that the requirement under that name
    stands for. -/
theorem lookup_validatorsOf (h : validatorsOf requirements = .ok validators) (name : String) :
    (requirements.lookup name = none → validators.lookup name = none) ∧
    ∀ x, requirements.lookup name = some x →
      ∃ u, Validator.ofValue? x = .ok u ∧ validators.lookup name = some u := by
  induction requirements generalizing validators with
  | nil =>
      cases h
      exact ⟨fun _ => rfl, fun x hx => nomatch hx⟩
  | cons entry rest ih =>
      obtain ⟨u, hu, h⟩ := bind_eq_ok.1 h
      obtain ⟨more, hmore, h⟩ := bind_eq_ok.1 h
      cases h
      rw [List.lookup_cons, List.lookup_cons]
      by_cases hname : name = entry.1
      · simp [hname, hu]
      · have hne : (name == entry.1) = false := by simpa using hname
        simpa [hne] using ih hmore

/-- A requirement is laid on first, and a default on top of it. -/
theorem layOn_eq (v : Variable) : layOn validators defaults v =
    ((validators.lookup v.name).elim v fun u => v.withValidator (some u)).withDefault
      ((defaults.lookup v.name).getD v.default) := by
  unfold layOn
  cases validators.lookup v.name with
  | none => cases hdefault : defaults.lookup v.name <;> simp [hdefault, Variable.withDefault]
  | some u =>
      cases hdefault : defaults.lookup v.name <;>
        simp [hdefault, Variable.withDefault, Variable.withValidator]

/-- What is laid on a variable equips it with what is there under its name. -/
theorem equipped_layOn (h : validatorsOf requirements = .ok validators) (v : Variable) :
    v.Equipped requirements defaults (layOn validators defaults v) := by
  obtain ⟨hnone, hsome⟩ := lookup_validatorsOf h v.name
  cases hlookup : requirements.lookup v.name with
  | none =>
      rw [layOn_eq, hnone hlookup]
      exact ⟨rfl, rfl, rfl, by simp [hlookup], fun _ => ⟨rfl, rfl⟩, rfl⟩
  | some x =>
      obtain ⟨u, hu, hvalidator⟩ := hsome x hlookup
      rw [layOn_eq, hvalidator]
      -- A requirement is marked as one of its own, and the variable takes tokens as before.
      have hmatching : (v.glob.map fun g => { g with separate := true }).map
          (fun g => (g.greedy, g.regex)) = v.glob.map fun g => (g.greedy, g.regex) := by
        rw [Option.map_map]
        rfl
      refine ⟨rfl, rfl, hmatching, ?_, by simp [hlookup], rfl⟩
      intro y hy
      cases hlookup.symm.trans hy
      refine ⟨u, hu, rfl, fun g hg => ?_⟩
      obtain ⟨held, _, rfl⟩ := Option.map_eq_some_iff.1 hg
      rfl

/-! ## All paths -/

/-- Where everything can be laid on a sequence, the sequence can be left bare
    as well. What follows each variable is looked up in the sequence as it
    was, so it is the same. -/
theorem exists_attach_bare (h : validatorsOf requirements = .ok validators)
    {segments path : List Segment}
    (hpath : attach delimiters validators defaults segments = .ok path) :
    ∃ bare, attach delimiters [] [] segments = .ok bare ∧
      List.Forall₂ (Segment.Equipped requirements defaults) bare path := by
  induction segments generalizing path with
  | nil =>
      cases hpath
      exact ⟨[], rfl, .nil⟩
  | cons s rest ih =>
      by_cases hs : s.isVariable = true
      -- What is looked up ahead is in the rest as it came, and not in what was made of it.
      · obtain ⟨v, rfl⟩ := exists_var hs
        obtain ⟨ahead, more, hahead, hmore, rfl⟩ := attach_var.1 hpath
        obtain ⟨bare, hbare, hequipped⟩ := ih hmore
        exact ⟨.var (v.withLookahead ahead) :: bare,
          attach_var.2 ⟨ahead, bare, hahead, hbare, rfl⟩,
          .cons (.var (equipped_layOn h _)) hequipped⟩
      · rw [Bool.not_eq_true] at hs
        obtain ⟨more, hmore, rfl⟩ := (attach_text hs).1 hpath
        obtain ⟨bare, hbare, hequipped⟩ := ih hmore
        exact ⟨s :: bare, (attach_text hs).2 ⟨bare, hbare, rfl⟩, .cons (.text hs) hequipped⟩

theorem exists_concrete_bare (h : validatorsOf requirements = .ok validators)
    {pattern : String} {segments path : List Segment}
    (hpath : concrete delimiters validators defaults pattern segments = .ok path) :
    ∃ bare, concrete delimiters [] [] pattern segments = .ok bare ∧
      List.Forall₂ (Segment.Equipped requirements defaults) bare path := by
  obtain ⟨hcheck, hattach⟩ := concrete_eq_ok_iff.1 hpath
  obtain ⟨bare, hbare, hequipped⟩ := exists_attach_bare h hattach
  exact ⟨bare, concrete_eq_ok_iff.2 ⟨hcheck, hbare⟩, hequipped⟩

/-- What is between the elements of two sequences makes a sequence between them. -/
theorem exists_between {β γ δ : Type} {r : β → δ → Prop} {r₁ : β → γ → Prop}
    {r₂ : γ → δ → Prop} (hbetween : ∀ b d, r b d → ∃ c, r₁ b c ∧ r₂ c d) {bs : List β}
    {ds : List δ} (h : List.Forall₂ r bs ds) :
    ∃ cs, List.Forall₂ r₁ bs cs ∧ List.Forall₂ r₂ cs ds := by
  induction h with
  | nil => exact ⟨[], .nil, .nil⟩
  | cons hbd _ ih =>
      obtain ⟨c, hbc, hcd⟩ := hbetween _ _ hbd
      obtain ⟨cs, hbs, hds⟩ := ih
      exact ⟨c :: cs, .cons hbc hbs, .cons hcd hds⟩

/-- In what is made of a sequence, every element is made of one of the sequence. -/
theorem exists_mem_of_forall₂ {β γ : Type} {r : β → γ → Prop} {bs : List β} {cs : List γ}
    (h : List.Forall₂ r bs cs) {c : γ} (hc : c ∈ cs) : ∃ b ∈ bs, r b c := by
  induction h with
  | nil => exact absurd hc List.not_mem_nil
  | @cons b c' bs cs hbc _ ih =>
      rcases List.mem_cons.1 hc with rfl | hc
      · exact ⟨b, List.mem_cons_self, hbc⟩
      · obtain ⟨b', hb', hbc'⟩ := ih hc
        exact ⟨b', List.mem_cons_of_mem _ hb', hbc'⟩

/-- A variable in equipped paths has what is there under its name. -/
theorem equipped_of_mem {bares paths : List (List Segment)}
    (h : List.Forall₂ (List.Forall₂ (Segment.Equipped requirements defaults)) bares paths)
    {path : List Segment} (hpath : path ∈ paths) {w : Variable} (hw : Segment.var w ∈ path) :
    ∃ v : Variable, v.Equipped requirements defaults w := by
  obtain ⟨bare, _, hequipped⟩ := exists_mem_of_forall₂ h hpath
  obtain ⟨s, _, hs⟩ := exists_mem_of_forall₂ hequipped hw
  cases hs with
  | text hs => cases hs
  | @var v _ h => exact ⟨v, h⟩

end Pattern

theorem Fields.exists_lookup {fields : Fields} {name : String} (h : name ∈ fields.names) :
    ∃ x, fields.lookup name = some x := by
  rw [← Option.isSome_iff_exists, Option.isSome_iff_ne_none]
  exact fun hnone => lookup_eq_none_iff.1 hnone h

/-- Two variables of one name that are equipped from the same requirements and
    defaults agree in what these say about the name. -/
theorem Variable.Equipped.agree {requirements defaults : Fields} {v v' w w' : Variable}
    (h : v.Equipped requirements defaults w) (h' : v'.Equipped requirements defaults w')
    (hname : w.name = w'.name) :
    (w.name ∈ requirements.names → w.validator = w'.validator) ∧
      (w.name ∈ defaults.names → w.default = w'.default) := by
  have hnames : v'.name = v.name := h'.name.symm.trans (hname.symm.trans h.name)
  rw [h.name]
  constructor
  · intro hmem
    obtain ⟨x, hx⟩ := Fields.exists_lookup hmem
    obtain ⟨u, hu, hw, _⟩ := h.required x hx
    obtain ⟨u', hu', hw', _⟩ := h'.required x (hnames ▸ hx)
    cases hu.symm.trans hu'
    rw [hw, hw']
  · intro hmem
    obtain ⟨d, hd⟩ := Fields.exists_lookup hmem
    rw [h.default, h'.default, hnames, hd]
    rfl

namespace Pattern

/-- A pattern that can be compiled with requirements and defaults can be
    compiled without. Where the results differ, something was laid on a
    variable under its name, and on all variables of that name the same. So
    whether the pattern is in order is a question of its own. -/
theorem compile_bare [Host] {delimiters : List String} {pattern : String}
    {requirements defaults : Fields} {paths : List (List Segment)}
    (h : compile delimiters pattern requirements defaults = .ok paths) :
    ∃ bares, compile delimiters pattern [] [] = .ok bares ∧
      List.Forall₂ (List.Forall₂ (Segment.Equipped requirements defaults)) bares paths ∧
      ∀ path ∈ paths, ∀ path' ∈ paths, ∀ v w : Variable, .var v ∈ path → .var w ∈ path' →
        v.name = w.name →
          (v.name ∈ requirements.names → v.validator = w.validator) ∧
          (v.name ∈ defaults.names → v.default = w.default) := by
  obtain ⟨validators, tree, hvalidators, htree, hdone, _⟩ := compile_eq_ok_iff.1 h
  obtain ⟨bares, hbares, hequipped⟩ := exists_between
    (fun _ _ hpath => exists_concrete_bare hvalidators hpath) (mapM_eq_ok_iff.1 hdone)
  refine ⟨bares, ?_, hequipped, ?_⟩
  · exact compile_eq_ok_iff.2
      ⟨[], tree, rfl, htree, mapM_eq_ok_iff.2 hbares, fun name hname => nomatch hname⟩
  · intro path hpath path' hpath' v w hv hw hname
    obtain ⟨_, hv⟩ := equipped_of_mem hequipped hpath hv
    obtain ⟨_, hw⟩ := equipped_of_mem hequipped hpath' hw
    exact hv.agree hw hname

/-- A greedy variable with a requirement keeps its expression. The default of
    the variable in front of it is there with the option and without. -/
theorem compile_bare_of_greedy :
    let _ : Host := .idle
    let requirements : Fields := [("file", .text "a")]
    let defaults : Fields := [("site", .text "home")]
    let site : Variable := ⟨"site", none, .text "home", some "/", none⟩
    ∃ (r : Regex) (file : Variable) (bares : List (List Segment)),
      file = ⟨"file", some (.equality (.text "a")), .none, none,
        some ⟨true, some (.regex r), true⟩⟩ ∧
      compile ["/", "."] "/:site(/\x7b!file,.*\x7d)" requirements defaults =
        .ok [[.separator "/", .var site, .separator "/", .var file],
          [.separator "/", .var site]] ∧
      compile ["/", "."] "/:site(/\x7b!file,.*\x7d)" [] [] = .ok bares ∧
      List.Forall₂ (List.Forall₂ (Segment.Equipped requirements defaults)) bares
        [[.separator "/", .var site, .separator "/", .var file],
          [.separator "/", .var site]] := by
  intro _ requirements defaults site
  have hread : Regex.read? Host.character .plain ".*".toList =
      .ok (.loop 0 none .greedy .any, .plain) := by cbv
  let r : Regex := ⟨".*", .plain, _, _, .plain, hread⟩
  let file : Variable := ⟨"file", some (.equality (.text "a")), .none, none,
    some ⟨true, some (.regex r), true⟩⟩
  have hcompile : compile ["/", "."] "/:site(/\x7b!file,.*\x7d)" requirements defaults =
      .ok [[.separator "/", .var site, .separator "/", .var file],
        [.separator "/", .var site]] := by cbv
  obtain ⟨bares, hbares, hequipped, _⟩ := compile_bare hcompile
  exact ⟨r, file, bares, rfl, hcompile, hbares, hequipped⟩

end Pattern

end PathRouting
