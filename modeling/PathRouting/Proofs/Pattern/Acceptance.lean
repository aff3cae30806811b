import Mathlib
import PathRouting.Proofs.Pattern.Spacing

/-!
# Which Patterns Are Accepted

A pattern that can be read is accepted exactly if every one of its expansions
keeps the rules for variables and every name that something is laid on is
declared by one of them. The rules are about the expansions as they are. They
are checked after merging, but merging changes neither the names of the
variables nor what stands next to them.

Everything else that happens on the way comes out well: a variable finds what
follows it since there is a delimiter for the end of a path, and a requirement
that is present is always one that can be checked.

The paths that come out are written as the expansions they come from. They are
tidy, which uses the lexemes: a text is one run of plain characters, also
after merging.

## Main definitions

* `WellPlaced`: The rules for the variables of a sequence.
* `Tidy`: What the texts and separators of a path are like.

## Theorems

* `variableNames_mergeLiterals`, `isChain_beside_mergeLiterals`,
  `patternText_mergeLiterals`: What merging does not change.
* `exists_attach`, `exists_validatorsOf`: The steps that come out well.
* `exists_concrete_iff`: An expansion is accepted if its variables are well
  placed.
* `patternText_concrete`, `tidy_concrete`: The path that an expansion becomes.
* `compile_of_parse`: Which patterns are accepted, and what their paths are
  like.
-/

namespace PathRouting

namespace Pattern

variable {delimiters : List String}

/-- Every variable has a name of its own, and next to variables there are
    separators only. This is what the check of an expansion comes to, said of
    the whole sequence and not of one variable after the other. -/
structure WellPlaced (segments : List Segment) : Prop where
  nodup : (variableNames segments).Nodup
  beside : segments.IsChain Beside

instance (segments : List Segment) : Decidable (WellPlaced segments) :=
  decidable_of_iff ((variableNames segments).Nodup ∧ segments.IsChain Beside)
    ⟨fun h => ⟨h.1, h.2⟩, fun h => ⟨h.1, h.2⟩⟩

/-- No two texts are side by side, no text is empty or has a character in it
    that cuts a pattern, and separators are delimiters. A path like this can
    be written out and read again, piece by piece. -/
structure Tidy (delimiters : List String) (path : List Segment) : Prop where
  apart : path.IsChain fun s u => ∀ a b, s = .literal a → u ≠ .literal b
  literal : ∀ text, .literal text ∈ path → text ≠ "" ∧ ∀ c ∈ text.toList,
    String.singleton c ∉ delimiters ∧ c ∉ ['(', ')', '|', '\x7b', '\x7d']
  separator : ∀ mark, .separator mark ∈ path → mark ∈ delimiters

/-! ## What merging does not change -/

theorem variableNames_mergeLiterals (segments : List Segment) :
    variableNames (mergeLiterals segments) = variableNames segments := by
  induction segments with
  | nil => rfl
  | cons s rest ih =>
      rcases mergeLiterals_cons_cases s rest with ⟨heq, -⟩ | ⟨a, b, more, rfl, hmore, heq⟩
      · simp only [variableNames, List.filterMap_cons] at ih ⊢
        rw [heq, List.filterMap_cons, ih]
      · rw [heq, variableNames_cons_text rfl, variableNames_cons_text rfl, ← ih, hmore,
          variableNames_cons_text rfl]

theorem patternText_mergeLiterals (segments : List Segment) :
    patternText (mergeLiterals segments) = patternText segments := by
  induction segments with
  | nil => rfl
  | cons s rest ih =>
      rcases mergeLiterals_cons_cases s rest with ⟨heq, -⟩ | ⟨a, b, more, rfl, hmore, heq⟩
      · rw [heq, patternText_cons, patternText_cons, ih]
      · rw [hmore, patternText_cons] at ih
        rw [heq, patternText_cons, patternText_cons, ← ih]
        exact String.append_assoc

/-- What is in front of a sequence is next to the same kind of segment when
    the sequence is merged. -/
theorem beside_head_mergeLiterals {s : Segment} {rest : List Segment} :
    (∀ u ∈ (mergeLiterals rest).head?, Beside s u) ↔ ∀ u ∈ rest.head?, Beside s u := by
  cases rest with
  | nil => exact Iff.rfl
  | cons t more =>
      rcases mergeLiterals_cons_cases t more with ⟨heq, -⟩ | ⟨a, b, back, rfl, -, heq⟩
      · simp [heq]
      · simp [heq, Beside, Segment.isVariable, Segment.var?, Segment.isSeparator]

theorem isChain_beside_mergeLiterals {segments : List Segment} :
    (mergeLiterals segments).IsChain Beside ↔ segments.IsChain Beside := by
  induction segments with
  | nil => exact Iff.rfl
  | cons s rest ih =>
      rw [List.isChain_cons, ← beside_head_mergeLiterals, ← ih]
      rcases mergeLiterals_cons_cases s rest with ⟨heq, -⟩ | ⟨a, b, more, rfl, hmore, heq⟩
      · rw [heq, List.isChain_cons]
      · -- A literal has no need of separators, whichever literal it is.
        rw [heq, hmore, List.isChain_cons, List.isChain_cons]
        simp [Beside, Segment.isVariable, Segment.var?, Segment.isSeparator]

/-- The rules that are checked after merging are those for the sequence as it
    is. Merging brings no variable next to anything else: a neighbour that is
    a literal stays one. -/
theorem checkVariables_mergeLiterals {segments : List Segment} :
    checkVariables [] none (mergeLiterals segments) = .ok () ↔ WellPlaced segments := by
  rw [checkVariables_eq_ok_iff, variableNames_mergeLiterals, isChain_beside_mergeLiterals]
  constructor
  · rintro ⟨hnodup, _, hbeside, _⟩
    exact ⟨hnodup, hbeside⟩
  · rintro ⟨hnodup, hbeside⟩
    exact ⟨hnodup, by simp, hbeside, by simp⟩

/-! ## The steps that come out well -/

section Attach

variable {validators : List (String × Validator)} {defaults : Fields}

/-- Something follows every variable, at least the end of the path. -/
theorem exists_lookahead (hdelimiters : delimiters ≠ []) (v : Variable)
    (following : List Segment) : ∃ ahead, lookahead delimiters v following = .ok ahead := by
  unfold lookahead
  cases delimiters with
  | nil => exact absurd rfl hdelimiters
  | cons d more =>
      split
      · exact ⟨_, rfl⟩
      · split
        · exact ⟨_, rfl⟩
        · exact ⟨_, rfl⟩
        · next hnil => cases hnil

theorem exists_attach (hdelimiters : delimiters ≠ []) (segments : List Segment) :
    ∃ done, attach delimiters validators defaults segments = .ok done := by
  induction segments with
  | nil => exact ⟨[], rfl⟩
  | cons s rest ih =>
      obtain ⟨more, hmore⟩ := ih
      by_cases hs : s.isVariable = true
      · obtain ⟨v, rfl⟩ := exists_var hs
        obtain ⟨ahead, hahead⟩ := exists_lookahead hdelimiters v rest
        exact ⟨_, attach_var.2 ⟨ahead, more, hahead, hmore, rfl⟩⟩
      · rw [Bool.not_eq_true] at hs
        exact ⟨_, (attach_text hs).2 ⟨more, hmore, rfl⟩⟩

/-- What is no variable is in a sequence before and after everything is laid on. -/
theorem mem_attach_iff {s : Segment} (hs : s.isVariable = false) {segments done : List Segment}
    (h : attach delimiters validators defaults segments = .ok done) :
    s ∈ done ↔ s ∈ segments := by
  have hlaid := forall₂_of_attach h
  clear h
  induction hlaid with
  | nil => exact Iff.rfl
  | cons hst _ ih =>
      rw [List.mem_cons, List.mem_cons]
      refine or_congr ?_ ih
      cases hst with
      | plain => exact Iff.rfl
      | var v ahead =>
          constructor
          · rintro rfl
            cases hs
          · rintro rfl
            cases hs

/-- What is laid on a variable does not show in its text. -/
theorem layOn_text (v : Variable) : (layOn validators defaults v).text = v.text := by
  refine layOn_induction (p := fun w => w.text = v.text) (fun w x hw => ?_) (fun _ _ hw => hw) rfl
  rw [← hw]
  unfold Variable.text Variable.withValidator
  cases w.glob <;> rfl

theorem patternText_attach {segments done : List Segment}
    (h : attach delimiters validators defaults segments = .ok done) :
    patternText done = patternText segments := by
  have htexts := map_eq_of_attach (f := Segment.text) (fun s t hst => ?_) h
  · rw [patternText, patternText, htexts]
  · cases hst with
    | plain => rfl
    | var v ahead => exact layOn_text (v.withLookahead ahead)

end Attach

/-- Only the absent value is no requirement. -/
theorem exists_ofValue {v : Value} (h : v.isNone = false) : ∃ w, Validator.ofValue? v = .ok w := by
  cases v with
  | none => cases h
  | validator w => exact ⟨w, rfl⟩
  | regex r => exact ⟨_, rfl⟩
  | callable f => exact ⟨_, rfl⟩
  | bool | int | float | text | list | tuple | dict | wildcard => exact ⟨_, rfl⟩

theorem exists_validatorsOf {requirements : Fields}
    (h : ∀ entry ∈ requirements, entry.2.isNone = false) :
    ∃ validators, validatorsOf requirements = .ok validators := by
  induction requirements with
  | nil => exact ⟨[], rfl⟩
  | cons entry rest ih =>
      obtain ⟨hentry, hrest⟩ := List.forall_mem_cons.1 h
      obtain ⟨w, hw⟩ := exists_ofValue hentry
      obtain ⟨more, hmore⟩ := ih hrest
      exact ⟨_, bind_eq_ok.2 ⟨w, hw, bind_eq_ok.2 ⟨more, hmore, rfl⟩⟩⟩

/-! ## The path of an expansion -/

section Concrete

variable {validators : List (String × Validator)} {defaults : Fields} {pattern : String}
  {segments path : List Segment}

/-- An expansion is accepted exactly if its variables are well placed. -/
theorem exists_concrete_iff (hdelimiters : delimiters ≠ []) :
    (∃ path, concrete delimiters validators defaults pattern segments = .ok path) ↔
      WellPlaced segments := by
  rw [← checkVariables_mergeLiterals]
  constructor
  · rintro ⟨path, hpath⟩
    exact (concrete_eq_ok_iff.1 hpath).1
  · intro hcheck
    obtain ⟨path, hpath⟩ := exists_attach hdelimiters (mergeLiterals segments)
    exact ⟨path, concrete_eq_ok_iff.2 ⟨hcheck, hpath⟩⟩

theorem variableNames_concrete
    (h : concrete delimiters validators defaults pattern segments = .ok path) :
    variableNames path = variableNames segments := by
  obtain ⟨_, hattach⟩ := concrete_eq_ok_iff.1 h
  rw [attach_variableNames hattach, variableNames_mergeLiterals]

theorem patternText_concrete
    (h : concrete delimiters validators defaults pattern segments = .ok path) :
    patternText path = patternText segments := by
  obtain ⟨_, hattach⟩ := concrete_eq_ok_iff.1 h
  rw [patternText_attach hattach, patternText_mergeLiterals]

/-- The path of an expansion is tidy, as its texts and separators are those of
    the merged expansion, which are denoted by lexemes. -/
theorem tidy_concrete [Host] {tree : List Part} (htree : parse delimiters pattern = .ok tree)
    (hsegments : segments ∈ expand tree)
    (h : concrete delimiters validators defaults pattern segments = .ok path) :
    Tidy delimiters path := by
  obtain ⟨hcheck, hattach⟩ := concrete_eq_ok_iff.1 h
  have hdenoted := merged_denoted htree hsegments
  -- Two literals never touch, since merging has put them together; a literal is not empty and has
  -- no delimiter or syntax in it; and a separator is a delimiter. The last two are read off the
  -- lexemes that the segments of the merged expansion are denoted by.
  constructor
  · have hspaced := attach_isChain_apart hattach (merged_isChain_apart htree hsegments hcheck)
    refine hspaced.imp fun s u happart a b ha hb => ?_
    subst ha hb
    rcases happart with h | h <;> cases h
  · intro text htext
    obtain ⟨hne, hplain, _⟩ :=
      Segment.denoted_literal_iff.1 (hdenoted _ ((mem_attach_iff rfl hattach).1 htext))
    refine ⟨hne, fun c hc => ?_⟩
    obtain ⟨hmark, hsyntax⟩ := isPlain_eq_true.1 (hplain c hc)
    exact ⟨fun hmem => by simp [hmem] at hmark, hsyntax⟩
  · intro mark hmark
    obtain ⟨l, hclean, hl⟩ := hdenoted _ ((mem_attach_iff rfl hattach).1 hmark)
    cases hl
    exact List.contains_iff_mem.1 hclean

end Concrete

/-! ## All expansions -/

/-- Working on every element gives the results for one after the other. -/
theorem mapM_eq_ok_iff {ε β γ : Type} {f : β → Except ε γ} {l : List β} {done : List γ} :
    l.mapM f = .ok done ↔ List.Forall₂ (fun b c => f b = .ok c) l done := by
  induction l generalizing done with
  | nil =>
      rw [List.mapM_nil, List.forall₂_nil_left_iff]
      exact ⟨fun h => (Except.ok.inj h).symm, fun h => congrArg Except.ok h.symm⟩
  | cons b rest ih =>
      rw [List.mapM_cons, bind_eq_ok, List.forall₂_cons_left_iff]
      refine exists_congr fun c => ?_
      constructor
      · rintro ⟨hc, h⟩
        obtain ⟨more, hmore, h⟩ := bind_eq_ok.1 h
        exact ⟨more, hc, ih.1 hmore, (Except.ok.inj h).symm⟩
      · rintro ⟨more, hc, hmore, rfl⟩
        exact ⟨hc, bind_eq_ok.2 ⟨more, ih.2 hmore, rfl⟩⟩

/-- A list has a partner for each of its elements as soon as each element has one. -/
theorem exists_forall₂ {β γ : Type} {r : β → γ → Prop} {l : List β} :
    (∃ done, List.Forall₂ r l done) ↔ ∀ b ∈ l, ∃ c, r b c := by
  induction l with
  | nil => simp
  | cons b rest ih =>
      rw [List.forall_mem_cons, ← ih]
      constructor
      · rintro ⟨done, hdone⟩
        obtain ⟨c, more, hc, hmore, -⟩ := List.forall₂_cons_left_iff.1 hdone
        exact ⟨⟨c, hc⟩, more, hmore⟩
      · rintro ⟨⟨c, hb⟩, done, hrest⟩
        exact ⟨c :: done, .cons hb hrest⟩

/-- The names that the paths declare are those of the expansions. -/
theorem mem_declared_iff {validators : List (String × Validator)} {defaults : Fields}
    {pattern name : String} {expansions paths : List (List Segment)}
    (h : expansions.mapM (concrete delimiters validators defaults pattern) = .ok paths) :
    name ∈ paths.flatMap variableNames ↔
      ∃ segments ∈ expansions, name ∈ variableNames segments := by
  have hnames : paths.map variableNames = expansions.map variableNames := by
    have hpaths := mapM_eq_ok_iff.1 h
    clear h
    induction hpaths with
    | nil => rfl
    | cons hpath _ ih => rw [List.map_cons, List.map_cons, ih, variableNames_concrete hpath]
  rw [List.flatMap_def, hnames, ← List.flatMap_def, List.mem_flatMap]

/-- A pattern that can be read is accepted exactly if the variables of each of
    its expansions are well placed and each name that something is laid on is
    one of theirs. There is a path for every expansion then, in the same order.
    It is written as its expansion, and it is tidy. A name has to be that of a
    variable in some expansion only, since options may leave it out of others. -/
theorem compile_of_parse [Host] (hsingle : Tokens.Single delimiters) {pattern : String}
    {tree : List Part} (htree : parse delimiters pattern = .ok tree)
    {requirements defaults : Fields}
    (hrequirements : ∀ entry ∈ requirements, entry.2.isNone = false) :
    ((∃ paths, compile delimiters pattern requirements defaults = .ok paths) ↔
      (∀ segments ∈ expand tree, WellPlaced segments) ∧
      ∀ name ∈ requirements.names ++ defaults.names,
        ∃ segments ∈ expand tree, name ∈ variableNames segments) ∧
    ∀ paths, compile delimiters pattern requirements defaults = .ok paths →
      List.Forall₂ (fun segments path =>
        patternText path = patternText segments ∧ Tidy delimiters path) (expand tree) paths := by
  obtain ⟨validators, hvalidators⟩ := exists_validatorsOf hrequirements
  -- Only making the paths and looking for the names can fail.
  have hcompile : ∀ paths, compile delimiters pattern requirements defaults = .ok paths ↔
      (expand tree).mapM (concrete delimiters validators defaults pattern) = .ok paths ∧
      ∀ name ∈ requirements.names ++ defaults.names, name ∈ paths.flatMap variableNames := by
    intro paths
    rw [compile_eq_ok_iff]
    constructor
    · rintro ⟨_, _, hvalidators', htree', h⟩
      cases hvalidators.symm.trans hvalidators'
      cases htree.symm.trans htree'
      exact h
    · intro h
      exact ⟨validators, tree, hvalidators, htree, h⟩
  have hplaced : (∃ paths,
      (expand tree).mapM (concrete delimiters validators defaults pattern) = .ok paths) ↔
      ∀ segments ∈ expand tree, WellPlaced segments := by
    simp only [mapM_eq_ok_iff, exists_forall₂, exists_concrete_iff hsingle.1]
  constructor
  · rw [← hplaced]
    constructor
    · rintro ⟨paths, hpaths⟩
      obtain ⟨hdone, hnames⟩ := (hcompile paths).1 hpaths
      exact ⟨⟨paths, hdone⟩, fun name hname => (mem_declared_iff hdone).1 (hnames name hname)⟩
    · rintro ⟨⟨paths, hdone⟩, hnames⟩
      exact ⟨paths, (hcompile paths).2
        ⟨hdone, fun name hname => (mem_declared_iff hdone).2 (hnames name hname)⟩⟩
  · intro paths hpaths
    have hdone := mapM_eq_ok_iff.1 ((hcompile paths).1 hpaths).1
    -- Each expansion is one of the tree.
    have hmem := (List.forall₂_and_left _ _).2 ⟨fun segments h => h, hdone⟩
    refine hmem.imp fun segments path h => ?_
    exact ⟨patternText_concrete h.2, tidy_concrete htree h.1 h.2⟩

/-- A variable inside an option may have a default, but one that no expansion
    has may not. -/
theorem compile_of_parse_of_option :
    let _ : Host := .idle
    let pattern := "/a(b)/:x(.:y)"
    let tree : List Part := [.leaf (.separator "/"), .leaf (.literal "a"),
      .optional [.leaf (.literal "b")], .leaf (.separator "/"), .leaf (.var (.single "x" none)),
      .optional [.leaf (.separator "."), .leaf (.var (.single "y" none))]]
    let requirements : Fields := [("x", .text "1")]
    let defaults : Fields := [("y", .text "2")]
    parse defaultDelimiters pattern = .ok tree ∧
    (∃ paths, compile defaultDelimiters pattern requirements defaults = .ok paths ∧
      List.Forall₂ (fun segments path =>
        patternText path = patternText segments ∧ Tidy defaultDelimiters path)
        (expand tree) paths) ∧
    ¬∃ paths, compile defaultDelimiters pattern requirements [("z", .text "2")] = .ok paths := by
  intro _ pattern tree requirements defaults
  have hsingle : Tokens.Single defaultDelimiters :=
    ⟨by decide, List.forall_mem_cons.2 ⟨⟨'/', rfl⟩, List.forall_mem_singleton.2 ⟨'.', rfl⟩⟩⟩
  have htree : parse defaultDelimiters pattern = .ok tree := by cbv
  have hrequirements : ∀ entry ∈ requirements, entry.2.isNone = false := by decide
  have hplaced : ∀ segments ∈ expand tree, WellPlaced segments := by decide
  have hnames : ∀ name ∈ requirements.names ++ defaults.names,
      ∃ segments ∈ expand tree, name ∈ variableNames segments := by decide
  refine ⟨htree, ?_, fun h => ?_⟩
  · obtain ⟨paths, h⟩ := (compile_of_parse hsingle htree hrequirements).1.2 ⟨hplaced, hnames⟩
    exact ⟨paths, h, (compile_of_parse hsingle htree hrequirements).2 paths h⟩
  · have hundeclared := ((compile_of_parse hsingle htree hrequirements).1.1 h).2 "z"
    exact absurd (hundeclared (by decide)) (by decide)

end Pattern

end PathRouting
