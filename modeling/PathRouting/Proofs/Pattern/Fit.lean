import Mathlib.Data.List.Forall2
import PathRouting.Pattern.Concrete
import PathRouting.Proofs.Pattern.Grammar
import PathRouting.Proofs.Pattern.Lexing
import PathRouting.Proofs.Tokens
import PathRouting.Route

/-!
# What Compiling Guarantees

The segments of a compiled path are not arbitrary. Texts and separators cannot
be mistaken for each other, since a text is not empty and has no delimiter in
it, while a separator is one; a path proper holds no conditions; and a greedy
variable has an expression, which is also its validator unless another was
laid on from outside.

All of this comes from the lexemes. Each segment in the tree of a pattern is
denoted by one of its lexemes, an expansion only selects among the segments of
the tree, texts that are merged could have been one lexeme, and what is laid
on a variable leaves its expression alone.

## Main definitions

* `Variable.Fits`, `Segment.Fits`: What is guaranteed.
* `Segment.Denoted`: A lexeme denotes the segment.
* `Part.leaves`, `leaves`: The segments in a pattern tree.
* `Overlaid`: What is laid on a segment.
* `Path.Compiled`: A path is one of those that a pattern stands for.

## Theorems

* `Segment.denoted_literal_iff`, `Segment.Denoted.fits`: What lexemes denote.
* `mem_leaves_of_mem_expand`: An expansion selects among the segments of the
  tree.
* `exists_denotes_of_flattens`: The segments of a tree are denoted by its
  lexemes.
* `mergeLiterals_cons_cases`, `forall_mem_mergeLiterals`: What one step of
  merging does, and what merging keeps.
* `layOn_induction`, `forall₂_of_attach`, `map_eq_of_attach`: What laying on
  keeps.
* `concrete_eq_ok_iff`, `compile_eq_ok_iff`: The stages of compiling.
* `Path.Compiled.exists_expansion`: The stages that a compiled path has passed.
* `Pattern.merged_denoted`, `Path.Compiled.fits`: The segments of a compiled
  path fit, since those of the merged expansion are denoted by lexemes.
-/

namespace PathRouting

/-- A greedy variable has an expression, which is its validator as well unless
    one was laid on from outside. A search by position relies on the
    expression without asking whether it is there. -/
def Variable.Fits (v : Variable) : Prop :=
  ∀ g, v.glob = some g → g.greedy = true →
    ∃ r, g.regex = some (.regex r) ∧ (g.separate = false → v.validator = some (.regex r))

/-- The segment is as compiling makes it. -/
def Segment.Fits (delimiters : List String) : Segment → Prop
  | .literal text => Tokens.Plain delimiters text
  | .separator mark => ∃ c, mark = String.singleton c ∧ delimiters.contains mark = true
  | .condition _ => False
  | .var v => v.Fits

variable {delimiters : List String}

/-- A clean lexeme denotes the segment. -/
def Segment.Denoted [Host] (delimiters : List String) (s : Segment) : Prop :=
  ∃ l : Pattern.Lexeme, l.Clean delimiters ∧ l.Denotes s

/-- A text that a lexeme denotes is one run: it is not empty, has only plain
    characters, and does not start as a variable does. -/
theorem Segment.denoted_literal_iff [Host] {text : String} :
    (Segment.literal text).Denoted delimiters ↔
      text ≠ "" ∧ (∀ c ∈ text.toList, Pattern.isPlain delimiters c = true) ∧
      text.toList.head? ≠ some ':' ∧ text.toList.head? ≠ some '*' := by
  constructor
  · rintro ⟨l, hclean, hl⟩
    cases hl with
    | literal hsingle hseveral =>
        rw [String.toList_ofList]
        exact ⟨fun h => hclean.1 (String.ofList_eq_empty_iff.1 h), hclean.2, hsingle, hseveral⟩
  · rintro ⟨hne, hplain, hsingle, hseveral⟩
    refine ⟨.text text.toList, ⟨by simpa using hne, hplain⟩, ?_⟩
    have hdenotes := Pattern.Lexeme.Denotes.literal hsingle hseveral
    rwa [String.ofList_toList] at hdenotes

/-- What a clean lexeme denotes fits: marks are delimiters and texts have none,
    and a greedy variable starts out with its expression as its validator. -/
theorem Segment.Denoted.fits [Host] {s : Segment} (h : s.Denoted delimiters) :
    s.Fits delimiters := by
  obtain ⟨l, hclean, hl⟩ := h
  cases hl with
  | mark c => exact ⟨c, rfl, hclean⟩
  | literal hsingle hseveral =>
      refine ⟨fun hempty => hclean.1 (String.ofList_eq_empty_iff.1 hempty), fun c hc => ?_⟩
      rw [String.toList_ofList] at hc
      exact (Pattern.isPlain_eq_true.1 (hclean.2 c hc)).1
  | single | braceSingle =>
      intro g hg
      cases hg
  | several | braceSeveral =>
      intro g hg hgreedy
      cases hg
      cases hgreedy
  | braceGreedy hname hr =>
      intro g hg _
      cases hg
      exact ⟨_, rfl, fun _ => rfl⟩

namespace Pattern

mutual

/-- The segments in a part. -/
def Part.leaves : Part → List Segment
  | .leaf s => [s]
  | .optional parts => Pattern.leaves parts
  | .choice branches => leavesOfBranches branches

/-- The segments in some parts. -/
def leaves : List Part → List Segment
  | [] => []
  | p :: rest => p.leaves ++ leaves rest

/-- The segments in some sequences. -/
def leavesOfBranches : List (List Part) → List Segment
  | [] => []
  | b :: rest => leaves b ++ leavesOfBranches rest

end

mutual

/-- An expansion of a part holds segments of the part only. -/
theorem Part.mem_leaves_of_mem_expand : (p : Part) → ∀ (segments : List Segment) (s : Segment),
    segments ∈ p.expand → s ∈ segments → s ∈ p.leaves
  | .leaf t => by
      intro segments s hsegments hs
      rw [Part.expand, List.mem_singleton] at hsegments
      rw [Part.leaves, ← hsegments]
      exact hs
  | .optional parts => by
      intro segments s hsegments hs
      rw [Part.expand, List.mem_append, List.mem_singleton] at hsegments
      rcases hsegments with h | rfl
      · exact Pattern.mem_leaves_of_mem_expand parts _ _ h hs
      · exact absurd hs List.not_mem_nil
  | .choice branches => mem_leaves_of_mem_expandBranches branches

/-- An expansion selects among the segments of the tree. -/
theorem mem_leaves_of_mem_expand : (parts : List Part) → ∀ (segments : List Segment) (s : Segment),
    segments ∈ expand parts → s ∈ segments → s ∈ leaves parts
  | [] => by
      intro segments s hsegments hs
      rw [expand, List.mem_singleton] at hsegments
      rw [hsegments] at hs
      exact absurd hs List.not_mem_nil
  | p :: rest => by
      intro segments s hsegments hs
      rw [expand, product, List.mem_flatMap] at hsegments
      rcases hsegments with ⟨front, hfront, hsegments⟩
      rcases List.mem_map.1 hsegments with ⟨back, hback, rfl⟩
      rw [leaves, List.mem_append]
      rcases List.mem_append.1 hs with hs | hs
      · exact Or.inl (p.mem_leaves_of_mem_expand _ _ hfront hs)
      · exact Or.inr (mem_leaves_of_mem_expand rest _ _ hback hs)

theorem mem_leaves_of_mem_expandBranches : (branches : List (List Part)) →
    ∀ (segments : List Segment) (s : Segment),
      segments ∈ expandBranches branches → s ∈ segments → s ∈ leavesOfBranches branches
  | [] => fun _ _ h => absurd h List.not_mem_nil
  | b :: rest => by
      intro segments s hsegments hs
      rw [expandBranches, List.mem_append] at hsegments
      rw [leavesOfBranches, List.mem_append]
      rcases hsegments with h | h
      · exact Or.inl (mem_leaves_of_mem_expand b _ _ h hs)
      · exact Or.inr (mem_leaves_of_mem_expandBranches rest _ _ h hs)

end

theorem exists_var {s : Segment} (hs : s.isVariable = true) : ∃ v, s = .var v := by
  cases s with
  | var v => exact ⟨v, rfl⟩
  | literal text | separator mark | condition c => cases hs

/-- Merging goes segment by segment, except that a literal in front of another
    one is joined to it. -/
theorem mergeLiterals_cons_cases (s : Segment) (rest : List Segment) :
    (mergeLiterals (s :: rest) = s :: mergeLiterals rest ∧
      ∀ a b more, s = .literal a → mergeLiterals rest ≠ .literal b :: more) ∨
    ∃ a b more, s = .literal a ∧ mergeLiterals rest = .literal b :: more ∧
      mergeLiterals (s :: rest) = .literal (a ++ b) :: more := by
  cases s with
  | literal a =>
      rw [mergeLiterals]
      split
      · next b more hmore => exact Or.inr ⟨a, b, more, rfl, hmore, rfl⟩
      · next hnone => exact Or.inl ⟨rfl, fun _ b more _ hmore => hnone b more hmore⟩
  | separator mark | condition c | var v =>
      exact Or.inl ⟨rfl, fun a _ _ ha => absurd ha (by simp)⟩

/-- What holds of the segments of a sequence holds of those it is merged to,
    if it holds of two texts put together whenever it holds of each. -/
theorem forall_mem_mergeLiterals {holds : Segment → Prop}
    (happend : ∀ a b, holds (.literal a) → holds (.literal b) → holds (.literal (a ++ b)))
    {segments : List Segment} (h : ∀ s ∈ segments, holds s) :
    ∀ s ∈ mergeLiterals segments, holds s := by
  induction segments with
  | nil => exact h
  | cons t rest ih =>
      obtain ⟨ht, hrest⟩ := List.forall_mem_cons.1 h
      have hmerged := ih hrest
      rcases mergeLiterals_cons_cases t rest with ⟨heq, -⟩ | ⟨a, b, more, rfl, hmore, heq⟩
      · rw [heq]
        exact List.forall_mem_cons.2 ⟨ht, hmerged⟩
      · rw [hmore] at hmerged
        obtain ⟨hb, hback⟩ := List.forall_mem_cons.1 hmerged
        rw [heq]
        exact List.forall_mem_cons.2 ⟨happend _ _ ht hb, hback⟩

mutual

/-- The segments in a part are denoted by its lexemes. -/
theorem Part.exists_denotes_of_flattens [Host] : (p : Part) → ∀ {ls : List Lexeme}, p.Flattens ls →
    ∀ s ∈ p.leaves, ∃ l ∈ ls, l.Denotes s
  | .leaf t => by
      intro h s hs
      cases h with
      | leaf ht =>
          rw [Part.leaves, List.mem_singleton] at hs
          exact ⟨_, List.mem_singleton_self _, hs ▸ ht⟩
  | .optional parts => by
      intro h s hs
      cases h with
      | optional hparts =>
          -- The parentheses around denote nothing; what is in them is a part of the lexemes.
          obtain ⟨l, hl, hdenotes⟩ := Pattern.exists_denotes_of_flattens parts hparts s hs
          exact ⟨l, by simp [hl], hdenotes⟩
  | .choice branches => by
      intro h s hs
      cases h with
      | choice _ hbranches =>
          obtain ⟨l, hl, hdenotes⟩ := exists_denotes_of_branchesFlatten branches hbranches s hs
          exact ⟨l, by simp [hl], hdenotes⟩

/-- The segments in a tree are denoted by its lexemes. -/
theorem exists_denotes_of_flattens [Host] : (parts : List Part) → ∀ {ls : List Lexeme},
    Flattens parts ls → ∀ s ∈ leaves parts, ∃ l ∈ ls, l.Denotes s
  | [] => fun _ _ hs => absurd hs List.not_mem_nil
  | p :: rest => by
      intro h s hs
      cases h with
      | cons hp hrest =>
          rcases List.mem_append.1 hs with hs | hs
          · obtain ⟨l, hl, hdenotes⟩ := p.exists_denotes_of_flattens hp s hs
            exact ⟨l, List.mem_append_left _ hl, hdenotes⟩
          · obtain ⟨l, hl, hdenotes⟩ := exists_denotes_of_flattens rest hrest s hs
            exact ⟨l, List.mem_append_right _ hl, hdenotes⟩

theorem exists_denotes_of_branchesFlatten [Host] : (branches : List (List Part)) →
    ∀ {ls : List Lexeme}, BranchesFlatten branches ls →
    ∀ s ∈ leavesOfBranches branches, ∃ l ∈ ls, l.Denotes s
  | [] => fun h => nomatch h
  | b :: rest => by
      intro h s hs
      cases h with
      | last hb =>
          rcases List.mem_append.1 hs with hs | hs
          · exact exists_denotes_of_flattens b hb s hs
          · exact absurd hs List.not_mem_nil
      | cons hb hrest =>
          rcases List.mem_append.1 hs with hs | hs
          · obtain ⟨l, hl, hdenotes⟩ := exists_denotes_of_flattens b hb s hs
            exact ⟨l, List.mem_append_left _ hl, hdenotes⟩
          · obtain ⟨l, hl, hdenotes⟩ := exists_denotes_of_branchesFlatten rest hrest s hs
            exact ⟨l, by simp [hl], hdenotes⟩

end

/-- The segments in the tree of a pattern are denoted by clean lexemes.
    Whatever holds of these holds of every path that the pattern is compiled
    to, unless merging or laying on could undo it. -/
theorem leaves_denoted [Host] {pattern : String} {tree : List Part}
    (h : parse delimiters pattern = .ok tree) : ∀ s ∈ leaves tree, s.Denoted delimiters := by
  intro s hs
  obtain ⟨ls, hls, hflattens⟩ := parse_eq_ok_iff.1 h
  obtain ⟨l, hl, hdenotes⟩ := exists_denotes_of_flattens tree hflattens s hs
  exact ⟨l, lexemesFrom_clean 0 0 [] _ (by simp) hls l hl, hdenotes⟩

/-- Texts that are put together could have been one lexeme. -/
theorem mergeLiterals_denoted [Host] {segments : List Segment}
    (h : ∀ s ∈ segments, s.Denoted delimiters) :
    ∀ s ∈ mergeLiterals segments, s.Denoted delimiters := by
  refine forall_mem_mergeLiterals (fun a b ha hb => ?_) h
  obtain ⟨hne, hplain, hsingle, hseveral⟩ := Segment.denoted_literal_iff.1 ha
  have hhead : (a ++ b).toList.head? = a.toList.head? := by
    rw [String.toList_append, List.head?_append_of_ne_nil _ (by simpa using hne)]
  rw [Segment.denoted_literal_iff, hhead, String.toList_append, List.forall_mem_append]
  exact ⟨fun hempty => hne (String.append_eq_empty_iff.1 hempty).1,
    ⟨hplain, (Segment.denoted_literal_iff.1 hb).2.1⟩, hsingle, hseveral⟩

/-- What a validator and a default leave true is true of a variable with
    everything laid on it. -/
theorem layOn_induction {validators : List (String × Validator)} {defaults : Fields}
    {p : Variable → Prop} (hvalidator : ∀ v w, p v → p (v.withValidator w))
    (hdefault : ∀ v d, p v → p (v.withDefault d)) {v : Variable} (h : p v) :
    p (layOn validators defaults v) := by
  unfold layOn
  cases validators.lookup v.name with
  | none =>
      dsimp only
      split
      · exact hdefault _ _ h
      · exact h
  | some w =>
      have hlaid := hvalidator v (some w) h
      dsimp only
      split
      · exact hdefault _ _ hlaid
      · exact hlaid

/-- What is laid on a variable leaves its expression alone, and a validator
    that is laid on counts as one from outside. -/
theorem layOn_fits {validators : List (String × Validator)} {defaults : Fields} {v : Variable}
    (h : v.Fits) : (layOn validators defaults v).Fits := by
  refine layOn_induction (fun u w hu g hg hgreedy => ?_) (fun u d hu => hu) h
  obtain ⟨held, hheld, rfl⟩ := Option.map_eq_some_iff.1 hg
  obtain ⟨r, hr, _⟩ := hu held hheld hgreedy
  exact ⟨r, hr, fun hseparate => absurd hseparate (by simp)⟩

/-- What is laid on a segment: a variable gets what follows it, a requirement
    and a default, and anything else stays as it is. -/
inductive Overlaid (validators : List (String × Validator)) (defaults : Fields) :
    Segment → Segment → Prop
  | plain {s : Segment} (hs : s.isVariable = false) : Overlaid validators defaults s s
  | var (v : Variable) (ahead : Option String) : Overlaid validators defaults (.var v)
      (.var (layOn validators defaults (v.withLookahead ahead)))

section Attach

variable {validators : List (String × Validator)} {defaults : Fields}

theorem attach_var {v : Variable} {rest done : List Segment} :
    attach delimiters validators defaults (.var v :: rest) = .ok done ↔
      ∃ ahead more, lookahead delimiters v rest = .ok ahead ∧
        attach delimiters validators defaults rest = .ok more ∧
        done = .var (layOn validators defaults (v.withLookahead ahead)) :: more := by
  rw [attach, bind_eq_ok]
  refine exists_congr fun ahead => ?_
  constructor
  · rintro ⟨hahead, h⟩
    obtain ⟨more, hmore, h⟩ := bind_eq_ok.1 h
    exact ⟨more, hahead, hmore, (Except.ok.inj h).symm⟩
  · rintro ⟨more, hahead, hmore, rfl⟩
    exact ⟨hahead, bind_eq_ok.2 ⟨more, hmore, rfl⟩⟩

theorem attach_text {s : Segment} (hs : s.isVariable = false) {rest done : List Segment} :
    attach delimiters validators defaults (s :: rest) = .ok done ↔
      ∃ more, attach delimiters validators defaults rest = .ok more ∧ done = s :: more := by
  have hstep : attach delimiters validators defaults (s :: rest) =
      (do return s :: (← attach delimiters validators defaults rest)) := by
    cases s with
    | var v => cases hs
    | literal text | separator mark | condition c => rfl
  rw [hstep, bind_eq_ok]
  exact exists_congr fun more =>
    and_congr_right fun _ => ⟨fun h => (Except.ok.inj h).symm, fun h => congrArg Except.ok h.symm⟩

/-- Laying requirements and defaults on a sequence goes segment by segment. -/
theorem forall₂_of_attach {segments done : List Segment}
    (h : attach delimiters validators defaults segments = .ok done) :
    List.Forall₂ (Overlaid validators defaults) segments done := by
  induction segments generalizing done with
  | nil =>
      cases h
      exact .nil
  | cons s rest ih =>
      cases hs : s.isVariable with
      | false =>
          obtain ⟨more, hmore, rfl⟩ := (attach_text hs).1 h
          exact .cons (.plain hs) (ih hmore)
      | true =>
          obtain ⟨v, rfl⟩ := exists_var hs
          obtain ⟨ahead, more, _, hmore, rfl⟩ := attach_var.1 h
          exact .cons (.var v ahead) (ih hmore)

/-- What stays the same for each segment stays the same for the sequence. -/
theorem map_eq_of_attach {β : Type} {f : Segment → β}
    (hf : ∀ s t, Overlaid validators defaults s t → f t = f s) {segments done : List Segment}
    (h : attach delimiters validators defaults segments = .ok done) :
    done.map f = segments.map f := by
  have hlaid := forall₂_of_attach h
  clear h
  induction hlaid with
  | nil => rfl
  | cons hst _ ih => rw [List.map_cons, List.map_cons, hf _ _ hst, ih]

/-- Laying requirements and defaults on a sequence keeps what fits. -/
theorem attach_fits {segments done : List Segment} (h : ∀ s ∈ segments, s.Fits delimiters)
    (hdone : attach delimiters validators defaults segments = .ok done) :
    ∀ s ∈ done, s.Fits delimiters := by
  have hlaid := forall₂_of_attach hdone
  clear hdone
  induction hlaid with
  | nil => exact h
  | cons hst _ ih =>
      obtain ⟨hs, hrest⟩ := List.forall_mem_cons.1 h
      refine List.forall_mem_cons.2 ⟨?_, ih hrest⟩
      cases hst with
      | plain => exact hs
      | var v ahead =>
          have hahead : (v.withLookahead ahead).Fits := hs
          exact layOn_fits hahead

end Attach

/-! ## The stages of compiling -/

theorem concrete_eq_ok_iff {validators : List (String × Validator)} {defaults : Fields}
    {pattern : String} {segments path : List Segment} :
    concrete delimiters validators defaults pattern segments = .ok path ↔
      checkVariables [] none (mergeLiterals segments) = .ok () ∧
      attach delimiters validators defaults (mergeLiterals segments) = .ok path := by
  rw [concrete]
  split
  · next e he => simp [he]
  · next hcheck => simp [hcheck]

theorem checkDeclared_eq_ok_iff {pattern : String} {declared names : List String}
    {attachment : Attachment} :
    checkDeclared pattern declared attachment names = .ok () ↔ ∀ name ∈ names, name ∈ declared := by
  have hnil : (names.filter (!declared.contains ·)).mergeSort = [] ↔
      ∀ name ∈ names, name ∈ declared := by
    rw [← List.length_eq_zero_iff, List.length_mergeSort, List.length_eq_zero_iff,
      List.filter_eq_nil_iff]
    simp
  rw [← hnil, checkDeclared]
  split
  · next h => exact ⟨fun _ => h, fun _ => rfl⟩
  · next h => exact ⟨(nomatch ·), fun hempty => absurd hempty h⟩

/-- A pattern is compiled by reading it, making a path of each of its expansions,
    and finding all the names to lay something on in one of the paths. -/
theorem compile_eq_ok_iff [Host] {pattern : String} {requirements defaults : Fields}
    {paths : List (List Segment)} :
    compile delimiters pattern requirements defaults = .ok paths ↔
      ∃ validators tree, validatorsOf requirements = .ok validators ∧
        parse delimiters pattern = .ok tree ∧
        (expand tree).mapM (concrete delimiters validators defaults pattern) = .ok paths ∧
        ∀ name ∈ requirements.names ++ defaults.names, name ∈ paths.flatMap variableNames := by
  rw [compile, bind_eq_ok]
  refine exists_congr fun validators => ?_
  constructor
  · rintro ⟨hvalidators, h⟩
    -- The stages succeed one after the other.
    obtain ⟨tree, htree, h⟩ := bind_eq_ok.1 h
    obtain ⟨done, hdone, h⟩ := bind_eq_ok.1 h
    obtain ⟨_, hrequirements, h⟩ := bind_eq_ok.1 h
    obtain ⟨_, hdefaults, h⟩ := bind_eq_ok.1 h
    cases h
    exact ⟨tree, hvalidators, htree, hdone, List.forall_mem_append.2
      ⟨checkDeclared_eq_ok_iff.1 hrequirements, checkDeclared_eq_ok_iff.1 hdefaults⟩⟩
  · rintro ⟨tree, hvalidators, htree, hdone, hnames⟩
    obtain ⟨hrequirements, hdefaults⟩ := List.forall_mem_append.1 hnames
    refine ⟨hvalidators, bind_eq_ok.2 ⟨tree, htree, bind_eq_ok.2 ⟨paths, hdone, ?_⟩⟩⟩
    exact bind_eq_ok.2 ⟨(), checkDeclared_eq_ok_iff.2 hrequirements,
      bind_eq_ok.2 ⟨(), checkDeclared_eq_ok_iff.2 hdefaults, rfl⟩⟩

end Pattern

theorem Path.mem_binders {p : Path} {v : Variable} (h : Segment.var v ∈ p.parts) :
    v ∈ p.binders :=
  List.mem_filterMap.2 ⟨_, h, rfl⟩

/-- The path proper is one of those that some pattern stands for. Which
    pattern it is, what was laid on its variables, and which names of
    characters were known, is left open. -/
def Path.Compiled (delimiters : List String) (p : Path) : Prop :=
  ∃ (_ : Host) (pattern : String) (requirements defaults : Fields) (paths : List (List Segment)),
    Pattern.compile delimiters pattern requirements defaults = .ok paths ∧ p.parts ∈ paths

/-- The stages that a compiled path has passed: an expansion of the pattern
    was merged, found acceptable, and everything was laid on its variables.
    What holds of compiled paths is proved stage by stage, and most of it
    survives each of them. -/
theorem Path.Compiled.exists_expansion {delimiters : List String} {p : Path}
    (h : p.Compiled delimiters) :
    ∃ (_ : Host) (pattern : String) (validators : List (String × Validator)) (defaults : Fields)
      (tree : List Pattern.Part) (segments : List Segment),
      Pattern.parse delimiters pattern = .ok tree ∧ segments ∈ Pattern.expand tree ∧
        Pattern.checkVariables [] none (Pattern.mergeLiterals segments) = .ok () ∧
        Pattern.attach delimiters validators defaults (Pattern.mergeLiterals segments) =
          .ok p.parts := by
  obtain ⟨host, pattern, requirements, defaults, paths, hcompile, hp⟩ := h
  obtain ⟨validators, tree, _, htree, hdone, _⟩ := Pattern.compile_eq_ok_iff.1 hcompile
  obtain ⟨segments, hsegments, hconcrete⟩ := mem_of_mapM_ok hdone hp
  obtain ⟨hcheck, hattach⟩ := Pattern.concrete_eq_ok_iff.1 hconcrete
  exact ⟨host, pattern, validators, defaults, tree, segments, htree, hsegments, hcheck, hattach⟩

/-- What an expansion of a pattern is merged to is denoted by clean lexemes. -/
theorem Pattern.merged_denoted [Host] {delimiters : List String} {pattern : String}
    {tree : List Part} (htree : parse delimiters pattern = .ok tree) {segments : List Segment}
    (hsegments : segments ∈ expand tree) :
    ∀ s ∈ mergeLiterals segments, s.Denoted delimiters :=
  mergeLiterals_denoted fun s hs =>
    leaves_denoted htree s (mem_leaves_of_mem_expand tree _ _ hsegments hs)

/-- What an expansion of a pattern is merged to fits. -/
theorem Pattern.merged_fits [Host] {delimiters : List String} {pattern : String} {tree : List Part}
    (htree : parse delimiters pattern = .ok tree) {segments : List Segment}
    (hsegments : segments ∈ expand tree) :
    ∀ s ∈ mergeLiterals segments, s.Fits delimiters :=
  fun s hs => (merged_denoted htree hsegments s hs).fits

/-- The segments of a compiled path fit. This is the only fact on compiling
    that the tree builds on: which texts are delimiters, and that a greedy
    variable has an expression. -/
theorem Path.Compiled.fits {delimiters : List String} {p : Path} (h : p.Compiled delimiters) :
    ∀ s ∈ p.parts, s.Fits delimiters := by
  rcases h.exists_expansion with
    ⟨host, pattern, validators, defaults, tree, segments, htree, hsegments, _, hattach⟩
  exact Pattern.attach_fits (Pattern.merged_fits htree hsegments) hattach

end PathRouting
