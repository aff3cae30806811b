import PathRouting.Proofs.Pattern.Acceptance

/-!
# Reading a Path Again

The text of a compiled path is a pattern of its own, and it stands for that
path alone. It has no parentheses or bars in it, so nothing is left open; and
as one of two neighbours is a separator, it is cut where one segment ends and
the next begins. What is lost is what does not show in the text: the
expression that a variable in braces was written with. A greedy variable
cannot be written without braces, so there must be none.

The delimiters must not be characters of a name either. Otherwise the name of
a variable that was written in braces, where delimiters count for nothing,
would be cut.

## Main definitions

* `Segment.bare`: A segment without the expression of its variable.
* `Lexeme.Spells`: The lexeme that a segment is written as.

## Theorems

* `exists_spells`: Every segment that is not greedy is written as a lexeme.
* `parse_patternText`: The text of a sequence that is spaced is read as its
  segments.
* `expand_map_leaf`, `mergeLiterals_eq_self`: Such a sequence is all that it
  stands for.
* `attach_bare`: What follows a variable does not depend on its expression.
* `compile_patternText`: The text of a compiled path compiles to that path.
-/

namespace PathRouting

/-- The segment without the expression of its variable. -/
def Segment.bare : Segment → Segment
  | .var v => .var { v with validator := none }
  | s => s

namespace Pattern

variable {delimiters : List String}

/-! ## Segments as lexemes -/

/-- The lexeme is what the segment is written as. -/
structure Lexeme.Spells [Host] (delimiters : List String) (l : Lexeme) (s : Segment) : Prop where
  clean : l.Clean delimiters
  flat : l.isFlat = true
  mark : l.isMark = s.isSeparator
  source : l.source = s.text.toList
  denotes : l.Denotes s.bare

section Legible

variable {given : List Value} (hgiven : delimiters? given = .ok delimiters)
  (hletters : ∀ c, continuesName c = true → String.singleton c ∉ delimiters)

include hgiven hletters

/-- What a variable is written as is one run of text. -/
theorem clean_of_isName {name : List Char} (hname : isName name = true) {sigil : Char}
    (hsigil : sigil = ':' ∨ sigil = '*') : (Lexeme.text (sigil :: name)).Clean delimiters := by
  refine ⟨List.cons_ne_nil _ _, List.forall_mem_cons.2 ⟨?_, fun c hc => ?_⟩⟩
  · have hfree : String.singleton sigil ∉ delimiters :=
      Tokens.not_mem_of_delimiters? hgiven (by rcases hsigil with rfl | rfl <;> decide)
    refine isPlain_eq_true.2 ⟨by simpa using hfree, ?_⟩
    rcases hsigil with rfl | rfl <;> decide
  · rcases continuesName_of_mem_name hname hc with hletter | rfl
    · refine isPlain_eq_true.2 ⟨by simpa using hletters c hletter, fun hsyntax => ?_⟩
      -- None of the characters of the syntax is one of a name.
      simp only [List.mem_cons, List.not_mem_nil, or_false] at hsyntax
      rcases hsyntax with rfl | rfl | rfl | rfl | rfl <;> exact absurd hletter (by decide)
    · have hfree : String.singleton '\n' ∉ delimiters :=
        Tokens.not_mem_of_delimiters? hgiven (by decide)
      exact isPlain_eq_true.2 ⟨by simpa using hfree, by decide⟩

/-- Every segment that some lexeme denotes is written as a lexeme, unless it
    is a greedy variable. Braces and the expression in them are left away. A
    greedy variable has no way to be written without them. -/
theorem exists_spells [Host] {s : Segment} (hs : s.Denoted delimiters)
    (hgreedy : ∀ v, s = .var v → v.isGreedy = false) : ∃ l : Lexeme, l.Spells delimiters s := by
  have hsingle : ∀ {name : List Char} {w : Option Validator}, isName name = true →
      (Lexeme.text (':' :: name)).Spells delimiters (.var (.single (String.ofList name) w)) :=
    fun hname => ⟨clean_of_isName hgiven hletters hname (Or.inl rfl), rfl, rfl,
      by simp [Lexeme.source, Variable.text, Variable.single], .single hname⟩
  have hseveral : ∀ {name : List Char} {w : Option Validator}, isName name = true →
      (Lexeme.text ('*' :: name)).Spells delimiters
        (.var (.several (String.ofList name) w false none)) :=
    fun hname => ⟨clean_of_isName hgiven hletters hname (Or.inr rfl), rfl, rfl,
      by simp [Lexeme.source, Variable.text, Variable.several, Variable.completed], .several hname⟩
  -- A variable in braces is written as one without. Only the greedy one has no such form.
  obtain ⟨l, hclean, hl⟩ := hs
  cases hl with
  | mark c =>
      exact ⟨_, hclean, rfl, rfl, (String.toList_singleton c).symm, .mark c⟩
  | literal hcolon hasterisk =>
      exact ⟨_, hclean, rfl, rfl, String.toList_ofList.symm, .literal hcolon hasterisk⟩
  | single hname | braceSingle hname => exact ⟨_, hsingle hname⟩
  | several hname | braceSeveral hname => exact ⟨_, hseveral hname⟩
  | braceGreedy => cases hgreedy _ rfl

end Legible

/-! ## Sequences as patterns -/

section Sequence

variable {segments : List Segment} {ls : List Lexeme}

/-- The lexemes of a sequence without options and choices are those of its segments. -/
theorem flattens_map_leaf [Host] (h : List.Forall₂ Lexeme.Denotes ls segments) :
    Flattens (segments.map .leaf) ls := by
  induction h with
  | nil => exact .nil
  | cons hl _ ih => exact .cons (.leaf hl) ih

theorem expand_map_leaf (segments : List Segment) :
    expand (segments.map .leaf) = [segments] := by
  induction segments with
  | nil => rfl
  | cons s rest ih => simp [expand, Part.expand, product, ih]

theorem toList_patternText [Host] (h : List.Forall₂ (Lexeme.Spells delimiters) ls segments) :
    (patternText segments).toList = ls.flatMap Lexeme.source := by
  induction h with
  | nil => rfl
  | cons hl _ ih =>
      rw [patternText_cons, String.toList_append, List.flatMap_cons, hl.source, ih]

/-- The text of a sequence that is spaced is read as its segments. Without
    separators in between, two texts would become one, and a text would be
    taken into the name of a variable in front of it. -/
theorem parse_patternText [Host] (h : List.Forall₂ (Lexeme.Spells delimiters) ls segments)
    (happart : segments.IsChain Apart) :
    parse delimiters (patternText segments) =
      .ok ((segments.map Segment.bare).map .leaf) := by
  have hmem : ∀ l ∈ ls, ∃ s, l.Spells delimiters s := exists_forall₂.1 ⟨segments, h⟩
  -- A sequence is spaced if of two neighbours one is a separator, and the lexemes are delimiters
  -- where the segments are separators. So no two runs of text touch, and the text is cut as it was
  -- put together.
  have hmarks : ls.map Lexeme.isMark = segments.map Segment.isSeparator := by
    clear happart hmem
    induction h with
    | nil => rfl
    | cons hl _ ih => rw [List.map_cons, List.map_cons, hl.mark, ih]
  have hchain : ls.IsChain fun k l => k.isMark = true ∨ l.isMark = true := by
    rw [isChain_apart_iff, ← hmarks] at happart
    exact (List.isChain_map Lexeme.isMark).1 happart
  have hlexemes : lexemes delimiters (patternText segments) = .ok ls := by
    rw [lexemes, toList_patternText h]
    refine lexemesFrom_source (fun l hl => ?_) (fun l hl => ?_) hchain 0
    · obtain ⟨_, hs⟩ := hmem l hl
      exact hs.clean
    · obtain ⟨_, hs⟩ := hmem l hl
      exact hs.flat
  have hdenotes : List.Forall₂ Lexeme.Denotes ls (segments.map Segment.bare) :=
    List.forall₂_map_right_iff.2 (h.imp fun _ _ hs => hs.denotes)
  exact parse_eq_ok_iff.2 ⟨ls, hlexemes, flattens_map_leaf hdenotes⟩

/-- Where one of two neighbours is a separator, there is nothing to merge. -/
theorem mergeLiterals_eq_self (happart : segments.IsChain Apart) :
    mergeLiterals segments = segments := by
  induction segments with
  | nil => rfl
  | cons s rest ih =>
      obtain ⟨hhead, hrest⟩ := List.isChain_cons.1 happart
      rcases mergeLiterals_cons_cases s rest with ⟨heq, -⟩ | ⟨a, b, more, rfl, hmore, -⟩
      · rw [heq, ih hrest]
      · rw [ih hrest] at hmore
        subst hmore
        rcases hhead _ rfl with h | h <;> cases h

end Sequence

/-! ## What does not depend on expressions -/

theorem isVariable_bare (s : Segment) : s.bare.isVariable = s.isVariable := by
  cases s <;> rfl

theorem isSeparator_bare (s : Segment) : s.bare.isSeparator = s.isSeparator := by
  cases s <;> rfl

theorem variableNames_map_bare (segments : List Segment) :
    variableNames (segments.map Segment.bare) = variableNames segments := by
  rw [variableNames, List.filterMap_map]
  refine List.filterMap_congr fun s _ => ?_
  cases s <;> rfl

theorem isChain_apart_map_bare {segments : List Segment} :
    (segments.map Segment.bare).IsChain Apart ↔ segments.IsChain Apart := by
  have hmarks : (segments.map Segment.bare).map Segment.isSeparator =
      segments.map Segment.isSeparator := by
    rw [List.map_map]
    exact List.map_congr_left fun s _ => isSeparator_bare s
  rw [isChain_apart_iff, hmarks, ← isChain_apart_iff]

theorem isChain_beside_map_bare {segments : List Segment} :
    (segments.map Segment.bare).IsChain Beside ↔ segments.IsChain Beside := by
  simp only [List.isChain_map, Beside, isSeparator_bare, isVariable_bare]
  rfl

/-- What follows a variable does not depend on any expression. -/
theorem lookahead_bare (v : Variable) (following : List Segment) :
    lookahead delimiters { v with validator := none } (following.map Segment.bare) =
      lookahead delimiters v following := by
  have hliteral : firstLiteral? (following.map Segment.bare) = firstLiteral? following := by
    rw [firstLiteral?, List.findSome?_map]
    congr 1
    funext s
    cases s <;> rfl
  have hseparator : firstSeparator? (following.map Segment.bare) = firstSeparator? following := by
    rw [firstSeparator?, List.findSome?_map]
    congr 1
    funext s
    cases s <;> rfl
  simp only [lookahead, hliteral, hseparator]
  rfl

theorem attach_bare {segments done : List Segment}
    (h : attach delimiters [] [] segments = .ok done) :
    attach delimiters [] [] (segments.map Segment.bare) = .ok (done.map Segment.bare) := by
  induction segments generalizing done with
  | nil =>
      cases h
      rfl
  | cons s rest ih =>
      by_cases hs : s.isVariable = true
      · obtain ⟨v, rfl⟩ := exists_var hs
        obtain ⟨ahead, more, hahead, hmore, rfl⟩ := attach_var.1 h
        rw [← lookahead_bare] at hahead
        exact attach_var.2 ⟨ahead, _, hahead, ih hmore, rfl⟩
      · rw [Bool.not_eq_true] at hs
        obtain ⟨more, hmore, rfl⟩ := (attach_text hs).1 h
        exact (attach_text (by rw [isVariable_bare, hs])).2 ⟨_, ih hmore, rfl⟩

/-! ## Compiled paths -/

/-- What is laid on a variable makes it neither greedy nor modest. -/
theorem not_isGreedy_of_attach {segments done : List Segment}
    (h : attach delimiters [] [] segments = .ok done)
    (hgreedy : ∀ v, .var v ∈ done → v.isGreedy = false) :
    ∀ v, .var v ∈ segments → v.isGreedy = false := by
  intro v hv
  have hsame := map_eq_of_attach (f := fun s => s.var?.any Variable.isGreedy) (fun s t hst => ?_) h
  · have hmem : v.isGreedy ∈ done.map fun s => s.var?.any Variable.isGreedy :=
      hsame ▸ List.mem_map.2 ⟨.var v, hv, rfl⟩
    obtain ⟨t, ht, heq⟩ := List.mem_map.1 hmem
    rw [← heq]
    cases t with
    | var w => exact hgreedy w ht
    | literal text | separator mark | condition c => rfl
  · cases hst <;> rfl

/-- The text of a compiled path without greedy variables compiles to that path
    and to no other, except that the expressions of its variables are lost. So
    a path can be told from its text, and the paths of a route written out one
    by one are a way to write the route without options and choices. -/
theorem compile_patternText [Host] {given : List Value}
    (hgiven : delimiters? given = .ok delimiters)
    (hletters : ∀ c, continuesName c = true → String.singleton c ∉ delimiters)
    {pattern : String} {paths : List (List Segment)}
    (hcompile : compile delimiters pattern [] [] = .ok paths) {path : List Segment}
    (hpath : path ∈ paths) (hgreedy : ∀ v, .var v ∈ path → v.isGreedy = false) :
    compile delimiters (patternText path) [] [] = .ok [path.map Segment.bare] := by
  obtain ⟨validators, tree, hvalidators, htree, hdone, _⟩ := compile_eq_ok_iff.1 hcompile
  cases hvalidators
  obtain ⟨segments, hsegments, hconcrete⟩ := mem_of_mapM_ok hdone hpath
  obtain ⟨hcheck, hattach⟩ := concrete_eq_ok_iff.1 hconcrete
  have happart := merged_isChain_apart htree hsegments hcheck
  have hmodest := not_isGreedy_of_attach hattach hgreedy
  -- The text is read as the segments of the merged expansion.
  have hspells : ∀ s ∈ mergeLiterals segments, ∃ l : Lexeme, l.Spells delimiters s := fun s hs =>
    exists_spells hgiven hletters (merged_denoted htree hsegments s hs)
      fun v hv => hmodest v (hv ▸ hs)
  obtain ⟨ls, hls⟩ := exists_forall₂.2 hspells
  have hparse := parse_patternText hls.flip happart
  rw [← patternText_attach hattach] at hparse
  -- Nothing is left open in it, and it is as acceptable as the expansion was.
  have hmerged : mergeLiterals ((mergeLiterals segments).map Segment.bare) =
      (mergeLiterals segments).map Segment.bare :=
    mergeLiterals_eq_self (isChain_apart_map_bare.2 happart)
  have hbare : checkVariables [] none ((mergeLiterals segments).map Segment.bare) = .ok () := by
    obtain ⟨hnodup, _, hbeside, _⟩ := checkVariables_eq_ok_iff.1 hcheck
    rw [← variableNames_map_bare] at hnodup
    exact checkVariables_eq_ok_iff.2
      ⟨hnodup, by simp, isChain_beside_map_bare.2 hbeside, by simp⟩
  have hagain : concrete delimiters [] [] (patternText path)
      ((mergeLiterals segments).map Segment.bare) = .ok (path.map Segment.bare) := by
    rw [concrete_eq_ok_iff, hmerged]
    exact ⟨hbare, attach_bare hattach⟩
  refine compile_eq_ok_iff.2 ⟨[], _, rfl, hparse, ?_, by simp [Fields.names]⟩
  rw [expand_map_leaf]
  exact mapM_eq_ok_iff.2 (.cons hagain .nil)

/-- A path of a pattern with an option, and with an expression that its text
    does not show. -/
theorem compile_patternText_of_braces :
    let _ : Host := .idle
    ∃ (r : Regex) (full short : List Segment), full = [.separator "/", .literal "ab",
        .separator ".", .var ⟨"x", some (.regex r), .none, some "/", none⟩] ∧
      compile ["/", "."] "/a(b).\x7b:x,c\x7d" [] [] = .ok [full, short] ∧
      compile ["/", "."] "/ab.:x" [] [] = .ok [full.map Segment.bare] := by
  intro _
  have hread : Regex.read? Host.character .plain "c".toList = .ok (.char 99, .plain) := by cbv
  let r : Regex := ⟨"c", .plain, _, _, .plain, hread⟩
  let x : Segment := .var ⟨"x", some (.regex r), .none, some "/", none⟩
  let full : List Segment := [.separator "/", .literal "ab", .separator ".", x]
  let short : List Segment := [.separator "/", .literal "a", .separator ".", x]
  have hgiven : delimiters? [.text "/", .text "."] = .ok ["/", "."] := by cbv
  have hletters : ∀ c, continuesName c = true → String.singleton c ∉ ["/", "."] := by
    intro c hc hmem
    have hmark : c = '/' ∨ c = '.' := by simpa [← String.toList_inj] using hmem
    rcases hmark with rfl | rfl
    · exact absurd hc (by decide)
    · exact absurd hc (by decide)
  have hcompile : compile ["/", "."] "/a(b).\x7b:x,c\x7d" [] [] = .ok [full, short] := by cbv
  have hgreedy : ∀ v, .var v ∈ full → v.isGreedy = false := by
    intro v hv
    simp only [full, x, List.mem_cons, List.not_mem_nil, reduceCtorEq, Segment.var.injEq, false_or,
      or_false] at hv
    rw [hv]
    rfl
  have htext : patternText full = "/ab.:x" := by cbv
  have hagain := compile_patternText hgiven hletters hcompile List.mem_cons_self hgreedy
  rw [htext] at hagain
  exact ⟨r, full, short, rfl, hcompile, hagain⟩

end Pattern

end PathRouting
