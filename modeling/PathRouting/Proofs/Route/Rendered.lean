import PathRouting.Proofs.Pattern.Spacing
import PathRouting.Proofs.Trie.Layout
import PathRouting.Route.Render
import PathRouting.Router.Options

/-!
# Rendered Paths

A path is rendered segment by segment, and the tokens of the text are those of
what the segments became, one behind the other. The neighbours of a variable
are separators, so that what was rendered in its place is cut on its own,
whatever is in it.

## Main definitions

* `Route.Rendered`: A rendered path, segment by segment.

## Theorems

* `renderParts_cons_text`, `renderParts_cons_var`: A text is rendered segment
  by segment.
* `Route.rendered_of_render`: What a segment was rendered as is cut on its own.
* `Route.Rendered.length_separators_le`: No separator of the path is missing
  in the text.
-/

namespace PathRouting

variable [Host]

/-- A path as text, with all that its segments became. Each of them is cut
    into tokens on its own: literals and separators are tokens, and behind a
    variable a token starts. -/
inductive Route.Rendered (r : Route) (params : Fields) : List Segment → String → Prop
  | nil : Rendered r params [] ""
  | literal {s rest : String} {parts : List Segment}
      (mark : Tokens.isDelimiter r.delimiters s = false)
      (apart : Tokens.tokens r.delimiters (s ++ rest) = s :: Tokens.tokens r.delimiters rest)
      (onward : Rendered r params parts rest) : Rendered r params (.literal s :: parts) (s ++ rest)
  | separator {s rest : String} {parts : List Segment}
      (mark : Tokens.isDelimiter r.delimiters s = true)
      (apart : Tokens.tokens r.delimiters (s ++ rest) = s :: Tokens.tokens r.delimiters rest)
      (onward : Rendered r params parts rest) :
      Rendered r params (.separator s :: parts) (s ++ rest)
  | var {v : Variable} {front rest : String} {parts : List Segment}
      (here : r.render ⟨[], [.var v]⟩ params = .ok front)
      (behind : r.render ⟨[], parts⟩ params = .ok rest)
      (ends : Tokens.Ends r.delimiters rest) (onward : Rendered r params parts rest) :
      Rendered r params (.var v :: parts) (front ++ rest)

section Parts

variable {delimiters : List String} {pattern delimiter safe : String} {params : Fields}

theorem renderParts_cons_text {s : Segment} {text : String} (hs : s.isVariable = false)
    (htext : s.shown = .ok text) (parts : List Segment) :
    renderParts pattern delimiter safe params (s :: parts) =
      (do return text ++ (← renderParts pattern delimiter safe params parts)) := by
  cases s with
  | var v => cases hs
  | literal | separator | condition =>
      rw [renderParts, htext]
      · rfl
      · exact fun _ h => nomatch h

/-- A variable is rendered by itself, and the rest behind it. -/
theorem renderParts_cons_var {v : Variable} {parts : List Segment} {text : String}
    (h : renderParts pattern delimiter safe params (.var v :: parts) = .ok text) :
    ∃ front rest, renderParts pattern delimiter safe params [.var v] = .ok front ∧
      renderParts pattern delimiter safe params parts = .ok rest ∧ text = front ++ rest := by
  rcases bind_eq_ok.1 h with ⟨x, hx, h⟩
  rcases bind_eq_ok.1 h with ⟨front, hfront, h⟩
  rcases bind_eq_ok.1 h with ⟨rest, hrest, h⟩
  cases h
  refine ⟨front, rest, ?_, hrest, rfl⟩
  rw [renderParts, hx]
  simp only [bind, Except.bind] at hfront ⊢
  rw [hfront]
  exact congrArg Except.ok String.append_empty

/-- What is rendered behind a segment that is no separator ends the run before it. -/
theorem ends_of_render (hdelimiters : Tokens.Single delimiters) {s : Segment}
    (hs : s.isSeparator = false) {parts : List Segment}
    (hfits : ∀ u ∈ parts, u.Fits delimiters)
    (hspaced : ∀ u ∈ parts.head?, Pattern.Apart s u) {text : String}
    (h : renderParts pattern delimiter safe params parts = .ok text) :
    Tokens.Ends delimiters text := by
  cases parts with
  | nil =>
      cases h
      exact Or.inl rfl
  | cons u rest =>
      rcases hspaced u rfl with hseparator | hseparator
      · rw [hs] at hseparator
        cases hseparator
      -- The next segment is a separator then, which is written first.
      · cases u with
        | separator mark =>
            rw [renderParts_cons_text rfl rfl] at h
            rcases bind_eq_ok.1 h with ⟨more, _, h⟩
            cases h
            rcases hfits _ List.mem_cons_self with ⟨c, _, hmark⟩
            exact Tokens.ends_mark_append hdelimiters hmark more
        | literal text | condition c | var v => cases hseparator

end Parts

/-- A route renders its paths segment by segment, with its first delimiter. -/
theorem Route.exists_render {r : Route} (h : r.delimiters ≠ []) :
    ∃ delimiter ∈ r.delimiters, ∃ safe, ∀ p params,
      r.render p params = renderParts r.pattern delimiter safe params p.parts := by
  cases hdelimiters : r.delimiters with
  | nil => exact absurd hdelimiters h
  | cons delimiter others =>
      refine ⟨delimiter, List.mem_cons_self, "".intercalate r.delimiters, fun p params => ?_⟩
      rw [Route.render, hdelimiters]

/-- What each segment was rendered as is cut on its own. The induction is on the
    path: every text in it ends where the text behind it starts. Variables do not
    stand side by side in a compiled path, and this is what that is good for. -/
theorem Route.rendered_of_render {r : Route} (hsingle : Tokens.Single r.delimiters)
    {parts : List Segment} (hfits : ∀ s ∈ parts, s.Fits r.delimiters)
    (hspaced : parts.IsChain Pattern.Apart) {params : Fields} {text : String}
    (h : r.render ⟨[], parts⟩ params = .ok text) : r.Rendered params parts text := by
  rcases r.exists_render hsingle.1 with ⟨delimiter, _, safe, hrenders⟩
  rw [hrenders] at h
  induction parts generalizing text with
  | nil =>
      cases h
      exact .nil
  | cons s parts ih =>
      rcases List.forall_mem_cons.1 hfits with ⟨hs, hrest⟩
      rcases List.isChain_cons.1 hspaced with ⟨hnext, hafter⟩
      cases s with
      | condition c => exact absurd hs id
      | literal a =>
          rw [renderParts_cons_text rfl rfl] at h
          rcases bind_eq_ok.1 h with ⟨more, hmore, h⟩
          cases h
          refine .literal (Tokens.isDelimiter_of_starts hsingle hs.starts) ?_
            (ih hrest hafter hmore)
          -- The run that the literal makes is not continued by what is behind it.
          rw [Tokens.tokens_append hsingle _ (ends_of_render hsingle rfl hrest hnext hmore),
            Tokens.tokens_plain hsingle hs]
          rfl
      | separator mark =>
          rw [renderParts_cons_text rfl rfl] at h
          rcases bind_eq_ok.1 h with ⟨more, hmore, h⟩
          cases h
          rcases hs with ⟨c, _, hmark⟩
          exact .separator hmark (Tokens.tokens_mark_append hsingle hmark _) (ih hrest hafter hmore)
      | var v =>
          rcases renderParts_cons_var h with ⟨front, more, hfront, hmore, rfl⟩
          exact .var ((hrenders _ _).trans hfront) ((hrenders _ _).trans hmore)
            (ends_of_render hsingle rfl hrest hnext hmore) (ih hrest hafter hmore)

/-- No separator of the path is missing in the text. There may be more of
    them, where the text of a variable has some. -/
theorem Route.Rendered.length_separators_le {r : Route} (hsingle : Tokens.Single r.delimiters)
    {parts : List Segment} {params : Fields} {text : String}
    (h : r.Rendered params parts text) :
    (parts.filter Segment.isSeparator).length ≤
      (marks r.delimiters (Tokens.tokens r.delimiters text)).length := by
  induction h with
  | nil => exact Nat.zero_le _
  | literal mark apart onward ih =>
      rw [apart, marks_cons_word mark]
      exact ih
  | separator mark apart onward ih =>
      rw [apart, marks_cons_mark mark]
      exact Nat.succ_le_succ ih
  | var here behind ends onward ih =>
      rw [Tokens.tokens_append hsingle _ ends, marks_append, List.length_append]
      exact Nat.le_add_left_of_le ih

/-- The paths of a route without conditions are compiled. -/
theorem Route.compiled_of_make {delimiters : List String} {pattern : String}
    {requirements defaults : Fields} {compiled : List (List Segment)}
    (hcompile : Pattern.compile delimiters pattern requirements defaults = .ok compiled)
    {p : Path} (hp : p ∈ (Route.make pattern compiled [] [] requirements defaults .none none
      delimiters false).paths) : p.Compiled delimiters ∧ p.conditions = [] := by
  rcases List.mem_map.1 hp with ⟨parts, hparts, rfl⟩
  exact ⟨⟨_, pattern, requirements, defaults, compiled, hcompile, hparts⟩, rfl⟩

end PathRouting
