import PathRouting.Trie.Search

/-!
# What a Greedy Variable Takes

A greedy variable matches a text, and a search goes over tokens. The text it
matches is spelled by a front of the tokens or it ends inside one of them.
Where it is spelled, the front is as short as possible: no empty token is left
at its end.

## Main definitions

* `Spells`: The front of some tokens that spells so many characters.

## Theorems

* `joined?_eq_some`: Only texts spell anything.
* `span?_eq_some`: How many tokens a text takes.
* `greedyTake_eq_some`: What a greedy variable takes of some texts.
* `exists_of_greedyTake_eq_error`, `greedyTake_eq_error`: Only its validator
  can go wrong.
-/

namespace PathRouting

theorem joined?_texts (pieces : List String) :
    joined? (pieces.map Token.ofText) = some (String.join pieces) := by
  induction pieces with
  | nil => rw [String.join_nil]; rfl
  | cons s rest ih =>
      rw [List.map_cons, Token.ofText, joined?, ih, String.join_cons]
      rfl

/-- Only texts spell anything. -/
theorem joined?_eq_some {tokens : List Token} {text : String} (h : joined? tokens = some text) :
    ∃ pieces : List String, tokens = pieces.map Token.ofText ∧ text = String.join pieces := by
  induction tokens generalizing text with
  | nil =>
      cases h
      exact ⟨[], rfl, String.join_nil.symm⟩
  | cons token rest ih =>
      unfold joined? at h
      split at h
      · next heq => cases heq
      · next s _ heq =>
        cases heq
        rcases Option.map_eq_some_iff.1 h with ⟨more, hmore, rfl⟩
        rcases ih hmore with ⟨pieces, rfl, rfl⟩
        exact ⟨s :: pieces, rfl, String.join_cons.symm⟩
      · cases h

/-- The front of some tokens spells so many characters, and no shorter one
    does. An empty token at the end would be counted by the former and is kept
    out by the latter. -/
def Spells (front : List String) (n : Nat) : Prop :=
  (String.join front).length = n ∧ front.getLast? ≠ some ""

theorem spells_zero {front : List String} : Spells front 0 ↔ front = [] := by
  constructor
  · intro hfits
    rcases hfits with ⟨hlength, hlast⟩
    -- Something that spells nothing would end in an empty token.
    rcases List.eq_nil_or_concat front with rfl | ⟨more, s, rfl⟩
    · rfl
    · rw [List.concat_eq_append] at hlength hlast
      rw [String.join_append, String.length_append, String.join_cons, String.join_nil,
        String.append_empty] at hlength
      have hempty : s = "" := String.length_eq_zero_iff.1 (by omega)
      rw [List.getLast?_concat, hempty] at hlast
      exact absurd rfl hlast
  · intro hfits
    rcases hfits with rfl
    exact ⟨by rw [String.join_nil]; rfl, by simp⟩

/-- A front that does not end in an empty token spells something. -/
theorem join_ne_empty {s : String} {front : List String}
    (h : (s :: front).getLast? ≠ some "") : String.join (s :: front) ≠ "" := by
  intro hempty
  have hspells : Spells (s :: front) 0 := ⟨by rw [hempty]; rfl, h⟩
  exact absurd (spells_zero.1 hspells) (List.cons_ne_nil s front)

theorem not_spells_nil {n : Nat} : ¬Spells [] (n + 1) := by
  intro hfits
  rcases hfits with ⟨hlength, _⟩
  rw [String.join_nil] at hlength
  exact absurd hlength.symm (Nat.succ_ne_zero n)

theorem spells_cons_succ {s : String} {front : List String} {n : Nat} :
    Spells (s :: front) (n + 1) ↔ s.length ≤ n + 1 ∧ Spells front (n + 1 - s.length) := by
  -- An only token is the last one and must not be empty. One in front of others may be.
  cases front with
  | nil =>
      have hnil : Spells [] (n + 1 - s.length) ↔ n + 1 - s.length = 0 := by
        rw [Spells, String.join_nil]
        exact ⟨fun h => h.1.symm, fun h => ⟨h.symm, by simp⟩⟩
      rw [hnil, Spells, String.join_cons, String.join_nil, String.append_empty,
        List.getLast?_singleton]
      constructor
      · intro hfits
        rcases hfits with ⟨hlength, _⟩
        omega
      · intro hfits
        rcases hfits with ⟨hle, hrest⟩
        refine ⟨by omega, fun hempty => ?_⟩
        rw [Option.some.inj hempty] at hrest
        exact absurd hrest (Nat.succ_ne_zero n)
  | cons u more =>
      rw [Spells, Spells, String.join_cons, String.length_append, List.getLast?_cons_cons]
      constructor
      · intro hfits
        rcases hfits with ⟨hlength, hlast⟩
        exact ⟨by omega, by omega, hlast⟩
      · intro hfits
        rcases hfits with ⟨hle, hlength, hlast⟩
        exact ⟨by omega, hlast⟩

/-- How many tokens it takes to spell so many characters, if a front of them does. -/
theorem span?_eq_some {k n : Nat} {pieces : List String} :
    span? k (pieces.map Token.ofText) = some n ↔
      ∃ front back, pieces = front ++ back ∧ front.length = n ∧ Spells front k := by
  -- No characters are left to spell, and no token is taken for them.
  have hzero : ∀ {n : Nat} {pieces : List String},
      some 0 = some n ↔
        ∃ front back, pieces = front ++ back ∧ front.length = n ∧ Spells front 0 := by
    intro n pieces
    constructor
    · intro h
      cases h
      exact ⟨[], pieces, rfl, rfl, spells_zero.2 rfl⟩
    · intro hfits
      rcases hfits with ⟨front, back, _, rfl, hfront⟩
      rw [spells_zero.1 hfront]
      rfl
  induction pieces generalizing k n with
  | nil =>
      cases k with
      | zero => exact hzero
      | succ k =>
          constructor
          · intro h
            cases h
          · intro hfits
            rcases hfits with ⟨front, back, hpieces, _, hfront⟩
            rw [(List.append_eq_nil_iff.1 hpieces.symm).1] at hfront
            exact absurd hfront not_spells_nil
  | cons s rest ih =>
      cases k with
      | zero => exact hzero
      | succ k =>
          rw [List.map_cons, Token.ofText, span?]
          constructor
          · intro h
            split at h
            · next hle =>
              rcases Option.map_eq_some_iff.1 h with ⟨m, hm, rfl⟩
              rcases ih.1 hm with ⟨front, back, rfl, rfl, hfront⟩
              exact ⟨s :: front, back, rfl, rfl, spells_cons_succ.2 ⟨hle, hfront⟩⟩
            · cases h
          · intro hfits
            rcases hfits with ⟨front, back, hpieces, rfl, hfront⟩
            cases front with
            | nil => exact absurd hfront not_spells_nil
            | cons u more =>
                cases hpieces
                rcases spells_cons_succ.1 hfront with ⟨hle, hmore⟩
                rw [if_pos hle, ih.2 ⟨more, back, rfl, rfl, hmore⟩]
                rfl

/-- A text that is the beginning of some tokens is spelled by a front of them
    exactly if a front of the same length is. So to ask where a match ends, it
    is enough to count characters, which is what the search does. -/
theorem join_eq_of_prefix {front back : List String} {matched : String}
    (hbegins : matched.toList <+: (String.join (front ++ back)).toList)
    (hlength : (String.join front).length = matched.length) : String.join front = matched := by
  rw [String.join_append, String.toList_append] at hbegins
  have hfront : (String.join front).toList = matched.toList :=
    (List.prefix_of_prefix_length_le (List.prefix_append _ _) hbegins
      (Nat.le_of_eq hlength)).eq_of_length hlength
  exact String.toList_inj.1 hfront

variable [Host] {v : Variable} {g : Glob}

theorem greedyTake_of_match {pieces : List String} {r : Regex} {matched : String}
    (hregex : g.regex = some (.regex r))
    (hmatch : r.prefixMatch? (String.join pieces) = some matched) (hne : matched ≠ "") :
    greedyTake v g (pieces.map Token.ofText) =
      if g.separate then do
        let passes ← v.accepts (.text matched)
        return if passes then
          (span? matched.length (pieces.map Token.ofText)).map fun n => (matched, n) else none
      else .ok ((span? matched.length (pieces.map Token.ofText)).map fun n => (matched, n)) := by
  have hempty : matched.isEmpty = false := by
    rw [Bool.eq_false_iff]
    exact fun h => hne (String.isEmpty_iff.1 h)
  simp only [greedyTake, joined?_texts, hregex, hmatch, hempty, Bool.false_eq_true, if_false]
  cases g.separate <;> rfl

/-- What a greedy variable takes of some texts: its expression matches what a
    front of them spells, the last of which is not empty, and a separate
    requirement accepts it. This is the only fact about counting tokens that
    runs and layouts build on. -/
theorem greedyTake_eq_some {pieces : List String} {matched : String} {n : Nat} :
    greedyTake v g (pieces.map Token.ofText) = .ok (some (matched, n)) ↔
      ∃ r front back, g.regex = some (.regex r) ∧ pieces = front ++ back ∧ front.length = n ∧
        r.prefixMatch? (String.join pieces) = some matched ∧ matched ≠ "" ∧
        String.join front = matched ∧ front.getLast? ≠ some "" ∧
        (g.separate = true → v.accepts (.text matched) = .ok true) := by
  constructor
  · intro h
    -- The expression has matched something, or nothing would have been taken.
    have hmatch : ∃ r text, g.regex = some (.regex r) ∧
        r.prefixMatch? (String.join pieces) = some text ∧ text ≠ "" := by
      unfold greedyTake at h
      rw [joined?_texts] at h
      split at h
      · next r _ hregex heq =>
        cases heq
        split at h
        · cases h
        · next text hmatch =>
          split at h
          · cases h
          · next hne => exact ⟨r, text, hregex, hmatch, fun hempty => hne (by rw [hempty]; rfl)⟩
      · cases h
      · cases h
    rcases hmatch with ⟨r, text, hregex, hmatch, hne⟩
    rw [greedyTake_of_match hregex hmatch hne] at h
    have htaken : (span? text.length (pieces.map Token.ofText)).map (fun n => (text, n)) =
        some (matched, n) ∧ (g.separate = true → v.accepts (.text text) = .ok true) := by
      by_cases hseparate : g.separate = true
      · rw [if_pos hseparate] at h
        rcases bind_eq_ok.1 h with ⟨passes, hpasses, hspan⟩
        cases passes with
        | false => cases hspan
        | true => exact ⟨Except.ok.inj hspan, fun _ => hpasses⟩
      · rw [if_neg hseparate] at h
        exact ⟨Except.ok.inj h, fun h => absurd h hseparate⟩
    rcases Option.map_eq_some_iff.1 htaken.1 with ⟨m, hspan, hpair⟩
    cases hpair
    rcases span?_eq_some.1 hspan with ⟨front, back, rfl, hfront, hlength, hlast⟩
    -- The front is as long as the match, and both begin the text.
    have hjoin := join_eq_of_prefix (Regex.prefixMatch?_isPrefix hmatch) hlength
    exact ⟨r, front, back, hregex, rfl, hfront, hmatch, hne, hjoin, hlast, htaken.2⟩
  · intro hfits
    rcases hfits with ⟨r, front, back, hregex, rfl, rfl, hmatch, hne, hjoin, hlast, haccepts⟩
    have hspan : span? matched.length ((front ++ back).map Token.ofText) = some front.length :=
      span?_eq_some.2 ⟨front, back, rfl, rfl, by rw [hjoin], hlast⟩
    rw [greedyTake_of_match hregex hmatch hne, hspan]
    by_cases hseparate : g.separate = true
    · rw [if_pos hseparate, haccepts hseparate]
      rfl
    · rw [if_neg hseparate]
      rfl

/-- A greedy variable takes something only where there is nothing but texts. -/
theorem texts_of_greedyTake {tokens : List Token} {taken : String × Nat}
    (h : greedyTake v g tokens = .ok (some taken)) :
    ∃ pieces : List String, tokens = pieces.map Token.ofText := by
  unfold greedyTake at h
  split at h
  · next hjoined =>
    rcases joined?_eq_some hjoined with ⟨pieces, hpieces, _⟩
    exact ⟨pieces, hpieces⟩
  · cases h
  · cases h

/-- Over texts, a greedy variable goes wrong only if there is a separate
    requirement that does, on what the expression matches. Matching and
    counting do not go wrong by themselves. -/
theorem exists_of_greedyTake_eq_error {pieces : List String} {e : Fault}
    (h : greedyTake v g (pieces.map Token.ofText) = .error e) :
    ∃ r matched, g.regex = some (.regex r) ∧
      r.prefixMatch? (String.join pieces) = some matched ∧ matched ≠ "" ∧
      g.separate = true ∧ v.accepts (.text matched) = .error e := by
  unfold greedyTake at h
  rw [joined?_texts] at h
  split at h
  · next r _ hregex heq =>
    cases heq
    split at h
    · cases h
    · next matched hmatch =>
      split at h
      · cases h
      · next hne =>
        refine ⟨r, matched, hregex, hmatch, fun hempty => hne (by rw [hempty]; rfl), ?_⟩
        -- Everything before the requirement gives up without a failure.
        cases hseparate : g.separate with
        | false =>
            rw [hseparate] at h
            cases h
        | true =>
            rw [hseparate] at h
            cases hpasses : v.accepts (.text matched) with
            | error fault =>
                rw [hpasses] at h
                cases h
                exact ⟨rfl, rfl⟩
            | ok passes =>
                rw [hpasses] at h
                cases h
  · next hnone => cases hnone
  · cases h

/-- Over texts, a greedy variable goes wrong only if its validator does. -/
theorem greedyTake_eq_error {pieces : List String} {e : Fault}
    (h : greedyTake v g (pieces.map Token.ofText) = .error e) :
    ∃ text, v.accepts (.text text) = .error e := by
  rcases exists_of_greedyTake_eq_error h with ⟨_, matched, _, _, _, _, hfault⟩
  exact ⟨matched, hfault⟩

end PathRouting
