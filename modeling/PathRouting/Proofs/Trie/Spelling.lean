import PathRouting.Proofs.Trie.Layout

/-!
# The Words of a Match

Every literal and every variable for one token spell one word, and a glob
spells as many as it has taken. The words come in the order of the parts, and
no delimiter is among them: they are the tokens of the text without its
delimiters.

How many words a glob has is not written in the path. But all the other parts
spell one word each, so with a single glob in the path its own words are those
that are left.

## Main definitions

* `globs`: The globs among the parts of a path.
* `Spelled`: How the parts of a path spell words, and what is bound.

## Theorems

* `Spelled.unique`: The words decide what is bound if there is no more than
  one glob.
* `Layout.spelled`: The parts spell the words of the tokens that are laid out
  over them.
-/

namespace PathRouting

variable {delimiters : List String}

/-- The globs among the parts of a path. -/
def globs (parts : List Segment) : List Variable :=
  (parts.filterMap Segment.var?).filter Variable.isGlob

/-- How the parts of a path spell words, from left to right, and what is
    bound. Separators spell nothing, so that a text counts only for what it
    has between its delimiters. -/
inductive Spelled : List Segment → List String → Bindings → Prop
  | nil : Spelled [] [] []
  | literal {s : String} {parts : List Segment} {ws : List String} {b : Bindings}
      (onward : Spelled parts ws b) : Spelled (.literal s :: parts) (s :: ws) b
  | separator {s : String} {parts : List Segment} {ws : List String} {b : Bindings}
      (onward : Spelled parts ws b) : Spelled (.separator s :: parts) ws b
  | single {s : String} {v : Variable} {parts : List Segment} {ws : List String} {b : Bindings}
      (kind : v.isGlob = false) (onward : Spelled parts ws b) :
      Spelled (.var v :: parts) (s :: ws) ((v.name, .one (.text s)) :: b)
  | several {own : List String} {v : Variable} {parts : List Segment} {ws : List String}
      {b : Bindings} (kind : v.isGlob = true) (onward : Spelled parts ws b) :
      Spelled (.var v :: parts) (own ++ ws) ((v.name, .many (own.map .text)) :: b)

theorem globs_var_of_glob {v : Variable} (kind : v.isGlob = true) (parts : List Segment) :
    globs (.var v :: parts) = v :: globs parts :=
  List.filter_cons_of_pos kind

theorem globs_var_of_single {v : Variable} (kind : v.isGlob = false) (parts : List Segment) :
    globs (.var v :: parts) = globs parts :=
  List.filter_cons_of_neg (Bool.eq_false_iff.1 kind)

namespace Spelled

variable {parts : List Segment} {ws : List String} {b : Bindings}

/-- Where there is no glob, the number of words is known. -/
theorem length_eq (h : Spelled parts ws b) (hglobs : globs parts = []) :
    ws.length = (parts.filter (!·.isSeparator)).length := by
  induction h with
  | nil => rfl
  | literal onward ih => exact congrArg Nat.succ (ih hglobs)
  | separator onward ih => exact ih hglobs
  | @single s v parts ws b kind onward ih =>
      rw [globs_var_of_single kind] at hglobs
      exact congrArg Nat.succ (ih hglobs)
  | @several own v parts ws b kind onward ih =>
      rw [globs_var_of_glob kind] at hglobs
      cases hglobs

/-- The words decide what is bound if there is no more than one glob. Its own
    words are those that are left when all behind it are counted. With two
    globs a word in between could belong to either of them. -/
theorem unique (h : Spelled parts ws b) (hglobs : (globs parts).length ≤ 1) {b' : Bindings}
    (h' : Spelled parts ws b') : b' = b := by
  induction h generalizing b' with
  | nil =>
      cases h'
      rfl
  | literal onward ih =>
      cases h' with
      | literal onward' => exact ih hglobs onward'
  | separator onward ih =>
      cases h' with
      | separator onward' => exact ih hglobs onward'
  | @single s v parts ws b kind onward ih =>
      rw [globs_var_of_single kind] at hglobs
      generalize hwords : s :: ws = words at h'
      cases h' with
      | single _ onward' =>
          cases hwords
          rw [ih hglobs onward']
      | several kind' onward' =>
          rw [kind] at kind'
          cases kind'
  | @several own v parts ws b kind onward ih =>
      rw [globs_var_of_glob kind, List.length_cons] at hglobs
      have hnone : globs parts = [] := List.length_eq_zero_iff.1 (by omega)
      generalize hwords : own ++ ws = words at h'
      cases h' with
      | single kind' onward' =>
          rw [kind] at kind'
          cases kind'
      | several kind' onward' =>
          -- Behind the glob every variable takes one word, so both readings leave as many words.
          have hlength := (onward.length_eq hnone).trans (onward'.length_eq hnone).symm
          rcases List.append_inj' hwords hlength with ⟨rfl, rfl⟩
          rw [ih (by rw [hnone]; exact Nat.zero_le 1) onward']

/-- Separators in front of the parts spell nothing. -/
theorem separators (h : Spelled parts ws b) (marks : List String) :
    Spelled (marks.map Segment.separator ++ parts) ws b := by
  induction marks with
  | nil => exact h
  | cons m marks ih => exact .separator ih

end Spelled

/-- The parts of a path spell the words of the tokens that are laid out over them. -/
theorem Layout.spelled (hcharacters : Tokens.Characters delimiters)
    {parts : List Segment} (hfits : ∀ s ∈ parts, s.Fits delimiters)
    (hgreedy : ∀ v, Segment.var v ∈ parts → v.isGreedy = false) {pieces : List String}
    {b : Bindings} (h : Layout delimiters parts pieces b) :
    Spelled parts (words delimiters pieces) b := by
  induction h with
  | nil => exact .nil
  | @literal s parts pieces b onward ih =>
      rcases List.forall_mem_cons.1 hfits with ⟨hs, hrest⟩
      rw [words_cons_word (Tokens.Plain.isDelimiter_eq hs hcharacters)]
      exact .literal (ih hrest fun v hv => hgreedy v (List.mem_cons_of_mem _ hv))
  | @separator s parts pieces b onward ih =>
      rcases List.forall_mem_cons.1 hfits with ⟨⟨c, _, hmark⟩, hrest⟩
      rw [words_cons_mark hmark]
      exact .separator (ih hrest fun v hv => hgreedy v (List.mem_cons_of_mem _ hv))
  | @single s v parts pieces b kind mark onward ih =>
      have hrest := ih (List.forall_mem_cons.1 hfits).2
        fun v hv => hgreedy v (List.mem_cons_of_mem _ hv)
      rw [words_cons_word mark]
      exact .single (by rw [Variable.isGlob, kind]; rfl) hrest
  | greedy kind =>
      rw [hgreedy _ List.mem_cons_self] at kind
      cases kind
  | @several s piece separators v parts pieces b kind greedy mark among ends onward ih =>
      -- The separators in the piece of the glob are segments of their own.
      have hrest := ih
        (fun s hs => hfits s (List.mem_cons_of_mem _ (List.mem_append_right _ hs)))
        fun v hv => hgreedy v (List.mem_cons_of_mem _ (List.mem_append_right _ hv))
      rw [words_append]
      exact .several kind (hrest.separators separators)

end PathRouting
