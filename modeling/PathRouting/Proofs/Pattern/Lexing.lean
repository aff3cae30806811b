import Mathlib.Data.List.Chain
import PathRouting.Pattern.Lexeme

/-!
# Cutting a Pattern into Lexemes

What one step of cutting can do: a character that is plain goes to the run of
text that is being collected, and any other one ends the run and starts a
lexeme of its own. Everything about the lexemes of a pattern follows from that
by going through its characters.

Delimiters and plain runs, written one after the other, are cut into the same
again, as long as no two runs stand side by side.

## Main definitions

* `isPlain`: The character belongs to a run of text.
* `Begins`: The lexeme that starts with a character which is not plain.
* `Lexeme.Clean`: The shape of a lexeme.
* `Lexeme.isFlat`: The lexeme is a delimiter or a run of text.

## Theorems

* `lexemesFrom_cons_cases`: What one step of cutting can do.
* `lexemesFrom_clean`: The shape of the lexemes of a pattern.
* `lexemesFrom_source`: Delimiters and runs are cut into the same again.
-/

namespace PathRouting

namespace Pattern

variable {delimiters : List String}

/-- The character belongs to a run of text: it is no delimiter and the syntax
    has no use for it. -/
def isPlain (delimiters : List String) (c : Char) : Bool :=
  !delimiters.contains (String.singleton c) && !(['(', ')', '|', '\x7b', '\x7d'].contains c)

theorem isPlain_eq_true {c : Char} : isPlain delimiters c = true ↔
    delimiters.contains (String.singleton c) = false ∧ c ∉ ['(', ')', '|', '\x7b', '\x7d'] := by
  rw [isPlain, Bool.and_eq_true, Bool.not_eq_true', Bool.not_eq_true',
    List.contains_eq_mem c, decide_eq_false_iff_not]

/-- The lexeme that starts with a character which is not plain, and how many
    of the characters behind it belong to the lexeme. A delimiter is one
    whatever else it could be. -/
inductive Begins (delimiters : List String) : Char → List Char → Lexeme → Nat → Prop
  | mark {c : Char} {rest : List Char} (h : delimiters.contains (String.singleton c) = true) :
      Begins delimiters c rest (.mark c) 0
  | opening {rest : List Char} (h : delimiters.contains (String.singleton '(') = false) :
      Begins delimiters '(' rest .opening 0
  | closing {rest : List Char} (h : delimiters.contains (String.singleton ')') = false) :
      Begins delimiters ')' rest .closing 0
  | bar {rest : List Char} (h : delimiters.contains (String.singleton '|') = false) :
      Begins delimiters '|' rest .bar 0
  | brace {rest : List Char} {n : Nat} (h : delimiters.contains (String.singleton '\x7b') = false)
      (hn : bodyLength? 0 rest = some n) :
      Begins delimiters '\x7b' rest (.brace (rest.take n)) (n + 1)

/-- What one step of cutting can do: the character goes to the run, or it ends
    the run and starts another lexeme. Everything on lexemes is an induction
    over these two, with the run that is being collected generalized. -/
theorem lexemesFrom_cons_cases {position : Nat} {run rest : List Char} {c : Char}
    {ls : List Lexeme} (h : lexemesFrom delimiters 0 position run (c :: rest) = .ok ls) :
    (isPlain delimiters c = true ∧
      lexemesFrom delimiters 0 (position + 1) (c :: run) rest = .ok ls) ∨
    ∃ l skip more, Begins delimiters c rest l skip ∧
      lexemesFrom delimiters skip (position + 1) [] rest = .ok more ∧
      ls = closeText run ++ l :: more := by
  -- Whatever lexeme the character starts, the step goes on in the same way behind it.
  have hnext : ∀ {skip : Nat} {l : Lexeme}, Begins delimiters c rest l skip →
      (do return closeText run ++ l ::
        (← lexemesFrom delimiters skip (position + 1) [] rest)) = Except.ok ls →
      ∃ l skip more, Begins delimiters c rest l skip ∧
        lexemesFrom delimiters skip (position + 1) [] rest = .ok more ∧
        ls = closeText run ++ l :: more := by
    intro skip l hl hstep
    rcases bind_eq_ok.1 hstep with ⟨more, hmore, hls⟩
    cases hls
    exact ⟨l, skip, more, hl, hmore, rfl⟩
  simp only [lexemesFrom] at h
  -- In the order in which the character is looked at: a delimiter comes before the syntax, also
  -- where it is a character of the syntax.
  by_cases hmark : delimiters.contains (String.singleton c) = true
  · rw [if_pos hmark] at h
    exact Or.inr (hnext (.mark hmark) h)
  · rw [if_neg hmark] at h
    rw [Bool.not_eq_true] at hmark
    by_cases hopening : c = '('
    · subst hopening
      exact Or.inr (hnext (.opening hmark) h)
    by_cases hclosing : c = ')'
    · subst hclosing
      exact Or.inr (hnext (.closing hmark) h)
    by_cases hbar : c = '|'
    · subst hbar
      exact Or.inr (hnext (.bar hmark) h)
    rw [if_neg hopening, if_neg hclosing, if_neg hbar] at h
    split at h
    · next hbrace =>
      subst hbrace
      split at h
      · next n hn => exact Or.inr (hnext (.brace hmark hn) h)
      · cases h
    · next hbrace =>
      split at h
      · cases h
      · next hstray =>
        refine Or.inl ⟨isPlain_eq_true.2 ⟨hmark, ?_⟩, h⟩
        simp [hopening, hclosing, hbar, hbrace, hstray]

/-! ## The shape of lexemes -/

/-- A mark is a delimiter, and a run of text is not empty and has only plain
    characters. -/
def Lexeme.Clean (delimiters : List String) : Lexeme → Prop
  | .mark c => delimiters.contains (String.singleton c) = true
  | .text run => run ≠ [] ∧ ∀ c ∈ run, isPlain delimiters c = true
  | .opening | .closing | .bar | .brace _ => True

theorem Begins.clean {c : Char} {rest : List Char} {l : Lexeme} {skip : Nat}
    (h : Begins delimiters c rest l skip) : l.Clean delimiters := by
  cases h with
  | mark hmark => exact hmark
  | opening | closing | bar | brace => trivial

theorem closeText_clean {run : List Char} (hrun : ∀ c ∈ run, isPlain delimiters c = true) :
    ∀ l ∈ closeText run, l.Clean delimiters := by
  intro l hl
  unfold closeText at hl
  split at hl
  · exact absurd hl List.not_mem_nil
  · next hne =>
    rw [List.mem_singleton] at hl
    subst hl
    exact ⟨by simpa using hne, fun c hc => hrun c (List.mem_reverse.1 hc)⟩

/-- The lexemes of a pattern are clean. The run that is being collected has
    only plain characters, since every other one ends it. -/
theorem lexemesFrom_clean (skip position : Nat) (run cs : List Char) {ls : List Lexeme}
    (hrun : ∀ c ∈ run, isPlain delimiters c = true)
    (h : lexemesFrom delimiters skip position run cs = .ok ls) :
    ∀ l ∈ ls, l.Clean delimiters := by
  induction cs generalizing skip position run ls with
  | nil =>
      have hls : closeText run = ls := by
        cases skip <;> exact Except.ok.inj h
      rw [← hls]
      exact closeText_clean hrun
  | cons c rest ih =>
      cases skip with
      | succ skip => exact ih skip (position + 1) run hrun h
      | zero =>
          rcases lexemesFrom_cons_cases h with ⟨hc, h⟩ | ⟨l, skip, more, hl, hmore, rfl⟩
          · exact ih 0 (position + 1) (c :: run) (List.forall_mem_cons.2 ⟨hc, hrun⟩) h
          · rw [List.forall_mem_append, List.forall_mem_cons]
            exact ⟨closeText_clean hrun, hl.clean, ih skip _ [] (by simp) hmore⟩

/-! ## From lexemes to text and back -/

/-- The lexeme is a delimiter or a run of text. -/
def Lexeme.isFlat : Lexeme → Bool
  | .mark _ | .text _ => true
  | _ => false

/-- The lexeme is a delimiter. -/
def Lexeme.isMark : Lexeme → Bool
  | .mark _ => true
  | _ => false

theorem lexemesFrom_plain {c : Char} (hc : isPlain delimiters c = true) (position : Nat)
    (run rest : List Char) :
    lexemesFrom delimiters 0 position run (c :: rest) =
      lexemesFrom delimiters 0 (position + 1) (c :: run) rest := by
  obtain ⟨hmark, hsyntax⟩ := isPlain_eq_true.1 hc
  simp only [List.mem_cons, List.not_mem_nil, or_false, not_or] at hsyntax
  simp only [lexemesFrom, hmark, hsyntax, if_false, Bool.false_eq_true]

theorem lexemesFrom_mark {c : Char} (hc : delimiters.contains (String.singleton c) = true)
    (position : Nat) (run rest : List Char) :
    lexemesFrom delimiters 0 position run (c :: rest) =
      (do return closeText run ++ .mark c ::
        (← lexemesFrom delimiters 0 (position + 1) [] rest)) := by
  simp only [lexemesFrom, if_pos hc]

/-- Plain characters make the run longer. -/
theorem lexemesFrom_run {cs : List Char} (hcs : ∀ c ∈ cs, isPlain delimiters c = true)
    (position : Nat) (run rest : List Char) :
    lexemesFrom delimiters 0 position run (cs ++ rest) =
      lexemesFrom delimiters 0 (position + cs.length) (cs.reverse ++ run) rest := by
  induction cs generalizing position run with
  | nil => rfl
  | cons c cs ih =>
      obtain ⟨hc, hcs⟩ := List.forall_mem_cons.1 hcs
      rw [List.cons_append, lexemesFrom_plain hc, ih hcs, List.reverse_cons, List.append_assoc,
        List.length_cons, Nat.add_assoc, Nat.add_comm 1]
      rfl

/-- Delimiters and runs of text, no two of the runs side by side, are cut into
    the same again. -/
theorem lexemesFrom_source {ls : List Lexeme} (hclean : ∀ l ∈ ls, l.Clean delimiters)
    (hflat : ∀ l ∈ ls, l.isFlat = true)
    (hchain : ls.IsChain fun k l => k.isMark = true ∨ l.isMark = true) (position : Nat) :
    lexemesFrom delimiters 0 position [] (ls.flatMap Lexeme.source) = .ok ls := by
  induction ls generalizing position with
  | nil => rfl
  | cons l rest ih =>
      obtain ⟨hl, hrest⟩ := List.forall_mem_cons.1 hclean
      obtain ⟨hlflat, hrestflat⟩ := List.forall_mem_cons.1 hflat
      obtain ⟨hnext, hback⟩ := List.isChain_cons.1 hchain
      have hmore := fun position => ih hrest hrestflat hback position
      rw [List.flatMap_cons]
      cases l with
      | opening | closing | bar => cases hlflat
      | brace body => cases hlflat
      | mark c =>
          exact (lexemesFrom_mark hl position [] _).trans
            (bind_eq_ok.2 ⟨rest, hmore (position + 1), rfl⟩)
      | text run =>
          have hclose : closeText (run.reverse ++ []) = [.text run] := by
            simp [closeText, hl.1]
          refine (lexemesFrom_run hl.2 position [] _).trans ?_
          -- The run ends at the end of the text, or in front of a delimiter.
          cases rest with
          | nil => exact congrArg Except.ok hclose
          | cons m more =>
              have hm := (hnext m rfl).resolve_left (by simp [Lexeme.isMark])
              cases m with
              | opening | closing | bar => cases hm
              | brace body => cases hm
              | text run => cases hm
              | mark c =>
                  have hc := (List.forall_mem_cons.1 hrest).1
                  have hrun := hmore (position + run.length)
                  rw [List.flatMap_cons, Lexeme.source, List.singleton_append,
                    lexemesFrom_mark hc] at hrun ⊢
                  obtain ⟨tail, htail, heq⟩ := bind_eq_ok.1 hrun
                  cases heq
                  rw [hclose]
                  exact bind_eq_ok.2 ⟨more, htail, rfl⟩

end Pattern

end PathRouting
