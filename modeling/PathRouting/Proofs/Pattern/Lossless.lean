import PathRouting.Proofs.Pattern.Braces
import PathRouting.Proofs.Pattern.Lexing
import PathRouting.Pattern.Tree
import PathRouting.Router.Options

/-!
# Nothing Is Lost in Cutting

The lexemes of a pattern, written one after the other, are the pattern again:
a run of text is written as it was collected, and a brace takes as many
characters as its body has, and two more. Two runs of text never stand side by
side, since what ends a run starts a lexeme of another kind.

Cutting fails in two ways only. Going through a pattern from left to right,
past whole brace bodies, it comes to a closing brace, or to an opening one
that nothing balances.

## Main definitions

* `Lexeme.isText`: The lexeme is a run of text.
* `Skims`: What is left of a text after some of its characters, past whole
  brace bodies.
* `Fails`: The two braces that cutting can fail at.

## Theorems

* `Begins.source`: A lexeme takes the characters that it is written with.
* `lexemesFrom_lossless`: So do all lexemes together.
* `lexemesFrom_isChain`: No two runs stand side by side.
* `lexemesFrom_eq_error_iff`: When cutting fails, and with which fault.
* `lexemes_cut`: What cutting a pattern gives, and when it fails.
-/

namespace PathRouting

namespace Pattern

variable {delimiters : List String}

/-- The lexeme is a run of text. -/
def Lexeme.isText : Lexeme → Bool
  | .text _ => true
  | _ => false

/-! ## What is cut -/

theorem ClosesFirst.take_append {rest : List Char} {n : Nat} (h : ClosesFirst 0 rest n) :
    rest.take n ++ '\x7d' :: rest.drop (n + 1) = rest := by
  obtain ⟨hn, hget⟩ := List.getElem?_eq_some_iff.1 h.closes.brace
  rw [← hget, List.getElem_cons_drop, List.take_append_drop]

theorem ClosesFirst.length_take {rest : List Char} {n : Nat} (h : ClosesFirst 0 rest n) :
    (rest.take n).length = n := by
  obtain ⟨hn, -⟩ := List.getElem?_eq_some_iff.1 h.closes.brace
  exact List.length_take_of_le hn.le

theorem flatMap_source_closeText (run : List Char) :
    (closeText run).flatMap Lexeme.source = run.reverse := by
  unfold closeText
  split
  · next h => simp [List.isEmpty_iff.1 h]
  · simp [Lexeme.source]

/-- A lexeme takes the characters that it is written with. -/
theorem Begins.source {c : Char} {rest : List Char} {l : Lexeme} {skip : Nat}
    (h : Begins delimiters c rest l skip) : l.source ++ rest.drop skip = c :: rest := by
  cases h with
  | mark | opening | closing | bar => rfl
  | brace _ hn =>
      have hbody := (bodyLength?_eq_some_iff.1 hn).take_append
      rw [Lexeme.source, List.cons_append, List.cons_append, List.append_assoc,
        List.singleton_append, hbody]

/-- The lexemes are written as the run that was collected before them and the
    rest of the pattern. -/
theorem lexemesFrom_lossless {skip position : Nat} {run cs : List Char} {ls : List Lexeme}
    (h : lexemesFrom delimiters skip position run cs = .ok ls) :
    ls.flatMap Lexeme.source = run.reverse ++ cs.drop skip := by
  induction cs generalizing skip position run ls with
  | nil =>
      have hls : closeText run = ls := by
        cases skip <;> exact Except.ok.inj h
      rw [← hls, flatMap_source_closeText, List.drop_nil, List.append_nil]
  | cons c rest ih =>
      cases skip with
      | succ skip => exact ih h
      | zero =>
          rcases lexemesFrom_cons_cases h with ⟨-, h⟩ | ⟨l, skip, more, hl, hmore, rfl⟩
          · rw [ih h, List.reverse_cons, List.append_assoc]
            rfl
          · rw [List.flatMap_append, List.flatMap_cons, flatMap_source_closeText, ih hmore,
              List.reverse_nil, List.nil_append, hl.source, List.drop_zero]

theorem Begins.isText {c : Char} {rest : List Char} {l : Lexeme} {skip : Nat}
    (h : Begins delimiters c rest l skip) : l.isText = false := by
  cases h <;> rfl

/-- No two runs of text stand side by side: what ends a run is no text. -/
theorem lexemesFrom_isChain {skip position : Nat} {run cs : List Char} {ls : List Lexeme}
    (h : lexemesFrom delimiters skip position run cs = .ok ls) :
    ls.IsChain fun k l => k.isText = false ∨ l.isText = false := by
  induction cs generalizing skip position run ls with
  | nil =>
      have hls : closeText run = ls := by
        cases skip <;> exact Except.ok.inj h
      rw [← hls]
      unfold closeText
      split
      · exact .nil
      · exact .singleton _
  | cons c rest ih =>
      cases skip with
      | succ skip => exact ih h
      | zero =>
          -- A run grows until a lexeme begins that is none, and that one stands between it and the
          -- next.
          rcases lexemesFrom_cons_cases h with ⟨-, h⟩ | ⟨l, skip, more, hl, hmore, rfl⟩
          · exact ih h
          · have hback : (l :: more).IsChain fun k l => k.isText = false ∨ l.isText = false :=
              List.isChain_cons.2 ⟨fun _ _ => Or.inl hl.isText, ih hmore⟩
            unfold closeText
            split
            · exact hback
            · refine List.isChain_cons.2 ⟨fun m hm => Or.inr ?_, hback⟩
              rw [← Option.some.inj hm]
              exact hl.isText

/-- The body of a brace that starts a lexeme ends at the first brace that
    balances it. -/
theorem Begins.closesFirst {c : Char} {rest body : List Char} {skip : Nat}
    (h : Begins delimiters c rest (.brace body) skip) :
    ClosesFirst 0 (body ++ '\x7d' :: rest.drop skip) body.length := by
  cases h with
  | brace _ hn =>
      have hfirst := bodyLength?_eq_some_iff.1 hn
      rw [hfirst.take_append, hfirst.length_take]
      exact hfirst

theorem brace_not_mem_closeText (run body : List Char) : .brace body ∉ closeText run := by
  unfold closeText
  split <;> simp

/-- So it is with every brace among the lexemes. What follows it in the
    pattern is what the lexemes behind it are written as. -/
theorem lexemesFrom_closesFirst {skip position : Nat} {run cs : List Char} {ls : List Lexeme}
    (h : lexemesFrom delimiters skip position run cs = .ok ls) {front back : List Lexeme}
    {body : List Char} (hsplit : ls = front ++ .brace body :: back) :
    ClosesFirst 0 (body ++ '\x7d' :: back.flatMap Lexeme.source) body.length := by
  induction cs generalizing skip position run ls front with
  | nil =>
      have hls : closeText run = ls := by
        cases skip <;> exact Except.ok.inj h
      exact absurd (by rw [hls, hsplit]; simp) (brace_not_mem_closeText run body)
  | cons c rest ih =>
      cases skip with
      | succ skip => exact ih h hsplit
      | zero =>
          rcases lexemesFrom_cons_cases h with ⟨-, h⟩ | ⟨l, skip, more, hl, hmore, rfl⟩
          · exact ih h hsplit
          · -- The brace does not belong to the run, so it starts here or further behind.
            have hrest : ∃ middle, l :: more = middle ++ .brace body :: back := by
              rcases List.append_eq_append_iff.1 hsplit with
                ⟨middle, -, hmiddle⟩ | ⟨_ | ⟨m, middle⟩, htext, hmiddle⟩
              · exact ⟨middle, hmiddle⟩
              · exact ⟨[], hmiddle.symm⟩
              · cases hmiddle
                exact absurd (by rw [htext]; simp) (brace_not_mem_closeText run body)
            obtain ⟨_ | ⟨m, middle⟩, hmiddle⟩ := hrest
            · cases hmiddle
              rw [lexemesFrom_lossless hmore]
              exact hl.closesFirst
            · cases hmiddle
              exact ih hmore rfl

/-! ## When cutting fails -/

/-- What is left of a text after so many of its characters, going past braces
    with their whole bodies. -/
inductive Skims : List Char → Nat → List Char → Prop
  | start (text : List Char) : Skims text 0 text
  | plain {c : Char} {rest last : List Char} {k : Nat} (hopening : c ≠ '\x7b')
      (hclosing : c ≠ '\x7d') (h : Skims rest k last) : Skims (c :: rest) (k + 1) last
  | body {rest last : List Char} {n k : Nat} (hn : ClosesFirst 0 rest n)
      (h : Skims (rest.drop (n + 1)) k last) : Skims ('\x7b' :: rest) (n + 1 + k + 1) last

/-- Going through a text, one comes to a closing brace, or to an opening brace
    that nothing balances. The faults tell where that is, if the text starts
    at a position. Lexemes do not occur in it: whether a pattern can be cut
    can be told by counting braces. -/
inductive Fails (text : List Char) (position : Nat) : PatternFault → Prop
  | stray {k place : Nat} {rest : List Char} (h : Skims text k ('\x7d' :: rest))
      (hplace : place = position + k) : Fails text position (.strayBrace place)
  | unbalanced {k place : Nat} {rest : List Char} (h : Skims text k ('\x7b' :: rest))
      (hnone : ∀ n, ¬Closes 0 rest n) (hplace : place = position + k) :
      Fails text position (.openBrace place)

section Fails

variable {position : Nat} {rest : List Char} {e : PatternFault}

theorem not_fails_nil : ¬Fails [] position e := by
  rintro (⟨h⟩ | ⟨h, -⟩) <;> cases h

theorem fails_plain_iff {c : Char} (hopening : c ≠ '\x7b') (hclosing : c ≠ '\x7d') :
    Fails (c :: rest) position e ↔ Fails rest (position + 1) e := by
  constructor
  · rintro (⟨h, rfl⟩ | ⟨h, hnone, rfl⟩)
    · cases h with
      | start => exact absurd rfl hclosing
      | plain _ _ h => exact .stray h (by omega)
      | body => exact absurd rfl hopening
    · cases h with
      | start => exact absurd rfl hopening
      | plain _ _ h => exact .unbalanced h hnone (by omega)
      | body => exact absurd rfl hopening
  · rintro (⟨h, rfl⟩ | ⟨h, hnone, rfl⟩)
    · exact .stray (.plain hopening hclosing h) (by omega)
    · exact .unbalanced (.plain hopening hclosing h) hnone (by omega)

theorem fails_body_iff {n : Nat} (hn : ClosesFirst 0 rest n) :
    Fails ('\x7b' :: rest) position e ↔ Fails (rest.drop (n + 1)) (position + 1 + (n + 1)) e := by
  have hunique : ∀ {m}, ClosesFirst 0 rest m → m = n := fun hm => Option.some.inj
    ((bodyLength?_eq_some_iff.2 hm).symm.trans (bodyLength?_eq_some_iff.2 hn))
  -- What fails behind the brace is the same, at a place further on by the length of the body and
  -- the brace itself. The body is the only one there is.
  constructor
  · rintro (⟨h, rfl⟩ | ⟨h, hnone, rfl⟩)
    · cases h with
      | plain hopening => exact absurd rfl hopening
      | body hm h =>
          cases hunique hm
          exact .stray h (by omega)
    · cases h with
      | start => exact absurd hn.closes (hnone n)
      | plain hopening => exact absurd rfl hopening
      | body hm h =>
          cases hunique hm
          exact .unbalanced h hnone (by omega)
  · rintro (⟨h, rfl⟩ | ⟨h, hnone, rfl⟩)
    · exact .stray (.body hn h) (by omega)
    · exact .unbalanced (.body hn h) hnone (by omega)

theorem fails_closing_iff :
    Fails ('\x7d' :: rest) position e ↔ e = .strayBrace position := by
  constructor
  · rintro (⟨h, rfl⟩ | ⟨h, -, -⟩)
    · cases h with
      | start => rfl
      | plain _ hclosing => exact absurd rfl hclosing
    · cases h with
      | plain _ hclosing => exact absurd rfl hclosing
  · rintro rfl
    exact .stray (.start _) rfl

theorem fails_opening_iff (hnone : ∀ n, ¬Closes 0 rest n) :
    Fails ('\x7b' :: rest) position e ↔ e = .openBrace position := by
  constructor
  · rintro (⟨h, -⟩ | ⟨h, -, rfl⟩)
    · cases h with
      | plain hopening => exact absurd rfl hopening
      | body hn => exact absurd hn.closes (hnone _)
    · cases h with
      | start => rfl
      | plain hopening => exact absurd rfl hopening
      | body hn => exact absurd hn.closes (hnone _)
  · rintro rfl
    exact .unbalanced (.start _) hnone rfl

end Fails

/-- The characters of a body that has been taken are passed over. -/
theorem lexemesFrom_skip (skip position : Nat) (run cs : List Char) (h : skip ≤ cs.length) :
    lexemesFrom delimiters skip position run cs =
      lexemesFrom delimiters 0 (position + skip) run (cs.drop skip) := by
  induction cs generalizing skip position with
  | nil =>
      cases Nat.le_zero.1 h
      rfl
  | cons c rest ih =>
      cases skip with
      | zero => rfl
      | succ skip =>
          rw [lexemesFrom, ih skip (position + 1) (Nat.le_of_succ_le_succ h), List.drop_succ_cons,
            Nat.add_assoc, Nat.add_comm 1]

/-- A character that starts a lexeme ends the run in front of it. -/
theorem lexemesFrom_of_begins {c : Char} {rest : List Char} {l : Lexeme} {skip : Nat}
    (h : Begins delimiters c rest l skip) (position : Nat) (run : List Char) :
    lexemesFrom delimiters 0 position run (c :: rest) =
      (do return closeText run ++ l ::
        (← lexemesFrom delimiters skip (position + 1) [] rest)) := by
  cases h with
  | mark hmark => exact lexemesFrom_mark hmark position run rest
  | opening hfree | closing hfree | bar hfree =>
      simp only [lexemesFrom, hfree, Bool.false_eq_true, if_false, if_true, Char.reduceEq]
  | brace hfree hn =>
      simp only [lexemesFrom, hfree, Bool.false_eq_true, if_false, if_true, Char.reduceEq, hn]

/-- What a character can be: plain, the start of a lexeme, or a brace to fail at. -/
theorem begins_cases (delimiters : List String) (c : Char) (rest : List Char) :
    isPlain delimiters c = true ∨ (∃ l skip, Begins delimiters c rest l skip) ∨ c = '\x7d' ∨
      (c = '\x7b' ∧ bodyLength? 0 rest = none) := by
  cases hmark : delimiters.contains (String.singleton c) with
  | true => exact Or.inr (Or.inl ⟨_, _, .mark hmark⟩)
  | false =>
      by_cases hsyntax : c ∈ ['(', ')', '|', '\x7b', '\x7d']
      · simp only [List.mem_cons, List.not_mem_nil, or_false] at hsyntax
        rcases hsyntax with rfl | rfl | rfl | rfl | rfl
        · exact Or.inr (Or.inl ⟨_, _, .opening hmark⟩)
        · exact Or.inr (Or.inl ⟨_, _, .closing hmark⟩)
        · exact Or.inr (Or.inl ⟨_, _, .bar hmark⟩)
        · cases hbody : bodyLength? 0 rest with
          | none => exact Or.inr (Or.inr (Or.inr ⟨rfl, rfl⟩))
          | some n => exact Or.inr (Or.inl ⟨_, _, .brace hmark hbody⟩)
        · exact Or.inr (Or.inr (Or.inl rfl))
      · exact Or.inl (isPlain_eq_true.2 ⟨hmark, hsyntax⟩)

/-- Cutting fails exactly if going through the text does, with the same fault.
    What was collected before plays no part in it, and neither do parentheses,
    which are paired later. -/
theorem lexemesFrom_eq_error_iff
    (hopening : delimiters.contains (String.singleton '\x7b') = false)
    (hclosing : delimiters.contains (String.singleton '\x7d') = false)
    {position : Nat} {run cs : List Char} {e : PatternFault} :
    lexemesFrom delimiters 0 position run cs = .error e ↔ Fails cs position e := by
  -- A brace leads to a rest that is more than one character shorter.
  induction hlength : cs.length using Nat.strongRecOn generalizing cs position run with
  | _ length ih =>
      subst hlength
      cases cs with
      | nil => exact ⟨(nomatch ·), fun h => absurd h not_fails_nil⟩
      | cons c rest =>
          have hlater : ∀ {skip : Nat} {l : Lexeme} {position' : Nat}, skip ≤ rest.length →
              ((do return closeText run ++ l ::
                (← lexemesFrom delimiters skip position' [] rest)) = Except.error e ↔
                Fails (rest.drop skip) (position' + skip) e) := by
            intro skip l position' hskip
            have hshorter : (rest.drop skip).length < (c :: rest).length := by
              rw [List.length_drop, List.length_cons]
              omega
            rw [lexemesFrom_skip skip position' [] rest hskip, ← ih _ hshorter rfl]
            constructor
            · intro h
              rcases bind_eq_error.1 h with h | ⟨_, _, h⟩
              · exact h
              · cases h
            · exact fun h => bind_eq_error.2 (Or.inl h)
          rcases begins_cases delimiters c rest with
            hplain | ⟨l, skip, hl⟩ | rfl | ⟨rfl, hnone⟩
          · obtain ⟨-, hsyntax⟩ := isPlain_eq_true.1 hplain
            rw [lexemesFrom_plain hplain, ih _ (by simp) rfl, fails_plain_iff]
            · exact fun h => hsyntax (by simp [h])
            · exact fun h => hsyntax (by simp [h])
          · rw [lexemesFrom_of_begins hl]
            cases hl with
            | mark hmark =>
                rw [hlater (Nat.zero_le _), fails_plain_iff]
                · rfl
                · rintro rfl
                  exact absurd (hopening.symm.trans hmark) (by decide)
                · rintro rfl
                  exact absurd (hclosing.symm.trans hmark) (by decide)
            | opening | closing | bar =>
                rw [hlater (Nat.zero_le _), fails_plain_iff (by decide) (by decide)]
                rfl
            | @brace _ n _ hn =>
                have hfirst := bodyLength?_eq_some_iff.1 hn
                obtain ⟨hlt, -⟩ := List.getElem?_eq_some_iff.1 hfirst.closes.brace
                rw [hlater hlt, fails_body_iff hfirst]
          · rw [fails_closing_iff]
            simp only [lexemesFrom, hclosing, Bool.false_eq_true, if_false, if_true,
              Char.reduceEq, Except.error.injEq, eq_comm]
          · rw [fails_opening_iff (bodyLength?_eq_none_iff.1 hnone)]
            simp only [lexemesFrom, hopening, Bool.false_eq_true, if_false, if_true,
              Char.reduceEq, hnone, Except.error.injEq, eq_comm]

/-- What cutting a pattern gives: the lexemes are written as the pattern, a
    run of text is not empty and has nothing in it that cuts a pattern, no two
    runs stand side by side, and a brace body ends at the first brace that
    balances its opening one. It fails exactly if going through the pattern
    does, and then the pattern is malformed. -/
theorem lexemes_cut [Host]
    (hfree : ∀ c ∈ ['(', ')', '|', '\x7b', '\x7d'], String.singleton c ∉ delimiters)
    (pattern : String) :
    (∀ ls, lexemes delimiters pattern = .ok ls →
      ls.flatMap Lexeme.source = pattern.toList ∧
      (∀ run, .text run ∈ ls → run ≠ [] ∧ ∀ c ∈ run,
        String.singleton c ∉ delimiters ∧ c ∉ ['(', ')', '|', '\x7b', '\x7d']) ∧
      (ls.IsChain fun k l => k.isText = false ∨ l.isText = false) ∧
      ∀ front body back, ls = front ++ .brace body :: back →
        ClosesFirst 0 (body ++ '\x7d' :: back.flatMap Lexeme.source) body.length) ∧
    (∀ e, lexemes delimiters pattern = .error e ↔ Fails pattern.toList 0 e) ∧
    ∀ e, lexemes delimiters pattern = .error e →
      parse delimiters pattern = .error (.pattern pattern e) := by
  have hbrackets : ∀ c ∈ ['(', ')', '|', '\x7b', '\x7d'],
      delimiters.contains (String.singleton c) = false := fun c hc => by simpa using hfree c hc
  have hfails : ∀ e, lexemes delimiters pattern = .error e ↔ Fails pattern.toList 0 e :=
    fun e => lexemesFrom_eq_error_iff (hbrackets _ (by simp)) (hbrackets _ (by simp))
  -- Each part is a fact about the cutting from some place, taken here from the start.
  refine ⟨fun ls hls => ⟨?_, fun run hrun => ?_, lexemesFrom_isChain hls,
    fun _ _ _ hsplit => lexemesFrom_closesFirst hls hsplit⟩, hfails, fun e he => ?_⟩
  · exact lexemesFrom_lossless hls
  · obtain ⟨hne, hplain⟩ := lexemesFrom_clean 0 0 [] _ (by simp) hls _ hrun
    refine ⟨hne, fun c hc => ?_⟩
    obtain ⟨hmark, hsyntax⟩ := isPlain_eq_true.1 (hplain c hc)
    exact ⟨by simpa using hmark, hsyntax⟩
  · have hparse : parse delimiters pattern = .error (.ofPattern pattern e) := by
      have hparts : parts delimiters pattern = .error e := bind_eq_error.2 (Or.inl he)
      rw [parse, hparts]
    cases (hfails e).1 he with
    | stray => exact hparse
    | unbalanced => exact hparse

/-- A body with a hidden brace in it and a repetition, and a brace whose only
    partner is hidden. -/
theorem lexemes_cut_of_hidden_brace :
    let _ : Host := .idle
    let pattern := "/\x7b:x,\\\x7d\x7b2\x7d\x7d(b|c)"
    let body := [':', 'x', ',', '\\', '\x7d', '\x7b', '2', '\x7d']
    let back : List Lexeme := [.opening, .text ['b'], .bar, .text ['c'], .closing]
    let ls := .mark '/' :: .brace body :: back
    lexemes defaultDelimiters pattern = .ok ls ∧ ls.flatMap Lexeme.source = pattern.toList ∧
    ClosesFirst 0 (body ++ '\x7d' :: back.flatMap Lexeme.source) 8 ∧
    lexemes defaultDelimiters "/\x7ba\\\x7d" = .error (.openBrace 1) ∧
    Fails "/\x7ba\\\x7d".toList 0 (.openBrace 1) ∧
    parse defaultDelimiters "/\x7ba\\\x7d" =
      .error (.pattern "/\x7ba\\\x7d" (.openBrace 1)) := by
  intro _ pattern body back ls
  have hfree : ∀ c ∈ ['(', ')', '|', '\x7b', '\x7d'],
      String.singleton c ∉ defaultDelimiters := by simp [defaultDelimiters]
  have hls : lexemes defaultDelimiters pattern = .ok ls := by
    unfold pattern ls back body
    cbv
  have hopen : lexemes defaultDelimiters "/\x7ba\\\x7d" = .error (.openBrace 1) := by cbv
  obtain ⟨hsource, -, -, hbrace⟩ := (lexemes_cut hfree pattern).1 ls hls
  obtain ⟨hfails, hparse⟩ := (lexemes_cut hfree "/\x7ba\\\x7d").2
  exact ⟨hls, hsource, hbrace [.mark '/'] body back rfl, hopen, (hfails _).1 hopen,
    hparse _ hopen⟩

end Pattern

end PathRouting
