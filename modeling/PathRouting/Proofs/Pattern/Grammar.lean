import Mathlib.Data.List.TakeWhile
import PathRouting.Pattern.Tree

/-!
# The Grammar of Patterns

Which pattern trees a list of lexemes stands for, said without the reader: an
option is its parts in parentheses, a choice is its branches in parentheses
with bars between them, and a leaf is one lexeme. The reader finds exactly
these trees.

The reader works with a stack of open sequences, so neither direction can be
shown for whole patterns alone. What it holds after some lexemes is a tree
with open parentheses: `Reading.Holds` says which lexemes those are, and each
step keeps it. Conversely the lexemes of a part make the reader push that
part, wherever it stands and whatever comes next, which goes by the shape of
the part.

## Main definitions

* `Expression`, `Requirement`: The expression behind a comma, and what stands
  behind a name.
* `Lexeme.Denotes`: The lexeme stands for the segment.
* `Part.Flattens`, `Flattens`, `BranchesFlatten`: The lexemes of a tree, from
  left to right.
* `group`: What parentheses around some branches make.
* `Reading.Holds`: The lexemes that the reader has turned into what it holds.

## Theorems

* `readText_eq_ok_iff`, `readBrace_eq_ok_iff`: Segments are read as lexemes
  denote them.
* `step_cases`: What one lexeme can do to the reader.
* `holds_step`, `holds_run`: What the reader holds is what it has read.
* `Part.run_of_flattens`, `run_of_flattens`: The lexemes of a tree are read as
  that tree.
* `finish_run_eq_ok_iff`: The reader finds exactly the trees of the grammar.
* `parse_eq_ok_iff`: The tree of a pattern is the one that its lexemes are
  read as.
-/

namespace PathRouting

namespace Pattern

/-- A comma and the source of the expression, which is not empty. -/
inductive Expression [Host] : List Char → Regex → Prop
  | comma {source : List Char} {r : Regex} (hne : source ≠ [])
      (h : Regex.compile? Host.character (String.ofList source) .plain = .ok r) :
      Expression (',' :: source) r

/-- What may stand behind the name of a variable in braces: nothing, or an expression. -/
inductive Requirement [Host] : List Char → Option Validator → Prop
  | absent : Requirement [] none
  | present {cs : List Char} {r : Regex} (h : Expression cs r) : Requirement cs (some (.regex r))

/-- The lexeme stands for the segment. A run of text is a variable or a
    literal by its first character, and a brace has a name and perhaps an
    expression; all that the reader checks on its way is a premise here. -/
inductive Lexeme.Denotes [Host] : Lexeme → Segment → Prop
  | mark (c : Char) : Denotes (.mark c) (.separator (String.singleton c))
  | literal {run : List Char} (hsingle : run.head? ≠ some ':') (hseveral : run.head? ≠ some '*') :
      Denotes (.text run) (.literal (String.ofList run))
  | single {name : List Char} (hname : isName name = true) :
      Denotes (.text (':' :: name)) (.var (.single (String.ofList name) none))
  | several {name : List Char} (hname : isName name = true) :
      Denotes (.text ('*' :: name)) (.var (.several (String.ofList name) none false none))
  | braceSingle {name cs : List Char} {w : Option Validator} (hname : isName name = true)
      (hw : Requirement cs w) :
      Denotes (.brace (':' :: (name ++ cs))) (.var (.single (String.ofList name) w))
  | braceSeveral {name cs : List Char} {w : Option Validator} (hname : isName name = true)
      (hw : Requirement cs w) :
      Denotes (.brace ('*' :: (name ++ cs))) (.var (.several (String.ofList name) w false none))
  | braceGreedy {name cs : List Char} {r : Regex} (hname : isName name = true)
      (hr : Expression cs r) :
      Denotes (.brace ('!' :: (name ++ cs)))
        (.var (.several (String.ofList name) (some (.regex r)) true none))

mutual

/-- The lexemes of a part, from left to right. Sequences stand only at the
    root and as the branches of a choice, so that there is one tree for the
    lexemes and not several that differ in how they are bracketed. -/
inductive Part.Flattens [Host] : Part → List Lexeme → Prop
  | leaf {l : Lexeme} {s : Segment} (h : l.Denotes s) : Part.Flattens (.leaf s) [l]
  | optional {parts : List Part} {ls : List Lexeme} (h : Flattens parts ls) :
      Part.Flattens (.optional parts) (.opening :: ls ++ [.closing])
  | choice {branches : List (List Part)} {ls : List Lexeme} (htwo : 2 ≤ branches.length)
      (h : BranchesFlatten branches ls) :
      Part.Flattens (.choice branches) (.opening :: ls ++ [.closing])

/-- The lexemes of some parts, one part after the other. -/
inductive Flattens [Host] : List Part → List Lexeme → Prop
  | nil : Flattens [] []
  | cons {p : Part} {rest : List Part} {front back : List Lexeme} (hp : p.Flattens front)
      (hrest : Flattens rest back) : Flattens (p :: rest) (front ++ back)

/-- The lexemes of some branches, with a bar between each two of them. -/
inductive BranchesFlatten [Host] : List (List Part) → List Lexeme → Prop
  | last {b : List Part} {ls : List Lexeme} (h : Flattens b ls) : BranchesFlatten [b] ls
  | cons {b : List Part} {rest : List (List Part)} {front back : List Lexeme}
      (hb : Flattens b front) (hrest : BranchesFlatten rest back) :
      BranchesFlatten (b :: rest) (front ++ .bar :: back)

end

/-! ## Segments -/

/-- A name has letters, digits and underscores in it, and perhaps the line
    break that is overlooked. -/
theorem continuesName_of_mem_name {name : List Char} (h : isName name = true) {c : Char}
    (hc : c ∈ name) : continuesName c = true ∨ c = '\n' := by
  cases name with
  | nil => cases hc
  | cons first rest =>
      simp only [isName, Bool.and_eq_true, Bool.or_eq_true, List.isEmpty_iff, beq_iff_eq] at h
      rcases List.mem_cons.1 hc with rfl | hc
      · left
        simp only [startsName, continuesName, Char.isAlphanum, Bool.or_eq_true] at h ⊢
        exact h.1.imp_left Or.inl
      · rw [← List.takeWhile_append_dropWhile (p := continuesName) (l := rest)] at hc
        rcases List.mem_append.1 hc with hfront | hback
        · exact Or.inl (List.mem_takeWhile_imp hfront)
        · rcases h.2 with hnil | hbreak
          · rw [hnil] at hback
            cases hback
          · rw [hbreak] at hback
            exact Or.inr (List.mem_singleton.1 hback)

/-- There is no comma in a name. -/
theorem comma_not_mem_of_isName {name : List Char} (h : isName name = true) : ',' ∉ name := by
  intro hmem
  rcases continuesName_of_mem_name h hmem with hcomma | hcomma
  · exact absurd hcomma (by decide)
  · exact absurd hcomma (by decide)

/-- The text behind a name: the comma and what follows it, if there is one. -/
def afterName : Option (List Char) → List Char
  | none => []
  | some source => ',' :: source

theorem append_afterName_splitBody (inner : List Char) :
    (splitBody inner).1 ++ afterName (splitBody inner).2 = inner := by
  have hback : afterName (inner.dropWhile (· != ',')).tail? = inner.dropWhile (· != ',') := by
    have hcomma := List.head?_dropWhile_not (· != ',') inner
    cases hdrop : inner.dropWhile (· != ',') with
    | nil => rfl
    | cons c rest =>
        rw [hdrop] at hcomma
        have hc : c = ',' := by simpa using hcomma
        rw [hc]
        rfl
  rw [splitBody, hback]
  exact List.takeWhile_append_dropWhile

theorem splitBody_append {name : List Char} (hname : ',' ∉ name) (regex : Option (List Char)) :
    splitBody (name ++ afterName regex) = (name, regex) := by
  have hplain : ∀ c ∈ name, (c != ',') = true := fun c hc =>
    bne_iff_ne.2 fun h => hname (h ▸ hc)
  rw [splitBody, List.takeWhile_append_of_pos hplain, List.dropWhile_append_of_pos hplain]
  cases regex <;> simp [afterName]

/-- A segment that is made of a name. -/
theorem named_eq_ok_iff {cs : List Char} {make : String → Segment} {s : Segment} :
    (do return make (← readName cs)) = .ok s ↔ isName cs = true ∧ s = make (String.ofList cs) := by
  unfold readName
  split
  · next h => simp [h, bind, Except.bind, pure, Except.pure, eq_comm]
  · next h => simp [h, bind, Except.bind]

theorem readRegex_eq_ok_iff [Host] {source : List Char} {w : Validator} (hne : source ≠ []) :
    readRegex source = .ok w ↔ ∃ r, Expression (',' :: source) r ∧ w = .regex r := by
  unfold readRegex
  constructor
  · intro h
    split at h
    · next r hr =>
      cases h
      exact ⟨r, .comma hne hr, rfl⟩
    · cases h
    · cases h
  · rintro ⟨r, ⟨_, hr⟩, rfl⟩
    rw [hr]

theorem readValidator_eq_ok_iff [Host] {body : List Char} {regex : Option (List Char)}
    {w : Option Validator} :
    readValidator body regex = .ok w ↔ Requirement (afterName regex) w := by
  cases regex with
  | none =>
      constructor
      · rintro ⟨⟩
        exact .absent
      · rintro ⟨⟩
        · rfl
        · next h => cases h
  | some source =>
      -- A comma asks for an expression, so there has to be something behind it.
      cases source with
      | nil =>
          constructor
          · rintro ⟨⟩
          · rintro (_ | ⟨⟨hne, _⟩⟩)
            exact absurd rfl hne
      | cons c rest =>
          have hne : c :: rest ≠ [] := List.cons_ne_nil _ _
          constructor
          · intro h
            rcases bind_eq_ok.1 h with ⟨v, hv, h⟩
            cases h
            rcases (readRegex_eq_ok_iff hne).1 hv with ⟨r, hr, rfl⟩
            exact .present hr
          · rintro (_ | ⟨hr⟩)
            exact bind_eq_ok.2 ⟨_, (readRegex_eq_ok_iff hne).2 ⟨_, hr, rfl⟩, rfl⟩

/-- A run of text is read as it denotes. -/
theorem readText_eq_ok_iff [Host] {run : List Char} {s : Segment} :
    readText run = .ok s ↔ (Lexeme.text run).Denotes s := by
  constructor
  · intro h
    unfold readText at h
    split at h
    · rcases named_eq_ok_iff.1 h with ⟨hname, rfl⟩
      exact .single hname
    · rcases named_eq_ok_iff.1 h with ⟨hname, rfl⟩
      exact .several hname
    · next hsingle hseveral =>
      cases h
      -- Neither of the first two cases applies, so the run starts with neither mark.
      refine .literal (fun hc => ?_) fun hc => ?_
      · rcases List.head?_eq_some_iff.1 hc with ⟨name, rfl⟩
        exact hsingle name rfl
      · rcases List.head?_eq_some_iff.1 hc with ⟨name, rfl⟩
        exact hseveral name rfl
  · rintro (_ | ⟨hsingle, hseveral⟩ | ⟨hname⟩ | ⟨hname⟩)
    · unfold readText
      split
      · exact absurd rfl hsingle
      · exact absurd rfl hseveral
      · rfl
    · exact named_eq_ok_iff.2 ⟨hname, rfl⟩
    · exact named_eq_ok_iff.2 ⟨hname, rfl⟩

theorem Expression.exists_source [Host] {cs : List Char} {r : Regex} (h : Expression cs r) :
    ∃ source, source ≠ [] ∧ cs = afterName (some source) ∧
      readRegex source = .ok (.regex r) := by
  cases h with
  | @comma source _ hne hr =>
      exact ⟨source, hne, rfl, (readRegex_eq_ok_iff hne).2 ⟨r, .comma hne hr, rfl⟩⟩

theorem Requirement.exists_regex [Host] {cs : List Char} {w : Option Validator}
    (h : Requirement cs w) : ∃ regex, cs = afterName regex := by
  cases h with
  | absent => exact ⟨none, rfl⟩
  | present hr =>
      rcases hr.exists_source with ⟨source, _, hcs, _⟩
      exact ⟨some source, hcs⟩

/-- A segment that is made of a name with a requirement behind it. -/
theorem required_eq_ok_iff [Host] {body inner : List Char}
    {make : Option Validator → String → Segment} {s : Segment} :
    (do
      let w ← readValidator body (splitBody inner).2
      return make w (← readName (splitBody inner).1)) = .ok s ↔
    ∃ name cs w, inner = name ++ cs ∧ isName name = true ∧ Requirement cs w ∧
      s = make w (String.ofList name) := by
  constructor
  · intro h
    rcases bind_eq_ok.1 h with ⟨w, hw, h⟩
    rcases named_eq_ok_iff.1 h with ⟨hname, rfl⟩
    exact ⟨_, _, w, (append_afterName_splitBody inner).symm, hname,
      readValidator_eq_ok_iff.1 hw, rfl⟩
  · rintro ⟨name, cs, w, rfl, hname, hw, rfl⟩
    rcases hw.exists_regex with ⟨regex, rfl⟩
    rw [splitBody_append (comma_not_mem_of_isName hname)]
    exact bind_eq_ok.2 ⟨w, readValidator_eq_ok_iff.2 hw, named_eq_ok_iff.2 ⟨hname, rfl⟩⟩

/-- A brace is read as it denotes. -/
theorem readBrace_eq_ok_iff [Host] {body : List Char} {s : Segment} :
    readBrace body = .ok s ↔ (Lexeme.brace body).Denotes s := by
  constructor
  · intro h
    unfold readBrace at h
    split at h
    · next inner =>
      -- A greedy brace is put together from its name and what follows the comma, as the grammar
      -- spells it. Without an expression the reader has turned it away before.
      rw [← append_afterName_splitBody inner]
      simp only at h
      split at h
      · cases h
      · next hsource =>
        rcases bind_eq_ok.1 h with ⟨w, hw, h⟩
        rcases named_eq_ok_iff.1 h with ⟨hname, rfl⟩
        cases hregex : (splitBody inner).2 with
        | none =>
            rw [hregex] at hsource
            exact absurd rfl hsource
        | some source =>
            rw [hregex, Option.getD_some] at hw hsource
            rcases (readRegex_eq_ok_iff (by simpa using hsource)).1 hw with ⟨r, hr, rfl⟩
            exact .braceGreedy hname hr
    · rcases required_eq_ok_iff.1 h with ⟨name, cs, w, rfl, hname, hw, rfl⟩
      exact .braceSingle hname hw
    · rcases required_eq_ok_iff.1 h with ⟨name, cs, w, rfl, hname, hw, rfl⟩
      exact .braceSeveral hname hw
    · cases h
  · intro h
    cases h with
    | braceSingle hname hw => exact required_eq_ok_iff.2 ⟨_, _, _, rfl, hname, hw, rfl⟩
    | braceSeveral hname hw => exact required_eq_ok_iff.2 ⟨_, _, _, rfl, hname, hw, rfl⟩
    | braceGreedy hname hr =>
        -- No name has a comma in it, so the body falls apart where it was joined.
        rcases hr.exists_source with ⟨source, hne, rfl, hsource⟩
        simp only [readBrace, splitBody_append (comma_not_mem_of_isName hname), Option.getD_some,
          List.isEmpty_iff, if_neg hne]
        exact bind_eq_ok.2 ⟨_, hsource, named_eq_ok_iff.2 ⟨hname, rfl⟩⟩

/-! ## Lexemes to trees -/

/-- What parentheses around some branches make. -/
def group : List (List Part) → Part
  | [parts] => .optional parts
  | branches => .choice branches

theorem Level.close_eq (l : Level) : l.close = group (l.parts.reverse :: l.branches).reverse := by
  rcases l with ⟨branches, parts⟩
  cases branches with
  | nil => rfl
  | cons b rest =>
      rw [List.reverse_cons, List.reverse_cons, Level.close, List.reverse_cons, List.reverse_cons]
      cases rest.reverse with
      | nil => rfl
      | cons c more => cases more <;> rfl

/-- Some branches in parentheses are the part that they make. -/
theorem BranchesFlatten.flattens_group [Host] {branches : List (List Part)} {ls : List Lexeme}
    (h : BranchesFlatten branches ls) :
    (group branches).Flattens (.opening :: ls ++ [.closing]) := by
  cases h with
  | last hb => exact .optional hb
  | cons hb hrest =>
      cases hrest with
      | last hlast => exact .choice (by simp) (.cons hb (.last hlast))
      | cons hnext hmore => exact .choice (by simp) (.cons hb (.cons hnext hmore))

theorem Flattens.concat [Host] {parts : List Part} {p : Part} {front back : List Lexeme}
    (h : Flattens parts front) (hp : p.Flattens back) :
    Flattens (parts ++ [p]) (front ++ back) := by
  induction parts generalizing front with
  | nil =>
      cases h
      rw [← List.append_nil ([] ++ back), List.nil_append]
      exact .cons hp .nil
  | cons q rest ih =>
      cases h with
      | cons hq hrest =>
          rw [List.append_assoc]
          exact .cons hq (ih hrest)

/-- One more part goes to the last branch. -/
theorem BranchesFlatten.extend [Host] {branches : List (List Part)} {b : List Part} {p : Part}
    {front back : List Lexeme} (h : BranchesFlatten (branches ++ [b]) front)
    (hp : p.Flattens back) : BranchesFlatten (branches ++ [b ++ [p]]) (front ++ back) := by
  induction branches generalizing front with
  | nil =>
      cases h with
      | last hb => exact .last (hb.concat hp)
      | cons _ hrest => cases hrest
  | cons c rest ih =>
      cases hbranches : rest ++ [b] with
      | nil => exact absurd hbranches (by simp)
      | cons d more =>
          rw [List.cons_append, hbranches] at h
          cases h with
          | cons hc hrest =>
              rw [List.append_assoc, List.cons_append, List.cons_append]
              exact .cons hc (ih (hbranches ▸ hrest))

theorem BranchesFlatten.concat_nil [Host] {branches : List (List Part)} {ls : List Lexeme}
    (h : BranchesFlatten branches ls) : BranchesFlatten (branches ++ [[]]) (ls ++ [.bar]) := by
  induction branches generalizing ls with
  | nil => cases h
  | cons b rest ih =>
      cases h with
      | last hb => exact .cons hb (.last .nil)
      | cons hb hrest =>
          rw [List.append_assoc, List.cons_append, List.cons_append]
          exact .cons hb (ih hrest)

/-- The lexemes that the reader has turned into what it holds. Each open
    sequence starts with a parenthesis; only the outermost one has none, and
    no branches. This is the invariant of the reader, from which everything it
    has read can be recovered. -/
inductive Reading.Holds [Host] : Reading → List Lexeme → Prop
  | root {parts : List Part} {ls : List Lexeme} (h : Flattens parts.reverse ls) :
      Holds ⟨⟨[], parts⟩, []⟩ ls
  | inside {level top : Level} {outer : List Level} {front ls : List Lexeme}
      (houter : Holds ⟨level, outer⟩ front)
      (h : BranchesFlatten (top.parts.reverse :: top.branches).reverse ls) :
      Holds ⟨top, level :: outer⟩ (front ++ .opening :: ls)

theorem holds_start [Host] : Reading.start.Holds [] :=
  .root .nil

theorem holds_push [Host] {r : Reading} {p : Part} {front back : List Lexeme} (hr : r.Holds front)
    (hp : p.Flattens back) : (r.push p).Holds (front ++ back) := by
  cases hr with
  | root h =>
      refine .root ?_
      rw [List.reverse_cons]
      exact h.concat hp
  | inside houter h =>
      rw [List.append_assoc, List.cons_append]
      refine .inside houter ?_
      simp only [List.reverse_cons] at h ⊢
      exact h.extend hp

/-- What one lexeme can do to the reader. Each way is given with what it
    needs, so that no other proof opens the step. -/
theorem step_cases [Host] {r next : Reading} {l : Lexeme} (h : r.step l = .ok next) :
    (∃ s, l.Denotes s ∧ next = r.push (.leaf s)) ∨
    (l = .opening ∧ next = ⟨⟨[], []⟩, r.top :: r.outer⟩) ∨
    (l = .bar ∧ r.outer ≠ [] ∧
      next = ⟨⟨r.top.parts.reverse :: r.top.branches, []⟩, r.outer⟩) ∨
    (l = .closing ∧ ∃ level outer, r.outer = level :: outer ∧
      next = Reading.push ⟨level, outer⟩ r.top.close) := by
  unfold Reading.step at h
  split at h
  -- Delimiters, text and braces are leaves; the other three work on the stack.
  · next c =>
    cases h
    exact Or.inl ⟨_, .mark c, rfl⟩
  · rcases bind_eq_ok.1 h with ⟨s, hs, h⟩
    cases h
    exact Or.inl ⟨s, readText_eq_ok_iff.1 hs, rfl⟩
  · rcases bind_eq_ok.1 h with ⟨s, hs, h⟩
    cases h
    exact Or.inl ⟨s, readBrace_eq_ok_iff.1 hs, rfl⟩
  · cases h
    exact Or.inr (Or.inl ⟨rfl, rfl⟩)
  · split at h
    · cases h
    · next hne =>
      cases h
      exact Or.inr (Or.inr (Or.inl ⟨rfl, fun hnil => hne (List.isEmpty_iff.2 hnil), rfl⟩))
  · split at h
    · cases h
    · next level outer houter =>
      cases h
      exact Or.inr (Or.inr (Or.inr ⟨rfl, level, outer, houter, rfl⟩))

/-- What the reader holds after one more lexeme is what it has read. -/
theorem holds_step [Host] {r next : Reading} {l : Lexeme} {front : List Lexeme} (hr : r.Holds front)
    (h : r.step l = .ok next) : next.Holds (front ++ [l]) := by
  rcases step_cases h with
    ⟨s, hs, rfl⟩ | ⟨rfl, rfl⟩ | ⟨rfl, hne, rfl⟩ | ⟨rfl, level, outer, hr', rfl⟩
  · exact holds_push hr (.leaf hs)
  · exact .inside hr (.last .nil)
  · cases hr with
    | root _ => exact absurd rfl hne
    -- The branch that ends stays where it is, and an empty one follows.
    | inside houter hbranches =>
        rw [List.append_assoc, List.cons_append]
        refine .inside houter ?_
        rw [List.reverse_cons]
        exact hbranches.concat_nil
  · cases hr with
    | root _ => cases hr'
    -- What was inside the parentheses is one part of the sequence around.
    | inside houter hbranches =>
        cases hr'
        rw [List.append_assoc, List.cons_append, Level.close_eq]
        exact holds_push houter hbranches.flattens_group

theorem holds_run [Host] {r last : Reading} {front ls : List Lexeme} (hr : r.Holds front)
    (h : r.run ls = .ok last) : last.Holds (front ++ ls) := by
  induction ls generalizing r front with
  | nil =>
      cases h
      rw [List.append_nil]
      exact hr
  | cons l rest ih =>
      rcases bind_eq_ok.1 h with ⟨next, hnext, h⟩
      have hrest := ih (holds_step hr hnext) h
      rwa [List.append_assoc, List.singleton_append] at hrest

/-! ## Trees to lexemes -/

/-- A lexeme that denotes a segment makes the reader push it. -/
theorem step_of_denotes [Host] {l : Lexeme} {s : Segment} (h : l.Denotes s) (r : Reading) :
    r.step l = .ok (r.push (.leaf s)) := by
  cases l with
  | mark c =>
      cases h
      rfl
  | text run => exact bind_eq_ok.2 ⟨s, readText_eq_ok_iff.2 h, rfl⟩
  | brace body => exact bind_eq_ok.2 ⟨s, readBrace_eq_ok_iff.2 h, rfl⟩
  | opening | closing | bar => cases h

theorem foldl_push (parts : List Part) (r : Reading) :
    parts.foldl Reading.push r =
      ⟨⟨r.top.branches, parts.reverse ++ r.top.parts⟩, r.outer⟩ := by
  induction parts generalizing r with
  | nil => rfl
  | cons p rest ih =>
      rw [List.foldl_cons, ih, List.reverse_cons, List.append_assoc]
      rfl

/-- The last branch and a closing parenthesis: the sequence around gets what
    the branches make. -/
theorem run_closing [Host] (branches : List (List Part)) (b : List Part) (level : Level)
    (outer : List Level) (ls : List Lexeme) :
    (b.foldl Reading.push ⟨⟨branches, []⟩, level :: outer⟩).run (.closing :: ls) =
      (Reading.push ⟨level, outer⟩ (group (branches.reverse ++ [b]))).run ls := by
  rw [foldl_push, List.append_nil, ← List.reverse_cons]
  show (Reading.push ⟨level, outer⟩ (Level.close ⟨branches, b.reverse⟩)).run ls = _
  rw [Level.close_eq, List.reverse_reverse]

theorem group_of_two_le {branches : List (List Part)} (h : 2 ≤ branches.length) :
    group branches = .choice branches := by
  cases branches with
  | nil => rfl
  | cons b rest =>
      cases rest with
      | nil => exact absurd h (by simp)
      | cons c more => rfl

-- The three go by the tree, whatever the reader has read so far and whatever follows. Parts
-- are pushed on the level that the reader is at; branches are read on a level of their own,
-- which only the closing parenthesis gives back to the level around. So the statement about
-- branches has that parenthesis in it, and the branches before it.
mutual

/-- The lexemes of a part make the reader push it. -/
theorem Part.run_of_flattens [Host] : (p : Part) → ∀ {ls : List Lexeme}, p.Flattens ls →
    ∀ (r : Reading) (rest : List Lexeme), r.run (ls ++ rest) = (r.push p).run rest
  | .leaf s => by
      intro h r rest
      cases h with
      | leaf hs =>
          -- A leaf is a single lexeme, and so a single step.
          show (do (← r.step _).run rest) = _
          rw [step_of_denotes hs]
          rfl
  | .optional parts => by
      intro h r rest
      cases h with
      | optional hparts =>
          rw [List.append_assoc, List.cons_append]
          -- Behind the opening parenthesis a new level is empty, with no branch before it, and
          -- a single branch makes an optional group when it is closed.
          show Reading.run ⟨⟨[], []⟩, r.top :: r.outer⟩ _ = _
          rw [Pattern.run_of_flattens parts hparts, List.singleton_append, run_closing]
          rfl
  | .choice branches => by
      intro h r rest
      cases h with
      | choice htwo hbranches =>
          rw [List.append_assoc, List.cons_append]
          -- The same new level, but what is closed on it are two branches or more.
          show Reading.run ⟨⟨[], []⟩, r.top :: r.outer⟩ _ = _
          rw [List.singleton_append, run_of_branchesFlatten branches hbranches, List.reverse_nil,
            List.nil_append, group_of_two_le htwo]

/-- The lexemes of some parts make the reader push them. -/
theorem run_of_flattens [Host] : (parts : List Part) → ∀ {ls : List Lexeme}, Flattens parts ls →
    ∀ (r : Reading) (rest : List Lexeme),
      r.run (ls ++ rest) = (parts.foldl Reading.push r).run rest
  | [] => by
      intro h r rest
      cases h
      rfl
  | p :: parts => by
      intro h r rest
      cases h with
      | cons hp hparts =>
          rw [List.append_assoc, p.run_of_flattens hp, run_of_flattens parts hparts,
            List.foldl_cons]

/-- The lexemes of some branches and a closing parenthesis give the sequence
    around what the branches make, together with those before them. -/
theorem run_of_branchesFlatten [Host] : (branches : List (List Part)) → ∀ {ls : List Lexeme},
    BranchesFlatten branches ls →
    ∀ (before : List (List Part)) (level : Level) (outer : List Level) (rest : List Lexeme),
      Reading.run ⟨⟨before, []⟩, level :: outer⟩ (ls ++ .closing :: rest) =
        (Reading.push ⟨level, outer⟩ (group (before.reverse ++ branches))).run rest
  | [] => fun h => nomatch h
  | b :: more => by
      intro h before level outer rest
      cases h with
      | last hb => rw [run_of_flattens b hb, run_closing]
      | cons hb hmore =>
          rw [List.append_assoc, List.cons_append, run_of_flattens b hb, foldl_push,
            List.append_nil]
          -- The bar lays the branch by. The reader keeps its parts the other way round.
          show Reading.run ⟨⟨b.reverse.reverse :: before, []⟩, level :: outer⟩ _ = _
          rw [List.reverse_reverse, run_of_branchesFlatten more hmore, List.reverse_cons,
            List.append_assoc, List.singleton_append]

end

/-- The reader finds exactly the trees of the grammar. In one direction the
    invariant gives the lexemes back; in the other the reader is led along a
    tree, whose parts it pushes one by one. -/
theorem finish_run_eq_ok_iff [Host] {ls : List Lexeme} {tree : List Part} :
    (do (← Reading.start.run ls).finish) = .ok tree ↔ Flattens tree ls := by
  constructor
  · intro h
    rcases bind_eq_ok.1 h with ⟨last, hlast, hfinish⟩
    have hholds := holds_run holds_start hlast
    rw [List.nil_append] at hholds
    cases hholds with
    | root hparts =>
        cases hfinish
        exact hparts
    | inside _ _ => cases hfinish
  · intro h
    have hrun := run_of_flattens tree h Reading.start []
    rw [List.append_nil, foldl_push] at hrun
    refine bind_eq_ok.2 ⟨_, hrun, ?_⟩
    show Except.ok (tree.reverse ++ []).reverse = _
    rw [List.append_nil, List.reverse_reverse]

/-- The tree of a pattern is the one that its lexemes are read as. -/
theorem parse_eq_ok_iff [Host] {delimiters : List String} {pattern : String} {tree : List Part} :
    parse delimiters pattern = .ok tree ↔
      ∃ ls, lexemes delimiters pattern = .ok ls ∧ Flattens tree ls := by
  have hparts : parts delimiters pattern = .ok tree ↔
      ∃ ls, lexemes delimiters pattern = .ok ls ∧ Flattens tree ls := by
    rw [parts, bind_eq_ok]
    exact exists_congr fun ls => and_congr_right fun _ => finish_run_eq_ok_iff
  rw [← hparts, parse]
  split <;> simp_all

end Pattern

end PathRouting
