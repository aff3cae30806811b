import PathRouting.Proofs.Trie.Layout

/-!
# Nothing Is Missed

If the tokens can be cut into pieces that suit the segments of an inserted
path, one for each, something is found, whatever other paths there are. It
need not be that path: another one may have a run that comes first.

Every cut is a run. A glob takes its first token and then whatever is in its
piece, and the separators behind it have pieces of their own, so the cut never
makes use of a glob going on behind a separator.

A greedy variable takes its tokens at once and by their text, which leaves two
cuts out: its piece cannot start with a delimiter, and it cannot end in an
empty token.

## Main definitions

* `Condition.Admits`: An attribute does for a condition.
* `Cut`: Tokens are cut into pieces for some segments.
* `Cut.Steps`: What leads over the tokens of a cut, step by step.

## Theorems

* `Cut.Steps.of_cut`: Where there is a step for everything, every cut is led
  over.
* `Cut.exists_run`: Every cut is a run.
* `Run.cut`: A run of a path without globs is a cut.
* `Trie.exists_of_cut`: Something is found if there is a cut.
-/

namespace PathRouting

variable {α : Type} {delimiters : List String} [Host]

/-- The attribute of a request does for the condition. -/
def Condition.Admits (d c : Condition) : Prop :=
  match d.value with
  | .wildcard => d.kind.same c.kind = true
  | .validator w =>
    d.kind.equal c.kind = true ∧ c.value.isNone = false ∧ w.accepts c.value = .ok true
  | v => d.kind.same c.kind = true ∧ v.same c.value = true

/-- Tokens are cut into pieces that suit some segments, one for each. -/
inductive Cut (delimiters : List String) : List Segment → List Token → Prop
  | nil : Cut delimiters [] []
  | condition {d c : Condition} {segments : List Segment} {tokens : List Token}
      (admits : d.Admits c) (onward : Cut delimiters segments tokens) :
      Cut delimiters (.condition d :: segments) (.attribute c :: tokens)
  | literal {s : String} {segments : List Segment} {tokens : List Token}
      (onward : Cut delimiters segments tokens) :
      Cut delimiters (.literal s :: segments) (.ofText s :: tokens)
  | separator {s : String} {segments : List Segment} {tokens : List Token}
      (onward : Cut delimiters segments tokens) :
      Cut delimiters (.separator s :: segments) (.ofText s :: tokens)
  | single {s : String} {v : Variable} {segments : List Segment} {tokens : List Token}
      (kind : v.glob = none) (mark : Tokens.isDelimiter delimiters s = false)
      (accepts : v.accepts (.text s) = .ok true) (onward : Cut delimiters segments tokens) :
      Cut delimiters (.var v :: segments) (.ofText s :: tokens)
  | several {s : String} {piece : List String} {v : Variable} {g : Glob}
      {segments : List Segment} {tokens : List Token} (kind : v.glob = some g)
      (greedy : g.greedy = false) (mark : Tokens.isDelimiter delimiters s = false)
      (accepts : ∀ x ∈ words delimiters (s :: piece), v.accepts (.text x) = .ok true)
      (onward : Cut delimiters segments tokens) :
      Cut delimiters (.var v :: segments) ((s :: piece).map Token.ofText ++ tokens)
  | greedy {s : String} {piece more : List String} {v : Variable} {g : Glob} {r : Regex}
      {segments : List Segment} (kind : v.glob = some g) (greedy : g.greedy = true)
      (regex : g.regex = some (.regex r)) (mark : Tokens.isDelimiter delimiters s = false)
      (spells : r.prefixMatch? (String.join (s :: piece ++ more)) =
        some (String.join (s :: piece)))
      (last : (s :: piece).getLast? ≠ some "")
      (accepts : g.separate = true → v.accepts (.text (String.join (s :: piece))) = .ok true)
      (onward : Cut delimiters segments (more.map Token.ofText)) :
      Cut delimiters (.var v :: segments) ((s :: piece ++ more).map Token.ofText)

/-- What leads over the tokens of a cut, step by step, with a glob that may be
    open before the segments. There is a step for every segment, and one for
    every token that an open glob takes in or passes over, so that a piece is
    gone through token by token. -/
structure Cut.Steps (delimiters : List String)
    (R : List Segment → List Token → Option OpenGlob → Prop) : Prop where
  stop {glob : Option OpenGlob} : R [] [] glob
  condition {d c : Condition} {segments : List Segment} {tokens : List Token}
    {glob : Option OpenGlob} (admits : d.Admits c) (onward : R segments tokens none) :
    R (.condition d :: segments) (.attribute c :: tokens) glob
  literal {s : String} {segments : List Segment} {tokens : List Token} {glob : Option OpenGlob}
    (onward : R segments tokens none) : R (.literal s :: segments) (.ofText s :: tokens) glob
  /-- A separator leaves the glob open. -/
  separator {s : String} {segments : List Segment} {tokens : List Token} {glob : Option OpenGlob}
    (onward : R segments tokens glob) : R (.separator s :: segments) (.ofText s :: tokens) glob
  single {s : String} {v : Variable} {segments : List Segment} {tokens : List Token}
    {glob : Option OpenGlob} (kind : v.glob = none)
    (mark : Tokens.isDelimiter delimiters s = false) (accepts : v.accepts (.text s) = .ok true)
    (onward : R segments tokens none) : R (.var v :: segments) (.ofText s :: tokens) glob
  several {s : String} {v : Variable} {g : Glob} {segments : List Segment} {tokens : List Token}
    {glob : Option OpenGlob} (kind : v.glob = some g) (greedy : g.greedy = false)
    (mark : Tokens.isDelimiter delimiters s = false) (accepts : v.accepts (.text s) = .ok true)
    (onward : R segments tokens (some ⟨v, [.text s]⟩)) :
    R (.var v :: segments) (.ofText s :: tokens) glob
  greedy {s : String} {piece more : List String} {v : Variable} {g : Glob} {r : Regex}
    {segments : List Segment} {glob : Option OpenGlob} (kind : v.glob = some g)
    (greedy : g.greedy = true) (regex : g.regex = some (.regex r))
    (mark : Tokens.isDelimiter delimiters s = false)
    (spells : r.prefixMatch? (String.join (s :: piece ++ more)) = some (String.join (s :: piece)))
    (last : (s :: piece).getLast? ≠ some "")
    (accepts : g.separate = true → v.accepts (.text (String.join (s :: piece))) = .ok true)
    (onward : R segments (more.map Token.ofText) none) :
    R (.var v :: segments) ((s :: piece ++ more).map Token.ofText) glob
  skip {s : String} {segments : List Segment} {tokens : List Token} {g : OpenGlob}
    (mark : Tokens.isDelimiter delimiters s = true) (onward : R segments tokens (some g)) :
    R segments (.ofText s :: tokens) (some g)
  take {s : String} {segments : List Segment} {tokens : List Token} {g : OpenGlob}
    (mark : Tokens.isDelimiter delimiters s = false)
    (accepts : g.owner.accepts (.text s) = .ok true)
    (onward : R segments tokens (some ⟨g.owner, g.taken ++ [.text s]⟩)) :
    R segments (.ofText s :: tokens) (some g)

namespace Cut.Steps

variable {R : List Segment → List Token → Option OpenGlob → Prop}

/-- An open glob can take a whole piece if it accepts what is no delimiter in it. -/
theorem take_piece (h : Steps delimiters R) {segments : List Segment} {tokens : List Token}
    {v : Variable} (hbehind : ∀ taken, R segments tokens (some ⟨v, taken⟩)) {piece : List String}
    (haccepts : ∀ x ∈ words delimiters piece, v.accepts (.text x) = .ok true)
    (taken : List Value) :
    R segments (piece.map Token.ofText ++ tokens) (some ⟨v, taken⟩) := by
  induction piece generalizing taken with
  | nil => exact hbehind taken
  | cons s rest ih =>
      cases hmark : Tokens.isDelimiter delimiters s with
      | true =>
          rw [words_cons_mark hmark] at haccepts
          exact h.skip hmark (ih haccepts taken)
      | false =>
          rw [words_cons_word hmark] at haccepts
          exact h.take hmark (haccepts s List.mem_cons_self)
            (ih (fun x hx => haccepts x (List.mem_cons_of_mem _ hx)) _)

/-- Every cut is led over, whatever glob is open before it. The induction is
    on the cut; a piece for a glob is gone through token by token, so the glob
    that it opens has to be closed by what comes behind, and a glob that was
    open before is closed by the first segment. -/
theorem of_cut (h : Steps delimiters R) {segments : List Segment} {tokens : List Token}
    (hcut : Cut delimiters segments tokens) (glob : Option OpenGlob) : R segments tokens glob := by
  induction hcut generalizing glob with
  | nil => exact h.stop
  | condition admits _ ih => exact h.condition admits (ih none)
  | literal _ ih => exact h.literal (ih none)
  | separator _ ih => exact h.separator (ih glob)
  | single kind mark accepts _ ih => exact h.single kind mark accepts (ih none)
  | several kind greedy mark accepts _ ih =>
      -- The first token opens the glob, which takes the others one by one.
      rw [words_cons_word mark] at accepts
      exact h.several kind greedy mark (accepts _ List.mem_cons_self)
        (h.take_piece (fun taken => ih (some ⟨_, taken⟩))
          (fun x hx => accepts x (List.mem_cons_of_mem _ hx)) _)
  | greedy kind greedy regex mark spells last accepts _ ih =>
      exact h.greedy kind greedy regex mark spells last accepts (ih none)

end Cut.Steps

/-- A condition takes an attribute that does for it. -/
theorem Run.admitted {es : Entries α} {d c : Condition} {segments : List Segment}
    {tokens : List Token} (hadmits : d.Admits c) {glob : Option OpenGlob}
    (honward : ∀ es : Entries α, ∃ choices b, Run delimiters es segments tokens none choices b) :
    ∃ choices b, Run delimiters es (.condition d :: segments) (.attribute c :: tokens) glob
      choices b := by
  rcases d with ⟨kind, value⟩
  unfold Condition.Admits at hadmits
  dsimp only at hadmits
  -- A wildcard takes any attribute, a validator one that it accepts, and all else one that is the
  -- same.
  split at hadmits
  · rcases honward (after (Segment.condition ⟨kind, .wildcard⟩).place es) with ⟨_, _, hrun⟩
    exact ⟨_, _, .anything rfl hadmits hrun⟩
  · next w =>
    rcases hadmits with ⟨hkind, hpresent, haccepts⟩
    rcases honward (after (.judged kind.form w.form) es) with ⟨_, _, hrun⟩
    exact ⟨_, _, .judged hpresent hkind haccepts hrun⟩
  · next hwildcard hvalidator =>
    rcases honward (after (Segment.condition ⟨kind, value⟩).place es) with ⟨_, _, hrun⟩
    have hcompares : Condition.isPattern ⟨kind, value⟩ = false := by
      cases value <;> first | rfl | exact absurd rfl (hvalidator _)
    exact ⟨_, _, .exact hcompares hadmits.1 hadmits.2 hrun⟩

/-- Runs lead over cuts, among whatever paths there are. -/
theorem Run.steps : Cut.Steps delimiters fun segments tokens glob =>
    ∀ es : Entries α, ∃ choices b, Run delimiters es segments tokens glob choices b where
  stop _ := ⟨_, _, .stop⟩
  condition admits onward _ := Run.admitted admits onward
  literal onward es := by
    rcases onward (after (.fixed (.text _)) es) with ⟨_, _, hrun⟩
    exact ⟨_, _, .literal hrun⟩
  separator onward es := by
    rcases onward (after (.fixed (.text _)) es) with ⟨_, _, hrun⟩
    exact ⟨_, _, .separator hrun⟩
  single kind mark accepts onward es := by
    rcases onward (after (.binder _) es) with ⟨_, _, hrun⟩
    exact ⟨_, _, .single mark kind accepts hrun⟩
  several kind greedy mark accepts onward es := by
    rcases onward (after (.binder _) es) with ⟨_, _, hrun⟩
    exact ⟨_, _, .several mark kind greedy accepts hrun⟩
  greedy kind greedy regex mark spells last accepts onward es := by
    rcases onward (after (.binder _) es) with ⟨_, _, hrun⟩
    exact ⟨_, _, .greedy mark kind greedy regex spells last (fun _ => accepts) hrun⟩
  skip mark onward es := by
    rcases onward es with ⟨_, _, hrun⟩
    exact ⟨_, _, .skip mark hrun⟩
  take mark accepts onward es := by
    rcases onward es with ⟨_, _, hrun⟩
    exact ⟨_, _, .take mark accepts hrun⟩

/-- Every cut is a run, whatever glob is open before it. A run says in
    addition which choices were made. They do not matter here: that there is a
    run is enough for the search to find something. -/
theorem Cut.exists_run {segments : List Segment} {tokens : List Token}
    (hcut : Cut delimiters segments tokens) (es : Entries α) (glob : Option OpenGlob) :
    ∃ choices b, Run delimiters es segments tokens glob choices b :=
  Run.steps.of_cut hcut glob es

/-- A run of a path without globs cuts the tokens one by one. With globs a run
    says more than a cut does, since a greedy variable has to take what its
    expression matches. -/
theorem Run.cut {es : Entries α} {parts : List Segment} {tokens : List Token}
    {choices : List Nat} {b : Bindings} (hrun : Run delimiters es parts tokens none choices b)
    (hsingles : ∀ v, Segment.var v ∈ parts → v.glob = none)
    (hplain : ∀ c, Segment.condition c ∉ parts) : Cut delimiters parts tokens := by
  generalize hglob : none = glob at hrun
  -- No glob is ever open, so every token is taken by a segment of its own.
  induction hrun with
  | stop => exact .nil
  | exact | judged | anything => exact absurd List.mem_cons_self (hplain _)
  | literal onward ih =>
      exact .literal (ih (fun v hv => hsingles v (List.mem_cons_of_mem _ hv))
        (fun c hc => hplain c (List.mem_cons_of_mem _ hc)) rfl)
  | separator onward ih =>
      exact .separator (ih (fun v hv => hsingles v (List.mem_cons_of_mem _ hv))
        (fun c hc => hplain c (List.mem_cons_of_mem _ hc)) hglob)
  | single mark kind accepts onward ih =>
      exact .single kind mark accepts (ih (fun v hv => hsingles v (List.mem_cons_of_mem _ hv))
        (fun c hc => hplain c (List.mem_cons_of_mem _ hc)) rfl)
  | several mark kind | greedy mark kind =>
      rw [hsingles _ List.mem_cons_self] at kind
      cases kind
  | skip | take => cases hglob

/-- The attribute is of the kind that the condition is on. -/
theorem Condition.Admits.kind {d c : Condition} (h : d.Admits c) : d.kind.form = c.kind.form := by
  unfold Condition.Admits at h
  split at h
  · exact Value.same_iff_form_eq.1 h
  · rw [Value.equal, Bool.and_eq_true] at h
    exact Value.same_iff_form_eq.1 h.1.2
  · exact Value.same_iff_form_eq.1 h.1

/-- Every attribute in a cut is looked up by a kind that a condition has. -/
theorem Cut.isKey_of_brought {segments : List Segment} {tokens : List Token}
    (hcut : Cut delimiters segments tokens) (hfileable : ∀ s ∈ segments, s.isFileable = true)
    {c : Condition} (hc : Brought tokens c) : c.kind.isKey = true := by
  -- Only a condition takes an attribute, so the texts of a piece are of no interest.
  have htexts : ∀ {pieces : List String} {tokens : List Token},
      Brought (pieces.map Token.ofText ++ tokens) c → Brought tokens c := by
    intro pieces tokens hc
    rcases List.mem_append.1 hc with hc | hc
    · rcases List.mem_map.1 hc with ⟨_, _, hx⟩
      cases hx
    · exact hc
  induction hcut with
  | nil => exact absurd hc List.not_mem_nil
  | @condition d _ segments tokens admits onward ih =>
      rcases List.mem_cons.1 hc with hx | hx
      · cases hx
        have hkey := hfileable _ List.mem_cons_self
        rw [Segment.isFileable, Bool.and_eq_true, Value.isKey_congr admits.kind] at hkey
        exact hkey.1
      · exact ih (fun s hs => hfileable s (List.mem_cons_of_mem _ hs)) hx
  | @literal s segments tokens onward ih =>
      exact ih (fun u hu => hfileable u (List.mem_cons_of_mem _ hu)) (@htexts [s] _ hc)
  | @separator s segments tokens onward ih =>
      exact ih (fun u hu => hfileable u (List.mem_cons_of_mem _ hu)) (@htexts [s] _ hc)
  | @single s v segments tokens kind mark accepts onward ih =>
      exact ih (fun u hu => hfileable u (List.mem_cons_of_mem _ hu)) (@htexts [s] _ hc)
  | several kind greedy mark accepts onward ih =>
      exact ih (fun u hu => hfileable u (List.mem_cons_of_mem _ hu)) (htexts hc)
  | greedy kind greedy regex mark spells last accepts onward ih =>
      rw [List.map_append] at hc
      exact ih (fun u hu => hfileable u (List.mem_cons_of_mem _ hu)) (htexts hc)

/-- The pieces for a path proper are texts. -/
theorem Cut.texts {parts : List Segment} {tokens : List Token}
    (hcut : Cut delimiters parts tokens) (hparts : ∀ c, Segment.condition c ∉ parts) :
    ∃ pieces : List String, tokens = pieces.map Token.ofText := by
  induction hcut with
  | nil => exact ⟨[], rfl⟩
  | condition => exact absurd List.mem_cons_self (hparts _)
  | @literal s segments tokens onward ih | @separator s segments tokens onward ih
  | @single s v segments tokens kind mark accepts onward ih =>
      rcases ih fun c hc => hparts c (List.mem_cons_of_mem _ hc) with ⟨pieces, rfl⟩
      exact ⟨s :: pieces, rfl⟩
  | @several s piece v g segments tokens kind greedy mark accepts onward ih =>
      rcases ih fun c hc => hparts c (List.mem_cons_of_mem _ hc) with ⟨pieces, rfl⟩
      exact ⟨s :: piece ++ pieces, List.map_append.symm⟩
  | greedy => exact ⟨_, rfl⟩

/-- The tokens that are cut for a path are attributes and then texts, as a path has
    its conditions in front. So whatever can be cut may be brought to a search. -/
theorem Cut.orderly {conditions : List Condition} {parts : List Segment} {tokens : List Token}
    (hcut : Cut delimiters (conditions.map Segment.condition ++ parts) tokens)
    (hparts : ∀ c, Segment.condition c ∉ parts) : Orderly tokens := by
  induction conditions generalizing tokens with
  | nil =>
      rcases hcut.texts hparts with ⟨pieces, rfl⟩
      exact .texts pieces
  | cons d rest ih =>
      cases hcut with
      | condition admits onward => exact .before (ih onward)

namespace Trie

/-- Something is found if the tokens can be cut for one of the paths. The
    validators come out with a verdict on whatever they may be asked, which
    are the attributes among the tokens and texts, and no requirement on a
    greedy variable repeats its expression. -/
theorem exists_of_cut {t : Trie α} {paths : List (α × Path)} (h : t.Built delimiters paths)
    (hechoes : ∀ e ∈ paths, ∀ v, Segment.var v ∈ e.2.parts → v.echoes = false)
    {e : α × Path} (he : e ∈ paths) {tokens : List Token}
    (htotal : ∀ w x, Asked (Brought tokens) paths w x → ∃ verdict, w.accepts x = .ok verdict)
    (hcut : Cut delimiters e.2.segments tokens) :
    ∃ found, t.find delimiters tokens = .ok (some found) := by
  have hfits := (h.compiled e he).fits
  have horderly := hcut.orderly fun c hc => hfits _ hc
  have hanswers := h.answers_arrivals hechoes horderly
  -- Neither a fault nor a miss is possible: nothing is at fault, and the cut is a run.
  cases hfind : t.find delimiters tokens with
  | error fault =>
      rw [hfind] at hanswers
      rcases hanswers with ⟨w, x, hasked, hx⟩ | ⟨⟨c, hc, hkey⟩, _⟩
      · rcases htotal w x hasked with ⟨verdict, hverdict⟩
        rw [hverdict] at hx
        cases hx
      · rw [hcut.isKey_of_brought (h.fileable e he) hc] at hkey
        cases hkey
  | ok answer =>
      cases answer with
      | some found => exact ⟨found, rfl⟩
      | none =>
          rw [hfind] at hanswers
          rcases hcut.exists_run (entriesOf paths) none with ⟨choices, b, hrun⟩
          have hmem : (e.1, e.2.segments) ∈ entriesOf paths := List.mem_map.2 ⟨e, he, rfl⟩
          rcases holder_of_mem hmem with ⟨path, hpath⟩
          exact absurd ⟨e, he, hrun, hpath⟩ (hanswers choices (path, b))

omit [Host] in
/-- The literal of another path comes first, and the search has to come back from it. -/
theorem exists_of_cut_behind_literal :
    let fixed : Path := ⟨[], [.separator "/", .literal "7", .separator "/", .literal "b"]⟩
    let free : Path := ⟨[], [.separator "/", .var ⟨"x", some (.equality (.text "7")), .none,
      some "/", none⟩, .separator "/", .literal "c"]⟩
    let t := (Trie.insertAll (entriesOf [(0, fixed), (1, free)]) .empty).trie
    let tokens := ["/", "7", "/", "c"].map Token.ofText
    @Cut Host.idle ["/", "."] free.segments tokens ∧
      ∃ found, @Trie.find Host.idle Nat ["/", "."] t tokens = .ok (some found) := by
  intro fixed free t tokens
  let idle : Host := Host.idle
  have hfixed : @Pattern.compile Host.idle ["/", "."] "/7/b" [] [] = .ok [fixed.parts] := by cbv
  have hfree : @Pattern.compile Host.idle ["/", "."] "/:x/c"
      [("x", .validator (.equality (.text "7")))] [] = .ok [free.parts] := by cbv
  have hcompiled : ∀ e ∈ [(0, fixed), (1, free)], e.2.Compiled ["/", "."] := by
    intro e he
    rcases List.mem_cons.1 he with rfl | he
    · exact ⟨_, _, _, _, _, hfixed, List.mem_singleton_self _⟩
    · rw [List.mem_singleton.1 he]
      exact ⟨_, _, _, _, _, hfree, List.mem_singleton_self _⟩
  have hbuilt : t.Built ["/", "."] [(0, fixed), (1, free)] :=
    Built.empty.insertAll hcompiled (by cbv)
  have hechoes : ∀ e ∈ [(0, fixed), (1, free)], ∀ v, Segment.var v ∈ e.2.parts →
      v.echoes = false := by
    intro e he v hv
    rcases List.mem_cons.1 he with rfl | he
    · simp [fixed] at hv
    · rw [List.mem_singleton.1 he] at hv
      simp only [free, List.mem_cons, reduceCtorEq, Segment.var.injEq, false_or, or_false,
        List.not_mem_nil] at hv
      rw [hv]
      rfl
  -- The only validator compares, and so has an answer to everything.
  have htotal : ∀ w x, Asked (Brought tokens) [(0, fixed), (1, free)] w x →
      ∃ verdict, w.accepts x = .ok verdict := by
    rintro w x ⟨e, he, s, hs, hasks⟩
    rcases List.mem_cons.1 he with rfl | he
    · simp only [fixed, Path.segments, List.map_nil, List.nil_append, List.mem_cons,
        List.not_mem_nil, or_false] at hs
      rcases hs with rfl | rfl | rfl | rfl <;> cases hasks
    · rw [List.mem_singleton.1 he] at hs
      simp only [free, Path.segments, List.map_nil, List.nil_append, List.mem_cons,
        List.not_mem_nil, or_false] at hs
      rcases hs with rfl | rfl | rfl | rfl <;> cases hasks
      next held => exact ⟨_, by cases held; rfl⟩
  have hcut : Cut ["/", "."] free.segments tokens :=
    .separator (.single rfl rfl (by cbv) (.separator (.literal .nil)))
  exact ⟨hcut, exists_of_cut hbuilt hechoes (e := (1, free)) (by simp) htotal hcut⟩

end Trie

omit [Host] in
/-- A greedy variable misses tokens that spell exactly what its expression
    matches if the first of them is a delimiter, and if the last of them is
    empty. Both are kept out of a cut for this reason, and neither exclusion
    can be given up. -/
theorem find_misses_greedy_cuts :
    (∃ (r : Regex) (p : Path) (t : Trie Nat),
      Regex.compile? Host.idle.character ".*" .plain = .ok r ∧
      p.segments = [.var (.several "x" (some (.regex r)) true none)] ∧
      t.Built ["/", "."] [(0, p)] ∧ r.prefixMatch? "/" = some "/" ∧
      @Trie.find Host.idle Nat ["/", "."] t [.ofText "/"] = .ok none) ∧
    (∃ (r : Regex) (p : Path) (t : Trie Nat),
      Regex.compile? Host.idle.character "a" .plain = .ok r ∧
      p.segments = [.var (.several "x" (some (.regex r)) true none)] ∧
      t.Built ["/", "."] [(0, p)] ∧
      r.prefixMatch? (String.join ["a", ""]) = some (String.join ["a", ""]) ∧
      @Trie.find Host.idle Nat ["/", "."] t [.ofText "a", .ofText ""] = .ok none) :=
  ⟨exists_miss_of_delimiter, exists_miss_of_empty⟩

end PathRouting
