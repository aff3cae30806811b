import PathRouting.Proofs.Trie.Contents
import PathRouting.Proofs.Trie.Walk

/-!
# The Search Finds the First Run of a Path

A run takes a single path over the tokens, segment by segment, and does not
know of any tree. A tree that holds some paths is searched as if every one of
them were run on its own and the run with the least choices taken: sharing
nodes, and trying one child after the other, makes no difference to what is
found.

A walk through the tree and a run of a path go together step by step. They are
not over the same segments, since a node keeps the segment it was made for and
other paths share it: the two have the same place, and what is done with a
segment is a matter of its place. There is one exception. A requirement on a
greedy variable that only repeats its expression is asked for by some
variables of a position and not by others, so paths with such a requirement
are left out where it matters.

## Main definitions

* `Variable.echoes`: A requirement only repeats the expression of the variable.
* `OpenGlob.progress`: What a walk and a run have in common of an open glob.
* `Sound`, `Unechoed`: What is asked of the paths in a tree.
* `Run`: The runs of a path.
* `Retraced`: What a walk leaves for runs to follow.
* `Trie.Runnable`: A tree in which runs can be followed.

## Theorems

* `accepts_of_position`: Variables of one position accept the same.
* `requirement_of_position`: Greedy variables of one position have one
  requirement, if it does not repeat the expression.
* `Run.greedy_of_takes`, `greedyTake_of_position`: Greedy variables of one
  position take the same tokens.
* `Retraced.step`: A step of a walk is retraced one segment at a time.
* `Trie.run_of_walk`: A walk is a run of the path it arrives at.
* `Trie.walk_of_run`: A run of a path is a walk.
-/

namespace PathRouting

/-- The variable is greedy and has a requirement that only repeats its
    expression. Whether such a requirement is asked depends on which of two
    equal expressions is the one at hand, so a path by itself does not tell. -/
def Variable.echoes (v : Variable) : Bool :=
  match v.glob with
  | some g =>
    g.greedy && g.separate && v.validator.map Validator.form == g.regex.map Validator.form
  | none => false

/-- What counts of an open glob: where its variable is filed, and what it has
    taken. Two globs that agree in this take the same tokens from here on. -/
def OpenGlob.progress (g : OpenGlob) : Position × List Value :=
  (g.owner.position, g.taken)

variable {α : Type} {delimiters : List String} {es : Entries α}

/-- Variables of one position take several tokens in the same way, or one token. -/
theorem glob_of_position {v w : Variable} {g : Glob} (h : v.position = w.position)
    (hv : v.glob = some g) :
    ∃ g', w.glob = some g' ∧ g'.greedy = g.greedy ∧
      g'.regex.map Validator.form = g.regex.map Validator.form := by
  have hglob : v.glob.map (fun g => (g.greedy, g.regex.map Validator.form)) =
      w.glob.map fun g => (g.greedy, g.regex.map Validator.form) := congrArg Position.glob h
  rw [hv] at hglob
  rcases Option.map_eq_some_iff.1 hglob.symm with ⟨g', hg', hpair⟩
  exact ⟨g', hg', congrArg Prod.fst hpair, congrArg Prod.snd hpair⟩

theorem glob_none_of_position {v w : Variable} (h : v.position = w.position)
    (hv : v.glob = none) : w.glob = none := by
  cases hw : w.glob with
  | none => rfl
  | some g =>
      rcases glob_of_position h.symm hw with ⟨g', hg', _⟩
      rw [hv] at hg'
      cases hg'

/-- An expression is known by its form. -/
theorem regex_of_form {x : Option Validator} {r : Regex}
    (h : x.map Validator.form = (some (Validator.regex r)).map Validator.form) :
    x = some (.regex r) := by
  rcases Option.map_eq_some_iff.1 h with ⟨w, rfl, hw⟩
  cases w with
  | regex q =>
      simp only [Validator.form, Form.matching.injEq] at hw
      rw [hw]
  | _ => simp [Validator.form] at hw

/-- What is guaranteed of the segments in a tree: they can be filed, and those
    that are not conditions are as compiling makes them. -/
def Segment.Sound (delimiters : List String) (s : Segment) : Prop :=
  s.isFileable = true ∧ ((∃ c, s = .condition c) ∨ s.Fits delimiters)

/-- The segments of all entries are sound. -/
def Sound (delimiters : List String) (es : Entries α) : Prop :=
  ∀ e ∈ es, ∀ s ∈ e.2, s.Sound delimiters

theorem Sound.after (h : Sound delimiters es) (p : Place) : Sound delimiters (after p es) := by
  intro e he u hu
  rcases mem_after.1 he with ⟨s, _, hmem⟩
  exact h _ hmem u (List.mem_cons_of_mem _ hu)

theorem Sound.fits (h : Sound delimiters es) {a : α} {v : Variable} {segments : List Segment}
    (hmem : (a, .var v :: segments) ∈ es) : v.Fits := by
  rcases (h _ hmem _ List.mem_cons_self).2 with ⟨c, hc⟩ | hfits
  · cases hc
  · exact hfits

/-- No requirement in the entries only repeats the expression of a greedy variable. -/
def Unechoed (es : Entries α) : Prop :=
  ∀ e ∈ es, ∀ v, Segment.var v ∈ e.2 → v.echoes = false

theorem Unechoed.after (h : Unechoed es) (p : Place) : Unechoed (after p es) := by
  intro e he v hv
  rcases mem_after.1 he with ⟨s, _, hmem⟩
  exact h _ hmem v (List.mem_cons_of_mem _ hv)

/-- What ends behind the place of a segment ends where the segment leads. -/
theorem holder_cons {s : Segment} {segments : List Segment} {path : α}
    (h : holder (after s.place es) (segments.map Segment.place) = some path) :
    holder es ((s :: segments).map Segment.place) = some path := by
  rw [List.map_cons, ← holder_after]
  exact h

/-- An entry that leads over a place has a segment for it, and is behind it
    from there. -/
theorem exists_step {p : Place} {places : List Place} {a : α} {segments : List Segment}
    (hmem : (a, segments) ∈ es) (hplaces : segments.map Segment.place = p :: places) :
    ∃ s more, segments = s :: more ∧ s.place = p ∧ (a, more) ∈ after p es ∧
      more.map Segment.place = places := by
  cases segments with
  | nil => cases hplaces
  | cons s more =>
      rw [List.map_cons, List.cons.injEq] at hplaces
      exact ⟨s, more, rfl, hplaces.1, mem_after.2 ⟨s, hplaces.1, hmem⟩, hplaces.2⟩

/-- A literal and a separator of one text are not both compiled. They share a
    place, and a tree could not tell them apart; but whether a text is a
    delimiter is settled when a pattern is compiled. -/
theorem eq_of_place_of_sound {s u : Segment} {text : String} (hs : s.Sound delimiters)
    (hu : u.Sound delimiters) (hsplace : s.place = .fixed (.text text))
    (huplace : u.place = .fixed (.text text)) : s = u := by
  -- A separator is a delimiter, and no literal has one in it.
  have hboth : (Segment.literal text).Sound delimiters →
      (Segment.separator text).Sound delimiters → False := by
    intro hliteral hseparator
    rcases hliteral.2 with ⟨c, hc⟩ | hliteral
    · cases hc
    · rcases hseparator.2 with ⟨c, hc⟩ | ⟨c, rfl, hmark⟩
      · cases hc
      · rw [hliteral.2 c (by simp)] at hmark
        cases hmark
  rcases Segment.eq_of_place_text hsplace with rfl | rfl <;>
    rcases Segment.eq_of_place_text huplace with rfl | rfl
  · rfl
  · exact absurd hu (hboth hs)
  · exact absurd hs (hboth hu)
  · rfl

/-- Closing a glob is a matter of its progress. -/
theorem closeGlob_of_progress {glob other : Option OpenGlob}
    (h : glob.map OpenGlob.progress = other.map OpenGlob.progress) :
    closeGlob [] glob = closeGlob [] other := by
  cases glob with
  | none => rw [Option.map_eq_none_iff.1 h.symm]
  | some g =>
      rcases Option.map_eq_some_iff.1 h.symm with ⟨g', rfl, hprogress⟩
      have hname : g'.owner.name = g.owner.name :=
        congrArg (fun p => p.1.name) hprogress
      have htaken : g'.taken = g.taken := congrArg Prod.snd hprogress
      rw [closeGlob, closeGlob, hname, htaken]

/-- Globs of one position that have taken the same are equally far. How far a
    glob is decides whether it may go on, so a path follows the glob of
    another one with the same places as if it were its own. -/
theorem progress_of_position {v w : Variable} (h : v.position = w.position)
    (taken : List Value) :
    (some (OpenGlob.mk v taken)).map OpenGlob.progress =
      (some (OpenGlob.mk w taken)).map OpenGlob.progress := by
  rw [Option.map_some, Option.map_some, OpenGlob.progress, OpenGlob.progress, h]

/-- Whether a greedy variable with a requirement echoes is a matter of its position. -/
theorem echoes_of_separate {v : Variable} {g : Glob} (hv : v.glob = some g)
    (hgreedy : g.greedy = true) (hseparate : g.separate = true) :
    v.echoes = (v.position.validator == g.regex.map Validator.form) := by
  simp only [Variable.echoes, hv, hgreedy, hseparate, Bool.true_and]
  rfl

/-- What is left of some texts as tokens behind a front of them. -/
theorem drop_ofText (x : String) (front back : List String) :
    ((front ++ back).map Token.ofText).drop ((x :: front).length - 1) =
      back.map Token.ofText := by
  rw [List.map_append, List.length_cons, Nat.add_sub_cancel]
  exact List.drop_left' (List.length_map _)

variable [Host]

/-- The runs of a path, by its segments, over some tokens, with the choices made and
    what is bound. The entries are the paths that had the same places so far; they
    give the conditions that judge their numbers, and nothing else.

    A condition that does not judge takes the attributes that are the same key of a
    dictionary, by kind and by value. A greedy variable takes as few tokens as spell what
    it matches. Its requirement, if there is one, is not asked where it only repeats the
    expression. -/
inductive Run (delimiters : List String) :
    Entries α → List Segment → List Token → Option OpenGlob → List Nat → Bindings → Prop
  | stop {es : Entries α} {glob : Option OpenGlob} :
      Run delimiters es [] [] glob [] (closeGlob [] glob)
  | exact {es : Entries α} {c d : Condition} {segments : List Segment} {rest : List Token}
      {glob : Option OpenGlob} {choices : List Nat} {b : Bindings}
      (compares : d.isPattern = false) (kind : d.kind.same c.kind = true)
      (value : d.value.same c.value = true)
      (onward : Run delimiters (after (Segment.condition d).place es) segments rest none
        choices b) :
      Run delimiters es (.condition d :: segments) (.attribute c :: rest) glob (0 :: choices)
        (closeGlob [] glob ++ b)
  | judged {es : Entries α} {c : Condition} {kind : Value} {w : Validator}
      {segments : List Segment} {rest : List Token} {glob : Option OpenGlob}
      {choices : List Nat} {b : Bindings} (present : c.value.isNone = false)
      (equal : kind.equal c.kind = true) (accepts : w.accepts c.value = .ok true)
      (onward : Run delimiters (after (.judged kind.form w.form) es) segments rest none choices b) :
      Run delimiters es (.condition ⟨kind, .validator w⟩ :: segments) (.attribute c :: rest) glob
        (((judging es).idxOf (.judged kind.form w.form) + 1) :: choices)
        (closeGlob [] glob ++ b)
  | anything {es : Entries α} {c d : Condition} {segments : List Segment} {rest : List Token}
      {glob : Option OpenGlob} {choices : List Nat} {b : Bindings}
      (wildcard : d.isWildcard = true) (kind : d.kind.same c.kind = true)
      (onward : Run delimiters (after (Segment.condition d).place es) segments rest none
        choices b) :
      Run delimiters es (.condition d :: segments) (.attribute c :: rest) glob
        (((judging es).length + 1) :: choices) (closeGlob [] glob ++ b)
  | literal {es : Entries α} {s : String} {segments : List Segment} {rest : List Token}
      {glob : Option OpenGlob} {choices : List Nat} {b : Bindings}
      (onward : Run delimiters (after (.fixed (.text s)) es) segments rest none choices b) :
      Run delimiters es (.literal s :: segments) (.piece (.text s) :: rest) glob (0 :: choices)
        (closeGlob [] glob ++ b)
  | separator {es : Entries α} {s : String} {segments : List Segment} {rest : List Token}
      {glob : Option OpenGlob} {choices : List Nat} {b : Bindings}
      (onward : Run delimiters (after (.fixed (.text s)) es) segments rest glob choices b) :
      Run delimiters es (.separator s :: segments) (.piece (.text s) :: rest) glob (0 :: choices) b
  | single {es : Entries α} {s : String} {v : Variable} {segments : List Segment}
      {rest : List Token} {glob : Option OpenGlob} {choices : List Nat} {b : Bindings}
      (mark : Tokens.isDelimiter delimiters s = false) (kind : v.glob = none)
      (accepts : v.accepts (.text s) = .ok true)
      (onward : Run delimiters (after (.binder v.position) es) segments rest none choices b) :
      Run delimiters es (.var v :: segments) (.piece (.text s) :: rest) glob (1 :: choices)
        (closeGlob [] glob ++ (v.name, .one (.text s)) :: b)
  | several {es : Entries α} {s : String} {v : Variable} {g : Glob} {segments : List Segment}
      {rest : List Token} {glob : Option OpenGlob} {choices : List Nat} {b : Bindings}
      (mark : Tokens.isDelimiter delimiters s = false) (kind : v.glob = some g)
      (greedy : g.greedy = false) (accepts : v.accepts (.text s) = .ok true)
      (onward : Run delimiters (after (.binder v.position) es) segments rest
        (some ⟨v, [.text s]⟩) choices b) :
      Run delimiters es (.var v :: segments) (.piece (.text s) :: rest) glob (1 :: choices)
        (closeGlob [] glob ++ b)
  | greedy {es : Entries α} {s : String} {front back : List String} {v : Variable} {g : Glob}
      {r : Regex} {segments : List Segment} {glob : Option OpenGlob} {choices : List Nat}
      {b : Bindings} (mark : Tokens.isDelimiter delimiters s = false) (kind : v.glob = some g)
      (greedy : g.greedy = true) (regex : g.regex = some (.regex r))
      (spells : r.prefixMatch? (String.join (s :: front ++ back)) = some (String.join (s :: front)))
      (last : (s :: front).getLast? ≠ some "")
      (accepts : v.echoes = false → g.separate = true →
        v.accepts (.text (String.join (s :: front))) = .ok true)
      (onward : Run delimiters (after (.binder v.position) es) segments
        (back.map Token.ofText) none choices b) :
      Run delimiters es (.var v :: segments) ((s :: front ++ back).map Token.ofText) glob
        (1 :: choices)
        (closeGlob [] glob ++ (v.name, .one (.text (String.join (s :: front)))) :: b)
  | skip {es : Entries α} {s : String} {g : OpenGlob} {segments : List Segment}
      {rest : List Token} {choices : List Nat} {b : Bindings}
      (mark : Tokens.isDelimiter delimiters s = true)
      (onward : Run delimiters es segments rest (some g) choices b) :
      Run delimiters es segments (.piece (.text s) :: rest) (some g) (2 :: choices) b
  | take {es : Entries α} {s : String} {g : OpenGlob} {segments : List Segment}
      {rest : List Token} {choices : List Nat} {b : Bindings}
      (mark : Tokens.isDelimiter delimiters s = false)
      (accepts : g.owner.accepts (.text s) = .ok true)
      (onward : Run delimiters es segments rest (some ⟨g.owner, g.taken ++ [.text s]⟩) choices b) :
      Run delimiters es segments (.piece (.text s) :: rest) (some g) (2 :: choices) b

/-- Variables of one position accept the same. -/
theorem accepts_of_position {v w : Variable} (h : v.position = w.position) (x : Value) :
    v.accepts x = w.accepts x := by
  have hvalidator : v.validator.map Validator.form = w.validator.map Validator.form :=
    congrArg Position.validator h
  unfold Variable.accepts
  cases hv : v.validator with
  | none =>
      rw [hv] at hvalidator
      rw [Option.map_eq_none_iff.1 hvalidator.symm]
  | some a =>
      rw [hv] at hvalidator
      rcases Option.map_eq_some_iff.1 hvalidator.symm with ⟨b, hb, hform⟩
      rw [hb]
      exact Validator.accepts_congr hform.symm x

/-- Of two greedy variables of one position, one asks for a requirement that
    does not repeat the expression if the other does, and it is the same one.
    This is where echoes have to be excluded: a repeated requirement may be
    asked of one variable and not of the other. -/
theorem requirement_of_position {v w : Variable} {g g' : Glob} {x : Value}
    (h : v.position = w.position) (hv : v.glob = some g) (hw : w.glob = some g')
    (hgreedy : g.greedy = true) (hfits : v.Fits)
    (haccepts : v.echoes = false → g.separate = true → v.accepts x = .ok true) :
    w.echoes = false → g'.separate = true → w.accepts x = .ok true := by
  intro hechoes hseparate
  rcases glob_of_position h hv with ⟨_, hsome, hgreedy', hregex⟩
  cases hw.symm.trans hsome
  rw [echoes_of_separate hw (hgreedy'.trans hgreedy) hseparate, ← h, hregex] at hechoes
  have hown : g.separate = true := by
    cases hown : g.separate with
    | true => rfl
    | false =>
        -- The validator is the expression, so the other requirement repeats it.
        rcases hfits g hv hgreedy with ⟨r, hr, hvalidator⟩
        have hsame : v.position.validator = g.regex.map Validator.form := by
          rw [Variable.position, hvalidator hown, hr]
        rw [hsame, beq_self_eq_true] at hechoes
        cases hechoes
  -- So both have a requirement, and one validator between them.
  rw [← accepts_of_position h]
  exact haccepts (by rw [echoes_of_separate hv hgreedy hown, hechoes]) hown

/-- What a greedy variable takes by counting, another of the same position
    takes by spelling. The tokens counted off are a front that spells the
    match, and the fewest such. -/
theorem Run.greedy_of_takes {v w : Variable} {g : Glob} {x matched : String} {n : Nat}
    {rest : List Token} {segments : List Segment} {glob : Option OpenGlob}
    {choices : List Nat} {b : Bindings} (hposition : w.position = v.position) (hfits : v.Fits)
    (mark : Tokens.isDelimiter delimiters x = false) (kind : v.glob = some g)
    (greedy : g.greedy = true)
    (takes : greedyTake v g (.piece (.text x) :: rest) = .ok (some (matched, n)))
    (onward : Run delimiters (after (.binder w.position) es) segments (rest.drop (n - 1)) none
      choices b) :
    Run delimiters es (.var w :: segments) (.piece (.text x) :: rest) glob (1 :: choices)
      (closeGlob [] glob ++ (v.name, .one (.text matched)) :: b) := by
  rcases glob_of_position hposition.symm kind with ⟨g', hglob, hgreedy, hregex⟩
  have hname : v.name = w.name := congrArg Position.name hposition.symm
  -- Over texts, what was counted off is a front of them that spells the match.
  rcases texts_of_greedyTake takes with ⟨pieces, hpieces⟩
  rw [hpieces] at takes
  rcases greedyTake_eq_some.1 takes with
    ⟨r, front, back, hr, rfl, rfl, hmatch, hne, hjoin, hlast, haccepts⟩
  cases front with
  | nil => exact absurd (hjoin.symm.trans String.join_nil) hne
  | cons y more =>
      rw [List.cons_append, List.map_cons, Token.ofText, List.cons.injEq] at hpieces
      rcases hpieces with ⟨hx, hrest⟩
      cases hx
      rw [hrest, drop_ofText] at onward
      rw [hname, ← hjoin, hrest]
      have hr' : g'.regex = some (.regex r) := regex_of_form (hregex.trans (by rw [hr]))
      refine .greedy mark hglob (hgreedy.trans greedy) hr' ?_ hlast ?_ onward
      · rw [hjoin]
        exact hmatch
      · refine requirement_of_position hposition.symm kind hglob greedy hfits
          fun _ hseparate => ?_
        rw [hjoin]
        exact haccepts hseparate

/-- The converse: what a greedy variable takes by spelling, another of the
    same position takes by counting, unless that one has a requirement which
    repeats the expression. -/
theorem greedyTake_of_position {v w : Variable} {g g' : Glob} {r : Regex} {x : String}
    {front back : List String} (hposition : v.position = w.position) (hfits : v.Fits)
    (hechoes : w.echoes = false) (kind : v.glob = some g) (hglob : w.glob = some g')
    (greedy : g.greedy = true) (regex : g.regex = some (.regex r))
    (spells : r.prefixMatch? (String.join (x :: front ++ back)) = some (String.join (x :: front)))
    (last : (x :: front).getLast? ≠ some "")
    (accepts : v.echoes = false → g.separate = true →
      v.accepts (.text (String.join (x :: front))) = .ok true) :
    greedyTake w g' ((x :: front ++ back).map Token.ofText) =
      .ok (some (String.join (x :: front), (x :: front).length)) := by
  rcases glob_of_position hposition kind with ⟨g'', hsome, _, hregex⟩
  cases hglob.symm.trans hsome
  have hr : g'.regex = some (.regex r) := regex_of_form (hregex.trans (by rw [regex]))
  refine greedyTake_eq_some.2 ⟨r, x :: front, back, hr, rfl, rfl, spells, join_ne_empty last,
    rfl, last, fun hseparate => ?_⟩
  exact requirement_of_position hposition kind hglob greedy hfits accepts hechoes hseparate

/-- A walk that arrives at something is retraced by runs: that something ends
    behind certain places, and every path with those places can be run with
    the same choices, whatever segments it has there. Where a glob is open,
    the walk is told by its progress alone. -/
def Retraced (delimiters : List String) (es : Entries α) (tokens : List Token)
    (glob : Option OpenGlob) (choices : List Nat) (path : α) (b : Bindings) : Prop :=
  ∃ places, holder es places = some path ∧
    ∀ a segments, (a, segments) ∈ es → segments.map Segment.place = places →
      ∀ other, glob.map OpenGlob.progress = other.map OpenGlob.progress →
        Run delimiters es segments tokens other choices b

/-- A step of a walk puts a place in front of those behind it. To retrace the
    step is to run the segment that a path has at that place, whichever it is. -/
theorem Retraced.step {p : Place} {tokens rest : List Token} {glob next : Option OpenGlob}
    {choices further : List Nat} {path : α} {b whole : Bindings}
    (hbehind : Retraced delimiters (after p es) rest next further path b)
    (hstep : ∀ a s more other, (a, s :: more) ∈ es → s.place = p →
      glob.map OpenGlob.progress = other.map OpenGlob.progress →
      (∀ inner, next.map OpenGlob.progress = inner.map OpenGlob.progress →
        Run delimiters (after s.place es) more rest inner further b) →
      Run delimiters es (s :: more) tokens other choices whole) :
    Retraced delimiters es tokens glob choices path whole := by
  rcases hbehind with ⟨places, hholder, hruns⟩
  refine ⟨p :: places, (holder_after _ _ _).symm.trans hholder,
    fun a segments hmem hplaces other hother => ?_⟩
  rcases exists_step hmem hplaces with ⟨s, more, rfl, rfl, hmore, hrest⟩
  exact hstep a s more other hmem rfl hother (hruns a more hmore hrest)

namespace Trie

omit [Host] in
/-- The variable of a node is as compiling makes it. -/
theorem Holds.fits_of_binder {t child : Trie α} {es : Entries α} (h : t.Holds es)
    (hsound : Sound delimiters es) {v : Variable} (hleads : t.binder = some (v, child)) :
    v.Fits := by
  rcases h.exists_label (childAt?_of_binder hleads) with ⟨a, rest, hmem⟩
  exact hsound.fits hmem

omit [Host] in
/-- A text child was made for the very segment that leads to it. -/
theorem Holds.eq_label {t child : Trie α} {es : Entries α} (h : t.Holds es)
    (hsound : Sound delimiters es) {text : String} {u s : Segment} {a : α}
    {segments : List Segment} (hat : t.childAt? (.fixed (.text text)) = some (u, child))
    (hs : (a, s :: segments) ∈ es) (hplace : s.place = .fixed (.text text)) : s = u := by
  rcases h.exists_label hat with ⟨a', rest, hu⟩
  exact eq_of_place_of_sound (hsound _ hs s List.mem_cons_self)
    (hsound _ hu u List.mem_cons_self) hplace (place_of_childAt? hat)

omit [Host] in
/-- As many conditions judge at a node as in the entries. -/
theorem Holds.length_judging {t : Trie α} {es : Entries α} (h : t.Holds es) :
    (judging es).length = t.judged.length := by
  rw [← h.judgedPlaces_eq, judgedPlaces, List.length_map]

/-- A walk leads over some places and arrives at what ends there. It is a run
    of every path with those places. The induction is on the walk; each case
    takes the step back over the place that is in front, and runs whichever
    segment a path has there. -/
theorem run_of_walk {t : Trie α} {tokens : List Token} {glob : Option OpenGlob}
    {choices : List Nat} {path : α} {b : Bindings}
    (hwalk : Walk delimiters t tokens glob choices path b) {es : Entries α}
    (h : t.Holds es) (hsound : Sound delimiters es) :
    Retraced delimiters es tokens glob choices path b := by
  -- On the walk. What is known of the tree behind a step is what remains of the entries
  -- behind its place. The node has the segment of one path; the run needs that of another,
  -- and what the two have in common is read off the place.
  induction hwalk generalizing es with
  | @stop t glob path ends =>
      rw [h.terminal_eq] at ends
      refine ⟨[], ends, fun a segments _ hplaces other hother => ?_⟩
      rw [List.map_eq_nil_iff.1 hplaces, closeGlob_of_progress hother]
      exact .stop
  | @exact t child c rest u glob choices path b kind value leads onward ih =>
      have hat : t.childAt? (.fixed (.condition c.kind.form c.value.form)) =
          some (u, child) := leads
      refine (ih (h.child_holds hat) (hsound.after _)).step
        fun a s more other _ hplace hother hrun => ?_
      rw [closeGlob_of_progress hother]
      rcases Segment.eq_of_place_condition hplace with ⟨d, rfl, hcompares, hkind, hvalue⟩
      exact .exact hcompares (Value.same_iff_form_eq.2 hkind) (Value.same_iff_form_eq.2 hvalue)
        (hrun none rfl)
  | @judged t c rest n e glob choices path b present leads kind accepts onward ih =>
      rcases h.judged_getElem leads with ⟨hat, hnumber⟩
      refine (ih (h.child_holds hat) (hsound.after _)).step
        fun a s more other _ hplace hother hrun => ?_
      rw [closeGlob_of_progress hother, ← hnumber]
      rw [hplace] at hrun
      rcases Segment.eq_of_place_judged hplace with ⟨k, w, rfl, hkind, hform⟩
      rw [judgedPlace, ← hkind, ← hform] at hrun ⊢
      refine .judged present ?_ ?_ (hrun none rfl)
      · rw [Value.equal_congr_left hkind]
        exact kind
      · rw [Validator.accepts_congr hform]
        exact accepts
  | @anything t child c rest u glob choices path b leads onward ih =>
      have hat : t.childAt? (.fixed (.condition c.kind.form Value.wildcard.form)) =
          some (u, child) := leads
      refine (ih (h.child_holds hat) (hsound.after _)).step
        fun a s more other _ hplace hother hrun => ?_
      rw [closeGlob_of_progress hother, ← h.length_judging]
      rcases Segment.eq_of_place_condition hplace with ⟨d, rfl, _, hkind, hvalue⟩
      have hwildcard : d.value = .wildcard := Value.form_eq_wildcard.1 hvalue
      refine .anything ?_ (Value.same_iff_form_eq.2 hkind) (hrun none rfl)
      rw [Condition.isWildcard, hwildcard]
  | @literal t child x rest u glob choices path b leads kind onward ih =>
      have hat : t.childAt? (.fixed (.text x)) = some (u, child) := leads
      refine (ih (h.child_holds hat) (hsound.after _)).step
        fun a s more other hmem hplace hother hrun => ?_
      have hlabel : s = u := h.eq_label hsound hat hmem hplace
      rw [closeGlob_of_progress hother]
      rcases Segment.eq_of_place_text hplace with rfl | rfl
      · exact .literal (hrun none rfl)
      · rw [← hlabel] at kind
        cases kind
  | @separator t child x rest u glob choices path b leads kind onward ih =>
      have hat : t.childAt? (.fixed (.text x)) = some (u, child) := leads
      refine (ih (h.child_holds hat) (hsound.after _)).step
        fun a s more other hmem hplace hother hrun => ?_
      have hlabel : s = u := h.eq_label hsound hat hmem hplace
      rcases Segment.eq_of_place_text hplace with rfl | rfl
      · rw [← hlabel] at kind
        cases kind
      · exact .separator (hrun other hother)
  | @single t child x rest v glob choices path b mark leads kind accepts onward ih =>
      have hat := childAt?_of_binder leads
      refine (ih (h.child_holds hat) (hsound.after _)).step
        fun a s more other _ hplace hother hrun => ?_
      rcases Segment.eq_of_place_binder hplace with ⟨w, rfl, hposition⟩
      have hname : v.name = w.name := congrArg Position.name hposition.symm
      rw [closeGlob_of_progress hother, hname]
      refine .single mark (glob_none_of_position hposition.symm kind) ?_ (hrun none rfl)
      rw [accepts_of_position hposition]
      exact accepts
  | @several t child x rest v g glob choices path b mark leads kind greedy accepts onward ih =>
      have hat := childAt?_of_binder leads
      refine (ih (h.child_holds hat) (hsound.after _)).step
        fun a s more other _ hplace hother hrun => ?_
      rcases Segment.eq_of_place_binder hplace with ⟨w, rfl, hposition⟩
      rcases glob_of_position hposition.symm kind with ⟨g', hglob, hgreedy, _⟩
      rw [closeGlob_of_progress hother]
      refine .several mark hglob (hgreedy.trans greedy) ?_
        (hrun _ (progress_of_position hposition.symm _))
      rw [accepts_of_position hposition]
      exact accepts
  | @greedy t child x rest v g matched n glob choices path b mark leads kind greedy takes onward
      ih =>
      have hat := childAt?_of_binder leads
      refine (ih (h.child_holds hat) (hsound.after _)).step
        fun a s more other _ hplace hother hrun => ?_
      rcases Segment.eq_of_place_binder hplace with ⟨w, rfl, hposition⟩
      rw [closeGlob_of_progress hother]
      exact .greedy_of_takes hposition (h.fits_of_binder hsound leads) mark kind greedy takes
        (hrun none rfl)
  -- With a token taken by the open glob, the walk stays where it is.
  | @skip t x rest g choices path b mark onward ih =>
      rcases ih h hsound with ⟨places, hholder, hruns⟩
      refine ⟨places, hholder, fun a segments hmem hplaces other hother => ?_⟩
      have hrun := hruns a segments hmem hplaces
      rcases Option.map_eq_some_iff.1 hother.symm with ⟨g', rfl, _⟩
      exact .skip mark (hrun (some g') hother)
  | @take t x rest g choices path b mark accepts onward ih =>
      rcases ih h hsound with ⟨places, hholder, hruns⟩
      refine ⟨places, hholder, fun a segments hmem hplaces other hother => ?_⟩
      have hrun := hruns a segments hmem hplaces
      rcases Option.map_eq_some_iff.1 hother.symm with ⟨g', rfl, hprogress⟩
      have hposition : g'.owner.position = g.owner.position := congrArg Prod.fst hprogress
      have htaken : g'.taken = g.taken := congrArg Prod.snd hprogress
      rw [← htaken] at hrun
      refine .take mark ?_ (hrun _ (progress_of_position hposition.symm _))
      rw [accepts_of_position hposition]
      exact accepts

/-- The tree holds the entries, and runs of them can be followed in it: the segments
    are as compiling makes them, and no requirement only repeats an expression. -/
structure Runnable (delimiters : List String) (t : Trie α) (es : Entries α) : Prop where
  holds : t.Holds es
  sound : Sound delimiters es
  unechoed : Unechoed es

omit [Host] in
/-- The first segment of a path leads to a tree in which the rest of the path
    can be run. -/
theorem Runnable.exists_child {t : Trie α} {es : Entries α} (h : t.Runnable delimiters es)
    {a : α} {s : Segment} {segments : List Segment} (hmem : (a, s :: segments) ∈ es) :
    ∃ u child, t.childAt? s.place = some (u, child) ∧
      child.Runnable delimiters (after s.place es) ∧ (a, segments) ∈ after s.place es := by
  rcases h.holds.child_of_mem hmem with ⟨u, child, hat⟩
  exact ⟨u, child, hat, ⟨h.holds.child_holds hat, h.sound.after _, h.unechoed.after _⟩,
    mem_after.2 ⟨s, rfl, hmem⟩⟩

/-- A run of a path is a walk, in whichever tree the path is. The walk arrives
    at what ends where the path leads. The induction is on the run, and the
    tree in which it can be followed changes with every step; what makes a
    tree fit for that is kept together in `Runnable`. -/
theorem walk_of_run {segments : List Segment} {tokens : List Token} {glob : Option OpenGlob}
    {choices : List Nat} {b : Bindings}
    (hrun : Run delimiters es segments tokens glob choices b) {t : Trie α} {a : α}
    (h : t.Runnable delimiters es) (hmem : (a, segments) ∈ es) {other : Option OpenGlob}
    (hother : glob.map OpenGlob.progress = other.map OpenGlob.progress) :
    ∃ path, holder es (segments.map Segment.place) = some path ∧
      Walk delimiters t tokens other choices path b := by
  -- On the run, which looks for its path in the tree behind every step.
  induction hrun generalizing t a other with
  | @stop es glob =>
      rcases holder_of_mem hmem with ⟨path, hpath⟩
      refine ⟨path, hpath, ?_⟩
      rw [closeGlob_of_progress hother]
      exact .stop (h.holds.terminal_eq.trans hpath)
  | @exact es c d segments rest glob choices b compares kind value onward ih =>
      rcases h.exists_child hmem with ⟨u, child, hat, hchild, hbehind⟩
      rcases ih hchild hbehind rfl with ⟨path, hpath, hwalk⟩
      refine ⟨path, holder_cons hpath, ?_⟩
      -- The token can be asked for, since it is the same key as a condition that was filed.
      have hkind := Value.same_iff_form_eq.1 kind
      have hvalue := Value.same_iff_form_eq.1 value
      have hfileable := (h.sound _ hmem _ List.mem_cons_self).1
      rw [Segment.isFileable, Bool.and_eq_true, Value.isKey_congr hkind,
        Value.isKey_congr hvalue] at hfileable
      rw [Segment.place_condition compares, hkind, hvalue] at hat
      rw [closeGlob_of_progress hother]
      exact .exact hfileable.1 hfileable.2 hat hwalk
  | @judged es c kind w segments rest glob choices b present equal accepts onward ih =>
      rcases h.exists_child hmem with ⟨u, child, hat, hchild, hbehind⟩
      rcases ih hchild hbehind rfl with ⟨path, hpath, hwalk⟩
      refine ⟨path, holder_cons hpath, ?_⟩
      rcases h.holds.judged_of_childAt? hat with ⟨e, he, hplace, rfl, rfl⟩
      rw [judgedPlace, Place.judged.injEq] at hplace
      rw [closeGlob_of_progress hother]
      refine .judged present he ?_ ?_ hwalk
      · rw [Value.equal_congr_left hplace.1]
        exact equal
      · rw [Validator.accepts_congr hplace.2]
        exact accepts
  | @anything es c d segments rest glob choices b wildcard kind onward ih =>
      rcases h.exists_child hmem with ⟨u, child, hat, hchild, hbehind⟩
      rcases ih hchild hbehind rfl with ⟨path, hpath, hwalk⟩
      refine ⟨path, holder_cons hpath, ?_⟩
      have hvalue : d.value = .wildcard := by
        cases hd : d.value <;> simp [Condition.isWildcard, hd] at wildcard ⊢
      have hcompares : d.isPattern = false := by rw [Condition.isPattern, hvalue]
      rw [Segment.place_condition hcompares, Value.same_iff_form_eq.1 kind, hvalue] at hat
      rw [closeGlob_of_progress hother, h.holds.length_judging]
      exact .anything hat hwalk
  | @literal es x segments rest glob choices b onward ih =>
      rcases h.exists_child hmem with ⟨u, child, hat, hchild, hbehind⟩
      rcases ih hchild hbehind rfl with ⟨path, hpath, hwalk⟩
      refine ⟨path, holder_cons hpath, ?_⟩
      rw [closeGlob_of_progress hother]
      refine .literal hat ?_ hwalk
      rw [← h.holds.eq_label h.sound hat hmem rfl]
      rfl
  | @separator es x segments rest glob choices b onward ih =>
      rcases h.exists_child hmem with ⟨u, child, hat, hchild, hbehind⟩
      rcases ih hchild hbehind hother with ⟨path, hpath, hwalk⟩
      refine ⟨path, holder_cons hpath, .separator hat ?_ hwalk⟩
      rw [← h.holds.eq_label h.sound hat hmem rfl]
      rfl
  | @single es x v segments rest glob choices b mark kind accepts onward ih =>
      rcases h.exists_child hmem with ⟨u, child, hat, hchild, hbehind⟩
      rcases ih hchild hbehind rfl with ⟨path, hpath, hwalk⟩
      refine ⟨path, holder_cons hpath, ?_⟩
      rcases binder_of_childAt? hat with ⟨w, rfl, hposition, hleads⟩
      have hname : v.name = w.name := congrArg Position.name hposition.symm
      rw [closeGlob_of_progress hother, hname]
      refine .single mark hleads (glob_none_of_position hposition.symm kind) ?_ hwalk
      rw [accepts_of_position hposition]
      exact accepts
  | @several es x v g segments rest glob choices b mark kind greedy accepts onward ih =>
      rcases h.exists_child hmem with ⟨u, child, hat, hchild, hbehind⟩
      rcases binder_of_childAt? hat with ⟨w, rfl, hposition, hleads⟩
      -- The glob that is opened has the variable of the node for its owner.
      rcases ih hchild hbehind (progress_of_position hposition.symm _) with
        ⟨path, hpath, hwalk⟩
      refine ⟨path, holder_cons hpath, ?_⟩
      rcases glob_of_position hposition.symm kind with ⟨g', hglob, hgreedy, _⟩
      rw [closeGlob_of_progress hother]
      refine .several mark hleads hglob (hgreedy.trans greedy) ?_ hwalk
      rw [accepts_of_position hposition]
      exact accepts
  | @greedy es x front back v g r segments glob choices b mark kind greedy regex spells last
      accepts onward ih =>
      rcases h.exists_child hmem with ⟨u, child, hat, hchild, hbehind⟩
      rcases ih hchild hbehind rfl with ⟨path, hpath, hwalk⟩
      refine ⟨path, holder_cons hpath, ?_⟩
      rcases binder_of_childAt? hat with ⟨w, rfl, hposition, hleads⟩
      rcases glob_of_position hposition.symm kind with ⟨g', hglob, hgreedy, _⟩
      -- The node asks for the requirement of the path it was made for, and that one
      -- does not repeat the expression either.
      have hw : w.echoes = false := by
        rcases h.holds.exists_label hat with ⟨a', more, hlabel⟩
        exact h.unechoed _ hlabel w List.mem_cons_self
      have htakes := greedyTake_of_position hposition.symm (h.sound.fits hmem) hw kind hglob
        greedy regex spells last accepts
      have hname : v.name = w.name := congrArg Position.name hposition.symm
      rw [closeGlob_of_progress hother, hname]
      rw [← drop_ofText x front back] at hwalk
      exact .greedy mark hleads hglob (hgreedy.trans greedy) htakes hwalk
  | @skip es x g segments rest choices b mark onward ih =>
      rcases ih h hmem hother with ⟨path, hpath, hwalk⟩
      rcases Option.map_eq_some_iff.1 hother.symm with ⟨g', rfl, _⟩
      exact ⟨path, hpath, .skip mark hwalk⟩
  | @take es x g segments rest choices b mark accepts onward ih =>
      rcases Option.map_eq_some_iff.1 hother.symm with ⟨g', rfl, hprogress⟩
      have hposition : g'.owner.position = g.owner.position := congrArg Prod.fst hprogress
      have htaken : g'.taken = g.taken := congrArg Prod.snd hprogress
      rcases ih h hmem (progress_of_position hposition.symm _) with ⟨path, hpath, hwalk⟩
      rw [← htaken] at hwalk
      refine ⟨path, hpath, .take mark ?_ hwalk⟩
      rw [accepts_of_position hposition]
      exact accepts

end Trie

end PathRouting
