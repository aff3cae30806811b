import Mathlib
import PathRouting.Proofs.Trie.Run

/-!
# The Search Is a Flat Search

What a tree finds does not depend on its shape: it finds the first run of any
of the paths that were inserted, by the choices made on the run. Where two
runs differ, the one comes first that at the first difference stays with the
token itself, or with the condition that was inserted earlier, or opens a
variable before it lets the open glob go on.

Three things about greedy variables are needed for that, and each of them has
its example of a run that is not found where it is missing: they do not start
with a delimiter, they take no empty token at the end, and no requirement
repeats the expression.

## Main definitions

* `Asked`: What the validators in some paths may be asked.
* `Trie.Arrives`: A run of one of some paths, and what it arrives at.

## Theorems

* `Trie.Holds.asks_of_asks`: A tree asks what its paths ask, and nothing else.
* `Trie.Built.run_of_find`: What is found is on a run of the path that is found.
* `Trie.Built.faulty_of_find`: A search goes wrong only where its paths or
  attributes do.
* `Trie.Built.walk_iff_arrives`: The walks through a tree are the runs of its
  paths.
* `Trie.find_first_run`: The search finds the first run of a path.
* `exists_miss_of_delimiter`, `exists_miss_of_empty`, `exists_miss_of_echo`:
  Runs of greedy variables that are not found.
-/

namespace PathRouting

variable {α : Type} {delimiters : List String}

/-- What a search over some attributes may put to the validators in some paths. -/
def Asked (brought : Condition → Prop) (paths : List (α × Path)) (w : Validator) (x : Value) :
    Prop :=
  ∃ e ∈ paths, ∃ s ∈ e.2.segments, s.Asks brought w x

namespace Trie

/-- The children of a node are behind their places. -/
theorem Holds.childAt?_of_child {t child : Trie α} {es : Entries α} {s : Segment}
    (h : t.Holds es) (hchild : t.Child s child) : t.childAt? s.place = some (s, child) := by
  cases hchild with
  | @fixed key _ _ hkey =>
      have hat : t.childAt? (.fixed key) = some (s, child) := hkey
      rw [place_of_childAt? hat]
      exact hat
  | judged he =>
      rcases List.getElem?_of_mem he with ⟨i, hi⟩
      exact (h.judged_getElem hi).1
  | binder hbinder => exact childAt?_of_binder hbinder

/-- A tree asks what its paths ask, and nothing else. The variable of a node
    may come from another path than the one it leads to, which has one of the
    same position; so that it asks the same has to be seen from positions. -/
theorem Holds.asks_of_asks {brought : Condition → Prop} {t : Trie α} {es : Entries α}
    {w : Validator} {x : Value} (hasks : t.Asks brought w x) (h : t.Holds es) :
    ∃ e ∈ es, ∃ s ∈ e.2, s.Asks brought w x := by
  induction hasks generalizing es with
  | label hchild hlabel =>
      rcases h.exists_label (h.childAt?_of_child hchild) with ⟨a, rest, hmem⟩
      exact ⟨_, hmem, _, List.mem_cons_self, hlabel⟩
  | behind hchild _ ih =>
      rcases ih (h.child_holds (h.childAt?_of_child hchild)) with ⟨⟨a, rest⟩, hmem, s, hs, hw⟩
      rcases mem_after.1 hmem with ⟨u, _, hu⟩
      exact ⟨_, hu, s, List.mem_cons_of_mem _ hs, hw⟩

variable {t : Trie α} {paths : List (α × Path)}

theorem Built.sound (h : Built delimiters t paths) : Sound delimiters (entriesOf paths) := by
  intro e he s hs
  rcases List.mem_map.1 he with ⟨p, hp, rfl⟩
  refine ⟨h.fileable p hp s hs, ?_⟩
  rcases List.mem_append.1 hs with hcondition | hpart
  · rcases List.mem_map.1 hcondition with ⟨c, _, rfl⟩
    exact Or.inl ⟨c, rfl⟩
  · exact Or.inr ((h.compiled p hp).fits s hpart)

/-- The variables of a path are in the path proper. -/
theorem unechoed_of_parts (h : ∀ e ∈ paths, ∀ v, Segment.var v ∈ e.2.parts → v.echoes = false) :
    Unechoed (entriesOf paths) := by
  intro e he v hv
  rcases List.mem_map.1 he with ⟨p, hp, rfl⟩
  refine h p hp v ?_
  rcases List.mem_append.1 hv with hcondition | hpart
  · rcases List.mem_map.1 hcondition with ⟨c, _, hc⟩
    cases hc
  · exact hpart

variable [Host]

/-- A run of one of the paths, by the choices made on it, and what it arrives
    at: the path that was inserted last among those with the same places, and
    what is bound. Which of these paths the run is of makes no difference to
    where it arrives. -/
def Arrives (delimiters : List String) (paths : List (α × Path)) (tokens : List Token)
    (choices : List Nat) (found : α × Bindings) : Prop :=
  ∃ e ∈ paths, Run delimiters (entriesOf paths) e.2.segments tokens none choices found.2 ∧
    holder (entriesOf paths) (e.2.segments.map Segment.place) = some found.1

/-- A walk through a tree that was filled is a run of the very path it arrives
    at. What it passes belongs to paths with the same places, and these differ
    from it only in what does not matter to a run. -/
theorem Built.run_of_walk (h : Built delimiters t paths) {tokens : List Token}
    {choices : List Nat} {a : α} {b : Bindings}
    (hwalk : Walk delimiters t tokens none choices a b) :
    ∃ p, (a, p) ∈ paths ∧ Run delimiters (entriesOf paths) p.segments tokens none choices b ∧
      holder (entriesOf paths) (p.segments.map Segment.place) = some a := by
  rcases Trie.run_of_walk hwalk h.holds h.sound with ⟨places, hholder, hruns⟩
  rcases mem_of_holder hholder with ⟨segments, hmem, hplaces⟩
  have hrun := hruns a segments hmem hplaces none rfl
  rw [← hplaces] at hholder
  rcases List.mem_map.1 hmem with ⟨e, he, hpair⟩
  cases hpair
  exact ⟨e.2, he, hrun, hholder⟩

/-- What the search finds is on a run of the path that is found, whether or
    not its requirements repeat an expression. -/
theorem Built.run_of_find (h : Built delimiters t paths) {tokens : List Token}
    (htokens : Orderly tokens) {a : α} {b : Bindings}
    (hfind : t.find delimiters tokens = .ok (some (a, b))) :
    ∃ p, (a, p) ∈ paths ∧
      ∃ choices, Run delimiters (entriesOf paths) p.segments tokens none choices b := by
  have hanswers : Answers _ _ (t.find delimiters tokens) := find_answers htokens t
  rw [hfind] at hanswers
  rcases hanswers with ⟨choices, hwalk, _⟩
  rcases h.run_of_walk hwalk with ⟨p, hp, hrun, _⟩
  exact ⟨p, hp, choices, hrun⟩

/-- The walks through a tree that was filled are the runs of its paths.
    Requirements that repeat an expression are left out: they are asked or not
    according to which path came first. -/
theorem Built.walk_iff_arrives (h : Built delimiters t paths)
    (hechoes : ∀ e ∈ paths, ∀ v, Segment.var v ∈ e.2.parts → v.echoes = false)
    {tokens : List Token} {choices : List Nat} {found : α × Bindings} :
    Arrives delimiters paths tokens choices found ↔
      Walk delimiters t tokens none choices found.1 found.2 := by
  constructor
  · intro hrun
    rcases hrun with ⟨e, he, hrun, hholder⟩
    have hmem : (e.1, e.2.segments) ∈ entriesOf paths := List.mem_map.2 ⟨e, he, rfl⟩
    rcases walk_of_run hrun ⟨h.holds, h.sound, unechoed_of_parts hechoes⟩ hmem rfl with
      ⟨path, hpath, hwalk⟩
    rw [← Option.some.inj (hpath.symm.trans hholder)]
    exact hwalk
  · intro hwalk
    rcases h.run_of_walk hwalk with ⟨p, hp, hrun, hholder⟩
    exact ⟨(found.1, p), hp, hrun, hholder⟩

/-- A fault in the tree is one of its paths, or of an attribute whose kind
    cannot be looked up. -/
theorem Built.faulty_asked (h : Built delimiters t paths) {brought : Condition → Prop} {e : Fault}
    (hfaulty : Faulty (t.Asks brought) brought e) : Faulty (Asked brought paths) brought e := by
  rcases hfaulty with ⟨w, x, hasks, hx⟩ | hkind
  · rcases h.holds.asks_of_asks hasks with ⟨p, hp, s, hs, hlabel⟩
    rcases List.mem_map.1 hp with ⟨q, hq, rfl⟩
    exact Or.inl ⟨w, x, ⟨q, hq, s, hs, hlabel⟩, hx⟩
  · exact Or.inr hkind

/-- A search that is at fault owes it to a validator of the paths or to an
    attribute, whether or not requirements repeat an expression. -/
theorem Built.faulty_of_find (h : Built delimiters t paths) {tokens : List Token}
    (htokens : Orderly tokens) {e : Fault} (hfind : t.find delimiters tokens = .error e) :
    Faulty (Asked (Brought tokens) paths) (Brought tokens) e := by
  have hanswers : Answers _ _ (t.find delimiters tokens) := find_answers htokens t
  rw [hfind] at hanswers
  exact h.faulty_asked hanswers

/-- The answer of the search is right for the runs of the paths. With that,
    the tree has done its part: what is found, what is missed and what is at
    fault are said in terms of paths. -/
theorem Built.answers_arrivals (h : Built delimiters t paths)
    (hechoes : ∀ e ∈ paths, ∀ v, Segment.var v ∈ e.2.parts → v.echoes = false)
    {tokens : List Token} (htokens : Orderly tokens) :
    Answers (Arrives delimiters paths tokens)
      (Faulty (Asked (Brought tokens) paths) (Brought tokens)) (t.find delimiters tokens) := by
  have hways := (find_answers htokens t).congr fun _ _ => h.walk_iff_arrives hechoes
  exact hways.blame_mono fun _ => h.faulty_asked

/-- The search finds the first run of a path, and nothing only if no path has a run.
    What is found is the path that was inserted last among those with the same
    places. A fault is one of a validator in the paths, on an attribute of the tokens or on
    a text, or of an attribute whose kind cannot be looked up.

    In a run, a condition that does not judge takes an attribute of the same kind and
    value, both compared as the keys of a dictionary are: a not-a-number is the same key
    as itself, although it is equal to nothing. -/
theorem find_first_run (h : Built delimiters t paths)
    (hechoes : ∀ e ∈ paths, ∀ v, Segment.var v ∈ e.2.parts → v.echoes = false)
    {tokens : List Token} (htokens : Orderly tokens) :
    (∀ found, t.find delimiters tokens = .ok (some found) →
      ∃ choices, Arrives delimiters paths tokens choices found ∧
        ∀ others other, Arrives delimiters paths tokens others other →
          choices < others ∨ (others = choices ∧ other = found)) ∧
    (t.find delimiters tokens = .ok none →
      ∀ choices found, ¬Arrives delimiters paths tokens choices found) ∧
    (∀ e, t.find delimiters tokens = .error e →
      Faulty (Asked (Brought tokens) paths) (Brought tokens) e) := by
  have hanswers := h.answers_arrivals hechoes htokens
  refine ⟨fun found hfind => ?_, fun hfind => ?_, fun e hfind => ?_⟩
  · rw [hfind] at hanswers
    exact hanswers
  · rw [hfind] at hanswers
    exact hanswers
  · rw [hfind] at hanswers
    exact hanswers

omit [Host] in
/-- Two paths that both have a run over the same tokens: the literal is chosen
    before the glob is opened. -/
theorem find_first_run_of_two :
    let glob : Path := ⟨[], [.separator "/", .var ⟨"g", none, .none, some "end",
      some ⟨false, none, true⟩⟩, .separator "/", .literal "end"]⟩
    let single : Path := ⟨[], [.separator "/", .literal "a", .separator "/",
      .var ⟨"x", none, .none, some "/", none⟩]⟩
    let paths := [(0, glob), (1, single)]
    let t := (Trie.insertAll (entriesOf paths) .empty).trie
    let tokens := ["/", "a", "/", "end"].map Token.ofText
    let found : Nat × Bindings := (1, [("x", .one (.text "end"))])
    @Trie.find Host.idle Nat ["/", "."] t tokens = .ok (some found) ∧
      ∃ choices, @Arrives Nat Host.idle ["/", "."] paths tokens choices found ∧
        ∀ others other, @Arrives Nat Host.idle ["/", "."] paths tokens others other →
          choices < others ∨ (others = choices ∧ other = found) := by
  intro glob single paths t tokens found
  have hglob : @Pattern.compile Host.idle ["/", "."] "/*g/end" [] [] = .ok [glob.parts] := by cbv
  have hsingle : @Pattern.compile Host.idle ["/", "."] "/a/:x" [] [] = .ok [single.parts] := by cbv
  have hcompiled : ∀ e ∈ paths, e.2.Compiled ["/", "."] := by
    intro e he
    rcases List.mem_cons.1 he with rfl | he
    · exact ⟨_, _, _, _, _, hglob, List.mem_singleton_self _⟩
    · rw [List.mem_singleton.1 he]
      exact ⟨_, _, _, _, _, hsingle, List.mem_singleton_self _⟩
  have hbuilt : t.Built ["/", "."] paths := Built.empty.insertAll hcompiled (by cbv)
  have hechoes : ∀ e ∈ paths, ∀ v, Segment.var v ∈ e.2.parts → v.echoes = false := by
    intro e he v hv
    rcases List.mem_cons.1 he with rfl | he
    · simp only [glob, List.mem_cons, reduceCtorEq, Segment.var.injEq, false_or, or_false,
        List.not_mem_nil] at hv
      rw [hv]
      rfl
    · rw [List.mem_singleton.1 he] at hv
      simp only [single, List.mem_cons, reduceCtorEq, Segment.var.injEq, false_or, or_false,
        List.not_mem_nil] at hv
      rw [hv]
      rfl
  have hfind : @Trie.find Host.idle Nat ["/", "."] t tokens = .ok (some found) := by cbv
  exact ⟨hfind, (@find_first_run Nat _ t paths Host.idle hbuilt hechoes tokens (.texts _)).1
    found hfind⟩

end Trie

/-- A greedy variable does not start with a delimiter, even if its expression
    matches that. -/
theorem exists_miss_of_delimiter :
    ∃ (r : Regex) (p : Path) (t : Trie Nat),
      Regex.compile? Host.idle.character ".*" .plain = .ok r ∧
      p.segments = [.var (.several "x" (some (.regex r)) true none)] ∧
      t.Built ["/", "."] [(0, p)] ∧ r.prefixMatch? "/" = some "/" ∧
      @Trie.find Host.idle Nat ["/", "."] t [.ofText "/"] = .ok none := by
  have hread : Regex.read? Host.idle.character .plain ".*".toList =
      .ok (.loop 0 none .greedy .any, .plain) := by cbv
  let r : Regex := ⟨".*", .plain, _, _, .plain, hread⟩
  let p : Path := ⟨[], [.var (.several "x" (some (.regex r)) true none)]⟩
  have hcompile : @Pattern.compile Host.idle ["/", "."] "\x7b!x,.*\x7d" [] [] =
      .ok [p.parts] := by cbv
  have hcompiled : p.Compiled ["/", "."] := ⟨_, _, _, _, _, hcompile, List.mem_singleton_self _⟩
  have hbuilt := Trie.Built.empty.insert (a := 0) hcompiled (by cbv : _ = Except.ok none)
  exact ⟨r, p, _, by cbv, rfl, hbuilt, by cbv, by cbv⟩

/-- A greedy variable takes no more tokens than spell what its expression
    matches, and an empty one is left over. -/
theorem exists_miss_of_empty :
    ∃ (r : Regex) (p : Path) (t : Trie Nat),
      Regex.compile? Host.idle.character "a" .plain = .ok r ∧
      p.segments = [.var (.several "x" (some (.regex r)) true none)] ∧
      t.Built ["/", "."] [(0, p)] ∧
      r.prefixMatch? (String.join ["a", ""]) = some (String.join ["a", ""]) ∧
      @Trie.find Host.idle Nat ["/", "."] t [.ofText "a", .ofText ""] = .ok none := by
  have hread : Regex.read? Host.idle.character .plain "a".toList = .ok (.char 97, .plain) := by cbv
  let r : Regex := ⟨"a", .plain, _, _, .plain, hread⟩
  let p : Path := ⟨[], [.var (.several "x" (some (.regex r)) true none)]⟩
  have hcompile : @Pattern.compile Host.idle ["/", "."] "\x7b!x,a\x7d" [] [] =
      .ok [p.parts] := by cbv
  have hcompiled : p.Compiled ["/", "."] := ⟨_, _, _, _, _, hcompile, List.mem_singleton_self _⟩
  have hbuilt := Trie.Built.empty.insert (a := 0) hcompiled (by cbv : _ = Except.ok none)
  exact ⟨r, p, _, by cbv, rfl, hbuilt, by cbv, by cbv⟩

/-- A path that shares a greedy variable with an earlier one is held to the
    requirement of that one if it repeats the expression, and the requirement
    has to accept the text without what follows it. -/
theorem exists_miss_of_echo :
    ∃ (r : Regex) (held p : Path) (t : Trie Nat) (choices : List Nat) (b : Bindings),
      @Pattern.compile Host.idle ["_"] "\x7b!x,a\\B\x7d_b" [("x", .regex r)] [] =
        .ok [held.segments] ∧
      @Pattern.compile Host.idle ["_"] "\x7b!x,a\\B\x7d_c" [] [] = .ok [p.segments] ∧
      t.Built ["_"] [(0, held), (1, p)] ∧
      @Run Nat Host.idle ["_"] (entriesOf [(0, held), (1, p)]) p.segments
        [.ofText "a", .ofText "_", .ofText "c"] none choices b ∧
      @Trie.find Host.idle Nat ["_"] t [.ofText "a", .ofText "_", .ofText "c"] =
        .ok none := by
  have hread : Regex.read? Host.idle.character .plain "a\\B".toList =
      .ok (.seq (.char 97) (.anchor .noWordEdge), .plain) := by cbv
  let r : Regex := ⟨"a\\B", .plain, _, _, .plain, hread⟩
  let x : String → Bool → Variable := fun ahead separate =>
    ⟨"x", some (.regex r), .none, some ahead, some ⟨true, some (.regex r), separate⟩⟩
  let held : Path := ⟨[], [.var (x "b" true), .separator "_", .literal "b"]⟩
  let p : Path := ⟨[], [.var (x "c" false), .separator "_", .literal "c"]⟩
  have hheld : @Pattern.compile Host.idle ["_"] "\x7b!x,a\\B\x7d_b" [("x", .regex r)] [] =
      .ok [held.segments] := by cbv
  have hp : @Pattern.compile Host.idle ["_"] "\x7b!x,a\\B\x7d_c" [] [] = .ok [p.segments] := by cbv
  have hcompiled : ∀ e ∈ [(0, held), (1, p)], e.2.Compiled ["_"] := by
    intro e he
    rcases List.mem_cons.1 he with rfl | he
    · exact ⟨_, _, _, _, _, hheld, List.mem_singleton_self _⟩
    · rw [List.mem_singleton.1 he]
      exact ⟨_, _, _, _, _, hp, List.mem_singleton_self _⟩
  have hbuilt := Trie.Built.empty.insertAll hcompiled (by cbv)
  have hfind : @Trie.find Host.idle Nat ["_"]
      (Trie.insertAll (entriesOf [(0, held), (1, p)]) .empty).trie
      [.ofText "a", .ofText "_", .ofText "c"] = .ok none := by cbv
  let idle : Host := Host.idle
  -- The path itself asks for no requirement, so its run goes through.
  have hrest : Run ["_"]
      (after (.binder (x "c" false).position) (entriesOf [(0, held), (1, p)]))
      [.separator "_", .literal "c"] (["_", "c"].map Token.ofText) none _ _ :=
    .separator (.literal .stop)
  have hspells : r.prefixMatch? (String.join ["a", "_", "c"]) = some (String.join ["a"]) := by
    set_option maxRecDepth 4000 in
    cbv
  have hrun := @Run.greedy Nat idle ["_"] _ "a" [] ["_", "c"] (x "c" false) _ r _ none _ _
    rfl rfl rfl rfl hspells (by decide) (fun _ hseparate => by cases hseparate) hrest
  exact ⟨r, held, p, _, _, _, hheld, hp, hbuilt, hrun, hfind⟩

/-- A run in which a greedy variable may take any tokens that spell what it
    matches is not always found: not if the first token is a delimiter, not if the
    last one is empty, and not if a requirement elsewhere repeats the expression. -/
theorem find_misses_greedy_runs :
    (∃ (r : Regex) (p : Path) (t : Trie Nat),
      Regex.compile? Host.idle.character ".*" .plain = .ok r ∧
      p.segments = [.var (.several "x" (some (.regex r)) true none)] ∧
      t.Built ["/", "."] [(0, p)] ∧ r.prefixMatch? "/" = some "/" ∧
      @Trie.find Host.idle Nat ["/", "."] t [.ofText "/"] = .ok none) ∧
    (∃ (r : Regex) (p : Path) (t : Trie Nat),
      Regex.compile? Host.idle.character "a" .plain = .ok r ∧
      p.segments = [.var (.several "x" (some (.regex r)) true none)] ∧
      t.Built ["/", "."] [(0, p)] ∧
      r.prefixMatch? (String.join ["a", ""]) = some (String.join ["a", ""]) ∧
      @Trie.find Host.idle Nat ["/", "."] t [.ofText "a", .ofText ""] = .ok none) ∧
    (∃ (r : Regex) (held p : Path) (t : Trie Nat) (choices : List Nat) (b : Bindings),
      @Pattern.compile Host.idle ["_"] "\x7b!x,a\\B\x7d_b" [("x", .regex r)] [] =
        .ok [held.segments] ∧
      @Pattern.compile Host.idle ["_"] "\x7b!x,a\\B\x7d_c" [] [] = .ok [p.segments] ∧
      t.Built ["_"] [(0, held), (1, p)] ∧
      @Run Nat Host.idle ["_"] (entriesOf [(0, held), (1, p)]) p.segments
        [.ofText "a", .ofText "_", .ofText "c"] none choices b ∧
      @Trie.find Host.idle Nat ["_"] t [.ofText "a", .ofText "_", .ofText "c"] =
        .ok none) :=
  ⟨exists_miss_of_delimiter, exists_miss_of_empty, exists_miss_of_echo⟩

end PathRouting
