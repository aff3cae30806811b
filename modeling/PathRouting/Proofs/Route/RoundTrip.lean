import PathRouting.Proofs.Route.Rendered
import PathRouting.Proofs.Trie.Alone

/-!
# From a Path to Text and Back

The text that is rendered for a path is not always matched by that path. What
stands in the place of a variable is cut into tokens like everything else, and
these have to suit the variable again: a text may be empty or hold a delimiter
that encoding leaves alone, a validator judged the value before it was
encoded, and an expression may go on matching behind the text of its greedy
variable.

Where none of this happens, the tokens can be cut for the path, and it is
found. In a path without globs nothing else will do: the delimiters of the
text are then just enough for the separators of the path, so that every
variable has to make do with a single token. A glob is more forgiving, as it
may take what was rendered for the variable behind it.

## Main definitions

* `Variable.Legible`: The text in the place of a variable can be read back.
* `Route.Legible`: So can the texts of all variables in a rendered path.
* `Route.Misses`: A path is not found by a text that was rendered for it.

## Theorems

* `Route.Rendered.cut`: The tokens of a legible text can be cut for the path.
* `Route.Rendered.legible`: If they can be cut for a path without globs, it is
  legible.
* `Route.find_of_render`: A path is found by a legible text that was rendered
  for it.
* `Route.misses_illegible`: It may be missed if something is not legible.
-/

namespace PathRouting

variable [Host] {delimiters : List String}

/-- The text in the place of a variable can be read back, given the text
    behind it. For a variable that takes one token, it is a token that is
    accepted. Otherwise it does not start with a delimiter. The tokens of it
    are accepted one by one, or the expression of a greedy variable takes just
    this text, and a separate requirement accepts it. -/
def Variable.Legible (delimiters : List String) (v : Variable) (text rest : String) : Prop :=
  match v.glob with
  | none => Tokens.Plain delimiters text ∧ v.accepts (.text text) = .ok true
  | some g =>
    Tokens.Starts delimiters text ∧
      if g.greedy then
        (∀ r, g.regex = some (.regex r) → r.prefixMatch? (text ++ rest) = some text) ∧
          (g.separate = true → v.accepts (.text text) = .ok true)
      else ∀ s ∈ words delimiters (Tokens.tokens delimiters text), v.accepts (.text s) = .ok true

/-- Whatever is rendered in the place of a variable among the parts can be read back. -/
def Route.Legible (r : Route) (params : Fields) : List Segment → Prop
  | [] => True
  | .var v :: after =>
    (∀ text rest, r.render ⟨[], [.var v]⟩ params = .ok text →
      r.render ⟨[], after⟩ params = .ok rest → v.Legible r.delimiters text rest) ∧
      r.Legible params after
  | _ :: after => r.Legible params after

/-- The text of a variable is a piece for it, and what is behind the piece
    does not matter for how it is cut. For a greedy variable it does, which is
    why legibility is asked for with what comes behind. -/
theorem Variable.Legible.cut (hdelimiters : Tokens.Single delimiters) {v : Variable}
    (hfits : v.Fits) {text rest : String} (hlegible : v.Legible delimiters text rest)
    {parts : List Segment}
    (hcut : Cut delimiters parts ((Tokens.tokens delimiters rest).map Token.ofText)) :
    Cut delimiters (.var v :: parts)
      ((Tokens.tokens delimiters text ++ Tokens.tokens delimiters rest).map Token.ofText) := by
  unfold Legible at hlegible
  cases hglob : v.glob with
  | none =>
      rw [hglob] at hlegible
      rcases hlegible with ⟨hplain, haccepts⟩
      rw [Tokens.tokens_plain hdelimiters hplain]
      exact .single hglob (Tokens.isDelimiter_of_starts hdelimiters hplain.starts) haccepts hcut
  | some g =>
      rw [hglob] at hlegible
      rcases hlegible with ⟨hstarts, hpiece⟩
      rcases Tokens.exists_tokens_of_starts hdelimiters hstarts with ⟨s, piece, htokens, hmark⟩
      cases hgreedy : g.greedy with
      | false =>
          rw [hgreedy] at hpiece
          rw [htokens] at hpiece ⊢
          rw [List.map_append]
          exact .several hglob hgreedy hmark hpiece hcut
      | true =>
          rw [hgreedy, if_pos rfl] at hpiece
          rcases hfits g hglob hgreedy with ⟨r, hregex, _⟩
          -- The tokens spell the text, so the expression takes just these.
          have hjoin : String.join (s :: piece) = text := by
            rw [← htokens, Tokens.join_tokens]
          have hlast : (s :: piece).getLast? ≠ some "" := by
            intro hempty
            have hmem : "" ∈ Tokens.tokens delimiters text := by
              rw [htokens]
              exact List.mem_of_getLast? hempty
            exact Tokens.ne_empty_of_mem_tokens hmem rfl
          rw [htokens]
          refine .greedy hglob hgreedy hregex hmark ?_ hlast ?_ hcut
          · rw [String.join_append, hjoin, Tokens.join_tokens]
            exact hpiece.1 r hregex
          · rw [hjoin]
            exact hpiece.2

/-- The tokens of a text that was rendered for a path can be cut for it, if
    the texts of its variables can be read back. -/
theorem Route.Rendered.cut {r : Route} (hsingle : Tokens.Single r.delimiters)
    {parts : List Segment} (hfits : ∀ s ∈ parts, s.Fits r.delimiters) {params : Fields}
    {text : String} (h : r.Rendered params parts text) (hlegible : r.Legible params parts) :
    Cut r.delimiters parts ((Tokens.tokens r.delimiters text).map Token.ofText) := by
  induction h with
  | nil => exact .nil
  | literal mark apart onward ih =>
      rw [apart]
      exact .literal (ih (List.forall_mem_cons.1 hfits).2 hlegible)
  | separator mark apart onward ih =>
      rw [apart]
      exact .separator (ih (List.forall_mem_cons.1 hfits).2 hlegible)
  | var here behind ends onward ih =>
      rcases List.forall_mem_cons.1 hfits with ⟨hv, hrest⟩
      rw [Tokens.tokens_append hsingle _ ends]
      exact (hlegible.1 _ _ here behind).cut hsingle hv (ih hrest hlegible.2)

/-- In a cut for a path without globs, the delimiters are the separators of the path. -/
theorem Cut.length_marks (hsingle : Tokens.Single delimiters) {parts : List Segment}
    (hfits : ∀ s ∈ parts, s.Fits delimiters)
    (hsingles : ∀ v, Segment.var v ∈ parts → v.glob = none) {pieces : List String}
    (h : Cut delimiters parts (pieces.map Token.ofText)) :
    (marks delimiters pieces).length = (parts.filter Segment.isSeparator).length := by
  generalize htokens : pieces.map Token.ofText = tokens at h
  -- Only a separator takes a delimiter. A literal and a single variable take one token each, which
  -- is none.
  induction h generalizing pieces with
  | nil =>
      rw [List.map_eq_nil_iff.1 htokens]
      rfl
  | condition => exact absurd (hfits _ List.mem_cons_self) id
  | @literal s parts tokens onward ih =>
      rcases List.map_eq_cons_iff.1 htokens with ⟨x, pieces, rfl, hx, htexts⟩
      cases hx
      rcases List.forall_mem_cons.1 hfits with ⟨hs, hrest⟩
      rw [marks_cons_word (Tokens.isDelimiter_of_starts hsingle hs.starts)]
      exact ih hrest (fun v hv => hsingles v (List.mem_cons_of_mem _ hv)) htexts
  | @separator s parts tokens onward ih =>
      rcases List.map_eq_cons_iff.1 htokens with ⟨x, pieces, rfl, hx, htexts⟩
      cases hx
      rcases List.forall_mem_cons.1 hfits with ⟨⟨c, _, hmark⟩, hrest⟩
      rw [marks_cons_mark hmark]
      exact congrArg Nat.succ
        (ih hrest (fun v hv => hsingles v (List.mem_cons_of_mem _ hv)) htexts)
  | @single s v parts tokens kind mark accepts onward ih =>
      rcases List.map_eq_cons_iff.1 htokens with ⟨x, pieces, rfl, hx, htexts⟩
      cases hx
      rw [marks_cons_word mark]
      exact ih (List.forall_mem_cons.1 hfits).2
        (fun v hv => hsingles v (List.mem_cons_of_mem _ hv)) htexts
  | several kind | greedy kind =>
      rw [hsingles _ List.mem_cons_self] at kind
      cases kind

/-- A variable for one token takes the first of them. -/
theorem Cut.uncons_single {v : Variable} (hsingle : v.glob = none) {parts : List Segment}
    {pieces : List String} (h : Cut delimiters (.var v :: parts) (pieces.map Token.ofText)) :
    ∃ s more, pieces = s :: more ∧ Tokens.isDelimiter delimiters s = false ∧
      v.accepts (.text s) = .ok true ∧ Cut delimiters parts (more.map Token.ofText) := by
  generalize htokens : pieces.map Token.ofText = tokens at h
  cases h with
  | @single s _ _ tokens kind mark accepts onward =>
      rcases List.map_eq_cons_iff.1 htokens with ⟨x, more, rfl, hx, rfl⟩
      cases hx
      exact ⟨s, more, rfl, mark, accepts, onward⟩
  | several kind | greedy kind =>
      rw [hsingle] at kind
      cases kind

/-- If the tokens of a text that was rendered for a path without globs can be
    cut for the path, the texts of its variables can be read back. All the
    delimiters are needed for the separators of the path, so there are none in
    the text of a variable. -/
theorem Route.Rendered.legible {r : Route} (hsingle : Tokens.Single r.delimiters)
    {parts : List Segment} (hfits : ∀ s ∈ parts, s.Fits r.delimiters)
    (hsingles : ∀ v, Segment.var v ∈ parts → v.glob = none) {params : Fields} {text : String}
    (h : r.Rendered params parts text)
    (hcut : Cut r.delimiters parts ((Tokens.tokens r.delimiters text).map Token.ofText)) :
    r.Legible params parts := by
  induction h with
  | nil => trivial
  | literal mark apart onward ih =>
      rw [apart] at hcut
      cases hcut with
      | literal hrest =>
          exact ih (List.forall_mem_cons.1 hfits).2
            (fun v hv => hsingles v (List.mem_cons_of_mem _ hv)) hrest
  | separator mark apart onward ih =>
      rw [apart] at hcut
      cases hcut with
      | separator hrest =>
          exact ih (List.forall_mem_cons.1 hfits).2
            (fun v hv => hsingles v (List.mem_cons_of_mem _ hv)) hrest
  | @var v front rest parts here behind ends onward ih =>
      rw [Tokens.tokens_append hsingle _ ends] at hcut
      have hmarks := hcut.length_marks hsingle hfits hsingles
      have hneeded := onward.length_separators_le hsingle
      rw [marks_append, List.length_append, List.filter_cons_of_neg Bool.false_ne_true] at hmarks
      have hnone : marks r.delimiters (Tokens.tokens r.delimiters front) = [] :=
        List.length_eq_zero_iff.1 (by omega)
      have hv : v.glob = none := hsingles v List.mem_cons_self
      rcases hcut.uncons_single hv with ⟨s, more, htokens, hmark, haccepts, hrest⟩
      by_cases hempty : front = ""
      · -- A delimiter would come first, where a token for the variable is needed.
        rw [hempty, Tokens.tokens_empty hsingle, List.nil_append] at htokens
        rw [Tokens.isDelimiter_of_ends hsingle ends htokens] at hmark
        cases hmark
      · have hplain := Tokens.plain_of_tokens hsingle hempty fun s hs =>
          Bool.eq_false_iff.2 (List.filter_eq_nil_iff.1 hnone s hs)
        rw [Tokens.tokens_plain hsingle hplain] at htokens
        cases htokens
        refine ⟨fun other _ hhere _ => ?_, ih (List.forall_mem_cons.1 hfits).2
          (fun v hv => hsingles v (List.mem_cons_of_mem _ hv)) hrest⟩
        cases here.symm.trans hhere
        rw [Variable.Legible, hv]
        exact ⟨hplain, haccepts⟩

/-- A path is found by a text that was rendered for it, if what stands in the
    place of its variables can be read back, unless one of its validators
    fails on a text. Without globs in the path, it is found only then. With
    globs it may be found although a text cannot be read back, since a glob
    takes in what another variable should have had. -/
theorem Route.find_of_render {α : Type} {given methods : Value} {options : Options}
    (hoptions : Options.make? given methods = .ok options) {pattern : String}
    {requirements defaults : Fields} {compiled : List (List Segment)}
    (hcompile : Pattern.compile options.delimiters pattern requirements defaults = .ok compiled)
    {p : Path} (a : α) :
    let route := Route.make pattern compiled [] [] requirements defaults .none none
      options.delimiters false
    p ∈ route.paths → ∀ params text, route.render p params = .ok text →
      let t := (Trie.insert a p.segments .empty).trie
      let tokens := (Tokens.tokens options.delimiters text).map Token.ofText
      (route.Legible params p.parts →
        (∃ b, t.find options.delimiters tokens = .ok (some (a, b))) ∨
          ∃ e, t.find options.delimiters tokens = .error e ∧
            ∃ v ∈ p.binders, ∃ s, v.accepts (.text s) = .error e) ∧
      ((∀ v ∈ p.binders, v.glob = none) →
        (∃ b, t.find options.delimiters tokens = .ok (some (a, b))) →
          route.Legible params p.parts) := by
  intro route hp params text hrender t tokens
  rcases Route.compiled_of_make hcompile hp with ⟨hcompiled, hproper⟩
  have hsingle : Tokens.Single route.delimiters := Options.single hoptions
  have hrendered := Route.rendered_of_render hsingle hcompiled.fits hcompiled.spaced hrender
  -- A tree with a single path finds what there is a cut for, and there is one if the rendered text
  -- is legible. Without globs there is one way to cut the text, so the converse holds as well.
  constructor
  · intro hlegible
    exact Trie.find_of_cut hcompiled hproper (hrendered.cut hsingle hcompiled.fits hlegible) a
  · intro hsingles hfound
    rcases hfound with ⟨b, hfind⟩
    have hparts := fun v hv => hsingles v (Path.mem_binders hv)
    exact hrendered.legible hsingle hcompiled.fits hparts
      (Trie.cut_of_alone hcompiled hproper hparts hfind)

omit [Host] in
/-- A blank is encoded, and the elements of a list are taken one by one. -/
theorem Route.find_of_render_encoded :
    let x : Segment := .var ⟨"x", none, .none, some "/", none⟩
    let p : Path := ⟨[], [.separator "/", x, .separator "/",
      .var ⟨"g", none, .none, none, some ⟨false, none, true⟩⟩]⟩
    let q : Path := ⟨[], [.separator "/", x]⟩
    let route := Route.make "/:x/*g" [p.parts] [] [] [] [] .none none ["/", "."] false
    let short := Route.make "/:x" [q.parts] [] [] [] [] .none none ["/", "."] false
    let params : Fields := [("x", .text "a b"), ("g", .list [.text "c", .text "d"])]
    (@Route.render Host.idle route p params = .ok "/a%20b/c/d" ∧
      ∃ b, @Trie.find Host.idle Nat ["/", "."] (Trie.insert 0 p.segments .empty).trie
        ((Tokens.tokens ["/", "."] "/a%20b/c/d").map Token.ofText) = .ok (some (0, b))) ∧
    @Route.render Host.idle short q params = .ok "/a%20b" ∧
      @Route.Legible Host.idle short params q.parts := by
  intro x p q route short params
  let idle : Host := Host.idle
  have hoptions : Options.make? .none .none =
      .ok ⟨["/", "."], defaultMethods.map .text⟩ := by cbv
  have hcompile : @Pattern.compile Host.idle ["/", "."] "/:x/*g" [] [] = .ok [p.parts] := by cbv
  have hshort : @Pattern.compile Host.idle ["/", "."] "/:x" [] [] = .ok [q.parts] := by cbv
  have hrender : route.render p params = .ok "/a%20b/c/d" := by
    unfold route p x params idle
    cbv
  have hlegible : route.Legible params p.parts := by
    refine ⟨fun text rest htext _ => ?_, fun text rest htext _ => ?_, trivial⟩
    · have hx : route.render ⟨[], [x]⟩ params = .ok "a%20b" := by
        unfold route p x params idle
        cbv
      cases hx.symm.trans htext
      exact ⟨Tokens.plain_iff.2 (by cbv), rfl⟩
    · have hg : route.render ⟨[], [.var ⟨"g", none, .none, none, some ⟨false, none, true⟩⟩]⟩
          params = .ok "c/d" := by
        unfold route p x params idle
        cbv
      cases hg.symm.trans htext
      exact ⟨⟨'c', ['/', 'd'], by decide, by decide⟩, fun _ _ => rfl⟩
  have hrendered : short.render q params = .ok "/a%20b" := by
    unfold short q x params idle
    cbv
  refine ⟨⟨hrender, ?_⟩, hrendered, ?_⟩
  · rcases (Route.find_of_render hoptions hcompile (0 : Nat) (p := p) (List.mem_singleton_self _)
      params _ hrender).1 hlegible with hfound | ⟨e, _, v, hv, y, hy⟩
    · exact hfound
    · -- There are no validators, so none of them fails.
      have hnone : v.validator = none := by
        have hbinders : p.binders = [⟨"x", none, .none, some "/", none⟩,
          ⟨"g", none, .none, none, some ⟨false, none, true⟩⟩] := rfl
        rw [hbinders] at hv
        rcases List.mem_pair.1 hv with rfl | rfl <;> rfl
      rw [Variable.accepts, hnone] at hy
      cases hy
  · refine (Route.find_of_render hoptions hshort (0 : Nat) (p := q) (List.mem_singleton_self _)
      params _ hrendered).2 (fun v hv => ?_) ⟨[("x", .one (.text "a%20b"))], by cbv⟩
    have hbinders : q.binders = [⟨"x", none, .none, some "/", none⟩] := rfl
    rw [hbinders] at hv
    rw [List.mem_singleton.1 hv]

/-- Some path of the pattern is not found by a text that was rendered for it. -/
def Route.Misses (delimiters : List String) (pattern : String) (requirements params : Fields)
    (text : String) : Prop :=
  ∃ compiled p, Pattern.compile delimiters pattern requirements [] = .ok compiled ∧
    let route := Route.make pattern compiled [] [] requirements [] .none none delimiters false
    p ∈ route.paths ∧ route.render p params = .ok text ∧
      ∀ b, (Trie.insert 0 p.segments .empty).trie.find delimiters
        ((Tokens.tokens delimiters text).map Token.ofText) ≠ .ok (some (0, b))

theorem Route.misses_of {pattern : String} {requirements params : Fields} {text : String}
    (parts : List Segment)
    (hcompile : Pattern.compile delimiters pattern requirements [] = .ok [parts])
    (hrender : (Route.make pattern [parts] [] [] requirements [] .none none delimiters
      false).render ⟨[], parts⟩ params = .ok text)
    {answer : Except Fault (Option (Nat × Bindings))}
    (hfind : (Trie.insert 0 parts .empty).trie.find delimiters
      ((Tokens.tokens delimiters text).map Token.ofText) = answer)
    (hanswer : ∀ b, answer ≠ .ok (some (0, b))) :
    Route.Misses delimiters pattern requirements params text := by
  refine ⟨_, ⟨[], parts⟩, hcompile, List.mem_singleton_self _, hrender, ?_⟩
  have hsegments : Path.segments ⟨[], parts⟩ = parts := rfl
  rw [hsegments, hfind]
  exact hanswer

omit [Host] in
/-- A text without tokens, one with a delimiter in it, and one that is
    accepted only before it is encoded. -/
theorem Route.misses_single :
    @Route.Misses Host.idle ["/", "."] "/:x" [] [("x", .text "")] "/" ∧
    @Route.Misses Host.idle ["/", "."] "/:x" [] [("x", .text "a.b")] "/a.b" ∧
    @Route.Misses Host.idle ["/", "."] "/:x" [("x", .text "a b")] [("x", .text "a b")]
      "/a%20b" := by
  let x : Option Validator → List Segment := fun w =>
    [.separator "/", .var ⟨"x", w, .none, some "/", none⟩]
  refine ⟨?_, ?_, ?_⟩
  · exact @misses_of Host.idle _ _ _ _ _ (x none) (by cbv) (by cbv) (.ok none) (by cbv)
      fun _ h => by cases h
  · exact @misses_of Host.idle _ _ _ _ _ (x none) (by cbv) (by cbv) (.ok none) (by cbv)
      fun _ h => by cases h
  · exact @misses_of Host.idle _ _ _ _ _ (x (some (.equality (.text "a b")))) (by cbv) (by cbv)
      (.ok none) (by cbv) fun _ h => by cases h

omit [Host] in
/-- A list without elements, and an expression that matches more than was
    rendered for its variable. -/
theorem Route.misses_several :
    @Route.Misses Host.idle ["/", "."] "/*g" [] [("g", .list [])] "/" ∧
    @Route.Misses Host.idle ["/", "."] "/\x7b!x,.+\x7d/end" [] [("x", .text "a")] "/a/end" := by
  constructor
  · let parts : List Segment :=
      [.separator "/", .var ⟨"g", none, .none, none, some ⟨false, none, true⟩⟩]
    exact @misses_of Host.idle _ _ _ _ _ parts (by cbv) (by cbv) (.ok none) (by cbv)
      fun _ h => by cases h
  · have hread : Regex.read? Host.idle.character .plain ".+".toList =
        .ok (.loop 1 none .greedy .any, .plain) := by cbv
    let r : Regex := ⟨".+", .plain, _, _, .plain, hread⟩
    let parts : List Segment := [.separator "/", .var ⟨"x", some (.regex r), .none, some "end",
      some ⟨true, some (.regex r), false⟩⟩, .separator "/", .literal "end"]
    exact @misses_of Host.idle _ _ _ _ _ parts (by cbv) (by cbv) (.ok none) (by cbv)
      fun _ h => by cases h

/-- An application whose functions take numbers only. -/
@[reducible] def Host.numeric : Host :=
  ⟨fun _ v => match v with
    | .text s => if s.toList.all Char.isDigit then .ok v else .error (.badValue "not a number")
    | _ => .error .wrongType, fun _ _ => .ok false, fun _ => .none, fun _ => none⟩

omit [Host] in
/-- A function that is asked about a token which belongs to the glob. -/
theorem Route.misses_failing :
    let f : Callable := ⟨"int", .type, "int", "", "int"⟩
    @Route.Misses Host.numeric ["/", "."] "/*g/:x" [("x", .callable f)]
      [("g", .list [.text "1", .text "b"]), ("x", .text "3")] "/1/b/3" := by
  intro f
  let parts : List Segment := [.separator "/", .var ⟨"g", none, .none, none,
    some ⟨false, none, true⟩⟩, .separator "/",
    .var ⟨"x", some (.predicate f), .none, some "/", none⟩]
  exact @misses_of Host.numeric _ _ _ _ _ parts (by cbv) (by cbv)
    (.error (.host (.badValue "not a number"))) (by cbv) fun _ h => by cases h

omit [Host] in
/-- None of the conditions on the texts of the variables can be left out, and
    neither can the one on the validators. -/
theorem Route.misses_illegible :
    (∃ options, Options.make? .none .none = .ok options ∧ options.delimiters = ["/", "."]) ∧
    @Route.Misses Host.idle ["/", "."] "/:x" [] [("x", .text "")] "/" ∧
    @Route.Misses Host.idle ["/", "."] "/:x" [] [("x", .text "a.b")] "/a.b" ∧
    @Route.Misses Host.idle ["/", "."] "/:x" [("x", .text "a b")] [("x", .text "a b")]
      "/a%20b" ∧
    @Route.Misses Host.idle ["/", "."] "/*g" [] [("g", .list [])] "/" ∧
    @Route.Misses Host.idle ["/", "."] "/\x7b!x,.+\x7d/end" [] [("x", .text "a")] "/a/end" ∧
    @Route.Misses Host.numeric ["/", "."] "/*g/:x"
      [("x", .callable ⟨"int", .type, "int", "", "int"⟩)]
      [("g", .list [.text "1", .text "b"]), ("x", .text "3")] "/1/b/3" :=
  ⟨⟨_, (by cbv : Options.make? .none .none = .ok ⟨["/", "."], defaultMethods.map .text⟩), rfl⟩,
    misses_single.1, misses_single.2.1, misses_single.2.2, misses_several.1, misses_several.2,
    misses_failing⟩

end PathRouting
