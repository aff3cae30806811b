import PathRouting.Proofs.Route.RoundTrip
import PathRouting.Proofs.Trie.Spelling

/-!
# Reading Clean Values Back

A text is clean if there is nothing in it to be encoded, and nothing it would
be cut at. Clean texts are tokens of a rendered path as they are, but it is
not obvious that the search gives each of them back to the variable that it
was rendered for: an open glob may take what is meant for a literal or a
variable behind it, and separators may be passed over.

What decides is how many there are. Every literal and every variable for one
token spell one word, and the words come in the order of the segments. With a
single glob, all but its own words are accounted for, on a run of the path as
in the text that was rendered.

## Main definitions

* `Tokens.Clean`: A text that is one token and needs no encoding.
* `Variable.TakesClean`: A clean text for a variable, or a list of them for a
  glob.
* `Path.boundBy`: What the variables are bound to if they give back some
  parameters.

## Theorems

* `words_intercalate`: Clean texts that were joined are the words of what they
  make up.
* `Route.Rendered.spelled`: A rendered text has the words of its parameters.
* `Route.find_of_clean`: A path is found with the clean values it was rendered
  from.
-/

namespace PathRouting

variable {delimiters : List String}

/-- The text is one token and needs no encoding. So it is found in a rendered
    path as it was given. -/
def Tokens.Clean (delimiters : List String) (text : String) : Prop :=
  Tokens.Plain delimiters text ∧ ∀ c ∈ text.toList, Text.isUnreserved c = true

/-- The value is a clean text, or for a glob a list of clean texts, which is
    not empty. -/
def Variable.TakesClean (delimiters : List String) (v : Variable) (x : Value) : Prop :=
  if v.isGlob then
    ∃ texts : List String, x = .list (texts.map .text) ∧ texts ≠ [] ∧
      ∀ s ∈ texts, Tokens.Clean delimiters s
  else ∃ s, x = .text s ∧ Tokens.Clean delimiters s

/-- What a variable is bound to if it gives back a value: the elements of a
    list, or else the value itself. -/
def Value.bound : Value → Bound
  | .list items => .many items
  | v => .one v

/-- What the variables of a path are bound to, in order, if they give back
    their parameters. -/
def Path.boundBy (p : Path) (params : Fields) : Bindings :=
  p.binders.map fun v => (v.name, ((params.lookup v.name).getD .none).bound)

section Joined

variable {mark : String} {texts : List String}

/-- Texts without delimiters that were joined by one are the words of what they
    make up. So a glob that was rendered from a list gives the same list back. -/
theorem words_intercalate (hsingle : Tokens.Single delimiters)
    (hmark : Tokens.isDelimiter delimiters mark = true)
    (htexts : ∀ s ∈ texts, Tokens.Plain delimiters s) :
    words delimiters (Tokens.tokens delimiters (mark.intercalate texts)) = texts := by
  have hword : ∀ s, Tokens.Plain delimiters s → words delimiters [s] = [s] := fun s hs =>
    words_cons_word (Tokens.isDelimiter_of_starts hsingle hs.starts) []
  induction texts with
  | nil => rfl
  | cons s rest ih =>
      rcases List.forall_mem_cons.1 htexts with ⟨hs, hrest⟩
      cases rest with
      | nil => rw [String.intercalate_singleton, Tokens.tokens_plain hsingle hs, hword s hs]
      | cons u more =>
          rw [String.intercalate_cons_cons, String.append_assoc,
            Tokens.tokens_append hsingle _ (Tokens.ends_mark_append hsingle hmark _),
            Tokens.tokens_mark_append hsingle hmark, Tokens.tokens_plain hsingle hs, words_append,
            hword s hs, words_cons_mark hmark, ih hrest]
          rfl

/-- What is made up of such texts starts as the first of them does. -/
theorem starts_intercalate (hne : texts ≠ []) (htexts : ∀ s ∈ texts, Tokens.Plain delimiters s) :
    Tokens.Starts delimiters (mark.intercalate texts) := by
  cases texts with
  | nil => exact absurd rfl hne
  | cons s rest =>
      rcases (htexts s List.mem_cons_self).starts with ⟨c, more, hs, hc⟩
      cases rest with
      | nil => exact ⟨c, more, by rw [String.intercalate_singleton, hs], hc⟩
      | cons u others =>
          refine ⟨c, more ++ (mark ++ mark.intercalate (u :: others)).toList, ?_, hc⟩
          rw [String.intercalate_cons_cons, String.append_assoc, String.toList_append, hs]
          rfl

end Joined

variable [Host]

/-- What is accepted by the check of a rendering is accepted text by text. A
    search asks for each text by itself, and the first text that is refused ends
    the check; so the two can only be compared where everything is accepted. -/
theorem validate_eq_ok {pattern : String} {v : Variable} {texts : List String} :
    validate pattern v texts = .ok () ↔ ∀ s ∈ texts, v.accepts (.text s) = .ok true := by
  induction texts with
  | nil => simp [validate]
  | cons s rest ih =>
      rw [validate, List.forall_mem_cons, ← ih]
      by_cases hs : v.accepts (.text s) = .ok true
      · rw [hs]
        exact (and_iff_right rfl).symm
      · refine iff_of_false (fun hvalid => ?_) fun hboth => hs hboth.1
        rcases bind_eq_ok.1 hvalid with ⟨verdict, haccepts, hvalid⟩
        cases verdict with
        | false => cases hvalid
        | true => exact hs haccepts

section Variable

variable {pattern delimiter safe : String} {params : Fields} {v : Variable} {text : String}

/-- A variable on its own is rendered as its parameter. -/
theorem Route.exists_renderVariable {r : Route} (hsome : r.delimiters ≠ []) {x : Value}
    (hlookup : params.lookup v.name = some x) (hpresent : x.isNone = false)
    (h : r.render ⟨[], [.var v]⟩ params = .ok text) :
    ∃ delimiter ∈ r.delimiters, ∃ safe,
      renderVariable r.pattern delimiter safe v x = .ok text := by
  rcases r.exists_render hsome with ⟨delimiter, hdelimiter, safe, hrenders⟩
  have hvalue : valueFor r.pattern v params = .ok x := by
    rw [valueFor, hlookup]
    exact if_neg (Bool.eq_false_iff.1 hpresent)
  rw [hrenders, renderParts, hvalue] at h
  rcases bind_eq_ok.1 h with ⟨_, hx, h⟩
  cases hx
  rcases bind_eq_ok.1 h with ⟨front, hfront, h⟩
  cases h
  exact ⟨delimiter, hdelimiter, safe, hfront.trans (congrArg Except.ok String.append_empty.symm)⟩

/-- A clean text is rendered as it is. -/
theorem eq_of_renderVariable_text {s : String} (hs : Tokens.Clean delimiters s)
    (h : renderVariable pattern delimiter safe v (.text s) = .ok text) :
    text = s ∧ v.accepts (.text s) = .ok true := by
  rcases bind_eq_ok.1 h with ⟨_, hvalid, h⟩
  cases h
  exact ⟨Text.percentEncode_eq_self _ hs.2, validate_eq_ok.1 hvalid s (List.mem_singleton_self s)⟩

/-- Clean texts are rendered as they are, joined by the delimiter. -/
theorem eq_of_renderVariable_list (hglob : v.isGlob = true) {texts : List String}
    (htexts : ∀ s ∈ texts, Tokens.Clean delimiters s)
    (h : renderVariable pattern delimiter safe v (.list (texts.map .text)) = .ok text) :
    text = delimiter.intercalate texts ∧ ∀ s ∈ texts, v.accepts (.text s) = .ok true := by
  rw [renderVariable, if_pos hglob] at h
  · rcases bind_eq_ok.1 h with ⟨written, hwritten, h⟩
    cases (mapM_plain_text texts).symm.trans hwritten
    rcases bind_eq_ok.1 h with ⟨_, hvalid, h⟩
    cases h
    refine ⟨?_, validate_eq_ok.1 hvalid⟩
    rw [List.map_congr_left fun s hs => Text.percentEncode_eq_self "" (htexts s hs).2, List.map_id']
  · intro s hs
    cases hs

omit [Host] in
theorem Variable.TakesClean.isNone_eq {x : Value} (h : v.TakesClean delimiters x) :
    x.isNone = false := by
  unfold TakesClean at h
  split at h
  · rcases h with ⟨texts, rfl, _⟩
    rfl
  · rcases h with ⟨s, rfl, _⟩
    rfl

/-- What was rendered from a clean value can be read back, whatever is behind
    it. A clean text has nothing in it to be encoded and no delimiter, so that
    rendering neither changes it nor lets it be cut. -/
theorem Variable.legible_of_clean (hsingle : Tokens.Single delimiters)
    (hdelimiter : delimiter ∈ delimiters) (hgreedy : v.isGreedy = false) {x : Value}
    (hx : v.TakesClean delimiters x)
    (h : renderVariable pattern delimiter safe v x = .ok text) (rest : String) :
    v.Legible delimiters text rest := by
  have hmark : Tokens.isDelimiter delimiters delimiter = true := List.contains_iff_mem.2 hdelimiter
  unfold TakesClean at hx
  -- A clean value of a single variable is rendered as it is and is one word. That of a glob is
  -- rendered with a delimiter between its texts, which are its words again.
  cases hglob : v.glob with
  | none =>
      rw [Variable.isGlob, hglob, if_neg (by decide)] at hx
      rcases hx with ⟨s, rfl, hs⟩
      rcases eq_of_renderVariable_text hs h with ⟨rfl, haccepts⟩
      rw [Variable.Legible, hglob]
      exact ⟨hs.1, haccepts⟩
  | some g =>
      have hkind : v.isGlob = true := by rw [Variable.isGlob, hglob]; rfl
      rw [if_pos hkind] at hx
      rcases hx with ⟨texts, rfl, hne, htexts⟩
      rcases eq_of_renderVariable_list hkind htexts h with ⟨rfl, haccepts⟩
      have hplain := fun s hs => (htexts s hs).1
      rw [Variable.isGreedy, hglob] at hgreedy
      have hg : g.greedy = false := hgreedy
      rw [Variable.Legible, hglob]
      refine ⟨starts_intercalate hne hplain, ?_⟩
      rw [hg, words_intercalate hsingle hmark hplain]
      exact haccepts

theorem Spelled.var (hsingle : Tokens.Single delimiters) (hdelimiter : delimiter ∈ delimiters)
    {x : Value} (hx : v.TakesClean delimiters x)
    (h : renderVariable pattern delimiter safe v x = .ok text) {parts : List Segment}
    {ws : List String} {b : Bindings} (hrest : Spelled parts ws b) :
    Spelled (.var v :: parts) (words delimiters (Tokens.tokens delimiters text) ++ ws)
      ((v.name, x.bound) :: b) := by
  have hmark : Tokens.isDelimiter delimiters delimiter = true := List.contains_iff_mem.2 hdelimiter
  unfold Variable.TakesClean at hx
  -- One word for a single variable, and as many as there are texts for a glob.
  cases hkind : v.isGlob with
  | false =>
      rw [if_neg (Bool.eq_false_iff.1 hkind)] at hx
      rcases hx with ⟨s, rfl, hs⟩
      rcases eq_of_renderVariable_text hs h with ⟨rfl, _⟩
      rw [Tokens.tokens_plain hsingle hs.1,
        words_cons_word (Tokens.isDelimiter_of_starts hsingle hs.1.starts)]
      exact .single hkind hrest
  | true =>
      rw [if_pos hkind] at hx
      rcases hx with ⟨texts, rfl, _, htexts⟩
      rcases eq_of_renderVariable_list hkind htexts h with ⟨rfl, _⟩
      rw [words_intercalate hsingle hmark fun s hs => (htexts s hs).1]
      exact .several hkind hrest

end Variable

section Path

variable {r : Route} {params : Fields} {parts : List Segment}

/-- A path can be read back if it is rendered from clean values. -/
theorem Route.legible_of_clean (hsingle : Tokens.Single r.delimiters)
    (hgreedy : ∀ v, Segment.var v ∈ parts → v.isGreedy = false)
    (hclean : ∀ v, Segment.var v ∈ parts →
      ∃ x, params.lookup v.name = some x ∧ v.TakesClean r.delimiters x) :
    r.Legible params parts := by
  induction parts with
  | nil => trivial
  | cons s parts ih =>
      have hrest := ih (fun v hv => hgreedy v (List.mem_cons_of_mem _ hv))
        fun v hv => hclean v (List.mem_cons_of_mem _ hv)
      cases s with
      | literal a | separator mark | condition c => exact hrest
      | var v =>
          refine ⟨fun text rest hrender _ => ?_, hrest⟩
          rcases hclean v List.mem_cons_self with ⟨x, hlookup, hx⟩
          rcases r.exists_renderVariable hsingle.1 hlookup hx.isNone_eq hrender with
            ⟨delimiter, hdelimiter, safe, hvariable⟩
          exact Variable.legible_of_clean hsingle hdelimiter (hgreedy v List.mem_cons_self) hx
            hvariable rest

/-- A path that was rendered from clean values has their words. -/
theorem Route.Rendered.spelled (hsingle : Tokens.Single r.delimiters)
    (hclean : ∀ v, Segment.var v ∈ parts →
      ∃ x, params.lookup v.name = some x ∧ v.TakesClean r.delimiters x) {text : String}
    (h : r.Rendered params parts text) :
    Spelled parts (words r.delimiters (Tokens.tokens r.delimiters text))
      (Path.boundBy ⟨[], parts⟩ params) := by
  induction h with
  | nil => exact .nil
  | literal mark apart onward ih =>
      rw [apart, words_cons_word mark]
      exact .literal (ih fun v hv => hclean v (List.mem_cons_of_mem _ hv))
  | separator mark apart onward ih =>
      rw [apart, words_cons_mark mark]
      exact .separator (ih fun v hv => hclean v (List.mem_cons_of_mem _ hv))
  | @var v front rest parts here behind ends onward ih =>
      rcases hclean v List.mem_cons_self with ⟨x, hlookup, hx⟩
      -- What the variable was rendered as ends where the rest begins, so the words of the two are
      -- those of the whole.
      rcases r.exists_renderVariable hsingle.1 hlookup hx.isNone_eq here with
        ⟨delimiter, hdelimiter, safe, hvariable⟩
      have hrest := ih fun v hv => hclean v (List.mem_cons_of_mem _ hv)
      have hspelled := hrest.var hsingle hdelimiter hx hvariable
      have hbound : Path.boundBy ⟨[], .var v :: parts⟩ params =
          (v.name, ((params.lookup v.name).getD .none).bound) ::
            Path.boundBy ⟨[], parts⟩ params := rfl
      rw [Tokens.tokens_append hsingle _ ends, words_append, hbound, hlookup]
      exact hspelled

end Path

/-- A path that was rendered from clean values is found with just these
    values, if no more than one of its variables is a glob and none is greedy.
    The validators come out with a verdict on every text. That the path is
    found follows for more values than these; that the bindings are the values
    is what needs them clean, and the one glob leaves no doubt about where it
    begins and ends. -/
theorem Route.find_of_clean {α : Type} {given methods : Value} {options : Options}
    (hoptions : Options.make? given methods = .ok options) {pattern : String}
    {requirements defaults : Fields} {compiled : List (List Segment)}
    (hcompile : Pattern.compile options.delimiters pattern requirements defaults = .ok compiled)
    {p : Path} (a : α) :
    let route := Route.make pattern compiled [] [] requirements defaults .none none
      options.delimiters false
    p ∈ route.paths → (∀ v ∈ p.binders, v.isGreedy = false) → (globs p.parts).length ≤ 1 →
      (∀ v ∈ p.binders, ∀ s, ∃ verdict, v.accepts (.text s) = .ok verdict) →
      ∀ params text,
        (∀ v ∈ p.binders, ∃ x, params.lookup v.name = some x ∧
          v.TakesClean options.delimiters x) →
        route.render p params = .ok text →
        (Trie.insert a p.segments .empty).trie.find options.delimiters
            ((Tokens.tokens options.delimiters text).map Token.ofText) =
          .ok (some (a, p.boundBy params)) := by
  intro route hp hgreedy hglobs htotal params text hclean hrender
  rcases Route.compiled_of_make hcompile hp with ⟨hcompiled, hproper⟩
  have hsingle : Tokens.Single route.delimiters := Options.single hoptions
  have hgreedy' := fun v hv => hgreedy v (Path.mem_binders hv)
  have hclean' := fun v hv => hclean v (Path.mem_binders hv)
  have hrendered := Route.rendered_of_render hsingle hcompiled.fits hcompiled.spaced hrender
  have hlegible := Route.legible_of_clean (r := route) hsingle hgreedy' hclean'
  have hcut := hrendered.cut hsingle hcompiled.fits hlegible
  rcases Trie.find_of_cut hcompiled hproper hcut a with ⟨b, hfind⟩ | ⟨e, _, v, hv, x, hx⟩
  · -- What is bound is decided by the words of the text, and these are the given ones.
    have hlayout := Trie.layout_of_alone hcompiled hproper hfind
    have hfound := hlayout.spelled hsingle.2 hcompiled.fits hgreedy'
    have hgiven := hrendered.spelled hsingle hclean'
    have hbound : b = p.boundBy params := hgiven.unique hglobs hfound
    rw [← hbound]
    exact hfind
  · rcases htotal v hv x with ⟨verdict, hverdict⟩
    rw [hverdict] at hx
    cases hx

omit [Host] in
/-- A glob takes neither the word of the variable behind it nor the literal at
    the end, although it has one like it among its own. -/
theorem Route.find_of_clean_glob :
    let p : Path := ⟨[], [.separator "/", .var ⟨"g", none, .none, some "end",
      some ⟨false, none, true⟩⟩, .separator "/", .var ⟨"x", none, .none, some "/", none⟩,
      .separator "/", .literal "end"]⟩
    let route := Route.make "/*g/:x/end" [p.parts] [] [] [] [] .none none ["/", "."] false
    let params : Fields := [("x", .text "b"), ("g", .list [.text "end", .text "a"])]
    @Route.render Host.idle route p params = .ok "/end/a/b/end" ∧
      @Trie.find Host.idle Nat ["/", "."] (Trie.insert 0 p.segments .empty).trie
        ((Tokens.tokens ["/", "."] "/end/a/b/end").map Token.ofText) =
      .ok (some (0, [("g", .many [.text "end", .text "a"]), ("x", .one (.text "b"))])) := by
  intro p route params
  let idle : Host := Host.idle
  have hoptions : Options.make? .none .none =
      .ok ⟨["/", "."], defaultMethods.map .text⟩ := by cbv
  have hcompile : @Pattern.compile Host.idle ["/", "."] "/*g/:x/end" [] [] = .ok [p.parts] := by cbv
  have hrender : route.render p params = .ok "/end/a/b/end" := by
    unfold route p params idle
    cbv
  have hbinders : p.binders = [⟨"g", none, .none, some "end", some ⟨false, none, true⟩⟩,
    ⟨"x", none, .none, some "/", none⟩] := rfl
  -- The three texts are clean: no delimiter, and nothing that would be encoded.
  have hend : Tokens.Clean ["/", "."] "end" :=
    ⟨Tokens.plain_iff.2 (by cbv), List.all_eq_true.1 (by cbv)⟩
  have ha : Tokens.Clean ["/", "."] "a" :=
    ⟨Tokens.plain_iff.2 (by cbv), List.all_eq_true.1 (by cbv)⟩
  have hb : Tokens.Clean ["/", "."] "b" :=
    ⟨Tokens.plain_iff.2 (by cbv), List.all_eq_true.1 (by cbv)⟩
  refine ⟨hrender, Route.find_of_clean hoptions hcompile (0 : Nat) (p := p)
    (List.mem_singleton_self _) ?_ (by decide) ?_ params _ ?_ hrender⟩
  · rw [hbinders]
    decide
  · intro v hv x
    rw [hbinders] at hv
    rcases List.mem_pair.1 hv with rfl | rfl <;> exact ⟨true, rfl⟩
  · intro v hv
    rw [hbinders] at hv
    rcases List.mem_pair.1 hv with rfl | rfl
    · refine ⟨_, rfl, ["end", "a"], rfl, by decide, fun s hs => ?_⟩
      rcases List.mem_pair.1 hs with rfl | rfl
      · exact hend
      · exact ha
    · exact ⟨_, rfl, "b", rfl, hb⟩

end PathRouting
