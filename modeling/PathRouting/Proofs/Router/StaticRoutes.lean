import PathRouting.Proofs.Router.Conditions
import PathRouting.Proofs.Router.Consistency

/-!
# Static Paths Come First

A path without variables is found by its own text, whatever else is
registered. Its text is cut into the very texts of its segments, since
compiling leaves no two literals side by side and no delimiter in one. At
every node the search goes over the child for the text first, and that child
is there. The conditions in front of it, if they leave every attribute open,
are passed in the same way when no attribute is there: nothing requires that
one is absent, and no validator is asked about it.

What ends where the search arrives is the last path with these places, and the
paths with these places are those with this text that are static and without
conditions themselves.

## Main definitions

* `Path.Static`: The path has no variables, and every request will do for it.

## Theorems

* `tokens_patternText`: The text of a path without variables is cut into those
  of its segments.
* `Trie.search_absent`, `Trie.search_text`: One step of the search over an
  attribute that is absent, and over a text.
* `Trie.Holds.search_static`: Where the search over the segments of a static
  path leads.
* `Path.Static.places_eq`, `Path.Static.of_places`: Static paths have the same
  places if they have the same text, and only then.
* `Router.attributeTokens_absent`: What stands in front of a path without a
  request.
* `Router.recognize_static`: The last static path with a text is found by it.
-/

namespace PathRouting

/-- The path has no variables, and every request will do for it. -/
structure Path.Static (p : Path) : Prop where
  plain : p.isDynamic = false
  unconditioned : ∀ c ∈ p.conditions, c.isWildcard = true

/-- A path without variables consists of texts. -/
theorem Path.Compiled.place_eq {delimiters : List String} {p : Path}
    (hcompiled : p.Compiled delimiters) (hplain : p.isDynamic = false) :
    ∀ s ∈ p.parts, s.place = .fixed (.text s.text) := by
  intro s hs
  have hfits := hcompiled.fits s hs
  cases s with
  | literal text | separator mark => rfl
  | condition c => exact absurd hfits id
  | var v =>
      have hnone : p.binders = [] := by simpa [Path.isDynamic] using hplain
      have hmem : v ∈ p.binders := List.mem_filterMap.2 ⟨_, hs, rfl⟩
      rw [hnone] at hmem
      cases hmem

/-- The text of a path without variables is cut into those of its segments. -/
theorem tokens_patternText {delimiters : List String} (hsingle : Tokens.Single delimiters)
    {parts : List Segment} (hfits : ∀ s ∈ parts, s.Fits delimiters)
    (hspaced : parts.IsChain Pattern.Apart)
    (htexts : ∀ s ∈ parts, s.place = .fixed (.text s.text)) :
    Tokens.tokens delimiters (patternText parts) = parts.map Segment.text := by
  induction parts with
  | nil => exact Tokens.tokens_empty hsingle
  | cons s rest ih =>
      rcases List.forall_mem_cons.1 hfits with ⟨hs, hrest⟩
      rcases List.forall_mem_cons.1 htexts with ⟨htext, hmore⟩
      rw [List.isChain_cons] at hspaced
      have htokens := ih hrest hspaced.2 hmore
      rw [patternText_cons, List.map_cons, ← htokens]
      cases s with
      | separator mark =>
          rcases hs with ⟨c, _, hmark⟩
          exact Tokens.tokens_mark_append hsingle hmark _
      | literal text =>
          -- A literal ends at the separator behind it, or at the end of the path.
          have hends : Tokens.Ends delimiters (patternText rest) := by
            cases rest with
            | nil => exact Or.inl rfl
            | cons u more =>
                rcases hspaced.1 u rfl with hseparator | hseparator
                · cases hseparator
                · cases u with
                  | separator mark =>
                      rcases hrest _ List.mem_cons_self with ⟨c, _, hmark⟩
                      rw [patternText_cons]
                      exact Tokens.ends_mark_append hsingle hmark _
                  | literal _ | condition _ | var _ => cases hseparator
          rw [Segment.text_literal, Tokens.tokens_append hsingle text hends,
            Tokens.tokens_plain hsingle hs]
          rfl
      | condition c => exact absurd hs id
      | var v => cases htext

namespace Trie

variable [Host] {α : Type} {delimiters : List String} {t : Trie α} {es : Entries α}

/-- None of the entries requires that an attribute is absent. -/
def Present (es : Entries α) : Prop :=
  ∀ e ∈ es, ∀ c, Segment.condition c ∈ e.2 → c.value.isNone = false

omit [Host] in
theorem Present.after (h : Present es) (p : Place) : Present (after p es) := by
  intro e he c hc
  rcases mem_after.1 he with ⟨s, _, hmem⟩
  exact h _ hmem c (List.mem_cons_of_mem _ hc)

/-- Over an attribute that is absent the search can only go on where any value
    will do. A condition that judges is not asked about it, and no path in
    force requires that it is absent. -/
theorem search_absent (hholds : t.Holds es) (hpresent : Present es) {a : α} {c : Condition}
    {more : List Segment} (hmem : (a, .condition c :: more) ∈ es)
    (hwildcard : c.isWildcard = true) (hkey : c.kind.isKey = true) (tokens : List Token) :
    ∃ child : Trie α, child.Holds (PathRouting.after (Segment.condition c).place es) ∧
      search delimiters 0 t (.attribute ⟨c.kind, .none⟩ :: tokens) [] none =
        search delimiters 0 child tokens [] none := by
  rcases c with ⟨kind, value⟩
  cases value with
  | wildcard =>
      rcases hholds.child_of_mem hmem with ⟨u, child, hat⟩
      have hanything : t.fixedChild? (.condition kind.form Value.wildcard.form) =
          some (u, child) := hat
      -- A child for the absent value would have been made for a condition on it.
      have hexact : t.fixedChild? (.condition kind.form Value.none.form) = none := by
        cases hchild : t.fixedChild? (.condition kind.form Value.none.form) with
        | none => rfl
        | some e =>
            have hplace : t.childAt? (.fixed (.condition kind.form Value.none.form)) =
                some (e.1, e.2) := hchild
            rcases hholds.exists_label hplace with ⟨b, rest, hentry⟩
            rcases Segment.eq_of_place_condition (place_of_childAt? hplace) with
              ⟨d, hd, _, _, hnone⟩
            rw [hd] at hentry
            have hsome := hpresent _ hentry d List.mem_cons_self
            rw [Value.isNone_congr hnone] at hsome
            cases hsome
      have hvia : ∀ (onward : Onward α) closed,
          viaExact onward t ⟨kind, .none⟩ closed = .ok none := by
        intro onward closed
        rw [viaExact, hexact, ite_self]
        rfl
      have hopen : ∀ (onward : Onward α) closed,
          viaAnything onward t ⟨kind, .none⟩ closed = onward 0 child closed none := by
        intro onward closed
        rw [viaAnything, if_pos hkey, hanything]
        exact firstFound_singleton _ _
      refine ⟨child, hholds.child_holds hat, ?_⟩
      rw [search, hvia]
      exact hopen (fun skip t held glob => search delimiters skip t tokens held glob) []
  | _ => cases hwildcard

/-- What is found behind the child for a text is found, before anything else is tried. -/
theorem search_text (hholds : t.Holds es) {a : α} {s : Segment} {more : List Segment}
    (hmem : (a, s :: more) ∈ es) (htext : s.place = .fixed (.text s.text))
    (tokens : List Token) :
    ∃ child : Trie α, child.Holds (PathRouting.after s.place es) ∧ ∀ found,
      search delimiters 0 child tokens [] none = .ok (some found) →
        search delimiters 0 t (.ofText s.text :: tokens) [] none = .ok (some found) := by
  rcases hholds.child_of_mem hmem with ⟨u, child, hat⟩
  refine ⟨child, hholds.child_holds hat, fun found hfound => ?_⟩
  rw [htext] at hat
  have hchild : t.fixedChild? (.text s.text) = some (u, child) := hat
  have hvia : ∀ onward : Onward α,
      viaLiteral onward t (.text s.text) [] none = onward 0 child [] none := by
    intro onward
    have hbehind : (pieceKey? (.text s.text)).bind t.fixedChild? = some (u, child) := hchild
    rw [viaLiteral, hbehind]
    refine (firstFound_singleton _ _).trans ?_
    -- No glob is open, so it does not matter whether the text is a separator.
    cases u.isSeparator <;> rfl
  have hkey : (Value.text s.text).isKey = true := rfl
  rw [Token.ofText, search, if_pos hkey, hvia, hfound]
  rfl

variable (delimiters) in
/-- The search over the absent attributes and the texts of a static path leads
    to the last entry with its places. The induction is on the places; at
    every node the child for the text comes before the variable, so nothing
    else is ever tried. -/
theorem Holds.search_static (hholds : t.Holds es) (hpresent : Present es) {a : α}
    {conditions : List Condition} {parts : List Segment}
    (hmem : (a, conditions.map Segment.condition ++ parts) ∈ es)
    (hopen : ∀ c ∈ conditions, c.isWildcard = true ∧ c.kind.isKey = true)
    (htexts : ∀ s ∈ parts, s.place = .fixed (.text s.text)) :
    ∃ last, holder es ((conditions.map Segment.condition ++ parts).map Segment.place) =
        some last ∧
      search delimiters 0 t ((conditions.map fun c => .attribute ⟨c.kind, .none⟩) ++
        (parts.map Segment.text).map Token.ofText) [] none = .ok (some (last, [])) := by
  -- On the conditions, and behind them on the parts. Each step leads to the child that holds what
  -- is left of the entries, and adds nothing to what is bound.
  induction conditions generalizing t es with
  | nil =>
      induction parts generalizing t es with
      | nil =>
          rcases holder_of_mem hmem with ⟨last, hlast⟩
          have hterminal : t.terminal = some last := hholds.terminal_eq.trans hlast
          refine ⟨last, hlast, ?_⟩
          rw [List.map_nil, List.map_nil, List.map_nil, List.append_nil, search, hterminal]
          rfl
      | cons s more ih =>
          rcases List.forall_mem_cons.1 htexts with ⟨hs, hmore⟩
          rcases search_text hholds hmem hs ((more.map Segment.text).map Token.ofText) with
            ⟨child, hchild, honward⟩
          rcases ih hmore hchild (hpresent.after _) (mem_after.2 ⟨s, rfl, hmem⟩) with
            ⟨last, hlast, hsearch⟩
          exact ⟨last, holder_cons hlast, honward _ hsearch⟩
  | cons c rest ih =>
      rcases List.forall_mem_cons.1 hopen with ⟨⟨hwildcard, hkey⟩, hrest⟩
      rcases search_absent hholds hpresent hmem hwildcard hkey
        ((rest.map fun c => .attribute ⟨c.kind, .none⟩) ++
          (parts.map Segment.text).map Token.ofText) with ⟨child, hchild, honward⟩
      rcases ih hchild (hpresent.after _) (mem_after.2 ⟨_, rfl, hmem⟩) hrest with
        ⟨last, hlast, hsearch⟩
      exact ⟨last, holder_cons hlast, honward.trans hsearch⟩

end Trie

/-- What leads through the places of texts consists of these texts. -/
theorem texts_of_places {parts : List Segment} {texts : List String}
    (h : parts.map Segment.place = texts.map fun text => .fixed (.text text)) :
    (∀ s ∈ parts, s.var? = none) ∧ parts.map Segment.text = texts := by
  induction parts generalizing texts with
  | nil =>
      rw [List.map_nil, eq_comm, List.map_eq_nil_iff] at h
      exact ⟨fun _ hs => absurd hs List.not_mem_nil, h.symm⟩
  | cons s rest ih =>
      cases texts with
      | nil => cases h
      | cons text more =>
          rw [List.map_cons, List.map_cons, List.cons.injEq] at h
          rcases ih h.2 with ⟨hvars, hrest⟩
          rw [List.forall_mem_cons, List.map_cons, hrest]
          rcases Segment.eq_of_place_text h.1 with rfl | rfl
          · exact ⟨⟨rfl, hvars⟩, rfl⟩
          · exact ⟨⟨rfl, hvars⟩, rfl⟩

/-- The places that a static path with some conditions and texts leads
    through. They are known without the path, so that a walk over them can be
    described before it is known whose they are. -/
def staticPlaces (kinds : List Value) (texts : List String) : List Place :=
  (kinds.map fun kind => .fixed (.condition kind.form Value.wildcard.form)) ++
    texts.map fun text => .fixed (.text text)

namespace Path.Static

variable {p q : Path} {delimiters : List String}

/-- The text of a static path is cut into those of its segments. -/
theorem tokens_text (h : p.Static) (hcompiled : p.Compiled delimiters)
    (hsingle : Tokens.Single delimiters) :
    Tokens.tokens delimiters p.text = p.parts.map Segment.text :=
  tokens_patternText hsingle hcompiled.fits hcompiled.spaced (hcompiled.place_eq h.plain)

/-- The places of a static path are those of its conditions and texts. -/
theorem places_eq (h : p.Static) (hcompiled : p.Compiled delimiters) :
    p.places = staticPlaces (p.conditions.map Condition.kind) (p.parts.map Segment.text) := by
  rw [places, segments, List.map_append, staticPlaces, List.map_map, List.map_map, List.map_map]
  refine congrArg₂ (· ++ ·) (List.map_congr_left fun c hc => ?_)
    (List.map_congr_left fun s hs => ?_)
  · rcases c with ⟨kind, value⟩
    have hwildcard := h.unconditioned _ hc
    cases value with
    | wildcard => rfl
    | _ => cases hwildcard
  · exact hcompiled.place_eq h.plain s hs

/-- A path with the places of a static one is static, and has its texts. -/
theorem of_places {texts : List String}
    (h : q.places = staticPlaces (q.conditions.map Condition.kind) texts) :
    q.Static ∧ q.parts.map Segment.text = texts := by
  rw [places, segments, List.map_append, staticPlaces] at h
  rcases List.append_inj h (by simp) with ⟨hconditions, hparts⟩
  rw [List.map_map, List.map_map, List.map_inj_left] at hconditions
  rcases texts_of_places hparts with ⟨hvars, htexts⟩
  refine ⟨⟨?_, fun c hc => ?_⟩, htexts⟩
  · have hbinders : q.binders = [] := List.filterMap_eq_nil_iff.2 hvars
    rw [isDynamic, hbinders]
    rfl
  · rcases Segment.eq_of_place_condition (hconditions c hc) with ⟨d, hd, _, _, hvalue⟩
    cases hd
    rw [Condition.isWildcard, Value.form_eq_wildcard.1 hvalue]

end Path.Static

namespace Router

variable [Host] {r : Router} {id : PathId} {p : Path}

/-- Among the paths in force, those with the places of a static path are the
    static paths with its text. So the later one that takes its place can be
    told by its text. -/
theorem Reachable.places_eq_iff (h : Reachable r) (hp : (id, p) ∈ r.entered)
    (hstatic : p.Static) {other : PathId} {q : Path} (hq : (other, q) ∈ r.entered) :
    q.places = p.places ↔ q.Static ∧ q.text = p.text := by
  rcases h.coherent.valid with ⟨_, _, hvalid⟩
  have hsingle := Options.single hvalid
  have hcompiled := h.coherent.built.compiled _ hp
  have hkinds : q.conditions.map Condition.kind = p.conditions.map Condition.kind :=
    (h.conditions hq).1.trans (h.conditions hp).1.symm
  constructor
  · intro hplaces
    rw [hstatic.places_eq hcompiled, ← hkinds] at hplaces
    rcases Path.Static.of_places hplaces with ⟨hown, htexts⟩
    exact ⟨hown, by rw [Path.text, Path.text, patternText, patternText, htexts]⟩
  · intro hboth
    rcases hboth with ⟨hown, htext⟩
    have hother := h.coherent.built.compiled _ hq
    rw [hown.places_eq hother, hstatic.places_eq hcompiled, hkinds,
      ← hown.tokens_text hother hsingle, ← hstatic.tokens_text hcompiled hsingle, htext]

/-- None of the paths in force requires that an attribute is absent. -/
theorem Reachable.present (h : Reachable r) : Trie.Present (entriesOf r.entered) := by
  intro e he c hc
  rcases List.mem_map.1 he with ⟨⟨other, q⟩, hq, rfl⟩
  rcases List.mem_append.1 hc with hc | hc
  · rcases List.mem_map.1 hc with ⟨d, hd, heq⟩
    cases heq
    exact ((h.conditions hq).2 c hd).1
  · exact False.elim ((h.coherent.built.compiled _ hq).fits _ hc)

/-- Without a request there is a token for every attribute, and nothing in it. -/
theorem attributeTokens_absent {kinds : List Value}
    (hkinds : ∀ kind ∈ kinds, ∃ name, kind = .text name ∧ Host.inherent name = .none) :
    attributeTokens kinds none = .ok (kinds.map fun kind => .attribute ⟨kind, .none⟩) := by
  rcases exists_attributeTokens none fun kind hkind =>
    (hkinds kind hkind).imp fun _ => And.left with ⟨tokens, htokens⟩
  rcases attributeTokens_eq_fixed htokens with ⟨names, rfl, rfl⟩
  rw [htokens, attributesOf, List.map_map, List.map_map]
  refine congrArg Except.ok (List.map_congr_left fun name hname => ?_)
  rcases hkinds (.text name) (List.mem_map_of_mem hname) with ⟨own, hown, hnone⟩
  cases hown
  have habsent : attributeOf none name = .none := hnone
  rw [Function.comp_apply, Function.comp_apply, habsent]
  rfl

/-- A static path is found by its own text, unless a later one has the same
    text. Then that one is found, whatever else is registered. Variables,
    globs and conditions of other routes do not come into it, wherever they
    stand in the order. -/
theorem recognize_static (h : Reachable r)
    (hmethods : ∀ kind ∈ r.options.methods, ∃ name, kind = .text name ∧
      Host.inherent name = .none)
    (hp : (id, p) ∈ r.entered) (hstatic : p.Static) :
    ∃ front last q back, r.entered = front ++ (last, q) :: back ∧ q.Static ∧
      q.text = p.text ∧ (∀ e ∈ back, e.2.Static → e.2.text ≠ p.text) ∧
      r.recognize none (some p.text) = .ok (some ⟨last, []⟩) := by
  rcases h.coherent.valid with ⟨_, _, hvalid⟩
  have hbuilt := h.coherent.built
  have hcompiled := hbuilt.compiled _ hp
  rcases h.conditions hp with ⟨hkinds, _⟩
  have hopen : ∀ c ∈ p.conditions, c.isWildcard = true ∧ c.kind.isKey = true := by
    intro c hc
    refine ⟨hstatic.unconditioned c hc, h.coherent.isKey_of_methods _ ?_⟩
    rw [← hkinds]
    exact List.mem_map_of_mem hc
  rcases hbuilt.holds.search_static r.options.delimiters h.present (mem_entriesOf hp) hopen
    (hcompiled.place_eq hstatic.plain) with ⟨last, hlast, hsearch⟩
  rcases holder_entered_iff.1 hlast with ⟨q, ⟨front, back, hentered, hback⟩, hplaces⟩
  -- The path that prevails is in force, and so are those behind it.
  have hq : (last, q) ∈ r.entered := by rw [hentered]; simp
  rcases (h.places_eq_iff hp hstatic hq).1 hplaces with ⟨hown, htext⟩
  refine ⟨front, last, q, back, hentered, hown, htext, fun e he hstate hsame => ?_, ?_⟩
  · have hin : (e.1, e.2) ∈ r.entered := by rw [hentered]; simp [he]
    exact hback e he (((h.places_eq_iff hp hstatic hin).2 ⟨hstate, hsame⟩).trans hplaces.symm)
  · rw [recognize, matchPath_eq, attributeTokens_absent hmethods, ← hkinds, List.map_map,
      hstatic.tokens_text hcompiled (Options.single hvalid)]
    -- The tokens in front are those of the conditions, with nothing in them.
    exact bind_eq_ok.2 ⟨_, rfl, bind_eq_ok.2 ⟨_, hsearch, rfl⟩⟩

omit [Host] in
/-- A static route between a variable before it and one that comes with a
    condition after it. Without a request it is found. -/
theorem recognize_static_of_three :
    let _ : Host := .idle
    let options : Options := ⟨defaultDelimiters, defaultMethods.map .text⟩
    let spec := fun (pattern : String) (conditions : Fields) =>
      (⟨pattern, [], conditions, [], .none, .none, .none, []⟩ : RouteSpec)
    let r := ((make options).add (spec "/:user" [])).router
    let r' := (r.add (spec "/list" [])).router
    let r'' := (r'.add (spec "/list" [("method", .text "PUT")])).router
    ∃ front last q back, r''.entered = front ++ (last, q) :: back ∧ q.Static ∧
      q.text = "/list" ∧ (∀ e ∈ back, e.2.Static → e.2.text ≠ "/list") ∧
      r''.recognize none (some "/list") = .ok (some ⟨last, []⟩) := by
  intro _ options spec r r' r''
  let conditions : List Condition := defaultMethods.map fun name => ⟨.text name, .wildcard⟩
  let p : Path := ⟨conditions, [.separator "/", .literal "list"]⟩
  have hmake : Options.make? .none .none = .ok options := by cbv
  have hreachable : r''.Reachable :=
    .step (.step (.step (.make hmake) (.add _ _)) (.add _ _)) (.add _ _)
  -- The second of the three routes is the static one without a condition.
  have hat : r''.entered[1]? = some (⟨1, 0⟩, p) := by
    unfold r'' r' r spec options p conditions
    cbv
  have hmethods : ∀ kind ∈ r''.options.methods, ∃ name, kind = .text name ∧
      Host.inherent name = .none := by
    have hoptions : r''.options.methods = defaultMethods.map .text := by
      unfold r'' r' r spec options
      cbv
    intro kind hkind
    rw [hoptions] at hkind
    rcases List.mem_map.1 hkind with ⟨name, _, rfl⟩
    exact ⟨name, rfl, rfl⟩
  have hstatic : p.Static := ⟨rfl, fun c hc => by rcases List.mem_map.1 hc with ⟨_, _, rfl⟩; rfl⟩
  exact recognize_static hreachable hmethods (List.mem_of_getElem? hat) hstatic

end Router

end PathRouting
