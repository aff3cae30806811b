import PathRouting.Proofs.Trie.Refinement

/-!
# What a Match Says About the Text

The tokens of a text that is matched are laid out over the parts of the path
that is found, from left to right and without a gap, and what is bound can be
read off the layout.

An open glob goes on taking tokens when a separator behind it has been
matched. It is therefore only together with the separators behind it that a
glob has a piece of the text for itself: the delimiters in the piece have
those separators among them, in their order, but the piece may well end in
something else.

## Main definitions

* `words`, `marks`: The tokens in a piece that are no delimiters, and those
  that are.
* `Layout`: How tokens are laid out over the parts of a path.
* `Behind`: How they are laid out while a glob is open.

## Theorems

* `Behind.close`, `Behind.separator`, `Behind.skip`, `Behind.take`,
  `Behind.layout`: What becomes of a token while a glob is open.
* `Run.behind_of_parts`: The tokens on a run of the path proper are laid out.
* `Run.exists_parts`: A run of a path ends in a run of the path proper.
* `Trie.layout_of_find`: The tokens of a matched text are laid out over the
  path.
-/

namespace PathRouting

variable {α : Type} {delimiters : List String}

/-- The tokens that are no delimiters. -/
def words (delimiters pieces : List String) : List String :=
  pieces.filter fun s => !Tokens.isDelimiter delimiters s

/-- The tokens that are delimiters. -/
def marks (delimiters pieces : List String) : List String :=
  pieces.filter (Tokens.isDelimiter delimiters)

/-- How the tokens of a text are laid out over the parts of a path, and what
    is bound. A glob has one piece together with all the separators that
    follow it at once, since a separator does not close it: the next part that
    is none does. -/
inductive Layout (delimiters : List String) : List Segment → List String → Bindings → Prop
  | nil : Layout delimiters [] [] []
  | literal {s : String} {parts : List Segment} {pieces : List String} {b : Bindings}
      (onward : Layout delimiters parts pieces b) :
      Layout delimiters (.literal s :: parts) (s :: pieces) b
  | separator {s : String} {parts : List Segment} {pieces : List String} {b : Bindings}
      (onward : Layout delimiters parts pieces b) :
      Layout delimiters (.separator s :: parts) (s :: pieces) b
  | single {s : String} {v : Variable} {parts : List Segment} {pieces : List String}
      {b : Bindings} (kind : v.glob = none) (mark : Tokens.isDelimiter delimiters s = false)
      (onward : Layout delimiters parts pieces b) :
      Layout delimiters (.var v :: parts) (s :: pieces) ((v.name, .one (.text s)) :: b)
  | greedy {piece : List String} {v : Variable} {parts : List Segment} {pieces : List String}
      {b : Bindings} (kind : v.isGreedy = true) (spells : String.join piece ≠ "")
      (onward : Layout delimiters parts pieces b) :
      Layout delimiters (.var v :: parts) (piece ++ pieces)
        ((v.name, .one (.text (String.join piece))) :: b)
  | several {s : String} {piece separators : List String} {v : Variable} {parts : List Segment}
      {pieces : List String} {b : Bindings} (kind : v.isGlob = true) (greedy : v.isGreedy = false)
      (mark : Tokens.isDelimiter delimiters s = false)
      (among : separators.Sublist (marks delimiters piece))
      (ends : ∀ m, parts.head? ≠ some (.separator m))
      (onward : Layout delimiters parts pieces b) :
      Layout delimiters (.var v :: (separators.map Segment.separator ++ parts))
        (s :: piece ++ pieces)
        ((v.name, .many ((words delimiters (s :: piece)).map Value.text)) :: b)

theorem words_cons_mark {s : String} (h : Tokens.isDelimiter delimiters s = true)
    (pieces : List String) : words delimiters (s :: pieces) = words delimiters pieces := by
  simp [words, h]

theorem words_cons_word {s : String} (h : Tokens.isDelimiter delimiters s = false)
    (pieces : List String) : words delimiters (s :: pieces) = s :: words delimiters pieces := by
  simp [words, h]

theorem marks_cons_mark {s : String} (h : Tokens.isDelimiter delimiters s = true)
    (pieces : List String) : marks delimiters (s :: pieces) = s :: marks delimiters pieces := by
  simp [marks, h]

theorem marks_cons_word {s : String} (h : Tokens.isDelimiter delimiters s = false)
    (pieces : List String) : marks delimiters (s :: pieces) = marks delimiters pieces := by
  simp [marks, h]

theorem words_append (front back : List String) :
    words delimiters (front ++ back) = words delimiters front ++ words delimiters back :=
  List.filter_append ..

theorem marks_append (front back : List String) :
    marks delimiters (front ++ back) = marks delimiters front ++ marks delimiters back :=
  List.filter_append ..

/-- How tokens are laid out over some parts while a glob is open: it has the
    first of them for itself and the separators that the parts begin with.
    Without a glob it is a layout as such. -/
def Behind (delimiters : List String) (parts : List Segment) (pieces : List String) :
    Option OpenGlob → Bindings → Prop
  | none, b => Layout delimiters parts pieces b
  | some g, b => ∃ (separators : List String) (rest : List Segment) (piece more : List String)
      (bound : Bindings),
      parts = separators.map Segment.separator ++ rest ∧ pieces = piece ++ more ∧
        b = (g.owner.name, .many (g.taken ++ (words delimiters piece).map Value.text)) :: bound ∧
        separators.Sublist (marks delimiters piece) ∧
        (∀ m, rest.head? ≠ some (.separator m)) ∧ Layout delimiters rest more bound

/-- Where the parts do not begin with a separator, the glob is closed. -/
theorem Behind.close {parts : List Segment} {pieces : List String} {b : Bindings}
    (h : Layout delimiters parts pieces b) (hends : ∀ m, parts.head? ≠ some (.separator m))
    (glob : Option OpenGlob) : Behind delimiters parts pieces glob (closeGlob [] glob ++ b) := by
  cases glob with
  | none => exact h
  | some g =>
      refine ⟨[], parts, [], pieces, b, rfl, rfl, ?_, List.Sublist.refl _, hends, h⟩
      rw [words, List.filter_nil, List.map_nil, List.append_nil]
      rfl

/-- A separator goes to an open glob, as all that the parts begin with. -/
theorem Behind.separator {s : String} (hmark : Tokens.isDelimiter delimiters s = true)
    {parts : List Segment} {pieces : List String} {glob : Option OpenGlob} {b : Bindings}
    (h : Behind delimiters parts pieces glob b) :
    Behind delimiters (.separator s :: parts) (s :: pieces) glob b := by
  cases glob with
  | none => exact Layout.separator h
  | some g =>
      rcases h with ⟨separators, rest, piece, more, bound, rfl, rfl, rfl, hamong, hends, hlayout⟩
      refine ⟨s :: separators, rest, s :: piece, more, bound, rfl, rfl, ?_, ?_, hends, hlayout⟩
      · rw [words_cons_mark hmark]
      · rw [marks_cons_mark hmark]
        exact hamong.cons_cons s

section Open

variable {s : String} {g : OpenGlob} {parts : List Segment} {pieces : List String} {b : Bindings}

/-- A delimiter that is passed over goes to the piece of the glob. -/
theorem Behind.skip (hmark : Tokens.isDelimiter delimiters s = true)
    (h : Behind delimiters parts pieces (some g) b) :
    Behind delimiters parts (s :: pieces) (some g) b := by
  rcases h with ⟨separators, rest, piece, more, bound, hparts, rfl, rfl, hamong, hends, hlayout⟩
  refine ⟨separators, rest, s :: piece, more, bound, hparts, rfl, ?_, ?_, hends, hlayout⟩
  · rw [words_cons_mark hmark]
  · rw [marks_cons_mark hmark]
    exact hamong.cons s

/-- A token that is taken goes to the piece of the glob, and to what is bound. -/
theorem Behind.take (hmark : Tokens.isDelimiter delimiters s = false)
    (h : Behind delimiters parts pieces (some ⟨g.owner, g.taken ++ [.text s]⟩) b) :
    Behind delimiters parts (s :: pieces) (some g) b := by
  rcases h with ⟨separators, rest, piece, more, bound, hparts, rfl, rfl, hamong, hends, hlayout⟩
  refine ⟨separators, rest, s :: piece, more, bound, hparts, rfl, ?_, ?_, hends, hlayout⟩
  · rw [words_cons_word hmark, List.map_cons, List.append_assoc]
    rfl
  · rw [marks_cons_word hmark]
    exact hamong

/-- What is behind the first token of a glob completes its piece. -/
theorem Behind.layout {v : Variable} (hglob : v.isGlob = true) (hgreedy : v.isGreedy = false)
    (hmark : Tokens.isDelimiter delimiters s = false)
    (h : Behind delimiters parts pieces (some ⟨v, [.text s]⟩) b) :
    Layout delimiters (.var v :: parts) (s :: pieces) b := by
  rcases h with ⟨separators, rest, piece, more, bound, rfl, rfl, rfl, hamong, hends, hlayout⟩
  have hpiece := Layout.several hglob hgreedy hmark hamong hends hlayout
  rw [words_cons_word hmark] at hpiece
  exact hpiece

end Open

variable [Host] {es : Entries α}

/-- The tokens on a run of the path proper are laid out over its parts. The
    induction is on the run; what an open glob takes goes to the front of its piece. -/
theorem Run.behind_of_parts {parts : List Segment} {tokens : List Token}
    {glob : Option OpenGlob} {choices : List Nat} {b : Bindings}
    (hrun : Run delimiters es parts tokens glob choices b) {pieces : List String}
    (htokens : tokens = pieces.map Token.ofText)
    (hmarks : ∀ m, Segment.separator m ∈ parts → Tokens.isDelimiter delimiters m = true) :
    Behind delimiters parts pieces glob b := by
  induction hrun generalizing pieces with
  | @stop es glob =>
      rw [List.map_eq_nil_iff.1 htokens.symm]
      have hclosed : Behind delimiters [] [] glob (closeGlob [] glob ++ []) :=
        Behind.close .nil (by simp) glob
      rw [List.append_nil] at hclosed
      exact hclosed
  -- Only attributes are taken by conditions, and there are none left.
  | exact | judged | anything => cases pieces <;> cases htokens
  | @literal es s segments rest glob choices b onward ih =>
      rcases List.map_eq_cons_iff.1 htokens.symm with ⟨x, pieces, rfl, hx, htexts⟩
      cases hx
      have hrest := ih htexts.symm fun m hm => hmarks m (List.mem_cons_of_mem _ hm)
      exact Behind.close (.literal hrest) (by simp) glob
  | @separator es s segments rest glob choices b onward ih =>
      rcases List.map_eq_cons_iff.1 htokens.symm with ⟨x, pieces, rfl, hx, htexts⟩
      cases hx
      have hrest := ih htexts.symm fun m hm => hmarks m (List.mem_cons_of_mem _ hm)
      exact hrest.separator (hmarks s List.mem_cons_self)
  | @single es s v segments rest glob choices b mark kind accepts onward ih =>
      rcases List.map_eq_cons_iff.1 htokens.symm with ⟨x, pieces, rfl, hx, htexts⟩
      cases hx
      have hrest := ih htexts.symm fun m hm => hmarks m (List.mem_cons_of_mem _ hm)
      exact Behind.close (.single kind mark hrest) (by simp) glob
  | @several es s v g segments rest glob choices b mark kind greedy accepts onward ih =>
      rcases List.map_eq_cons_iff.1 htokens.symm with ⟨x, pieces, rfl, hx, htexts⟩
      cases hx
      have hrest := ih htexts.symm fun m hm => hmarks m (List.mem_cons_of_mem _ hm)
      have hglob : v.isGlob = true := by rw [Variable.isGlob, kind]; rfl
      have hgreedy : v.isGreedy = false := by rw [Variable.isGreedy, kind]; exact greedy
      -- The new glob has its own piece, and only then the one before it is closed.
      exact Behind.close (hrest.layout hglob hgreedy mark) (by simp) glob
  | @greedy es s front back v g r segments glob choices b mark kind greedy regex spells last
      accepts onward ih =>
      have hpieces : s :: front ++ back = pieces :=
        (List.map_inj_right fun x y hxy => by cases hxy; rfl).1 htokens
      have hgreedy : v.isGreedy = true := by rw [Variable.isGreedy, kind]; exact greedy
      have hrest := ih rfl fun m hm => hmarks m (List.mem_cons_of_mem _ hm)
      rw [← hpieces]
      exact Behind.close (.greedy hgreedy (join_ne_empty last) hrest) (by simp) glob
  | @skip es s g segments rest choices b mark onward ih =>
      rcases List.map_eq_cons_iff.1 htokens.symm with ⟨x, pieces, rfl, hx, htexts⟩
      cases hx
      exact (ih htexts.symm hmarks).skip mark
  | @take es s g segments rest choices b mark accepts onward ih =>
      rcases List.map_eq_cons_iff.1 htokens.symm with ⟨x, pieces, rfl, hx, htexts⟩
      cases hx
      exact (ih htexts.symm hmarks).take mark

/-- A run of a path ends in a run of the path proper over the texts. Only
    conditions take attributes, and they take nothing else. What attributes a
    request has is thereby out of the way of whatever is said about its text. -/
theorem Run.exists_parts {conditions attributes : List Condition} {parts : List Segment}
    {pieces : List String} {choices : List Nat} {b : Bindings}
    (hrun : Run delimiters es (conditions.map Segment.condition ++ parts)
      (attributes.map Token.attribute ++ pieces.map Token.ofText) none choices b)
    (hparts : ∀ c, Segment.condition c ∉ parts) :
    ∃ (more : Entries α) (others : List Nat),
      Run delimiters more parts (pieces.map Token.ofText) none others b := by
  induction conditions generalizing es attributes choices b with
  | nil =>
      cases attributes with
      | nil => exact ⟨es, choices, hrun⟩
      | cons c rest =>
          -- An attribute that is left over would need a condition in the path proper.
          generalize htokens : (c :: rest).map Token.attribute ++ pieces.map Token.ofText =
            tokens at hrun
          generalize hsegments : [].map Segment.condition ++ parts = segments at hrun
          cases hrun with
          | exact | judged | anything =>
              rw [List.map_nil, List.nil_append] at hsegments
              exact absurd (hsegments ▸ List.mem_cons_self) (hparts _)
          | _ => cases htokens
  | cons c rest ih =>
      cases attributes with
      | nil => cases pieces <;> cases hrun
      | cons d more =>
          cases hrun with
          | exact compares kind value onward => exact ih onward
          | judged present equal accepts onward => exact ih onward
          | anything wildcard kind onward => exact ih onward

namespace Trie

/-- The tokens of a text that is matched are laid out over the parts of the
    path that is found, whatever the attributes of the request are. Which of
    several layouts it is depends on the choices of the search; that there is
    one does not, and neither does the text, which the tokens spell. -/
theorem layout_of_find {t : Trie α} {paths : List (α × Path)} (h : t.Built delimiters paths)
    {attributes : List Condition} {text : String} {a : α} {b : Bindings}
    (hfind : t.find delimiters (attributes.map Token.attribute ++
      (Tokens.tokens delimiters text).map Token.ofText) = .ok (some (a, b))) :
    ∃ p, (a, p) ∈ paths ∧ Layout delimiters p.parts (Tokens.tokens delimiters text) b ∧
      String.join (Tokens.tokens delimiters text) = text := by
  rcases h.run_of_find (.of_append _ _) hfind with ⟨p, hp, choices, hrun⟩
  have hfits := (h.compiled _ hp).fits
  -- Compiling leaves no condition in the path proper, and every separator is a delimiter.
  have hparts : ∀ c, Segment.condition c ∉ p.parts := fun c hc => hfits _ hc
  rcases hrun.exists_parts hparts with ⟨more, others, hproper⟩
  have hmarks : ∀ m, Segment.separator m ∈ p.parts →
      Tokens.isDelimiter delimiters m = true := by
    intro m hm
    rcases hfits _ hm with ⟨c, _, hmark⟩
    exact hmark
  exact ⟨p, hp, hproper.behind_of_parts rfl hmarks, Tokens.join_tokens delimiters text⟩

omit [Host] in
/-- Two tokens of a glob, with the separator between them. -/
theorem layout_of_find_of_glob :
    let p : Path := ⟨[], [.separator "/", .var ⟨"g", none, .none, some "end",
      some ⟨false, none, true⟩⟩, .separator "/", .literal "end"]⟩
    let t : Trie Nat := (Trie.insert 0 p.segments .empty).trie
    @Trie.find Host.idle Nat ["/", "."] t
        ((Tokens.tokens ["/", "."] "/x/y/end").map Token.ofText) =
      .ok (some (0, [("g", .many [.text "x", .text "y"])])) ∧
    ∃ q, (0, q) ∈ [(0, p)] ∧
      Layout ["/", "."] q.parts (Tokens.tokens ["/", "."] "/x/y/end")
        [("g", .many [.text "x", .text "y"])] ∧
      String.join (Tokens.tokens ["/", "."] "/x/y/end") = "/x/y/end" := by
  intro p t
  have hcompile : @Pattern.compile Host.idle ["/", "."] "/*g/end" [] [] = .ok [p.parts] := by cbv
  have hcompiled : p.Compiled ["/", "."] := ⟨_, _, _, _, _, hcompile, List.mem_singleton_self _⟩
  have hbuilt : t.Built ["/", "."] [(0, p)] :=
    Built.empty.insert hcompiled (by cbv : _ = Except.ok none)
  have hfind : @Trie.find Host.idle Nat ["/", "."] t
      ((Tokens.tokens ["/", "."] "/x/y/end").map Token.ofText) =
      .ok (some (0, [("g", .many [.text "x", .text "y"])])) := by cbv
  exact ⟨hfind, @layout_of_find Nat _ Host.idle t _ hbuilt [] _ _ _ hfind⟩

omit [Host] in
/-- A text is matched by a path that ends in a separator and a literal,
    although the text does not: the separator was matched before the glob took
    its last token. -/
theorem find_matches_other_end :
    let p : Path := ⟨[], [.separator "/", .var ⟨"g", none, .none, some "end",
      some ⟨false, none, true⟩⟩, .separator "/", .literal "end"]⟩
    let t : Trie Nat := (Trie.insert 0 p.segments .empty).trie
    t.Built ["/", "."] [(0, p)] ∧
    @Trie.find Host.idle Nat ["/", "."] t
        ((Tokens.tokens ["/", "."] "/x/y.end").map Token.ofText) =
      .ok (some (0, [("g", .many [.text "x", .text "y"])])) ∧
    ¬∃ front, "/x/y.end" = front ++ "/" ++ "end" := by
  intro p t
  have hcompile : @Pattern.compile Host.idle ["/", "."] "/*g/end" [] [] = .ok [p.parts] := by cbv
  have hcompiled : p.Compiled ["/", "."] := ⟨_, _, _, _, _, hcompile, List.mem_singleton_self _⟩
  refine ⟨Built.empty.insert hcompiled (by cbv : _ = Except.ok none), by cbv, fun hend => ?_⟩
  rcases hend with ⟨front, hfront⟩
  have hsuffix : "/end".toList <:+ "/x/y.end".toList := by
    refine ⟨front.toList, ?_⟩
    rw [hfront, String.toList_append, String.toList_append, List.append_assoc]
    rfl
  exact absurd hsuffix (by decide)

end Trie

end PathRouting
