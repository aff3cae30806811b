import PathRouting.Proofs.Pattern.Spacing
import PathRouting.Proofs.Trie.Spelling

/-!
# What a Match Binds

What is bound belongs to the path that is found: there is one entry for each
of its variables, in their order, with something that the variable itself
takes of the text. With that put in the place of the variables, the path
spells the words of the text, so no token is lost and none is used twice.

A value is complete only when its glob is closed, which may be several
segments later. What is bound while a glob is open is therefore told in two
parts, the tokens that the glob still takes and what the variables behind it
are bound to.

The words are told apart from the separators by being no delimiters. That a
literal is none either has to be known: it has no character in it that is a
delimiter, but nothing more is asked of it, so the delimiters are taken to be
characters here.

## Main definitions

* `Variable.Takes`: What a variable may be bound to.
* `Binds`: What the variables of a path are bound to.
* `BindsBehind`: The same while a glob is open.
* `Segment.filled`: A part of a path with what is bound in its place.

## Theorems

* `Run.binds_of_parts`: What is bound on a run of the path proper.
* `Spelled.flatMap_filled`: With what is bound in its place, a path spells its
  words.
* `Layout.separators_sublist`: The separators of a path are among the
  delimiters.
* `Trie.bindings_of_find`: What is bound accounts for every token.
-/

namespace PathRouting

variable {α : Type} {delimiters : List String}

/-- The values in something bound, in the order they were taken. -/
def Bound.values : Bound → List Value
  | .one v => [v]
  | .many vs => vs

/-- A part of a path with what is bound in its place: a literal is its text, a
    variable is what its name is bound to, and a separator is left out. -/
def Segment.filled (b : Bindings) : Segment → List Value
  | .literal s => [.text s]
  | .separator _ | .condition _ => []
  | .var v => (b.lookup v.name).elim [] Bound.values

/-- The separators among the parts of a path. -/
def separators (parts : List Segment) : List String :=
  (parts.filter Segment.isSeparator).map Segment.text

/-- What is bound under another name is not put anywhere. -/
theorem flatMap_filled_cons {name : String} {parts : List Segment}
    (h : name ∉ Pattern.variableNames parts) (x : Bound) (b : Bindings) :
    parts.flatMap (Segment.filled ((name, x) :: b)) = parts.flatMap (Segment.filled b) := by
  refine List.flatMap_congr fun s hs => ?_
  cases s with
  | literal s | separator s | condition c => rfl
  | var v =>
      have hother : v.name ≠ name := fun heq =>
        h (heq ▸ List.mem_filterMap.2 ⟨_, hs, rfl⟩)
      rw [Segment.filled, Segment.filled, List.lookup_cons, beq_false_of_ne hother]

/-- With what is bound in its place, a path spells its words. Names that
    differ are needed here: what is bound is looked up by name, and would be
    put in the place of another variable otherwise. -/
theorem Spelled.flatMap_filled {parts : List Segment} {ws : List String} {b : Bindings}
    (h : Spelled parts ws b) (hnodup : (Pattern.variableNames parts).Nodup) :
    parts.flatMap (Segment.filled b) = ws.map Value.text := by
  -- No name occurs twice, so a binding put in front does not hide those behind it.
  induction h with
  | nil => rfl
  | @literal s parts ws b onward ih =>
      rw [List.flatMap_cons, ih hnodup]
      rfl
  | separator onward ih =>
      rw [List.flatMap_cons, ih hnodup]
      rfl
  | @single s v parts ws b kind onward ih =>
      rcases List.nodup_cons.1 hnodup with ⟨hfresh, hrest⟩
      rw [List.flatMap_cons, flatMap_filled_cons hfresh, ih hrest, Segment.filled,
        List.lookup_cons_self]
      rfl
  | @several own v parts ws b kind onward ih =>
      rcases List.nodup_cons.1 hnodup with ⟨hfresh, hrest⟩
      rw [List.flatMap_cons, flatMap_filled_cons hfresh, ih hrest, Segment.filled,
        List.lookup_cons_self, List.map_append]
      rfl

/-- The separators of a path are among the delimiters of a text that is laid
    out over it. -/
theorem Layout.separators_sublist {parts : List Segment} {pieces : List String} {b : Bindings}
    (h : Layout delimiters parts pieces b) (hfits : ∀ s ∈ parts, s.Fits delimiters) :
    (separators parts).Sublist (marks delimiters pieces) := by
  induction h with
  | nil => exact .slnil
  | @literal s parts pieces b onward ih =>
      exact (ih (List.forall_mem_cons.1 hfits).2).trans ((List.sublist_cons_self s pieces).filter _)
  | @separator s parts pieces b onward ih =>
      rcases List.forall_mem_cons.1 hfits with ⟨⟨c, _, hmark⟩, hrest⟩
      rw [marks_cons_mark hmark]
      exact (ih hrest).cons_cons s
  | @single s v parts pieces b kind mark onward ih =>
      rw [marks_cons_word mark]
      exact ih (List.forall_mem_cons.1 hfits).2
  | @greedy piece v parts pieces b kind spells onward ih =>
      rw [marks_append]
      exact (ih (List.forall_mem_cons.1 hfits).2).trans (List.sublist_append_right _ _)
  | @several s piece marked v parts pieces b kind greedy mark among ends onward ih =>
      -- The separators behind the glob are in its piece.
      have hown : separators (marked.map Segment.separator) = marked := by
        rw [separators, List.filter_eq_self.2 fun _ hs => ?_, List.map_map]
        · exact List.map_id marked
        · rcases List.mem_map.1 hs with ⟨m, _, rfl⟩
          rfl
      have hsplit : separators (.var v :: (marked.map Segment.separator ++ parts)) =
          separators (marked.map Segment.separator) ++ separators parts := by
        rw [separators, List.filter_cons_of_neg Bool.false_ne_true, List.filter_append,
          List.map_append]
        rfl
      have hrest := ih fun s hs => hfits s (List.mem_cons_of_mem _ (List.mem_append_right _ hs))
      rw [hsplit, hown, marks_append, marks_cons_word mark]
      exact among.append hrest

variable [Host]

/-- What a variable may be bound to when some tokens are matched. Only what is
    no delimiter is taken token by token; a greedy variable takes any piece of
    the text at whose beginning its expression matches just that piece. -/
inductive Variable.Takes (delimiters pieces : List String) (v : Variable) : Bound → Prop
  | single {s : String} (kind : v.glob = none) (among : s ∈ pieces)
      (mark : Tokens.isDelimiter delimiters s = false) (accepts : v.accepts (.text s) = .ok true) :
      Takes delimiters pieces v (.one (.text s))
  | several {texts : List String} (kind : v.isGlob = true) (greedy : v.isGreedy = false)
      (present : texts ≠ []) (among : ∀ s ∈ texts, s ∈ pieces)
      (marks : ∀ s ∈ texts, Tokens.isDelimiter delimiters s = false)
      (accepts : ∀ s ∈ texts, v.accepts (.text s) = .ok true) :
      Takes delimiters pieces v (.many (texts.map .text))
  | greedy {piece back : List String} {g : Glob} {r : Regex} (kind : v.glob = some g)
      (greedy : g.greedy = true) (regex : g.regex = some (.regex r))
      (among : piece ++ back <:+ pieces)
      (spells : r.prefixMatch? (String.join (piece ++ back)) = some (String.join piece))
      (present : String.join piece ≠ "")
      (accepts : v.echoes = false → g.separate = true →
        v.accepts (.text (String.join piece)) = .ok true) :
      Takes delimiters pieces v (.one (.text (String.join piece)))

/-- The variables are bound in order, each to something that it takes. -/
def Binds (delimiters pieces : List String) (binders : List Variable) (b : Bindings) : Prop :=
  List.Forall₂ (fun v e => e.1 = v.name ∧ v.Takes delimiters pieces e.2) binders b

/-- What is bound while a glob is open: the tokens that it still takes, and
    what the variables behind it are bound to. Without a glob it is what the
    variables are bound to. -/
def BindsBehind (delimiters pieces : List String) (binders : List Variable) :
    Option OpenGlob → Bindings → Prop
  | none, b => Binds delimiters pieces binders b
  | some g, b => ∃ (texts : List String) (bound : Bindings),
      b = (g.owner.name, .many (g.taken ++ texts.map Value.text)) :: bound ∧
        (∀ s ∈ texts, s ∈ pieces ∧ Tokens.isDelimiter delimiters s = false ∧
          g.owner.accepts (.text s) = .ok true) ∧ Binds delimiters pieces binders bound

section Behind

variable {s : String} {pieces more : List String} {v : Variable} {binders : List Variable}
  {b : Bindings} {x : Bound}

/-- What is taken of the end of a text is taken of the text. -/
theorem Variable.Takes.mono (hsuffix : pieces <:+ more) (h : v.Takes delimiters pieces x) :
    v.Takes delimiters more x := by
  cases h with
  | single kind among mark accepts => exact .single kind (hsuffix.mem among) mark accepts
  | several kind greedy present among marks accepts =>
      exact .several kind greedy present (fun s hs => hsuffix.mem (among s hs)) marks accepts
  | greedy kind greedy regex among spells present accepts =>
      exact .greedy kind greedy regex (among.trans hsuffix) spells present accepts

theorem Binds.mono (hsuffix : pieces <:+ more) (h : Binds delimiters pieces binders b) :
    Binds delimiters more binders b :=
  List.Forall₂.imp (fun _ _ hbound => ⟨hbound.1, hbound.2.mono hsuffix⟩) h

theorem BindsBehind.mono (hsuffix : pieces <:+ more) {glob : Option OpenGlob}
    (h : BindsBehind delimiters pieces binders glob b) :
    BindsBehind delimiters more binders glob b := by
  cases glob with
  | none => exact Binds.mono hsuffix h
  | some g =>
      rcases h with ⟨texts, bound, rfl, htexts, hbound⟩
      exact ⟨texts, bound, rfl, fun s hs => ⟨hsuffix.mem (htexts s hs).1, (htexts s hs).2⟩,
        hbound.mono hsuffix⟩

/-- A glob that is closed takes nothing more. -/
theorem BindsBehind.close (h : Binds delimiters pieces binders b) (glob : Option OpenGlob) :
    BindsBehind delimiters pieces binders glob (closeGlob [] glob ++ b) := by
  cases glob with
  | none => exact h
  | some g =>
      refine ⟨[], b, ?_, by simp, h⟩
      rw [List.map_nil, List.append_nil]
      rfl

/-- A token that is taken is the first of those that the glob still takes.
    Runs go through the tokens from the left, whereas what a glob is bound to
    is known only when it is closed; so a statement on runs has to say what is
    still to come. -/
theorem BindsBehind.take {g : OpenGlob} (hmark : Tokens.isDelimiter delimiters s = false)
    (haccepts : g.owner.accepts (.text s) = .ok true)
    (h : BindsBehind delimiters pieces binders (some ⟨g.owner, g.taken ++ [.text s]⟩) b) :
    BindsBehind delimiters (s :: pieces) binders (some g) b := by
  rcases h with ⟨texts, bound, rfl, htexts, hbound⟩
  refine ⟨s :: texts, bound, ?_, ?_, hbound.mono (List.suffix_cons s pieces)⟩
  · rw [List.map_cons, List.append_assoc]
    rfl
  · exact List.forall_mem_cons.2 ⟨⟨List.mem_cons_self, hmark, haccepts⟩,
      fun t ht => ⟨List.mem_cons_of_mem s (htexts t ht).1, (htexts t ht).2⟩⟩

/-- A glob is bound to its first token and those that it takes while it is open. -/
theorem BindsBehind.several {g : Glob} (hkind : v.glob = some g) (hgreedy : g.greedy = false)
    (hmark : Tokens.isDelimiter delimiters s = false)
    (haccepts : v.accepts (.text s) = .ok true)
    (h : BindsBehind delimiters pieces binders (some ⟨v, [.text s]⟩) b) :
    Binds delimiters (s :: pieces) (v :: binders) b := by
  rcases h with ⟨texts, bound, rfl, htexts, hbound⟩
  have hall : ∀ t ∈ s :: texts, t ∈ s :: pieces ∧ Tokens.isDelimiter delimiters t = false ∧
      v.accepts (.text t) = .ok true :=
    List.forall_mem_cons.2 ⟨⟨List.mem_cons_self, hmark, haccepts⟩,
      fun t ht => ⟨List.mem_cons_of_mem s (htexts t ht).1, (htexts t ht).2⟩⟩
  have hglob : v.isGlob = true := by rw [Variable.isGlob, hkind]; rfl
  have hother : v.isGreedy = false := by rw [Variable.isGreedy, hkind]; exact hgreedy
  exact .cons ⟨rfl, .several hglob hother (List.cons_ne_nil s texts) (fun t ht => (hall t ht).1)
    (fun t ht => (hall t ht).2.1) fun t ht => (hall t ht).2.2⟩
    (hbound.mono (List.suffix_cons s pieces))

end Behind

variable {es : Entries α}

/-- What is bound on a run of the path proper belongs to its variables. The
    induction is on the run; what an open glob takes goes to the front of what
    it still takes. -/
theorem Run.binds_of_parts {parts : List Segment} {tokens : List Token}
    {glob : Option OpenGlob} {choices : List Nat} {b : Bindings}
    (hrun : Run delimiters es parts tokens glob choices b) {pieces : List String}
    (htokens : tokens = pieces.map Token.ofText) :
    BindsBehind delimiters pieces (parts.filterMap Segment.var?) glob b := by
  induction hrun generalizing pieces with
  | @stop es glob =>
      have hclosed : BindsBehind delimiters pieces [] glob (closeGlob [] glob ++ []) :=
        BindsBehind.close .nil glob
      rw [List.append_nil] at hclosed
      exact hclosed
  -- Only attributes are taken by conditions, and there are none left.
  | exact | judged | anything => cases pieces <;> cases htokens
  | @literal es s segments rest glob choices b onward ih =>
      rcases List.map_eq_cons_iff.1 htokens.symm with ⟨x, pieces, rfl, hx, htexts⟩
      have hrest : Binds _ _ _ _ := ih htexts.symm
      exact BindsBehind.close (hrest.mono (List.suffix_cons x pieces)) glob
  | @separator es s segments rest glob choices b onward ih =>
      rcases List.map_eq_cons_iff.1 htokens.symm with ⟨x, pieces, rfl, hx, htexts⟩
      exact (ih htexts.symm).mono (List.suffix_cons x pieces)
  | @single es s v segments rest glob choices b mark kind accepts onward ih =>
      rcases List.map_eq_cons_iff.1 htokens.symm with ⟨x, pieces, rfl, hx, htexts⟩
      cases hx
      have hrest : Binds _ _ _ _ := ih htexts.symm
      exact BindsBehind.close (.cons ⟨rfl, .single kind List.mem_cons_self mark accepts⟩
        (hrest.mono (List.suffix_cons s pieces))) glob
  | @several es s v g segments rest glob choices b mark kind greedy accepts onward ih =>
      rcases List.map_eq_cons_iff.1 htokens.symm with ⟨x, pieces, rfl, hx, htexts⟩
      cases hx
      exact BindsBehind.close ((ih htexts.symm).several kind greedy mark accepts) glob
  | @greedy es s front back v g r segments glob choices b mark kind greedy regex spells last
      accepts onward ih =>
      have hpieces : s :: front ++ back = pieces :=
        (List.map_inj_right fun x y hxy => by cases hxy; rfl).1 htokens
      have hrest : Binds _ _ _ _ := ih rfl
      rw [← hpieces]
      exact BindsBehind.close (.cons ⟨rfl, .greedy kind greedy regex (List.suffix_refl _) spells
        (join_ne_empty last) accepts⟩ (hrest.mono (List.suffix_append (s :: front) back))) glob
  | @skip es s g segments rest choices b mark onward ih =>
      rcases List.map_eq_cons_iff.1 htokens.symm with ⟨x, pieces, rfl, hx, htexts⟩
      exact (ih htexts.symm).mono (List.suffix_cons x pieces)
  | @take es s g segments rest choices b mark accepts onward ih =>
      rcases List.map_eq_cons_iff.1 htokens.symm with ⟨x, pieces, rfl, hx, htexts⟩
      cases hx
      exact (ih htexts.symm).take mark accepts

/-- What is bound, by name, are the variables of the path. -/
theorem Binds.names {pieces : List String} {binders : List Variable} {b : Bindings}
    (h : Binds delimiters pieces binders b) : b.map Prod.fst = binders.map Variable.name := by
  induction h with
  | nil => rfl
  | cons hbound _ ih => rw [List.map_cons, List.map_cons, hbound.1, ih]

namespace Trie

/-- What is found is on a run of the path that is found. It binds the
    variables of the path, and lays the text out over its parts. The three
    facts are about one and the same run, which is why they stand together. -/
theorem Built.exists_binds {t : Trie α} {paths : List (α × Path)} (h : t.Built delimiters paths)
    {attributes : List Condition} {pieces : List String} {a : α} {b : Bindings}
    (hfind : t.find delimiters (attributes.map Token.attribute ++ pieces.map Token.ofText) =
      .ok (some (a, b))) :
    ∃ p, (a, p) ∈ paths ∧
      (∃ choices, Run delimiters (entriesOf paths) p.segments
        (attributes.map Token.attribute ++ pieces.map Token.ofText) none choices b) ∧
      Binds delimiters pieces p.binders b ∧ Layout delimiters p.parts pieces b := by
  rcases h.run_of_find (.of_append _ _) hfind with ⟨p, hp, choices, hrun⟩
  have hfits := (h.compiled _ hp).fits
  rcases hrun.exists_parts fun c hc => hfits _ hc with ⟨more, others, hproper⟩
  have hmarks : ∀ m, Segment.separator m ∈ p.parts →
      Tokens.isDelimiter delimiters m = true := by
    intro m hm
    rcases hfits _ hm with ⟨c, _, hmark⟩
    exact hmark
  exact ⟨p, hp, ⟨choices, hrun⟩, hproper.binds_of_parts rfl, hproper.behind_of_parts rfl hmarks⟩

/-- What is bound accounts for every token. The variables of the path that is
    found are bound in order, each to something that it takes of the text, and its
    separators are among the delimiters of the text. Without a greedy variable,
    and where every delimiter is a single character, the path spells the words of
    the text when what is bound is put in its place. A longer delimiter could
    itself be a literal of the path, since patterns are cut at characters. -/
theorem bindings_of_find {t : Trie α} {paths : List (α × Path)} (h : t.Built delimiters paths)
    {attributes : List Condition} {pieces : List String} {a : α} {b : Bindings}
    (hfind : t.find delimiters (attributes.map Token.attribute ++ pieces.map Token.ofText) =
      .ok (some (a, b))) :
    ∃ p, (a, p) ∈ paths ∧ b.map Prod.fst = p.keys ∧ Binds delimiters pieces p.binders b ∧
      (separators p.parts).Sublist (marks delimiters pieces) ∧
      (Tokens.Characters delimiters →
        (∀ v ∈ p.binders, v.isGreedy = false) →
        p.parts.flatMap (Segment.filled b) = (words delimiters pieces).map Value.text) := by
  rcases h.exists_binds hfind with ⟨p, hp, _, hbinds, hlayout⟩
  have hcompiled := h.compiled _ hp
  refine ⟨p, hp, hbinds.names, hbinds, hlayout.separators_sublist hcompiled.fits,
    fun hcharacters hgreedy => ?_⟩
  have hspelled := hlayout.spelled hcharacters hcompiled.fits
    fun v hv => hgreedy v (Path.mem_binders hv)
  exact hspelled.flatMap_filled hcompiled.nodup_variableNames

omit [Host] in
/-- A glob is bound to the tokens between a variable and a literal, over a
    delimiter that is no separator of the path. -/
theorem bindings_of_find_of_glob :
    let get : Condition := ⟨.text "method", .text "GET"⟩
    let p : Path := ⟨[get], [.separator "/", .var ⟨"x", none, .none, some "/", none⟩,
      .separator "/", .var ⟨"g", none, .none, some "end", some ⟨false, none, true⟩⟩,
      .separator "/", .literal "end"]⟩
    let t : Trie Nat := (Trie.insert 0 p.segments .empty).trie
    let pieces := ["/", "a", "/", "b", ".", "c", "/", "end"]
    let b : Bindings := [("x", .one (.text "a")), ("g", .many [.text "b", .text "c"])]
    @Trie.find Host.idle Nat ["/", "."] t (.attribute get :: pieces.map Token.ofText) =
      .ok (some (0, b)) ∧
    ∃ q, (0, q) ∈ [(0, p)] ∧ b.map Prod.fst = q.keys ∧
      @Binds Host.idle ["/", "."] pieces q.binders b ∧
      (separators q.parts).Sublist (marks ["/", "."] pieces) ∧
      q.parts.flatMap (Segment.filled b) = (words ["/", "."] pieces).map Value.text := by
  intro get p t pieces b
  have hcompile : @Pattern.compile Host.idle ["/", "."] "/:x/*g/end" [] [] = .ok [p.parts] := by cbv
  have hcompiled : p.Compiled ["/", "."] := ⟨_, _, _, _, _, hcompile, List.mem_singleton_self _⟩
  have hbuilt : t.Built ["/", "."] [(0, p)] :=
    Built.empty.insert hcompiled (by cbv : _ = Except.ok none)
  have hfind : @Trie.find Host.idle Nat ["/", "."] t
      ([get].map Token.attribute ++ pieces.map Token.ofText) = .ok (some (0, b)) := by cbv
  rcases @bindings_of_find Nat _ Host.idle t _ hbuilt _ _ _ _ hfind with
    ⟨q, hq, hnames, hbinds, hseparators, hwords⟩
  refine ⟨hfind, q, hq, hnames, hbinds, hseparators, hwords ?_ ?_⟩
  · exact List.forall_mem_cons.2 ⟨⟨'/', rfl⟩, List.forall_mem_singleton.2 ⟨'.', rfl⟩⟩
  · cases List.mem_singleton.1 hq
    decide

end Trie

end PathRouting
