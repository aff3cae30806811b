import PathRouting.Proofs.Trie.Cursor

/-!
# Where a Greedy Match Ends

A greedy variable matches a text that is put together from the tokens that are
left, and then looks for the token behind which the match ends. It compares
lengths only: it adds up the tokens until they are as long as the match or
longer, and never looks at what is in them.

That is enough. A match is the beginning of the text, so tokens that come to
its length spell it. As long as no token is empty there is at most one
position where they do. And a beginning is not longer than the text, so the
loop is done before the tokens are.

## Main definitions

* `EndsAt`: The tokens from a position up to another one spell a match.
* `Takes`: A greedy variable can take a match at a position.
* `Balks`: Its requirement goes wrong on the match.

## Theorems

* `endsAt_iff`: The tokens that spell a match are the first of those that are
  left.
* `stop_of_measure`, `measure_of_begins`: The loop goes forward, and not past
  the last token.
* `boundary?_eq_some_iff`: The end that is found by adding up lengths is the
  end.
* `greedyTake_iff_takes`, `greedyTakeAt_iff_takes`: What is taken, counted and
  by position.
* `Trie.viaBinder_of_takes`, `Trie.viaBinder_of_not_takes`: How a search goes
  on, or does not.
* `Trie.greedy_ends_between_tokens`: All of this in one statement.
-/

namespace PathRouting

/-- The tokens from a position up to another one spell a match. There is at
    least one, and all of them are there. -/
structure EndsAt (texts : List String) (position : Nat) (matched : String) (stop : Nat) :
    Prop where
  lt : position < stop
  le : stop ≤ texts.length
  spells : String.join ((texts.drop position).take (stop - position)) = matched

/-- The position and the number of the tokens that spell the match make up the end. -/
theorem EndsAt.add_sub {texts : List String} {position stop : Nat} {matched : String}
    (h : EndsAt texts position matched stop) : position + (stop - position) = stop :=
  Nat.add_sub_cancel' (Nat.le_of_lt h.lt)

/-- In terms of the tokens that are left, the match is spelled by some in
    front. No token is empty, so the last of these is not, and a match that is
    not empty takes at least one. From here on nothing speaks of positions in
    the whole list. -/
theorem endsAt_iff {texts : List String} (hfull : "" ∉ texts) {position n : Nat}
    {matched : String} (hne : matched ≠ "") :
    EndsAt texts position matched (position + n) ↔ ∃ front back,
      texts.drop position = front ++ back ∧ front.length = n ∧ String.join front = matched ∧
        front.getLast? ≠ some "" := by
  constructor
  · rintro ⟨hlt, hle, hspells⟩
    rw [Nat.add_sub_cancel_left] at hspells
    -- The tokens up to the end are those in front.
    have hlength : ((texts.drop position).take n).length = n := by
      rw [List.length_take, List.length_drop]
      omega
    refine ⟨_, _, (List.take_append_drop n _).symm, hlength, hspells, fun hlast => hfull ?_⟩
    exact List.mem_of_mem_drop (List.mem_of_mem_take (List.mem_of_getLast? hlast))
  · rintro ⟨front, back, hdrop, rfl, hspells, _⟩
    have hlength := congrArg List.length hdrop
    rw [List.length_drop, List.length_append] at hlength
    -- Some token is taken, since nothing spells no match.
    have hpos : 0 < front.length := by
      refine List.length_pos_iff.2 fun hnil => hne ?_
      rw [← hspells, hnil, String.join_nil]
    refine ⟨by omega, by omega, ?_⟩
    rw [hdrop, Nat.add_sub_cancel_left, List.take_left, hspells]

/-- The tokens spell a match that they begin with if they come to its length. -/
theorem span?_eq_some_iff_endsAt {texts : List String} (hfull : "" ∉ texts) {position n : Nat}
    {matched : String} (hne : matched ≠ "")
    (hbegins : matched.toList <+: (String.join (texts.drop position)).toList) :
    span? matched.length ((texts.drop position).map Token.ofText) = some n ↔
      EndsAt texts position matched (position + n) := by
  rw [span?_eq_some, endsAt_iff hfull hne]
  refine exists_congr fun front => exists_congr fun back => and_congr_right fun hdrop =>
    and_congr_right fun _ => and_congr_left fun _ => ⟨fun hlength => ?_, fun h => by rw [h]⟩
  rw [hdrop] at hbegins
  exact join_eq_of_prefix hbegins hlength

/-- Where the loop ends, it has gone forward and not past the last token. The
    induction is on its rounds, each of which reads one more token; it goes
    into a round only if the match is not yet reached. -/
theorem stop_of_measure {tokens : List Token} {length consumed start total stop : Nat}
    (h : measure tokens length consumed start = .ok (total, stop))
    (hle : start ≤ tokens.length) :
    stop ≤ tokens.length ∧ start ≤ stop ∧ (consumed < length → start < stop) := by
  fun_induction measure tokens length consumed start with
  | case1 consumed start _ s hread ih =>
      have hlt := (List.getElem?_eq_some_iff.1 hread).1
      have hrest := ih h hlt
      omega
  | case2 => cases h
  | case3 => cases h
  | case4 consumed start hdone =>
      cases h
      omega

/-- The beginning of a text is not longer than the text. -/
theorem length_le_of_begins {matched text : String} (hbegins : matched.toList <+: text.toList) :
    matched.length ≤ text.length := by
  have hle := hbegins.length_le
  rwa [String.length_toList, String.length_toList] at hle

/-- The loop reads only tokens that are there, and at least one of them. An
    expression is matched against the joined text of the tokens behind the
    position, so that what it matches cannot be longer than they are together. -/
theorem measure_of_begins {texts : List String} {position : Nat} {matched : String}
    (hne : matched ≠ "")
    (hbegins : matched.toList <+: (String.join (texts.drop position)).toList) :
    ∃ consumed stop, measure (texts.map Token.ofText) matched.length 0 position =
        .ok (consumed, stop) ∧ position < stop ∧ stop ≤ texts.length := by
  have hle := length_le_of_begins hbegins
  have hpos : 0 < matched.length :=
    Nat.pos_of_ne_zero fun h => hne (String.length_eq_zero_iff.1 h)
  -- Something is left to be matched, so the position is that of a token.
  have hthere : position < texts.length := by
    by_contra hend
    rw [List.drop_eq_nil_of_le (by omega), String.join_nil] at hle
    exact absurd hle (Nat.not_le_of_lt hpos)
  rcases measure_eq List.map_drop.symm 0 hle with ⟨consumed, stop, hmeasure, _⟩
  rw [Nat.zero_add] at hmeasure
  have hstop := stop_of_measure hmeasure (by rw [List.length_map]; omega)
  rw [List.length_map] at hstop
  exact ⟨consumed, stop, hmeasure, hstop.2.2 hpos, hstop.1⟩

/-- The end of a match is found where there is one. A match that ends inside
    of a token has none, and this is told from the number of characters read:
    it exceeds the length of the match. -/
theorem boundary?_eq_some_iff {texts : List String} (hfull : "" ∉ texts) {position stop : Nat}
    {matched : String} (hne : matched ≠ "")
    (hbegins : matched.toList <+: (String.join (texts.drop position)).toList) :
    boundary? (texts.map Token.ofText) matched.length position = .ok (some stop) ↔
      EndsAt texts position matched stop := by
  rw [boundary?_eq List.map_drop.symm (length_le_of_begins hbegins), ← List.map_drop,
    Except.ok.injEq, Option.map_eq_some_iff]
  constructor
  · rintro ⟨n, hspan, rfl⟩
    exact (span?_eq_some_iff_endsAt hfull hne hbegins).1 hspan
  · intro hends
    refine ⟨stop - position, (span?_eq_some_iff_endsAt hfull hne hbegins).2 ?_, hends.add_sub⟩
    rwa [hends.add_sub]

section Greedy

variable [Host] {v : Variable} {g : Glob} {r : Regex} {texts : List String}
  {position stop : Nat} {matched : String}

/-- What a greedy variable takes at a position: what its expression matches
    there, if that is not empty, a requirement of its own accepts it, and it
    ends between two tokens. -/
structure Takes (v : Variable) (g : Glob) (r : Regex) (texts : List String) (position : Nat)
    (matched : String) (stop : Nat) : Prop where
  found : r.prefixMatch? (String.join (texts.drop position)) = some matched
  nonempty : matched ≠ ""
  accepts : g.separate = true → v.accepts (.text matched) = .ok true
  ends : EndsAt texts position matched stop

/-- The requirement goes wrong on what the expression matches. -/
def Balks (v : Variable) (g : Glob) (r : Regex) (texts : List String) (position : Nat)
    (e : Fault) : Prop :=
  ∃ matched, r.prefixMatch? (String.join (texts.drop position)) = some matched ∧
    matched ≠ "" ∧ g.separate = true ∧ v.accepts (.text matched) = .error e

/-- The text is taken with as many tokens as it ends behind. -/
theorem greedyTake_iff_takes (hregex : g.regex = some (.regex r)) (hfull : "" ∉ texts)
    {n : Nat} :
    greedyTake v g ((texts.drop position).map Token.ofText) = .ok (some (matched, n)) ↔
      Takes v g r texts position matched (position + n) := by
  rw [greedyTake_eq_some]
  constructor
  · rintro ⟨r', front, back, hregex', hdrop, hlength, hmatch, hne, hspells, hlast, haccepts⟩
    cases hregex.symm.trans hregex'
    exact ⟨hmatch, hne, haccepts,
      (endsAt_iff hfull hne).2 ⟨front, back, hdrop, hlength, hspells, hlast⟩⟩
  · rintro ⟨hmatch, hne, haccepts, hends⟩
    rcases (endsAt_iff hfull hne).1 hends with ⟨front, back, hdrop, hlength, hspells, hlast⟩
    exact ⟨r, front, back, hregex, hdrop, hlength, hmatch, hne, hspells, hlast, haccepts⟩

/-- Where nothing can be taken, nothing is, unless the requirement goes wrong. -/
theorem greedyTake_of_not_takes (hregex : g.regex = some (.regex r)) (hfull : "" ∉ texts)
    (hnone : ∀ matched stop, ¬Takes v g r texts position matched stop) :
    greedyTake v g ((texts.drop position).map Token.ofText) = .ok none ∨
      ∃ e, Balks v g r texts position e ∧
        greedyTake v g ((texts.drop position).map Token.ofText) = .error e := by
  cases htake : greedyTake v g ((texts.drop position).map Token.ofText) with
  | ok taken =>
      rcases taken with _ | ⟨matched, n⟩
      · exact Or.inl rfl
      · exact absurd ((greedyTake_iff_takes hregex hfull).1 htake) (hnone _ _)
  | error e =>
      rcases exists_of_greedyTake_eq_error htake with
        ⟨r', matched, hregex', hmatch, hne, hseparate, hfault⟩
      cases hregex.symm.trans hregex'
      exact Or.inr ⟨e, ⟨matched, hmatch, hne, hseparate, hfault⟩, rfl⟩

/-- The position where a greedy variable ends is the one that the text ends at. -/
theorem greedyTakeAt_iff_takes (hregex : g.regex = some (.regex r)) (hfull : "" ∉ texts) :
    greedyTakeAt v g (texts.map Token.ofText) position = .ok (some (matched, stop)) ↔
      Takes v g r texts position matched stop := by
  rw [greedyTakeAt_eq hregex, ← List.map_drop]
  constructor
  · intro h
    rcases htake : greedyTake v g ((texts.drop position).map Token.ofText) with e | _ | ⟨m, n⟩
    · rw [htake] at h
      cases h
    · rw [htake] at h
      cases h
    · rw [htake] at h
      cases h
      exact (greedyTake_iff_takes hregex hfull).1 htake
  · intro htakes
    have hstop := htakes.ends.add_sub
    rw [← hstop] at htakes
    rw [(greedyTake_iff_takes hregex hfull).2 htakes]
    exact congrArg (fun n => Except.ok (some (matched, n))) hstop

theorem greedyTakeAt_of_not_takes (hregex : g.regex = some (.regex r)) (hfull : "" ∉ texts)
    (hnone : ∀ matched stop, ¬Takes v g r texts position matched stop) :
    greedyTakeAt v g (texts.map Token.ofText) position = .ok none ∨
      ∃ e, Balks v g r texts position e ∧
        greedyTakeAt v g (texts.map Token.ofText) position = .error (.fault e) := by
  rw [greedyTakeAt_eq hregex, ← List.map_drop]
  rcases greedyTake_of_not_takes hregex hfull hnone with htake | ⟨e, hbalks, htake⟩
  · exact Or.inl (by rw [htake]; rfl)
  · exact Or.inr ⟨e, hbalks, by rw [htake]; rfl⟩

namespace Trie

variable {α : Type} {delimiters : List String} {t child : Trie α}

/-- A search goes on over a greedy variable with what the variable takes. -/
theorem viaBinder_greedy (hleads : t.binder = some (v, child)) (hkind : v.glob = some g)
    (hgreedy : g.greedy = true) {s : String} (hmark : Tokens.isDelimiter delimiters s = false)
    (onward : Onward α) (rest : List String) (closed : Bindings) :
    t.viaBinder onward delimiters (.text s) (rest.map Token.ofText) closed =
      greedyTake v g ((s :: rest).map Token.ofText) >>= fun
        | some (matched, n) =>
          onward (n - 1) child (closed ++ [(v.name, .one (.text matched))]) none
        | none => .ok none := by
  have hstart : isMark delimiters (.text s) = false := hmark
  rw [viaBinder, hleads, hstart, if_neg Bool.false_ne_true, Option.toList_some,
    firstFound_singleton]
  simp only [hkind, hgreedy, if_true]
  rfl

section Onward

variable (hleads : t.binder = some (v, child)) (hkind : v.glob = some g)
  (hgreedy : g.greedy = true) (hregex : g.regex = some (.regex r)) (hfull : "" ∉ texts)
  {s : String} {rest : List String} (hdrop : texts.drop position = s :: rest)
  (hmark : Tokens.isDelimiter delimiters s = false)

include hleads hkind hgreedy hregex hfull hdrop hmark

/-- A search goes on over a greedy variable from where the match ends. -/
theorem viaBinder_of_takes (closed : Bindings)
    (htakes : Takes v g r texts position matched stop) :
    t.viaBinder
        (fun skip t held glob => search delimiters skip t (rest.map Token.ofText) held glob)
        delimiters (.text s) (rest.map Token.ofText) closed =
      search delimiters 0 child ((texts.drop stop).map Token.ofText)
        (closed ++ [(v.name, .one (.text matched))]) none := by
  have hlt := htakes.ends.lt
  rw [← htakes.ends.add_sub, ← greedyTake_iff_takes hregex hfull, hdrop] at htakes
  rw [viaBinder_greedy hleads hkind hgreedy hmark]
  refine (congrArg (· >>= _) htakes).trans ((search_skip _ _ _ _ _ _).trans ?_)
  -- One of the tokens is passed over at once, the others are counted down.
  have hbehind : rest.drop (stop - position - 1) = texts.drop stop := by
    have hrest : rest = texts.drop (position + 1) := by
      rw [← List.tail_drop, hdrop, List.tail_cons]
    rw [hrest, List.drop_drop]
    exact congrArg (texts.drop ·) (by omega)
  rw [← List.map_drop, hbehind]

/-- It does not go on where nothing can be taken. -/
theorem viaBinder_of_not_takes (onward : Onward α) (closed : Bindings)
    (hnone : ∀ matched stop, ¬Takes v g r texts position matched stop) :
    t.viaBinder onward delimiters (.text s) (rest.map Token.ofText) closed = .ok none ∨
      ∃ e, Balks v g r texts position e ∧
        t.viaBinder onward delimiters (.text s) (rest.map Token.ofText) closed = .error e := by
  have htake := greedyTake_of_not_takes hregex hfull hnone
  rw [hdrop] at htake
  rw [viaBinder_greedy hleads hkind hgreedy hmark]
  rcases htake with htake | ⟨e, hbalks, htake⟩
  · exact Or.inl (congrArg (· >>= _) htake)
  · exact Or.inr ⟨e, hbalks, congrArg (· >>= _) htake⟩

end Onward

/-- The text that a greedy variable takes ends between two tokens, and the
    search goes on from there. Whatever is matched at a position, it is
    measured without reading a token that is not there, and the end that is
    found is the only one there is; a text is taken if and only if it is not
    empty, passes a requirement of its own, and has an end. Where nothing is
    taken the search does not go on, and only the requirement can go wrong. -/
theorem greedy_ends_between_tokens (hleads : t.binder = some (v, child))
    (hkind : v.glob = some g) (hgreedy : g.greedy = true) (hregex : g.regex = some (.regex r))
    (hfull : "" ∉ texts) (delimiters : List String) (position : Nat) (closed : Bindings) :
    (∀ matched : String, matched ≠ "" →
      matched.toList <+: (String.join (texts.drop position)).toList →
        (∃ consumed stop, measure (texts.map Token.ofText) matched.length 0 position =
          .ok (consumed, stop) ∧ position < stop ∧ stop ≤ texts.length) ∧
        ∀ stop, boundary? (texts.map Token.ofText) matched.length position = .ok (some stop) ↔
          EndsAt texts position matched stop) ∧
    (∀ matched stop,
      greedyTakeAt v g (texts.map Token.ofText) position = .ok (some (matched, stop)) ↔
        Takes v g r texts position matched stop) ∧
    ((∀ matched stop, ¬Takes v g r texts position matched stop) →
      greedyTakeAt v g (texts.map Token.ofText) position = .ok none ∨
        ∃ e, Balks v g r texts position e ∧
          greedyTakeAt v g (texts.map Token.ofText) position = .error (.fault e)) ∧
    ∀ s rest, texts.drop position = s :: rest → Tokens.isDelimiter delimiters s = false →
      let answer := t.viaBinder
        (fun skip t held glob => search delimiters skip t (rest.map Token.ofText) held glob)
        delimiters (.text s) (rest.map Token.ofText) closed
      (∀ matched stop, Takes v g r texts position matched stop →
        answer = search delimiters 0 child ((texts.drop stop).map Token.ofText)
          (closed ++ [(v.name, .one (.text matched))]) none) ∧
      ((∀ matched stop, ¬Takes v g r texts position matched stop) →
        answer = .ok none ∨ ∃ e, Balks v g r texts position e ∧ answer = .error e) := by
  refine ⟨fun matched hne hbegins => ?_, fun matched stop => ?_, fun hnone => ?_,
    fun s rest hdrop hmark => ⟨fun matched stop htakes => ?_, fun hnone => ?_⟩⟩
  · exact ⟨measure_of_begins hne hbegins, fun stop => boundary?_eq_some_iff hfull hne hbegins⟩
  · exact greedyTakeAt_iff_takes hregex hfull
  · exact greedyTakeAt_of_not_takes hregex hfull hnone
  · exact viaBinder_of_takes hleads hkind hgreedy hregex hfull hdrop hmark closed htakes
  · exact viaBinder_of_not_takes hleads hkind hgreedy hregex hfull hdrop hmark _ closed hnone

omit [Host] in
/-- The match of `a/` ends behind the second token, from where the search goes
    on, or inside of it. -/
theorem greedy_ends_between_tokens_of_two :
    ∃ r, Regex.compile? Host.idle.character "a/" .plain = .ok r ∧
      let g : Glob := ⟨true, some (.regex r), false⟩
      let v : Variable := ⟨"x", some (.regex r), .none, none, some g⟩
      let child : Trie Nat := .node 1 none [(.literal "b", .node 2 (some 0) [] [] none)] [] none
      let t : Trie Nat := .node 0 none [] [] (some (v, child))
      @greedyTakeAt Host.idle v g (["a", "/", "b"].map Token.ofText) 0 =
        .ok (some ("a/", 2)) ∧
      @greedyTakeAt Host.idle v g (["a", "/b"].map Token.ofText) 0 = .ok none ∧
      @viaBinder Host.idle Nat
        (fun skip t held glob => @search Host.idle Nat ["/"] skip t
          (["/", "b"].map Token.ofText) held glob)
        ["/"] t (.text "a") (["/", "b"].map Token.ofText) [] =
          .ok (some (0, [("x", .one (.text "a/"))])) := by
  have hread : Regex.read? Host.idle.character .plain "a/".toList =
      .ok (.seq (.char 97) (.char 47), .plain) := by cbv
  let r : Regex := ⟨"a/", .plain, _, _, .plain, hread⟩
  refine ⟨r, by cbv, ?_⟩
  intro g v child t
  let idle : Host := Host.idle
  have hboth := fun texts hfull => @greedy_ends_between_tokens idle v g r texts Nat t child
    rfl rfl rfl rfl hfull ["/"] 0 []
  have htakes : Takes v g r ["a", "/", "b"] 0 "a/" 2 :=
    ⟨by cbv, by decide, fun hseparate => absurd hseparate Bool.false_ne_true,
      ⟨by decide, by decide, by decide⟩⟩
  have hnone : ∀ matched stop, ¬Takes v g r ["a", "/b"] 0 matched stop := by
    rintro matched stop ⟨hfound, _, _, hlt, hle, hspells⟩
    have hmatch : r.prefixMatch? (String.join ["a", "/b"]) = some "a/" := by cbv
    cases hmatch.symm.trans hfound
    -- One token is too short for the match, and two are too long.
    rcases stop with _ | _ | _ | stop
    · exact absurd hlt (Nat.lt_irrefl 0)
    · exact absurd hspells (by decide)
    · exact absurd hspells (by decide)
    · simp only [List.length_cons, List.length_nil] at hle
      omega
  refine ⟨((hboth _ (by decide)).2.1 _ _).2 htakes, ?_, ?_⟩
  · rcases (hboth _ (by decide)).2.2.1 hnone with hdone | ⟨e, ⟨_, _, _, hseparate, _⟩, _⟩
    · exact hdone
    · exact absurd hseparate Bool.false_ne_true
  · have hgoes := ((hboth ["a", "/", "b"] (by decide)).2.2.2 "a" ["/", "b"] rfl (by decide)).1
      _ _ htakes
    exact hgoes.trans (by cbv)

end Trie

end Greedy

end PathRouting
