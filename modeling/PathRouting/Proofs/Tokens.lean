import PathRouting.Router.Options
import PathRouting.Tokens

/-!
# Cutting at Single Characters

The delimiters of a router are single characters. A path is then cut character
by character: a delimiter is a token of its own and ends the run before it,
and everything else goes to a run. What a text is cut into therefore depends
on what is behind it only if that goes on with the last run, and a text that
is put in front of a delimiter is cut as it would be on its own.

## Main definitions

* `Tokens.Characters`, `Tokens.Single`: The delimiters are single characters.
* `Tokens.Plain`: A text that is one token.
* `Tokens.Starts`, `Tokens.Ends`: A text that starts with no delimiter, and
  one that ends the run before it.

## Theorems

* `Options.single`: The delimiters of a router are single characters.
* `not_mem_of_delimiters?`: They have no other use and are not blank.
* `tokens_append`: What is in front of a delimiter is cut on its own.
* `tokens_mark_append`: A delimiter is cut off.
* `tokens_plain`: A text without delimiters is one token.
* `plain_of_tokens`: A text without delimiters among its tokens is one token.
* `exists_tokens_of_starts`: The first token is no delimiter.
-/

namespace PathRouting

namespace Tokens

/-- Each of the delimiters is a single character. -/
def Characters (delimiters : List String) : Prop :=
  ∀ d ∈ delimiters, ∃ c, d = String.singleton c

/-- There are delimiters, and each of them is a single character. -/
def Single (delimiters : List String) : Prop :=
  delimiters ≠ [] ∧ Characters delimiters

/-- The text is not empty and has no delimiter in it. -/
def Plain (delimiters : List String) (text : String) : Prop :=
  text ≠ "" ∧ ∀ c ∈ text.toList, delimiters.contains (String.singleton c) = false

/-- The text starts with a character that is no delimiter. -/
def Starts (delimiters : List String) (text : String) : Prop :=
  ∃ c rest, text.toList = c :: rest ∧ delimiters.contains (String.singleton c) = false

/-- The text is empty or starts with a delimiter, so that a run in front of it
    ends. It is what has to come behind a text that is to be cut on its own. -/
def Ends (delimiters : List String) (text : String) : Prop :=
  text = "" ∨ ∃ c rest, text.toList = c :: rest ∧
    delimiters.contains (String.singleton c) = true

/-- Whether a text is one token can be computed. -/
theorem plain_iff {delimiters : List String} {text : String} :
    Plain delimiters text ↔ (!text.isEmpty && text.toList.all fun c =>
      !delimiters.contains (String.singleton c)) = true := by
  rw [Plain, Bool.and_eq_true, List.all_eq_true, Bool.not_eq_true', Bool.eq_false_iff, ne_eq,
    ne_eq, String.isEmpty_iff]
  simp only [Bool.not_eq_true']

/-- What may be a delimiter is a single character that has no other use and is
    not blank. -/
theorem eq_singleton_of_delimiter? {v : Value} {d : String} (h : delimiter? v = .ok d) :
    ∃ c, d = String.singleton c ∧ isReserved c = false ∧ Text.isBlank c = false := by
  unfold delimiter? at h
  split at h
  · next s =>
    split at h
    · next c hc =>
      split at h
      · cases h
      · next hfree =>
        cases h
        rw [Bool.or_eq_true, not_or, Bool.not_eq_true, Bool.not_eq_true] at hfree
        exact ⟨c, String.toList_inj.1 (by rw [hc, String.toList_singleton]), hfree⟩
    · cases h
  · obtain ⟨_, _, h⟩ := bind_eq_ok.1 h
    cases h

/-- Delimiters that pass the check are values that may be delimiters. -/
theorem mapM_of_delimiters? {given : List Value} {delimiters : List String}
    (h : delimiters? given = .ok delimiters) :
    given ≠ [] ∧ given.mapM delimiter? = .ok delimiters := by
  cases given with
  | nil => cases h
  | cons v rest =>
      obtain ⟨ds, hds, h⟩ := bind_eq_ok.1 h
      refine ⟨List.cons_ne_nil _ _, ?_⟩
      split at h
      · cases h
        exact hds
      · cases h

/-- Delimiters that pass the check are single characters. -/
theorem single_of_delimiters? {given : List Value} {delimiters : List String}
    (h : delimiters? given = .ok delimiters) : Single delimiters := by
  obtain ⟨hne, hdelimiters⟩ := mapM_of_delimiters? h
  refine ⟨?_, fun d hd => ?_⟩
  · obtain ⟨v, rest, rfl⟩ := List.exists_cons_of_ne_nil hne
    rw [List.mapM_cons] at hdelimiters
    obtain ⟨d, _, hdelimiters⟩ := bind_eq_ok.1 hdelimiters
    obtain ⟨more, _, hdelimiters⟩ := bind_eq_ok.1 hdelimiters
    cases hdelimiters
    exact List.cons_ne_nil d more
  · obtain ⟨v, _, hv⟩ := mem_of_mapM_ok hdelimiters hd
    obtain ⟨c, hc, _⟩ := eq_singleton_of_delimiter? hv
    exact ⟨c, hc⟩

/-- The syntax has no use for a character that passes the check, and it is not blank. -/
theorem not_mem_of_delimiters? {given : List Value} {delimiters : List String}
    (h : delimiters? given = .ok delimiters) {c : Char}
    (hc : isReserved c = true ∨ Text.isBlank c = true) : String.singleton c ∉ delimiters := by
  intro hmem
  obtain ⟨v, _, hv⟩ := mem_of_mapM_ok (mapM_of_delimiters? h).2 hmem
  obtain ⟨d, hd, hreserved, hblank⟩ := eq_singleton_of_delimiter? hv
  rw [String.singleton_inj.1 hd, hreserved, hblank] at hc
  exact absurd hc (by decide)

/-- No piece is empty, whatever the delimiters are: a run is closed only if
    there is something in it. -/
theorem ne_nil_of_mem_tokensFrom {marks : List (List Char)} (hmarks : ∀ m ∈ marks, m ≠ [])
    (apart : Bool) (skip : Nat) (run cs : List Char) :
    ∀ piece ∈ tokensFrom marks apart skip run cs, piece ≠ [] := by
  -- Closing a run of no characters gives no piece.
  have hclose : ∀ run : List Char, ∀ piece ∈ closeRun run, piece ≠ [] := by
    intro run piece hpiece
    unfold closeRun at hpiece
    split at hpiece
    · exact absurd hpiece List.not_mem_nil
    · next hne =>
      rw [List.mem_singleton.1 hpiece]
      simpa using hne
  induction cs generalizing skip run with
  | nil =>
      cases skip <;> exact hclose run
  | cons c rest ih =>
      cases skip with
      | succ skip => exact ih skip run
      | zero =>
          simp only [tokensFrom]
          split
          · next m hfind =>
            rw [List.forall_mem_append, List.forall_mem_cons]
            exact ⟨hclose run, hmarks m (List.mem_of_find?_eq_some hfind), ih _ []⟩
          · split
            · rw [List.forall_mem_append]
              exact ⟨hclose run, ih 0 [c]⟩
            · exact ih 0 (c :: run)

variable {delimiters : List String}

/-- A token that is a delimiter is a single character. -/
theorem Single.eq_singleton (h : Single delimiters) {mark : String}
    (hmark : isDelimiter delimiters mark = true) : ∃ c, mark = String.singleton c := by
  rw [isDelimiter, List.contains_iff_mem] at hmark
  exact h.2 mark hmark

/-- At each place, the first delimiter that fits is the character itself. -/
theorem find?_marks (h : ∀ d ∈ delimiters, ∃ c, d = String.singleton c) (c : Char)
    (rest : List Char) :
    (delimiters.map String.toList).find? (fun m => m.isPrefixOf (c :: rest)) =
      if delimiters.contains (String.singleton c) then some [c] else none := by
  induction delimiters with
  | nil => rfl
  | cons d ds ih =>
      rcases List.forall_mem_cons.1 h with ⟨⟨x, rfl⟩, hds⟩
      rw [List.map_cons, String.toList_singleton, List.find?_cons, List.contains_cons, ih hds]
      by_cases hx : x = c
      · simp [hx]
      · have hne : (String.singleton c == String.singleton x) = false := by
          rw [beq_eq_false_iff_ne]
          exact fun heq => hx (String.singleton_inj.1 heq).symm
        have hpre : [x].isPrefixOf (c :: rest) = false := by
          rw [List.isPrefixOf, beq_eq_false_iff_ne.2 hx]
          rfl
        rw [hpre, hne, Bool.false_or]

/-- The pieces of the rest of a path, with the run before it, where the
    delimiters are single characters. There is no choice between delimiters
    then, which makes for a simpler recursion. -/
def cut (delimiters : List String) (run cs : List Char) : List (List Char) :=
  tokensFrom (delimiters.map String.toList) false 0 run cs

/-- Delimiters that are not empty are all tried. -/
theorem filter_marks (h : ∀ d ∈ delimiters, d ≠ "") :
    (delimiters.map String.toList).filter (!·.isEmpty) = delimiters.map String.toList := by
  rw [List.filter_eq_self]
  intro m hm
  rcases List.mem_map.1 hm with ⟨d, hd, rfl⟩
  simpa using h d hd

/-- Delimiters that are single characters are not empty. -/
theorem Single.ne_empty (h : Single delimiters) : ∀ d ∈ delimiters, d ≠ "" := by
  intro d hd hempty
  rcases h.2 d hd with ⟨c, rfl⟩
  have hlist := congrArg String.toList hempty
  rw [String.toList_singleton] at hlist
  cases hlist

/-- Nothing is left out of the delimiters, and characters are not set apart. -/
theorem tokens_eq_cut (h : Single delimiters) (path : String) :
    tokens delimiters path = (cut delimiters [] path.toList).map String.ofList := by
  have hapart : (delimiters.isEmpty || delimiters.contains "") = false := by
    rw [Bool.or_eq_false_iff, List.isEmpty_eq_false_iff]
    exact ⟨h.1, Bool.eq_false_iff.2 fun hempty =>
      h.ne_empty "" (List.contains_iff_mem.1 hempty) rfl⟩
  rw [tokens, filter_marks h.ne_empty, hapart, cut]

theorem cut_nil (run : List Char) : cut delimiters run [] = closeRun run := rfl

/-- A delimiter is a piece of its own and ends the run. -/
theorem cut_mark (h : Single delimiters) {c : Char}
    (hc : delimiters.contains (String.singleton c) = true) (run rest : List Char) :
    cut delimiters run (c :: rest) = closeRun run ++ [c] :: cut delimiters [] rest := by
  rw [cut, tokensFrom, find?_marks h.2, if_pos hc]
  rfl

/-- Any other character goes to the run. -/
theorem cut_other (h : Single delimiters) {c : Char}
    (hc : delimiters.contains (String.singleton c) = false) (run rest : List Char) :
    cut delimiters run (c :: rest) = cut delimiters (c :: run) rest := by
  rw [cut, tokensFrom, find?_marks h.2, if_neg (Bool.eq_false_iff.1 hc)]
  rfl

/-- What is in front of a delimiter, or of the end, is cut on its own. Texts
    are put together from pieces that meet at delimiters, and this is how the
    cutting of the whole is known from that of the pieces. -/
theorem cut_append (h : Single delimiters) (run cs : List Char) {ds : List Char}
    (hds : ds = [] ∨ ∃ c rest, ds = c :: rest ∧
      delimiters.contains (String.singleton c) = true) :
    cut delimiters run (cs ++ ds) = cut delimiters run cs ++ cut delimiters [] ds := by
  induction cs generalizing run with
  | nil =>
      rcases hds with rfl | ⟨c, rest, rfl, hc⟩
      · rw [List.append_nil, cut_nil, cut_nil]
        exact (List.append_nil _).symm
      · rw [List.nil_append, cut_mark h hc, cut_mark h hc, cut_nil]
        rfl
  | cons c rest ih =>
      cases hc : delimiters.contains (String.singleton c) with
      | true => rw [List.cons_append, cut_mark h hc, cut_mark h hc, ih, List.append_assoc]; rfl
      | false => rw [List.cons_append, cut_other h hc, cut_other h hc, ih]

/-- Characters that are no delimiters make the run longer. -/
theorem cut_plain (h : Single delimiters) (run : List Char) {cs : List Char}
    (hcs : ∀ c ∈ cs, delimiters.contains (String.singleton c) = false) :
    cut delimiters run cs = closeRun (cs.reverse ++ run) := by
  induction cs generalizing run with
  | nil => rfl
  | cons c rest ih =>
      rcases List.forall_mem_cons.1 hcs with ⟨hc, hrest⟩
      rw [cut_other h hc, ih _ hrest, List.reverse_cons, List.append_assoc]
      rfl

/-- A run that has been started is the beginning of the first piece. -/
theorem exists_cut_of_run (h : Single delimiters) {run : List Char} (hrun : run ≠ [])
    (cs : List Char) :
    ∃ more pieces, cut delimiters run cs = (run.reverse ++ more) :: pieces := by
  have hclose : ∀ run : List Char, run ≠ [] → closeRun run = [run.reverse] := by
    intro run hrun
    rw [closeRun, if_neg (by simpa using hrun)]
  induction cs generalizing run with
  | nil => exact ⟨[], [], by rw [cut_nil, hclose run hrun, List.append_nil]⟩
  | cons c rest ih =>
      cases hc : delimiters.contains (String.singleton c) with
      | true =>
          refine ⟨[], [c] :: cut delimiters [] rest, ?_⟩
          rw [cut_mark h hc, hclose run hrun, List.append_nil]
          rfl
      | false =>
          rcases ih (List.cons_ne_nil c run) with ⟨more, pieces, hpieces⟩
          refine ⟨c :: more, pieces, ?_⟩
          rw [cut_other h hc, hpieces, List.reverse_cons, List.append_assoc]
          rfl

/-- Every delimiter is among the pieces. -/
theorem mem_cut_of_mark (h : Single delimiters) (run : List Char) {cs : List Char} {c : Char}
    (hc : delimiters.contains (String.singleton c) = true) (hmem : c ∈ cs) :
    [c] ∈ cut delimiters run cs := by
  induction cs generalizing run with
  | nil => exact absurd hmem List.not_mem_nil
  | cons d rest ih =>
      cases hd : delimiters.contains (String.singleton d) with
      | true =>
          rw [cut_mark h hd]
          rcases List.mem_cons.1 hmem with rfl | hrest
          · exact List.mem_append_right _ List.mem_cons_self
          · exact List.mem_append_right _ (List.mem_cons_of_mem _ (ih [] hrest))
      | false =>
          rw [cut_other h hd]
          rcases List.mem_cons.1 hmem with rfl | hrest
          · rw [hd] at hc
            cases hc
          · exact ih _ hrest

/-- What is in front of a delimiter, or of the end, is cut on its own. -/
theorem tokens_append (h : Single delimiters) (text : String) {rest : String}
    (hrest : Ends delimiters rest) :
    tokens delimiters (text ++ rest) = tokens delimiters text ++ tokens delimiters rest := by
  have hchars : rest.toList = [] ∨ ∃ c more, rest.toList = c :: more ∧
      delimiters.contains (String.singleton c) = true := by
    rcases hrest with rfl | hmark
    · exact Or.inl rfl
    · exact Or.inr hmark
  rw [tokens_eq_cut h, tokens_eq_cut h, tokens_eq_cut h, String.toList_append,
    cut_append h _ _ hchars, List.map_append]

theorem tokens_empty (h : Single delimiters) : tokens delimiters "" = [] :=
  tokens_eq_cut h ""

theorem tokens_mark_append (h : Single delimiters) {mark : String}
    (hmark : isDelimiter delimiters mark = true) (rest : String) :
    tokens delimiters (mark ++ rest) = mark :: tokens delimiters rest := by
  rcases h.eq_singleton hmark with ⟨c, rfl⟩
  rw [tokens_eq_cut h, tokens_eq_cut h, String.toList_append, String.toList_singleton,
    List.singleton_append, cut_mark h hmark, List.map_append, List.map_cons]
  rw [← String.toList_singleton, String.ofList_toList]
  rfl

/-- A text that is not empty and has no delimiter in it is one token. -/
theorem tokens_plain (h : Single delimiters) {text : String} (htext : Plain delimiters text) :
    tokens delimiters text = [text] := by
  rw [tokens_eq_cut h, cut_plain h _ htext.2, List.append_nil, closeRun, if_neg, List.map_cons,
    List.reverse_reverse, String.ofList_toList]
  · rfl
  · simpa using htext.1

/-- No text that starts with another character is a delimiter. -/
theorem isDelimiter_of_starts (h : Single delimiters) {text : String}
    (hstarts : Starts delimiters text) : isDelimiter delimiters text = false := by
  rcases hstarts with ⟨c, rest, htext, hc⟩
  refine Bool.eq_false_iff.2 fun hmark => ?_
  rcases h.eq_singleton hmark with ⟨x, rfl⟩
  rw [String.toList_singleton] at htext
  cases htext
  rw [isDelimiter, hc] at hmark
  cases hmark

/-- The first token of a text that starts with no delimiter is none. -/
theorem exists_tokens_of_starts (h : Single delimiters) {text : String}
    (hstarts : Starts delimiters text) :
    ∃ s pieces, tokens delimiters text = s :: pieces ∧ isDelimiter delimiters s = false := by
  rcases hstarts with ⟨c, rest, htext, hc⟩
  rcases exists_cut_of_run h (List.cons_ne_nil c []) rest with ⟨more, pieces, hpieces⟩
  refine ⟨String.ofList (c :: more), pieces.map String.ofList, ?_, ?_⟩
  · rw [tokens_eq_cut h, htext, cut_other h hc, hpieces]
    rfl
  · exact isDelimiter_of_starts h ⟨c, more, String.toList_ofList, hc⟩

/-- A text without delimiters among its tokens has none in it. -/
theorem plain_of_tokens (h : Single delimiters) {text : String} (hne : text ≠ "")
    (htokens : ∀ s ∈ tokens delimiters text, isDelimiter delimiters s = false) :
    Plain delimiters text := by
  refine ⟨hne, fun c hc => ?_⟩
  cases hmark : delimiters.contains (String.singleton c) with
  | false => rfl
  | true =>
      have hmem : String.singleton c ∈ tokens delimiters text := by
        rw [tokens_eq_cut h]
        refine List.mem_map.2 ⟨[c], mem_cut_of_mark h [] hmark hc, ?_⟩
        rw [← String.toList_singleton, String.ofList_toList]
      rw [← htokens _ hmem, isDelimiter, hmark]

theorem Plain.starts {text : String} (h : Plain delimiters text) : Starts delimiters text := by
  cases htext : text.toList with
  | nil => exact absurd (String.toList_inj.1 htext) h.1
  | cons c rest => exact ⟨c, rest, htext, h.2 c (by rw [htext]; exact List.mem_cons_self)⟩

/-- A text without a delimiter in it is none, where delimiters are characters. -/
theorem Plain.isDelimiter_eq {text : String} (h : Plain delimiters text)
    (hcharacters : ∀ d ∈ delimiters, ∃ c, d = String.singleton c) :
    isDelimiter delimiters text = false := by
  refine Bool.eq_false_iff.2 fun hmark => ?_
  rcases hcharacters text (List.contains_iff_mem.1 hmark) with ⟨c, rfl⟩
  have hc := h.2 c (by rw [String.toList_singleton]; exact List.mem_singleton_self c)
  rw [isDelimiter, hc] at hmark
  cases hmark

theorem ends_mark_append (h : Single delimiters) {mark : String}
    (hmark : isDelimiter delimiters mark = true) (rest : String) :
    Ends delimiters (mark ++ rest) := by
  rcases h.eq_singleton hmark with ⟨c, rfl⟩
  refine Or.inr ⟨c, rest.toList, ?_, hmark⟩
  rw [String.toList_append, String.toList_singleton]
  rfl

/-- A text that ends the run before it has a delimiter first, if it has any tokens. -/
theorem isDelimiter_of_ends (h : Single delimiters) {text : String} (hends : Ends delimiters text)
    {s : String} {pieces : List String} (htokens : tokens delimiters text = s :: pieces) :
    isDelimiter delimiters s = true := by
  rw [tokens_eq_cut h] at htokens
  rcases hends with rfl | ⟨c, rest, htext, hc⟩
  · cases htokens
  · rw [htext, cut_mark h hc, closeRun, List.isEmpty_nil, if_pos rfl, List.nil_append,
      List.map_cons] at htokens
    cases htokens
    rw [← String.toList_singleton, String.ofList_toList]
    exact hc

/-- No token is empty. -/
theorem ne_empty_of_mem_tokens {path token : String} (htoken : token ∈ tokens delimiters path) :
    token ≠ "" := by
  rcases List.mem_map.1 htoken with ⟨piece, hpiece, rfl⟩
  refine fun hempty => ne_nil_of_mem_tokensFrom (fun m hm => ?_) _ _ _ _ piece hpiece
    (String.ofList_eq_empty_iff.1 hempty)
  rintro rfl
  cases (List.mem_filter.1 hm).2

end Tokens

/-- The delimiters of a router are single characters. -/
theorem Options.single {given methods : Value} {options : Options}
    (h : Options.make? given methods = .ok options) : Tokens.Single options.delimiters := by
  rcases bind_eq_ok.1 h with ⟨elements, _, h⟩
  rcases bind_eq_ok.1 h with ⟨delimiters, hdelimiters, h⟩
  rcases bind_eq_ok.1 h with ⟨_, _, h⟩
  rcases bind_eq_ok.1 h with ⟨_, _, h⟩
  cases h
  exact Tokens.single_of_delimiters? hdelimiters

end PathRouting
