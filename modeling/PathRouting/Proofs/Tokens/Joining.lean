import Mathlib.Data.List.Chain
import Mathlib.Data.List.TakeWhile
import PathRouting.Proofs.Tokens

/-!
# Joining Loses Nothing

Putting tokens together forgets where one ends and the next begins. Where the
delimiters are single characters nothing is lost by that: a delimiter shows by
itself, and no two runs stand side by side, so a run ends only where a
delimiter starts. Cutting and joining are then inverse to each other, between
all texts and all lists of tokens of that shape.

With longer delimiters joining still gives the text back, but other lists of
tokens may give the same text. What decides is then the place: where a token
starts, the delimiters are tried in the order they are given, and the first
that fits is the token; anywhere inside a run, none of them fits.

## Main definitions

* `WellCut`: The shape of the tokens where the delimiters are single characters.
* `firstFit?`: The first delimiter that a text starts with.
* `InPlace`: The reason for which a piece starts at a place.

## Theorems

* `text_induction`: A text is empty, or starts with a delimiter, or with a run
  that ends.
* `wellCut_tokens`: Cutting gives tokens of that shape.
* `tokens_join`: Tokens of that shape are cut apart again.
* `inPlace_of_tokensFrom`, `fit_of_tokens`: Which token starts at a place.
* `tokens_inverse_join`: Cutting and joining are inverse to each other.
-/

namespace PathRouting

namespace Tokens

/-- The pieces have the shape of tokens: each is a delimiter or a run without
    delimiters, and of two neighbours one is a delimiter. -/
structure WellCut (delimiters : List String) (pieces : List String) : Prop where
  each : ∀ s ∈ pieces, isDelimiter delimiters s = true ∨
    isDelimiter delimiters s = false ∧ Plain delimiters s
  apart : pieces.IsChain fun s u =>
    isDelimiter delimiters s = true ∨ isDelimiter delimiters u = true

/-- The first of the delimiters that a text starts with. -/
def firstFit? (delimiters : List String) (text : String) : Option String :=
  delimiters.find? fun d => d.toList.isPrefixOf text.toList

variable {delimiters : List String}

/-! ## Single characters -/

/-- A text is empty, or starts with a delimiter, or with a run that ends in
    front of a delimiter or at the end. Cutting goes character by character,
    and this induction goes token by token. -/
theorem text_induction (delimiters : List String) {motive : String → Prop} (empty : motive "")
    (mark : ∀ m rest, isDelimiter delimiters m = true → motive rest → motive (m ++ rest))
    (run : ∀ text rest, Plain delimiters text → Ends delimiters rest → motive rest →
      motive (text ++ rest)) (path : String) : motive path := by
  have hchars : ∀ (n : Nat) (cs : List Char), cs.length ≤ n → motive (String.ofList cs) := by
    intro n
    induction n with
    | zero =>
        intro cs hcs
        rw [List.length_eq_zero_iff.1 (Nat.le_zero.1 hcs)]
        exact empty
    | succ n ih =>
        intro cs hcs
        cases cs with
        | nil => exact empty
        | cons c rest =>
            rw [List.length_cons] at hcs
            cases hc : delimiters.contains (String.singleton c) with
            | true =>
                rw [String.ofList_cons]
                exact mark _ _ hc (ih rest (by omega))
            | false =>
                -- The run goes on up to the next delimiter.
                let plain : Char → Bool := fun d => !delimiters.contains (String.singleton d)
                have hback : (rest.dropWhile plain).length ≤ n := by
                  have hle := (List.dropWhile_sublist (l := rest) plain).length_le
                  omega
                have hends : Ends delimiters (String.ofList (rest.dropWhile plain)) := by
                  have hhead := List.head?_dropWhile_not plain rest
                  cases hdrop : rest.dropWhile plain with
                  | nil => exact Or.inl rfl
                  | cons d more =>
                      rw [hdrop] at hhead
                      exact Or.inr ⟨d, more, String.toList_ofList, by simpa [plain] using hhead⟩
                have hplain : Plain delimiters (String.ofList (c :: rest.takeWhile plain)) := by
                  refine ⟨fun hempty => ?_, fun d hd => ?_⟩
                  · cases String.ofList_eq_empty_iff.1 hempty
                  · rw [String.toList_ofList] at hd
                    rcases List.mem_cons.1 hd with rfl | hd
                    · exact hc
                    · simpa [plain] using List.mem_takeWhile_imp hd
                rw [← List.takeWhile_append_dropWhile (p := plain) (l := rest), ← List.cons_append,
                  String.ofList_append]
                exact run _ _ hplain hends (ih _ hback)
  rw [← String.ofList_toList (s := path)]
  exact hchars _ _ (Nat.le_refl _)

/-- A run in front of a delimiter, or of the end, is cut off. -/
theorem tokens_plain_append (h : Single delimiters) {text rest : String}
    (htext : Plain delimiters text) (hrest : Ends delimiters rest) :
    tokens delimiters (text ++ rest) = text :: tokens delimiters rest := by
  rw [tokens_append h text hrest, tokens_plain h htext, List.singleton_append]

/-- Cutting gives delimiters and runs, and no two runs side by side. -/
theorem wellCut_tokens (h : Single delimiters) (path : String) :
    WellCut delimiters (tokens delimiters path) := by
  induction path using text_induction delimiters with
  | empty =>
      rw [tokens_empty h]
      exact ⟨by simp, List.isChain_nil⟩
  | mark m rest hm ih =>
      rw [tokens_mark_append h hm]
      refine ⟨?_, List.isChain_cons.2 ⟨fun _ _ => Or.inl hm, ih.apart⟩⟩
      exact List.forall_mem_cons.2 ⟨Or.inl hm, ih.each⟩
  | run text rest htext hends ih =>
      rw [tokens_plain_append h htext hends]
      have hmark := isDelimiter_of_starts h htext.starts
      refine ⟨List.forall_mem_cons.2 ⟨Or.inr ⟨hmark, htext⟩, ih.each⟩, ?_⟩
      refine List.isChain_cons.2 ⟨fun s hs => Or.inr ?_, ih.apart⟩
      obtain ⟨pieces, hpieces⟩ := List.head?_eq_some_iff.1 (Option.mem_def.1 hs)
      exact isDelimiter_of_ends h hends hpieces

/-- Tokens of that shape are cut apart again. -/
theorem tokens_join (h : Single delimiters) {pieces : List String}
    (hpieces : WellCut delimiters pieces) :
    tokens delimiters (String.join pieces) = pieces := by
  induction pieces with
  | nil => exact tokens_empty h
  | cons s rest ih =>
      obtain ⟨hs, heach⟩ := List.forall_mem_cons.1 hpieces.each
      obtain ⟨hnext, happart⟩ := List.isChain_cons.1 hpieces.apart
      have hrest := ih ⟨heach, happart⟩
      rw [String.join_cons]
      rcases hs with hmark | ⟨hmark, hplain⟩
      · rw [tokens_mark_append h hmark, hrest]
      · -- Behind a run there is nothing, or a delimiter.
        have hends : Ends delimiters (String.join rest) := by
          cases rest with
          | nil => exact Or.inl rfl
          | cons u more =>
              have hu := (hnext u rfl).resolve_left (by simp [hmark])
              rw [String.join_cons]
              exact ends_mark_append h hu _
        rw [tokens_plain_append h hplain hends, hrest]

/-! ## Delimiters of any length -/

/-- The piece stands where it does for a reason: it is the first mark that
    fits there, or nowhere in it does a mark fit. What comes behind the piece
    counts here too, since a mark may fit across its end. -/
def InPlace (marks : List (List Char)) (piece rest : List Char) : Prop :=
  marks.find? (·.isPrefixOf (piece ++ rest)) = some piece ∨
    ∀ a b, piece = a ++ b → b ≠ [] → marks.find? (·.isPrefixOf (b ++ rest)) = none

/-- What is found behind a run that is closed is the run, or one of the pieces
    behind it. -/
theorem closeRun_append_eq {run piece : List Char} {pieces front rest : List (List Char)}
    (h : closeRun run ++ pieces = front ++ piece :: rest) :
    (piece = run.reverse ∧ rest = pieces) ∨ ∃ back, pieces = back ++ piece :: rest := by
  unfold closeRun at h
  split at h
  · exact Or.inr ⟨front, h⟩
  · cases front with
    | nil =>
        cases h
        exact Or.inl ⟨rfl, rfl⟩
    | cons first back =>
        rw [List.singleton_append, List.cons_append] at h
        exact Or.inr ⟨back, (List.cons.inj h).2⟩

/-- If no mark fits anywhere in a run, nor behind it, none fits in the run
    that goes on. -/
theorem none_fits_snoc {marks : List (List Char)} {run cs : List Char} {c : Char}
    (hrun : ∀ a b, run = a ++ b → b ≠ [] → marks.find? (·.isPrefixOf (b ++ c :: cs)) = none)
    (hnone : marks.find? (·.isPrefixOf (c :: cs)) = none) :
    ∀ a b, run ++ [c] = a ++ b → b ≠ [] → marks.find? (·.isPrefixOf (b ++ cs)) = none := by
  intro a b hab hb
  rcases List.append_eq_append_iff.1 hab with ⟨back, _, hback⟩ | ⟨back, hback, rfl⟩
  · -- Only the last character is left.
    rcases List.singleton_eq_append_iff.1 hback with ⟨_, rfl⟩ | ⟨_, rfl⟩
    · exact hnone
    · exact absurd rfl hb
  · rw [List.append_assoc, List.singleton_append]
    cases back with
    | nil => exact hnone
    | cons d more => exact hrun a (d :: more) hback (List.cons_ne_nil d more)

/-- Every piece stands in its place. No mark fits anywhere in the run that has
    been collected, since otherwise it would have been taken there. The
    induction is on the characters, with the run as far as it has come
    generalized. -/
theorem inPlace_of_tokensFrom {marks : List (List Char)} (hmarks : ∀ m ∈ marks, m ≠ [])
    (apart : Bool) {skip : Nat} {run cs : List Char} (hskip : 0 < skip → run = [])
    (hrun : ∀ a b, run.reverse = a ++ b → b ≠ [] → marks.find? (·.isPrefixOf (b ++ cs)) = none)
    {front rest : List (List Char)} {piece : List Char}
    (h : tokensFrom marks apart skip run cs = front ++ piece :: rest) :
    InPlace marks piece rest.flatten := by
  have hnil : ∀ cs a b : List Char, [] = a ++ b → b ≠ [] →
      marks.find? (·.isPrefixOf (b ++ cs)) = none :=
    fun _ a b hab hb => absurd (List.append_eq_nil_iff.1 hab.symm).2 hb
  induction cs generalizing skip run front with
  | nil =>
      have hclosed : closeRun run ++ [] = front ++ piece :: rest := by
        cases skip <;> simpa [tokensFrom] using h
      rcases closeRun_append_eq hclosed with ⟨rfl, rfl⟩ | ⟨back, hback⟩
      · exact Or.inr hrun
      · simp at hback
  | cons c cs ih =>
      cases skip with
      | succ skip =>
          cases hskip (Nat.succ_pos _)
          exact ih (fun _ => rfl) (hnil cs) h
      | zero =>
          have hflat : (tokensFrom marks apart 0 [] (c :: cs)).flatten = c :: cs :=
            flatten_tokensFrom marks apart hmarks 0 [] _ fun _ => rfl
          simp only [tokensFrom] at h hflat
          split at h
          · next m hfind =>
            -- A mark is taken here, and the run in front of it ends.
            simp only [hfind, closeRun_nil, List.nil_append] at hflat
            rcases closeRun_append_eq h with ⟨rfl, rfl⟩ | ⟨back, hback⟩
            · rw [hflat]
              exact Or.inr hrun
            · cases back with
              | nil =>
                  cases hback
                  rw [List.flatten_cons] at hflat
                  exact Or.inl (by rw [hflat]; exact hfind)
              | cons first back =>
                  rw [List.cons_append] at hback
                  exact ih (fun _ => rfl) (hnil cs) (List.cons.inj hback).2
          · next hnone =>
            split at h
            · next hapart =>
              simp only [hnone, if_pos hapart, closeRun_nil, List.nil_append] at hflat
              rcases closeRun_append_eq h with ⟨rfl, rfl⟩ | ⟨back, hback⟩
              · rw [hflat]
                exact Or.inr hrun
              · have hchar : ∀ a b, [c].reverse = a ++ b → b ≠ [] →
                    marks.find? (·.isPrefixOf (b ++ cs)) = none :=
                  none_fits_snoc (hnil (c :: cs)) hnone
                exact ih (by simp) hchar hback
            · refine ih (by simp) ?_ h
              rw [List.reverse_cons]
              exact none_fits_snoc hrun hnone

theorem firstFit?_eq (delimiters : List String) (text : String) :
    (firstFit? delimiters text).map String.toList =
      (delimiters.map String.toList).find? (·.isPrefixOf text.toList) := by
  rw [firstFit?, List.find?_map]
  rfl

/-- Where a token starts, it is the first delimiter that fits there, or none
    fits anywhere in it. -/
theorem fit_of_tokens (hne : ∀ d ∈ delimiters, d ≠ "") {path s : String}
    {front rest : List String} (h : tokens delimiters path = front ++ s :: rest) :
    firstFit? delimiters (s ++ String.join rest) = some s ∨
      ∀ a b, s = a ++ b → b ≠ "" → firstFit? delimiters (b ++ String.join rest) = none := by
  rw [tokens, filter_marks hne] at h
  obtain ⟨before, after, hpieces, -, hafter⟩ := List.map_eq_append_iff.1 h
  obtain ⟨piece, behind, rfl, rfl, rfl⟩ := List.map_eq_cons_iff.1 hafter
  -- On lists of characters a piece is in its place, and the two cases of that are read as texts.
  have hmarks : ∀ m ∈ delimiters.map String.toList, m ≠ [] := by
    intro m hm
    obtain ⟨d, hd, rfl⟩ := List.mem_map.1 hm
    simpa using hne d hd
  rcases inPlace_of_tokensFrom hmarks _ (fun _ => rfl) (by simp) hpieces with hfirst | hnone
  · left
    have hfit := firstFit?_eq delimiters
      (String.ofList piece ++ String.join (behind.map String.ofList))
    rw [String.toList_append, String.toList_ofList, toList_join_ofList, hfirst] at hfit
    obtain ⟨d, hd, rfl⟩ := Option.map_eq_some_iff.1 hfit
    rw [hd, String.ofList_toList]
  · right
    intro a b hab hb
    have hchars : piece = a.toList ++ b.toList := by
      rw [← String.toList_append, ← hab, String.toList_ofList]
    have hfit := firstFit?_eq delimiters (b ++ String.join (behind.map String.ofList))
    rw [String.toList_append, toList_join_ofList, hnone _ _ hchars (by simpa using hb)] at hfit
    exact Option.map_eq_none_iff.1 hfit

/-- Cutting and joining are inverse to each other where the delimiters are
    single characters. With delimiters of any length nothing is lost or empty,
    and what starts a token is the first of them that fits. The other
    direction fails for these: two pieces that are joined may make up a
    delimiter between them. -/
theorem tokens_inverse_join (delimiters : List String) :
    (Single delimiters →
      (∀ path, (∀ s ∈ tokens delimiters path, s ≠ "") ∧
        String.join (tokens delimiters path) = path ∧
        WellCut delimiters (tokens delimiters path)) ∧
      ∀ pieces, WellCut delimiters pieces →
        tokens delimiters (String.join pieces) = pieces) ∧
    ((∀ d ∈ delimiters, d ≠ "") → ∀ path,
      String.join (tokens delimiters path) = path ∧
      (∀ s ∈ tokens delimiters path, s ≠ "") ∧
      ∀ front s rest, tokens delimiters path = front ++ s :: rest →
        firstFit? delimiters (s ++ String.join rest) = some s ∨
          ∀ a b, s = a ++ b → b ≠ "" →
            firstFit? delimiters (b ++ String.join rest) = none) := by
  have hne : ∀ path, ∀ s ∈ tokens delimiters path, s ≠ "" :=
    fun _ _ hs => ne_empty_of_mem_tokens hs
  refine ⟨fun hsingle => ⟨fun path => ?_, fun pieces => tokens_join hsingle⟩, fun hd path => ?_⟩
  · exact ⟨hne path, join_tokens delimiters path, wellCut_tokens hsingle path⟩
  · exact ⟨join_tokens delimiters path, hne path, fun _ _ _ => fit_of_tokens hd⟩

/-- Delimiters may follow each other and stand at the front, and of two that
    fit the one that is given first is taken, although the other is longer. -/
theorem tokens_inverse_join_of_overlap :
    Single ["/", "."] ∧ WellCut ["/", "."] ["/", "/", "a", ".", "b"] ∧
      tokens ["/", "."] "//a.b" = ["/", "/", "a", ".", "b"] ∧
      (∀ d ∈ ["a", "ab"], d ≠ "") ∧ tokens ["a", "ab"] "xab" = ["x"] ++ "a" :: ["b"] ∧
      firstFit? ["a", "ab"] "ab" = some "a" := by
  have hsingle : Single ["/", "."] :=
    ⟨by simp, List.forall_mem_cons.2 ⟨⟨'/', rfl⟩, List.forall_mem_singleton.2 ⟨'.', rfl⟩⟩⟩
  have hcut : WellCut ["/", "."] ["/", "/", "a", ".", "b"] := by
    refine ⟨?_, by decide⟩
    simp only [plain_iff]
    decide
  have hne : ∀ d ∈ ["a", "ab"], d ≠ "" := by decide
  have htokens : tokens ["a", "ab"] "xab" = ["x"] ++ "a" :: ["b"] := by cbv
  refine ⟨hsingle, hcut, ((tokens_inverse_join ["/", "."]).1 hsingle).2 _ hcut, hne, htokens, ?_⟩
  have hplace := (((tokens_inverse_join ["a", "ab"]).2 hne "xab").2.2 _ _ _ htokens)
  refine hplace.resolve_right fun hnone => ?_
  exact absurd (hnone "" "a" rfl (by decide)) (by decide)

end Tokens

end PathRouting
