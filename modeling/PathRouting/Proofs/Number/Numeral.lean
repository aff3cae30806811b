import Mathlib.Data.Nat.Digits.Defs
import PathRouting.Number.Whole

/-!
# How Whole Numbers Are Written

The reader of whole numbers goes along a text and gathers digit values. What
it reads is said here by rules for the text: digits of any script, single
underscores between two of them, and a sign in front. The rules leave no room
for anything else, so a numeral has no blank in it anywhere, and its
characters are its digits, its underscores and its sign.

The reader passes over the blanks around a numeral. It is enough to look at
the ends of a text to see that there are none: a text that loses nothing to
the larger class of blanks loses nothing to the smaller one.

## Main definitions

* `Digits`: The characters are digits of these values, with underscores
  between some.
* `Denotes`: The text is written as the integer.
* `isMark`: The character is an underscore or a sign.

## Theorems

* `digitRun?_eq_some_iff`: The reader gathers the values of digits, and of
  nothing else.
* `runValue_eq_ofDigits`: The value of a run is that of its digits by place.
* `wholeNumber?_eq_some_iff`: The reader of whole numbers reads what is
  written as one.
* `Denotes.not_isBlank`: A numeral has no blank in it.
* `Denotes.countP_isDigit_add`: Digits and marks are all there is in a numeral.
-/

namespace PathRouting

namespace Text

/-- A character that ranges from another table hold lies in one of them. -/
theorem exists_of_digitIn {n v : Nat} {rs : List (Nat × Nat)} (h : digitIn n rs = some v) :
    ∃ r ∈ rs, r.1 ≤ n ∧ n ≤ r.2 := by
  induction rs with
  | nil => simp [digitIn] at h
  | cons r rest ih =>
      simp only [digitIn] at h
      split at h
      · next hin => exact ⟨r, List.mem_cons_self, hin⟩
      · rcases ih h with ⟨q, hq, hin⟩
        exact ⟨q, List.mem_cons_of_mem r hq, hin⟩

/-- No decimal digit is blank: their tables have no range in common. So what
    is trimmed from the ends of a text is never a part of the number. -/
theorem not_isBlank_of_isDigit {c : Char} (h : isDigit c = true) : isBlank c = false := by
  have hapart : ∀ r ∈ digitRanges, ∀ q ∈ blankRanges, r.2 < q.1 ∨ q.2 < r.1 := by decide
  rcases Option.isSome_iff_exists.1 h with ⟨v, hv⟩
  rcases exists_of_digitIn hv with ⟨r, hr, hrange⟩
  by_contra hblank
  rw [Bool.not_eq_false] at hblank
  rcases exists_of_inRanges hblank with ⟨q, hq, hwithin⟩
  have hdisjoint := hapart r hr q hq
  omega

/-- A text loses nothing at its ends if neither of them is to be left out. -/
theorem trimBy_eq_self_iff {p : Char → Bool} {cs : List Char} :
    trimBy p cs = cs ↔ (∀ c ∈ cs.head?, p c = false) ∧ ∀ c ∈ cs.getLast?, p c = false := by
  have hfront : ∀ l : List Char, l.dropWhile p = l ↔ ∀ c ∈ l.head?, p c = false := by
    intro l
    rcases l with _ | ⟨c, rest⟩
    · simp
    · by_cases hc : p c = true
      · have hshort := (List.dropWhile_suffix p (l := rest)).length_le
        have hne : rest.dropWhile p ≠ c :: rest := by
          intro heq
          rw [heq, List.length_cons] at hshort
          omega
        simp [hc, hne]
      · simp [hc]
  have hback := hfront cs.reverse
  rw [List.head?_reverse] at hback
  rw [← hback, ← hfront cs, trimBy]
  constructor
  · intro h
    -- Nothing is lost in the end, so nothing is lost on the way.
    have hlength : (cs.dropWhile p).length = cs.length := by
      have hall := congrArg List.length h
      have hfirst := (List.dropWhile_suffix p (l := cs)).length_le
      have hsecond := (List.dropWhile_suffix p (l := (cs.dropWhile p).reverse)).length_le
      rw [List.length_reverse] at hall hsecond
      omega
    have hsame := (List.dropWhile_suffix p (l := cs)).eq_of_length hlength
    rw [hsame] at h
    exact ⟨hsame, by rw [← List.reverse_eq_iff, h]⟩
  · intro h
    rw [h.1, h.2, List.reverse_reverse]

/-- A text without blanks at its ends has nothing at its ends that may stand
    around a number. -/
theorem trimBy_isPadding_of_trim {cs : List Char} (h : trim cs = cs) :
    trimBy isPadding cs = cs := by
  rw [trim, trimBy_eq_self_iff] at h
  have hmild : ∀ c, isBlank c = false → isPadding c = false := by
    intro c hc
    rw [isPadding, hc, Bool.false_and]
  rw [trimBy_eq_self_iff]
  exact ⟨fun c hc => hmild c (h.1 c hc), fun c hc => hmild c (h.2 c hc)⟩

end Text

namespace Number

open Text

/-- The characters are decimal digits of these values, in order. Between two
    digits there may be one underscore. Digits of every script count, as long
    as Unicode calls them decimal. -/
inductive Digits : List Char → List Nat → Prop
  | last {c : Char} {d : Nat} (digit : digit? c = some d) : Digits [c] [d]
  | next {c : Char} {d : Nat} {rest : List Char} {ds : List Nat} (digit : digit? c = some d)
      (more : Digits rest ds) : Digits (c :: rest) (d :: ds)
  | apart {c : Char} {d : Nat} {rest : List Char} {ds : List Nat} (digit : digit? c = some d)
      (more : Digits rest ds) : Digits (c :: '_' :: rest) (d :: ds)

/-- The text is written as the integer: digits, not too many of them, with a
    sign in front or without one. -/
inductive Denotes : List Char → Int → Prop
  | plain {cs : List Char} {ds : List Nat} (digits : Digits cs ds)
      (few : ds.length ≤ digitLimit) : Denotes cs (Nat.ofDigits 10 ds.reverse)
  | plus {cs : List Char} {ds : List Nat} (digits : Digits cs ds)
      (few : ds.length ≤ digitLimit) : Denotes ('+' :: cs) (Nat.ofDigits 10 ds.reverse)
  | minus {cs : List Char} {ds : List Nat} (digits : Digits cs ds)
      (few : ds.length ≤ digitLimit) : Denotes ('-' :: cs) (-Nat.ofDigits 10 ds.reverse)

/-- The character is an underscore or a sign. -/
def isMark (c : Char) : Bool :=
  c == '_' || c == '+' || c == '-'

/-- An underscore is no digit, and neither is a sign. -/
theorem digit?_of_isMark {c : Char} (h : isMark c = true) : digit? c = none := by
  simp only [isMark, Bool.or_eq_true, beq_iff_eq] at h
  rcases h with (rfl | rfl) | rfl <;> decide

theorem not_isBlank_of_isMark {c : Char} (h : isMark c = true) : isBlank c = false := by
  simp only [isMark, Bool.or_eq_true, beq_iff_eq] at h
  rcases h with (rfl | rfl) | rfl <;> decide

theorem ne_mark_of_digit {c m : Char} {d : Nat} (h : digit? c = some d) (hm : isMark m = true) :
    c ≠ m := by
  intro heq
  rw [heq, digit?_of_isMark hm] at h
  cases h

/-- What follows a digit and is no underscore has to be a digit itself. -/
theorem digitTail?_cons {c : Char} (hc : c ≠ '_') (rest : List Char) :
    digitTail? (c :: rest) = digitRun? (c :: rest) := by
  rw [digitTail?.eq_3 c rest fun _ _ h _ => hc h, digitRun?]

/-- A run begins with a digit, so not with an underscore. -/
theorem ne_underscore_of_digitRun? {c : Char} {rest : List Char} {ds : List Nat}
    (h : digitRun? (c :: rest) = some ds) : c ≠ '_' := by
  intro hmark
  rw [hmark, digitRun?, digit?_of_isMark (by decide)] at h
  cases h

/-- Behind a digit there is nothing, or more digits, or an underscore and more digits. -/
theorem digitTail?_eq_some_cases {cs : List Char} {ds : List Nat} (h : digitTail? cs = some ds) :
    (cs = [] ∧ ds = []) ∨ Digits cs ds ∨ ∃ rest, cs = '_' :: rest ∧ Digits rest ds := by
  -- A digit with what follows it, once that is known to be one of the three.
  have hjoin : ∀ {c : Char} {d : Nat} {rest : List Char} {ds : List Nat}, digit? c = some d →
      ((rest = [] ∧ ds = []) ∨ Digits rest ds ∨ ∃ more, rest = '_' :: more ∧ Digits more ds) →
      Digits (c :: rest) (d :: ds) := by
    intro c d rest ds hdigit hrest
    rcases hrest with ⟨rfl, rfl⟩ | hmore | ⟨more, rfl, hmore⟩
    · exact .last hdigit
    · exact .next hdigit hmore
    · exact .apart hdigit hmore
  fun_induction digitTail? cs generalizing ds with
  | case1 =>
      cases h
      exact Or.inl ⟨rfl, rfl⟩
  | case2 c rest d hdigit ih =>
      rcases Option.map_eq_some_iff.1 h with ⟨more, hmore, rfl⟩
      exact Or.inr (Or.inr ⟨_, rfl, hjoin hdigit (ih hmore)⟩)
  | case3 => cases h
  | case4 c rest _ d hdigit ih =>
      rcases Option.map_eq_some_iff.1 h with ⟨more, hmore, rfl⟩
      exact Or.inr (Or.inl (hjoin hdigit (ih hmore)))
  | case5 => cases h

/-- The reader gathers the values of digits, and of nothing else. Whether an
    underscore may come next depends on the character before, so the reader
    has a part of its own for what may follow a digit. -/
theorem digitRun?_eq_some_iff {cs : List Char} {ds : List Nat} :
    digitRun? cs = some ds ↔ Digits cs ds := by
  constructor
  · intro h
    -- Where the first character is a digit, a run is what may follow a digit.
    rcases cs with _ | ⟨c, rest⟩
    · cases h
    · have hc := ne_underscore_of_digitRun? h
      rw [← digitTail?_cons hc] at h
      rcases digitTail?_eq_some_cases h with ⟨hnil, _⟩ | hdigits | ⟨more, hmore, _⟩
      · cases hnil
      · exact hdigits
      · exact absurd (List.cons.inj hmore).1 hc
  · intro h
    induction h with
    | last hdigit => simp [digitRun?, hdigit, digitTail?]
    | @next c d rest ds hdigit hmore ih =>
        have htail : digitTail? rest = some ds := by
          rcases rest with _ | ⟨b, rest⟩
          · cases hmore
          · rw [digitTail?_cons (ne_underscore_of_digitRun? ih), ih]
        simp [digitRun?, hdigit, htail]
    | @apart c d rest ds hdigit hmore ih =>
        have htail : digitTail? ('_' :: rest) = some ds := by
          rcases rest with _ | ⟨b, rest⟩
          · cases hmore
          · exact ih
        simp [digitRun?, hdigit, htail]

/-- The value of a run is that of its digits by place. -/
theorem runValue_eq_ofDigits (ds : List Nat) :
    (runValue ds : Int) = Nat.ofDigits 10 ds.reverse := by
  have hplaces : runValue ds = Nat.ofDigits 10 ds.reverse := by
    rw [Nat.ofDigits_eq_foldr, List.foldr_reverse, runValue]
    refine congrArg (fun f => List.foldl f 0 ds) ?_
    funext n d
    simp [Nat.add_comm]
  rw [hplaces, Nat.coe_ofDigits]
  rfl

namespace Digits

variable {cs : List Char} {ds : List Nat}

/-- Digits do not begin with a mark. -/
theorem head_ne_mark {c : Char} (h : Digits (c :: cs) ds) {m : Char} (hm : isMark m = true) :
    c ≠ m := by
  cases h with
  | last digit => exact ne_mark_of_digit digit hm
  | next digit _ => exact ne_mark_of_digit digit hm
  | apart digit _ => exact ne_mark_of_digit digit hm

/-- Every character is a digit or an underscore. -/
theorem isDigit_or_isMark (h : Digits cs ds) :
    ∀ c ∈ cs, isDigit c = true ∨ isMark c = true := by
  have hone : ∀ {c : Char} {d : Nat}, digit? c = some d → isDigit c = true := by
    intro c d hdigit
    rw [isDigit, hdigit, Option.isSome_some]
  induction h with
  | last digit => simp [hone digit]
  | next digit _ ih => exact List.forall_mem_cons.2 ⟨Or.inl (hone digit), ih⟩
  | apart digit _ ih =>
      exact List.forall_mem_cons.2 ⟨Or.inl (hone digit),
        List.forall_mem_cons.2 ⟨Or.inr (by decide), ih⟩⟩

end Digits

/-- A sign is taken off the front of a text, if there is one. -/
theorem splitSign_cases (cs : List Char) :
    (∃ body, cs = '-' :: body ∧ splitSign cs = (true, body)) ∨
      (∃ body, cs = '+' :: body ∧ splitSign cs = (false, body)) ∨
        splitSign cs = (false, cs) := by
  unfold splitSign
  split
  · exact Or.inl ⟨_, rfl, rfl⟩
  · exact Or.inr (Or.inl ⟨_, rfl, rfl⟩)
  · exact Or.inr (Or.inr rfl)

/-- Digits have no sign in front. -/
theorem Digits.splitSign_eq {cs : List Char} {ds : List Nat} (h : Digits cs ds) :
    splitSign cs = (false, cs) := by
  rcases splitSign_cases cs with ⟨body, rfl, _⟩ | ⟨body, rfl, _⟩ | hplain
  · exact absurd rfl (h.head_ne_mark (m := '-') (by decide))
  · exact absurd rfl (h.head_ne_mark (m := '+') (by decide))
  · exact hplain

/-- The integer with a sign and the digits of its magnitude. -/
def signedValue (negative : Bool) (ds : List Nat) : Int :=
  if negative then -Nat.ofDigits 10 ds.reverse else Nat.ofDigits 10 ds.reverse

/-- Behind its sign, a numeral has digits. -/
theorem denotes_iff {cs : List Char} {x : Int} :
    Denotes cs x ↔ ∃ ds, Digits (splitSign cs).2 ds ∧ ds.length ≤ digitLimit ∧
      signedValue (splitSign cs).1 ds = x := by
  constructor
  · intro h
    cases h with
    | plain digits few =>
        rw [digits.splitSign_eq]
        exact ⟨_, digits, few, rfl⟩
    | plus digits few => exact ⟨_, digits, few, rfl⟩
    | minus digits few => exact ⟨_, digits, few, rfl⟩
  · intro h
    rcases h with ⟨ds, digits, few, rfl⟩
    rcases splitSign_cases cs with ⟨body, rfl, hsplit⟩ | ⟨body, rfl, hsplit⟩ | hsplit <;>
      rw [hsplit] at digits ⊢
    · exact .minus digits few
    · exact .plus digits few
    · exact .plain digits few

/-- The reader of whole numbers reads what is written as one, if nothing
    stands around it. What may stand around a number elsewhere, blanks and the
    like, is excluded here by asking for a text without them. -/
theorem wholeNumber?_eq_some_iff {cs : List Char} (hends : trimBy isPadding cs = cs) {x : Int} :
    wholeNumber? cs = some x ↔ Denotes cs x := by
  rw [denotes_iff]
  unfold wholeNumber?
  rw [hends]
  simp only [← digitRun?_eq_some_iff]
  cases digitRun? (splitSign cs).2 with
  | none => simp
  | some ds =>
      by_cases hfew : ds.length ≤ digitLimit
      · simp [hfew, runValue_eq_ofDigits, signedValue]
      · simp [hfew]

namespace Denotes

variable {cs : List Char} {x : Int}

/-- Every character is a digit or a mark. -/
theorem isDigit_or_isMark (h : Denotes cs x) : ∀ c ∈ cs, isDigit c = true ∨ isMark c = true := by
  cases h with
  | plain digits _ => exact digits.isDigit_or_isMark
  | plus digits _ =>
      exact List.forall_mem_cons.2 ⟨Or.inr (by decide), digits.isDigit_or_isMark⟩
  | minus digits _ =>
      exact List.forall_mem_cons.2 ⟨Or.inr (by decide), digits.isDigit_or_isMark⟩

/-- A numeral has no blank in it. -/
theorem not_isBlank (h : Denotes cs x) : ∀ c ∈ cs, isBlank c = false := by
  intro c hc
  rcases h.isDigit_or_isMark c hc with hdigit | hmark
  · exact not_isBlank_of_isDigit hdigit
  · exact not_isBlank_of_isMark hmark

theorem trim_eq (h : Denotes cs x) : trim cs = cs := by
  rw [trim, trimBy_eq_self_iff]
  exact ⟨fun c hc => h.not_isBlank c (List.mem_of_mem_head? hc),
    fun c hc => h.not_isBlank c (List.mem_of_mem_getLast? hc)⟩

/-- Digits and marks are all there is in a numeral. So a text of a given
    length has one digit less for every underscore, and for a sign. -/
theorem countP_isDigit_add (h : Denotes cs x) :
    cs.countP isDigit + cs.countP isMark = cs.length := by
  -- A character that is no mark is a digit, and no digit is a mark.
  have hmark : cs.countP isMark = cs.countP fun c => !isDigit c := by
    refine List.countP_congr fun c hc => ?_
    rcases h.isDigit_or_isMark c hc with hdigit | hmark
    · have hnone : isMark c = false := by
        by_contra hmark
        rw [Bool.not_eq_false] at hmark
        rw [isDigit, digit?_of_isMark hmark] at hdigit
        cases hdigit
      simp [hdigit, hnone]
    · simp [hmark, isDigit, digit?_of_isMark hmark]
  rw [hmark, List.length_eq_countP_add_countP isDigit]
  simp

end Denotes

end Number

end PathRouting
