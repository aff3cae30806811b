import PathRouting.Pattern.Lexeme

/-!
# Balanced Braces

Where the body of a brace ends, said without looking for it. A backslash hides
the character behind it, be that a brace or another backslash. What is not
hidden can be seen, and a closing brace that can be seen balances the opening
one if as many braces are opened as are closed between the two. The body ends
at the first one that does.

The search counts the braces that are open while it goes along, so what it
finds is said for any number of braces that are open at the start. One step of
it takes one character, or two after a backslash, and moves every balancing
brace of the rest by as much.

## Main definitions

* `visible`, `hidesNext`: What a text shows, and whether it hides what comes
  behind it.
* `Closes`: A brace balances those that are open at the start of a text.
* `ClosesFirst`: No earlier brace does.

## Theorems

* `closesFirst_shift`: A step moves the first balancing brace.
* `bodyLength?_eq_some_iff`: The search finds the first balancing brace.
* `bodyLength?_eq_none_iff`: It finds none if there is none.
-/

namespace PathRouting

namespace Pattern

/-- The characters that no backslash hides. Backslashes that hide something are
    left away together with what they hide. Braces are paired among these only. -/
def visible : List Char → List Char
  | [] => []
  | [c] => if c = '\\' then [] else [c]
  | c :: d :: rest => if c = '\\' then visible rest else c :: visible (d :: rest)

/-- The text ends with a backslash that hides whatever comes behind the text. -/
def hidesNext : List Char → Bool
  | [] => false
  | [c] => c == '\\'
  | c :: d :: rest => if c = '\\' then hidesNext rest else hidesNext (d :: rest)

theorem visible_cons {c : Char} (hc : c ≠ '\\') (rest : List Char) :
    visible (c :: rest) = c :: visible rest := by
  cases rest <;> simp [visible, hc]

theorem hidesNext_cons {c : Char} (hc : c ≠ '\\') (rest : List Char) :
    hidesNext (c :: rest) = hidesNext rest := by
  cases rest <;> simp [hidesNext, hc]

/-- Behind the first `n` characters stands a closing brace that can be seen,
    and with it all braces are closed: those that are opened in the text, and
    `depth` others around the one that it closes. -/
structure Closes (depth : Nat) (text : List Char) (n : Nat) : Prop where
  brace : text[n]? = some '\x7d'
  seen : hidesNext (text.take n) = false
  balanced : depth + (visible (text.take n)).count '\x7b' = (visible (text.take n)).count '\x7d'

/-- The first closing brace with which all braces are closed. -/
structure ClosesFirst (depth : Nat) (text : List Char) (n : Nat) : Prop where
  closes : Closes depth text n
  first : ∀ m < n, ¬Closes depth text m

/-! ## One step -/

variable {depth : Nat} {rest : List Char}

theorem not_closes_nil {n : Nat} : ¬Closes depth [] n := by
  rintro ⟨hbrace, -, -⟩
  cases hbrace

theorem not_closes_backslash {n : Nat} : ¬Closes depth ['\\'] n := by
  rintro ⟨hbrace, -, -⟩
  cases n with
  | zero => cases hbrace
  | succ n => cases hbrace

/-- Nothing is closed by a backslash, nor by what it hides. -/
theorem closes_escape_iff {c : Char} {n : Nat} :
    Closes depth ('\\' :: c :: rest) n ↔ ∃ m, n = m + 2 ∧ Closes depth rest m := by
  constructor
  · rintro ⟨hbrace, hseen, hbalanced⟩
    rcases n with _ | _ | m
    · cases hbrace
    · cases hseen
    · exact ⟨m, rfl, hbrace, hseen, hbalanced⟩
  · rintro ⟨m, rfl, hbrace, hseen, hbalanced⟩
    exact ⟨hbrace, hseen, hbalanced⟩

/-- One more brace is open behind an opening one. -/
theorem closes_opening_iff {n : Nat} :
    Closes depth ('\x7b' :: rest) n ↔ ∃ m, n = m + 1 ∧ Closes (depth + 1) rest m := by
  have hcount : ∀ m, depth + (visible ('\x7b' :: rest.take m)).count '\x7b' =
      (visible ('\x7b' :: rest.take m)).count '\x7d' ↔
      depth + 1 + (visible (rest.take m)).count '\x7b' = (visible (rest.take m)).count '\x7d' := by
    intro m
    rw [visible_cons (by decide), List.count_cons_self, List.count_cons_of_ne (by decide),
      Nat.add_right_comm, Nat.add_assoc]
  constructor
  · rintro ⟨hbrace, hseen, hbalanced⟩
    cases n with
    | zero => cases hbrace
    | succ m =>
        rw [List.take_succ_cons] at hseen hbalanced
        exact ⟨m, rfl, hbrace, (hidesNext_cons (by decide) _).symm.trans hseen,
          (hcount m).1 hbalanced⟩
  · rintro ⟨m, rfl, hbrace, hseen, hbalanced⟩
    exact ⟨hbrace, (hidesNext_cons (by decide) _).trans hseen, (hcount m).2 hbalanced⟩

theorem closes_closing_zero : Closes 0 ('\x7d' :: rest) 0 :=
  ⟨rfl, rfl, rfl⟩

/-- One brace less is open behind a closing one that is not the last. -/
theorem closes_closing_iff {n : Nat} :
    Closes (depth + 1) ('\x7d' :: rest) n ↔ ∃ m, n = m + 1 ∧ Closes depth rest m := by
  have hcount : ∀ m, depth + 1 + (visible ('\x7d' :: rest.take m)).count '\x7b' =
      (visible ('\x7d' :: rest.take m)).count '\x7d' ↔
      depth + (visible (rest.take m)).count '\x7b' = (visible (rest.take m)).count '\x7d' := by
    intro m
    rw [visible_cons (by decide), List.count_cons_self, List.count_cons_of_ne (by decide),
      Nat.add_right_comm, Nat.add_right_cancel_iff]
  constructor
  · rintro ⟨hbrace, hseen, hbalanced⟩
    cases n with
    | zero => simp [visible] at hbalanced
    | succ m =>
        rw [List.take_succ_cons] at hseen hbalanced
        exact ⟨m, rfl, hbrace, (hidesNext_cons (by decide) _).symm.trans hseen,
          (hcount m).1 hbalanced⟩
  · rintro ⟨m, rfl, hbrace, hseen, hbalanced⟩
    exact ⟨hbrace, (hidesNext_cons (by decide) _).trans hseen, (hcount m).2 hbalanced⟩

/-- Any other character changes nothing. -/
theorem closes_plain_iff {c : Char} (hbackslash : c ≠ '\\') (hopening : c ≠ '\x7b')
    (hclosing : c ≠ '\x7d') {n : Nat} :
    Closes depth (c :: rest) n ↔ ∃ m, n = m + 1 ∧ Closes depth rest m := by
  have hcount : ∀ m, depth + (visible (c :: rest.take m)).count '\x7b' =
      (visible (c :: rest.take m)).count '\x7d' ↔
      depth + (visible (rest.take m)).count '\x7b' = (visible (rest.take m)).count '\x7d' := by
    intro m
    rw [visible_cons hbackslash, List.count_cons_of_ne hopening, List.count_cons_of_ne hclosing]
  constructor
  · rintro ⟨hbrace, hseen, hbalanced⟩
    cases n with
    | zero => exact absurd (Option.some.inj hbrace) hclosing
    | succ m =>
        rw [List.take_succ_cons] at hseen hbalanced
        exact ⟨m, rfl, hbrace, (hidesNext_cons hbackslash _).symm.trans hseen,
          (hcount m).1 hbalanced⟩
  · rintro ⟨m, rfl, hbrace, hseen, hbalanced⟩
    exact ⟨hbrace, (hidesNext_cons hbackslash _).trans hseen, (hcount m).2 hbalanced⟩

/-- Where a step moves all balancing braces, it moves the first one. -/
theorem closesFirst_shift {depth' k : Nat} {text : List Char}
    (h : ∀ n, Closes depth text n ↔ ∃ m, n = m + k ∧ Closes depth' rest m) (n : Nat) :
    ClosesFirst depth text n ↔ ∃ m, n = m + k ∧ ClosesFirst depth' rest m := by
  constructor
  · rintro ⟨hcloses, hfirst⟩
    obtain ⟨m, rfl, hm⟩ := (h n).1 hcloses
    refine ⟨m, rfl, hm, fun i hi hclosed => ?_⟩
    exact hfirst (i + k) (Nat.add_lt_add_right hi k) ((h _).2 ⟨i, rfl, hclosed⟩)
  · rintro ⟨m, rfl, hcloses, hfirst⟩
    refine ⟨(h _).2 ⟨m, rfl, hcloses⟩, fun i hi hclosed => ?_⟩
    obtain ⟨j, rfl, hj⟩ := (h i).1 hclosed
    exact hfirst j (Nat.lt_of_add_lt_add_right hi) hj

/-! ## The search -/

/-- One step of the search finds what the search finds in the rest, moved by
    the characters that the step takes. -/
theorem map_bodyLength?_eq_some_iff {depth' k : Nat} {text : List Char} {n : Nat}
    (hrest : ∀ m, bodyLength? depth' rest = some m ↔ ClosesFirst depth' rest m)
    (hshift : ∀ n, Closes depth text n ↔ ∃ m, n = m + k ∧ Closes depth' rest m) :
    (bodyLength? depth' rest).map (· + k) = some n ↔ ClosesFirst depth text n := by
  rw [closesFirst_shift hshift, Option.map_eq_some_iff]
  exact exists_congr fun m => by rw [hrest, and_comm, eq_comm]

/-- The search finds the first brace that balances those that are open at the start. -/
theorem bodyLength?_eq_some_iff {text : List Char} {n : Nat} :
    bodyLength? depth text = some n ↔ ClosesFirst depth text n := by
  -- On the recursion of the search. In each case but the last brace, what is closed first is closed
  -- first behind the characters that are passed over.
  fun_induction bodyLength? depth text generalizing n with
  | case1 => simpa using fun h => not_closes_nil h.closes
  | case2 => simpa using fun h => not_closes_backslash h.closes
  | case3 depth c rest ih =>
      exact map_bodyLength?_eq_some_iff (fun _ => ih) fun _ => closes_escape_iff
  | case4 depth rest _ ih =>
      exact map_bodyLength?_eq_some_iff (fun _ => ih) fun _ => closes_opening_iff
  | case5 rest =>
      constructor
      · rintro ⟨⟩
        exact ⟨closes_closing_zero, fun _ hm => absurd hm (Nat.not_lt_zero _)⟩
      · rintro ⟨-, hfirst⟩
        cases n with
        | zero => rfl
        | succ n => exact absurd closes_closing_zero (hfirst 0 n.succ_pos)
  | case6 rest _ _ depth ih =>
      exact map_bodyLength?_eq_some_iff (fun _ => ih) fun _ => closes_closing_iff
  | case7 depth c rest hbackslash hopening hclosing ih =>
      exact map_bodyLength?_eq_some_iff (fun _ => ih) fun _ =>
        closes_plain_iff hbackslash hopening hclosing

/-- The search finds nothing exactly if no brace balances those that are open. -/
theorem bodyLength?_eq_none_iff {text : List Char} :
    bodyLength? depth text = none ↔ ∀ n, ¬Closes depth text n := by
  constructor
  · intro hnone n
    -- Of all balancing braces, the search would have found the first.
    induction n using Nat.strongRecOn with
    | _ n ih =>
        intro hcloses
        have hfound := bodyLength?_eq_some_iff.2 ⟨hcloses, ih⟩
        rw [hnone] at hfound
        cases hfound
  · intro hnone
    refine Option.eq_none_iff_forall_ne_some.2 fun n hn => ?_
    exact hnone n (bodyLength?_eq_some_iff.1 hn).closes

end Pattern

end PathRouting
