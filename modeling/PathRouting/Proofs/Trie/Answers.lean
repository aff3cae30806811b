import PathRouting.Trie.Search

/-!
# Right Answers

A search that tries one alternative after the other finds the first of all the
ways there are, if every way is known by the choices made on it and the
alternatives are tried in the order of their choices. What that asks of an
answer is stated once for all three outcomes, and then alternatives can be put
together without looking into any of them.

## Main definitions

* `Answers`: An answer is right for some ways to get there.

## Theorems

* `Answers.choose`, `Answers.guard`: A choice, and a condition, that all ways
  share.
* `Answers.orElseFound`: One alternative after another.
* `answers_firstFound`, `answers_option`: The elements of a list in order, and
  the only element if there is one.
-/

namespace PathRouting

variable {β γ : Type} {blame : Fault → Prop} {ways more : List Nat → γ → Prop}

/-- The answer is right for some ways, each known by the choices made on it:
    what is found is on the first of them, and nothing is found only if there
    are none. A fault is to be blamed on something. The relation is closed
    under what a search does with its answers, and these rules are all that is
    proved here. -/
def Answers (ways : List Nat → γ → Prop) (blame : Fault → Prop) :
    Except Fault (Option γ) → Prop
  | .ok none => ∀ choices x, ¬ways choices x
  | .ok (some x) => ∃ choices, ways choices x ∧
      ∀ others y, ways others y → choices < others ∨ (others = choices ∧ y = x)
  | .error e => blame e

theorem Answers.congr {answer : Except Fault (Option γ)} (h : Answers ways blame answer)
    (hways : ∀ choices x, more choices x ↔ ways choices x) : Answers more blame answer := by
  have hsame : more = ways := funext fun choices => funext fun x => propext (hways choices x)
  rw [hsame]
  exact h

theorem Answers.blame_mono {more : Fault → Prop} {answer : Except Fault (Option γ)}
    (h : Answers ways blame answer) (hblame : ∀ e, blame e → more e) :
    Answers ways more answer := by
  cases answer with
  | error e => exact hblame e h
  | ok answer => cases answer <;> exact h

/-- A choice made by all of the ways. -/
theorem Answers.choose (n : Nat) {answer : Except Fault (Option γ)}
    (h : Answers ways blame answer) :
    Answers (fun c x => ∃ d, c = n :: d ∧ ways d x) blame answer := by
  cases answer with
  | error e => exact h
  | ok answer =>
      cases answer with
      | none =>
          intro c x hway
          rcases hway with ⟨d, _, hd⟩
          exact h d x hd
      | some x =>
          rcases h with ⟨c, hc, hleast⟩
          refine ⟨n :: c, ⟨c, rfl, hc⟩, ?_⟩
          intro _ y hway
          rcases hway with ⟨d, rfl, hd⟩
          rcases hleast d y hd with hlt | ⟨rfl, rfl⟩
          · exact Or.inl (List.cons_lt_cons_iff.2 (Or.inr ⟨rfl, hlt⟩))
          · exact Or.inr ⟨rfl, rfl⟩

/-- A condition that all of the ways depend on. It may be at fault itself. -/
theorem Answers.guard {condition : Except Fault Bool} {answer : Except Fault (Option γ)}
    (hblame : ∀ e, condition = .error e → blame e)
    (h : condition = .ok true → Answers ways blame answer) :
    Answers (fun c x => condition = .ok true ∧ ways c x) blame
      (do if ← condition then answer else return none) := by
  cases condition with
  | error e => exact hblame e rfl
  | ok b =>
      cases b with
      | false =>
          intro c x hway
          rcases hway with ⟨hfalse, _⟩
          cases hfalse
      | true => exact (h rfl).congr fun c x => and_iff_right rfl

/-- The second answer counts where the first is that there is nothing. Every
    way of the first comes before every way of the second. That is all the
    search knows of an order between its ways, and the order of the choices is
    made to agree with it. -/
theorem Answers.orElseFound {first : Except Fault (Option γ)}
    {second : Unit → Except Fault (Option γ)} (hfirst : Answers ways blame first)
    (hsecond : Answers more blame (second ()))
    (hlt : ∀ c x d y, ways c x → more d y → c < d) :
    Answers (fun c x => ways c x ∨ more c x) blame (orElseFound first second) := by
  cases first with
  | error e => exact hfirst
  | ok answer =>
      cases answer with
      | none =>
          refine Answers.congr hsecond fun c x => ?_
          exact or_iff_right (hfirst c x)
      -- The second answer is not asked for, since all of its ways come later.
      | some x =>
          rcases hfirst with ⟨c, hc, hleast⟩
          refine ⟨c, Or.inl hc, fun d y hd => ?_⟩
          rcases hd with hd | hd
          · exact hleast d y hd
          · exact Or.inl (hlt c x d y hc hd)

theorem firstFound_cons (f : β → Except Fault (Option γ)) (b : β) (rest : List β) :
    firstFound f (b :: rest) = orElseFound (f b) fun _ => firstFound f rest := by
  rw [firstFound, PathRouting.orElseFound.eq_def]

theorem firstFound_singleton (f : β → Except Fault (Option γ)) (b : β) :
    firstFound f [b] = f b := by
  rw [firstFound_cons, PathRouting.orElseFound.eq_def]
  rcases f b with e | _ | x <;> rfl

/-- The answers behind the elements of a list, in order. The number of an
    element is its number in the whole list, whether or not others are left out,
    so that a choice can be told from the tree alone, without the token at hand. -/
theorem answers_firstFound (ways : β → List Nat → γ → Prop) (n : Nat) (p : β → Bool)
    {f : β → Except Fault (Option γ)} {l : List β}
    (h : ∀ b ∈ l, p b = true → Answers (ways b) blame (f b)) :
    Answers (fun c x => ∃ i b d, l[i]? = some b ∧ p b = true ∧ c = (i + n) :: d ∧ ways b d x)
      blame (firstFound f (l.filter p)) := by
  induction l generalizing n with
  | nil =>
      intro c x hway
      rcases hway with ⟨i, b, d, hb, _⟩
      cases hb
  | cons b rest ih =>
      -- The numbers behind the first element start one higher, whether it is left out
      -- or not.
      have hrest := ih (n + 1) fun b hb => h b (List.mem_cons_of_mem _ hb)
      by_cases hp : p b = true
      · rw [List.filter_cons_of_pos hp, firstFound_cons]
        have hhead := (h b List.mem_cons_self hp).choose n
        refine Answers.congr (Answers.orElseFound hhead hrest ?_) fun c x => ?_
        · intro _ x _ y hfirst hsecond
          rcases hfirst with ⟨d, rfl, _⟩
          rcases hsecond with ⟨i, b', d', _, _, rfl, _⟩
          exact List.cons_lt_cons_iff.2 (Or.inl (by omega))
        · constructor
          · intro hway
            rcases hway with ⟨i, b', d, hb', hpb', rfl, hd⟩
            cases i with
            | zero =>
                cases hb'
                exact Or.inl ⟨d, by rw [Nat.zero_add], hd⟩
            | succ i => exact Or.inr ⟨i, b', d, hb', hpb', by rw [Nat.succ_add_eq_add_succ], hd⟩
          · intro hway
            rcases hway with ⟨d, rfl, hd⟩ | ⟨i, b', d, hb', hpb', rfl, hd⟩
            · exact ⟨0, b, d, rfl, hp, by rw [Nat.zero_add], hd⟩
            · exact ⟨i + 1, b', d, hb', hpb', by rw [Nat.succ_add_eq_add_succ], hd⟩
      · rw [List.filter_cons_of_neg hp]
        refine hrest.congr fun c x => ?_
        constructor
        · intro hway
          rcases hway with ⟨i, b', d, hb', hpb', rfl, hd⟩
          cases i with
          | zero =>
              cases hb'
              exact absurd hpb' hp
          | succ i => exact ⟨i, b', d, hb', hpb', by rw [Nat.succ_add_eq_add_succ], hd⟩
        · intro hway
          rcases hway with ⟨i, b', d, hb', hpb', rfl, hd⟩
          exact ⟨i + 1, b', d, hb', hpb', by rw [Nat.succ_add_eq_add_succ], hd⟩

/-- The answer behind the only element, if there is one. -/
theorem answers_option (ways : β → List Nat → γ → Prop) (n : Nat)
    {f : β → Except Fault (Option γ)} {o : Option β}
    (h : ∀ b, o = some b → Answers (ways b) blame (f b)) :
    Answers (fun c x => ∃ b d, o = some b ∧ c = n :: d ∧ ways b d x) blame
      (firstFound f o.toList) := by
  cases o with
  | none =>
      intro c x hway
      rcases hway with ⟨b, d, hb, _⟩
      cases hb
  | some b =>
      rw [Option.toList_some, firstFound_singleton]
      -- The number in front is that of the only element.
      refine ((h b rfl).choose n).congr fun c x => ?_
      constructor
      · intro hway
        rcases hway with ⟨b', d, hb', rfl, hd⟩
        cases hb'
        exact ⟨d, rfl, hd⟩
      · intro hway
        rcases hway with ⟨d, rfl, hd⟩
        exact ⟨b, d, rfl, rfl, hd⟩

end PathRouting
