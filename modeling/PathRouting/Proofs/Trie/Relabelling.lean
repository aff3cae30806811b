import PathRouting.Proofs.Trie.Bindings

/-!
# Who Came First at a Position

A node keeps the variable of the path it was made for, and whatever path comes
later to the same position is matched through that variable. Which path came
first is not seen: the variables of one position agree on the name, on what
they accept and on how they take tokens, and nothing else of a variable is
looked at in a search.

There is one exception. A greedy variable may hold what it takes to a
requirement besides its expression, and whether it does is not part of its
position. A requirement that repeats the expression is as good as none where a
position is compared, but it is asked where a text is matched, and then
without what follows the text. So it does matter who came first if only one of
two variables has such a requirement.

The argument is not about relabelling. A relation between trees is unseen if
related trees have the same at their roots and related children in the same
places; a search then cannot tell them apart, by induction on the tokens.

## Main definitions

* `Variable.isHeld`, `Variable.Like`: Variables that a search takes for the
  same.
* `Trie.Unseen`: A relation between trees that a search does not see.
* `Trie.labelAt?`, `Trie.relabel`: The variable at a node, and another one in
  its place.

## Theorems

* `greedyTake_of_like`: Like variables take the same of the tokens.
* `Trie.Unseen.search_eq`: A search does not tell related trees apart.
* `Trie.Unseen.walk`: There are the same walks through related trees.
* `Trie.unseen_relabels`: Another label is not seen.
* `Trie.relabel_unseen`: It makes no difference which of two variables a node
  keeps.
-/

namespace PathRouting

/-- The variable is greedy and holds what it takes to a requirement besides
    its expression. Whether it does is decided by where its validator comes
    from, and not by what that accepts. -/
def Variable.isHeld (v : Variable) : Bool :=
  v.glob.any fun g => g.greedy && g.separate

/-- The variables have one position, and are held to a requirement alike. A
    position compares requirements by form and leaves out whether they are
    asked, so the second part does not follow from the first. -/
def Variable.Like (v w : Variable) : Prop :=
  v.position = w.position ∧ v.isHeld = w.isHeld

theorem Variable.Like.refl (v : Variable) : v.Like v :=
  ⟨rfl, rfl⟩

theorem Variable.Like.symm {v w : Variable} (h : v.Like w) : w.Like v :=
  ⟨h.1.symm, h.2.symm⟩

theorem Variable.Like.name_eq {v w : Variable} (h : v.Like w) : v.name = w.name :=
  congrArg Position.name h.1

/-- Like variables take several tokens in the same way, or one token. -/
theorem Variable.Like.exists_glob {v w : Variable} {g : Glob} (h : v.Like w)
    (hv : v.glob = some g) :
    ∃ g', w.glob = some g' ∧ g'.greedy = g.greedy ∧
      g'.regex.map Validator.form = g.regex.map Validator.form ∧
      (g.greedy = true → g'.separate = g.separate) := by
  rcases glob_of_position h.1 hv with ⟨g', hw, hgreedy, hregex⟩
  refine ⟨g', hw, hgreedy, hregex, fun htrue => ?_⟩
  have hheld := h.2
  rw [isHeld, isHeld, hv, hw, Option.any_some, Option.any_some, hgreedy, htrue, Bool.true_and,
    Bool.true_and] at hheld
  exact hheld.symm

section Greedy

variable [Host]

/-- A greedy variable whose expression was replaced by something else takes nothing. -/
theorem greedyTake_of_no_regex {v : Variable} {g : Glob} (h : ∀ r, g.regex ≠ some (.regex r))
    (tokens : List Token) :
    greedyTake v g tokens =
      if (joined? tokens).isSome then .ok none else .error (.type .notText) := by
  unfold greedyTake
  split
  · next hregex _ => exact absurd hregex (h _)
  · next hnone => rw [hnone]; rfl
  · next hsome _ => rw [hsome]; rfl

/-- Like variables take the same of the tokens. -/
theorem greedyTake_of_like {v w : Variable} {g g' : Glob} (h : v.Like w) (hv : v.glob = some g)
    (hw : w.glob = some g') (hgreedy : g.greedy = true) (tokens : List Token) :
    greedyTake v g tokens = greedyTake w g' tokens := by
  rcases h.exists_glob hv with ⟨_, hsome, _, hregex, hseparate⟩
  cases hw.symm.trans hsome
  by_cases hr : ∃ r, g.regex = some (.regex r)
  · rcases hr with ⟨r, hr⟩
    have hr' : g'.regex = some (.regex r) := regex_of_form (hregex.trans (by rw [hr]))
    unfold greedyTake
    rw [hr, hr', hseparate hgreedy]
    simp only [accepts_of_position h.1]
  · have hno : ∀ r, g.regex ≠ some (.regex r) := fun r heq => hr ⟨r, heq⟩
    have hno' : ∀ r, g'.regex ≠ some (.regex r) := fun r heq =>
      hno r (regex_of_form (hregex.symm.trans (by rw [heq])))
    rw [greedyTake_of_no_regex hno, greedyTake_of_no_regex hno']

end Greedy

section Related

variable {β γ δ : Type}

/-- The first answer is the same for elements that are answered alike. -/
theorem firstFound_congr {S : β → γ → Prop} {f : β → Except Fault (Option δ)}
    {f' : γ → Except Fault (Option δ)} {l : List β} {l' : List γ} (h : List.Forall₂ S l l')
    (hf : ∀ b c, S b c → f b = f' c) : firstFound f l = firstFound f' l' := by
  induction h with
  | nil => rfl
  | cons hbc _ ih => rw [firstFound, firstFound, hf _ _ hbc, ih]

theorem forall₂_toList {S : β → γ → Prop} {x : Option β} {y : Option γ} (h : Option.Rel S x y) :
    List.Forall₂ S x.toList y.toList := by
  cases h with
  | none => exact .nil
  | some hbc => exact .cons hbc .nil

/-- Elements with the same labels are found alike by their labels. Tables of
    children are such lists, and a related table has its entries in the same order. -/
theorem rel_find? {S : β → γ → Prop} {p : β → Bool} {q : γ → Bool} {l : List β} {l' : List γ}
    (h : List.Forall₂ S l l') (hpq : ∀ b c, S b c → p b = q c) :
    Option.Rel S (l.find? p) (l'.find? q) := by
  induction h with
  | nil => exact .none
  | @cons b c l l' hbc _ ih =>
      rw [List.find?_cons, List.find?_cons, hpq b c hbc]
      cases q c with
      | true => exact .some hbc
      | false => exact ih

/-- A list with one element changed for a related one. -/
theorem forall₂_modify {S : β → β → Prop} (hrefl : ∀ b, S b b) {f : β → β} {l : List β} {i : Nat}
    (h : ∀ b, l[i]? = some b → S b (f b)) : List.Forall₂ S l (l.modify i f) := by
  induction l generalizing i with
  | nil => simp
  | cons b rest ih =>
      cases i with
      | zero => exact .cons (h b rfl) (List.forall₂_same.2 fun c _ => hrefl c)
      | succ i => exact .cons (hrefl b) (ih h)

end Related

namespace Trie

variable {α : Type} {delimiters : List String}

/-- A relation that a search does not see: related trees have the same at
    their roots, and related children behind the same conditions and texts and
    behind like variables. It is stated for relations of any kind, so that one
    induction serves every change that goes unseen. -/
structure Unseen (R : Trie α → Trie α → Prop) : Prop where
  terminal : ∀ {t t'}, R t t' → t.terminal = t'.terminal
  fixed : ∀ {t t'}, R t t' → List.Forall₂ (fun e e' => e.1 = e'.1 ∧ R e.2 e'.2) t.fixed t'.fixed
  judged : ∀ {t t'}, R t t' →
    List.Forall₂ (fun e e' => e.1 = e'.1 ∧ R e.2 e'.2) t.judged t'.judged
  binder : ∀ {t t'}, R t t' →
    Option.Rel (fun e e' => e.1.Like e'.1 ∧ R e.2 e'.2) t.binder t'.binder

/-- A search that goes on does not tell related trees apart, nor globs that
    are equally far. -/
def Respects (R : Trie α → Trie α → Prop) (onward : Onward α) : Prop :=
  ∀ skip t t' held glob other, R t t' →
    glob.map OpenGlob.progress = other.map OpenGlob.progress →
    onward skip t held glob = onward skip t' held other

namespace Unseen

variable {R : Trie α → Trie α → Prop} (hR : Unseen R) {t t' : Trie α}

include hR

/-- The relation is not seen from the other side either. -/
theorem flip : Unseen (flip R) where
  terminal h := (hR.terminal h).symm
  fixed h := (hR.fixed h).flip.imp fun _ _ hbelow => ⟨hbelow.1.symm, hbelow.2⟩
  judged h := (hR.judged h).flip.imp fun _ _ hbelow => ⟨hbelow.1.symm, hbelow.2⟩
  binder {t t'} h := by
    have hbinder := hR.binder h
    cases ht' : t'.binder <;> cases ht : t.binder <;> rw [ht, ht'] at hbinder <;> cases hbinder
    · exact .none
    · next hbelow => exact .some ⟨hbelow.1.symm, hbelow.2⟩

theorem fixedChild? (h : R t t') (key : EdgeKey) :
    Option.Rel (fun e e' => e.1 = e'.1 ∧ R e.2 e'.2) (t.fixedChild? key) (t'.fixedChild? key) :=
  rel_find? (hR.fixed h) fun e e' hbelow => by rw [hbelow.1]

section Ways

variable {onward : Onward α} (honward : Respects R onward) (h : R t t')

include honward h

/-- The way on over the child for exactly this attribute. -/
theorem viaExact_eq (c : Condition) (closed : Bindings) :
    viaExact onward t c closed = viaExact onward t' c closed := by
  unfold viaExact
  refine firstFound_congr (S := fun e e' => e.1 = e'.1 ∧ R e.2 e'.2) (forall₂_toList ?_)
    fun e e' hbelow => honward 0 e.2 e'.2 closed none none hbelow.2 rfl
  split
  · exact hR.fixedChild? h _
  · exact .none

/-- The way on over the child that any value of the attribute will do for. -/
theorem viaAnything_eq (c : Condition) (closed : Bindings) :
    viaAnything onward t c closed = viaAnything onward t' c closed := by
  unfold viaAnything
  split
  · exact firstFound_congr (forall₂_toList (hR.fixedChild? h _))
      fun e e' hbelow => honward 0 e.2 e'.2 closed none none hbelow.2 rfl
  · rfl

/-- The way on over the child for this very piece. -/
theorem viaLiteral_eq (s : Value) (held : Bindings) {glob other : Option OpenGlob}
    (hother : glob.map OpenGlob.progress = other.map OpenGlob.progress) :
    viaLiteral onward t s held glob = viaLiteral onward t' s held other := by
  unfold viaLiteral
  refine firstFound_congr (S := fun e e' => e.1 = e'.1 ∧ R e.2 e'.2) (forall₂_toList ?_)
    fun e e' hbelow => ?_
  · cases pieceKey? s with
    | none => exact .none
    | some key => exact hR.fixedChild? h key
  · rw [hbelow.1, honward 0 e.2 e'.2 held glob other hbelow.2 hother, closeGlob_eq held glob,
      closeGlob_eq held other, closeGlob_of_progress hother,
      honward 0 e.2 e'.2 _ none none hbelow.2 rfl]

variable [Host]

/-- The ways on over the children whose conditions judge the attribute. -/
theorem viaJudged_eq (c : Condition) (closed : Bindings) :
    viaJudged onward t c closed = viaJudged onward t' c closed := by
  unfold viaJudged
  refine firstFound_congr (S := fun e e' => e.1 = e'.1 ∧ R e.2 e'.2) ?_ fun e e' hbelow => ?_
  · split
    · exact .nil
    · refine List.rel_filter (fun e e' hbelow => ?_) (hR.judged h)
      change e.1.1.equal c.kind = true ↔ e'.1.1.equal c.kind = true
      rw [hbelow.1]
  · rw [hbelow.1]
    simp only [honward 0 e.2 e'.2 closed none none hbelow.2 rfl]

/-- The way on over the variable. -/
theorem viaBinder_eq (s : Value) (rest : List Token) (closed : Bindings) :
    viaBinder onward delimiters t s rest closed = viaBinder onward delimiters t' s rest closed := by
  unfold viaBinder
  refine firstFound_congr (S := fun e e' => e.1.Like e'.1 ∧ R e.2 e'.2) ?_ fun e e' hbelow => ?_
  · split
    · exact .nil
    · exact forall₂_toList (hR.binder h)
  · rcases hbelow with ⟨hlike, hbelow⟩
    -- What the search goes on to behind either variable is the same, since the glob that one opens
    -- is as far as that of the other.
    have hnone : ∀ held, onward 0 e.2 held none = onward 0 e'.2 held none :=
      fun held => honward 0 e.2 e'.2 held none none hbelow rfl
    cases hglob : e.1.glob with
    | none =>
        rw [glob_none_of_position hlike.1 hglob]
        simp only [accepts_of_position hlike.1, hlike.name_eq, hnone]
    | some g =>
        rcases hlike.exists_glob hglob with ⟨g', hglob', hgreedy, _⟩
        rw [hglob']
        simp only [hgreedy]
        split
        · next htrue =>
          rw [greedyTake_of_like hlike hglob hglob' htrue, hlike.name_eq]
          simp only [fun n held => honward n e.2 e'.2 held none none hbelow rfl]
        · simp only [accepts_of_position hlike.1,
            honward 0 e.2 e'.2 closed _ _ hbelow (progress_of_position hlike.1 [s])]

omit hR in
/-- The way on with the open glob. -/
theorem viaOpen_eq (s : Value) (held : Bindings) {glob other : Option OpenGlob}
    (hother : glob.map OpenGlob.progress = other.map OpenGlob.progress) :
    viaOpen onward delimiters t s held glob = viaOpen onward delimiters t' s held other := by
  unfold viaOpen
  have hglobs : Option.Rel (fun g g' => g.progress = g'.progress) glob other := by
    cases glob with
    | none =>
        rw [Option.map_eq_none_iff.1 hother.symm]
        exact .none
    | some g =>
        rcases Option.map_eq_some_iff.1 hother.symm with ⟨g', rfl, hprogress⟩
        exact .some hprogress.symm
  refine firstFound_congr (forall₂_toList hglobs) fun g g' hprogress => ?_
  have hposition : g.owner.position = g'.owner.position := congrArg Prod.fst hprogress
  have htaken : g.taken = g'.taken := congrArg Prod.snd hprogress
  rw [honward 0 t t' held (some g) (some g') h (congrArg some hprogress), htaken]
  simp only [accepts_of_position hposition,
    honward 0 t t' held _ _ h (progress_of_position hposition (g'.taken ++ [s]))]

omit honward h in
/-- A search does not tell related trees apart, nor globs that are equally
    far. The induction is on the tokens, and each of the ways on has its own
    lemma above. -/
theorem search_eq (tokens : List Token) :
    Respects R fun skip t held glob => search delimiters skip t tokens held glob := by
  induction tokens with
  | nil =>
      intro skip t t' held glob other h hother
      change search delimiters skip t [] held glob = search delimiters skip t' [] held other
      rw [search, search, hR.terminal h, closeGlob_eq held glob, closeGlob_eq held other,
        closeGlob_of_progress hother]
  | cons token rest ih =>
      intro skip t t' held glob other h hother
      -- The globs have the same name and have taken the same, so closing them binds the same.
      have hclosed : closeGlob held glob = closeGlob held other := by
        rw [closeGlob_eq held glob, closeGlob_eq held other, closeGlob_of_progress hother]
      change search delimiters skip t (token :: rest) held glob =
        search delimiters skip t' (token :: rest) held other
      cases skip with
      | succ skip =>
          rw [search, search]
          exact ih skip t t' held glob other h hother
      | zero =>
          rcases token with s | c
          · rw [search, search]
            simp only [hclosed, hR.viaLiteral_eq ih h s held hother, hR.viaBinder_eq ih h,
              viaOpen_eq ih h s held hother]
          · rw [search, search]
            simp only [hclosed, hR.viaExact_eq ih h, hR.viaJudged_eq ih h,
              hR.viaAnything_eq ih h]

omit honward in
theorem find_eq (tokens : List Token) :
    t.find delimiters tokens = t'.find delimiters tokens :=
  hR.search_eq tokens 0 t t' [] none none h rfl

end Ways

section Children

variable (h : R t t')

include h

/-- A child behind a text or an exact condition has a related one in its place. -/
theorem exists_fixedChild? {key : EdgeKey} {s : Segment} {child : Trie α}
    (hkey : t.fixedChild? key = some (s, child)) :
    ∃ child', t'.fixedChild? key = some (s, child') ∧ R child child' := by
  have hrel := hR.fixedChild? h key
  rw [hkey] at hrel
  generalize t'.fixedChild? key = found at hrel
  cases hrel with
  | @some _ e hbelow => exact ⟨e.2, congrArg some (Prod.ext hbelow.1.symm rfl), hbelow.2⟩

theorem exists_judged {i : Nat} {e : (Value × Validator) × Trie α} (hi : t.judged[i]? = some e) :
    ∃ child', t'.judged[i]? = some (e.1, child') ∧ R e.2 child' := by
  rcases List.getElem?_eq_some_iff.1 hi with ⟨hlt, rfl⟩
  have hlt' := (hR.judged h).length_eq ▸ hlt
  have hrel := (hR.judged h).get hlt hlt'
  refine ⟨t'.judged[i].2, ?_, hrel.2⟩
  rw [List.getElem?_eq_getElem hlt']
  exact congrArg some (Prod.ext hrel.1.symm rfl)

/-- The child behind a variable has a related one behind a like variable. -/
theorem exists_binder {v : Variable} {child : Trie α} (hv : t.binder = some (v, child)) :
    ∃ w child', t'.binder = some (w, child') ∧ v.Like w ∧ R child child' := by
  have hrel := hR.binder h
  rw [hv] at hrel
  generalize t'.binder = found at hrel
  cases hrel with
  | @some _ e hbelow => exact ⟨e.1, e.2, rfl, hbelow.1, hbelow.2⟩

end Children

/-- There are the same walks through related trees, with the same choices and
    bindings. The induction is on the walk. It says more than that the search
    finds the same: what it would have found next is the same as well. -/
theorem walk [Host] {tokens : List Token} {glob : Option OpenGlob} {choices : List Nat} {path : α}
    {b : Bindings} (hwalk : Walk delimiters t tokens glob choices path b) {other : Option OpenGlob}
    (h : R t t') (hother : glob.map OpenGlob.progress = other.map OpenGlob.progress) :
    Walk delimiters t' tokens other choices path b := by
  -- Every child has its counterpart in the other tree. Only at a variable are the two not labelled
  -- the same, and there they take the same.
  induction hwalk generalizing t' other with
  | stop ends =>
      rw [closeGlob_of_progress hother]
      exact .stop ((hR.terminal h).symm.trans ends)
  | exact kind value leads onward ih =>
      rcases hR.exists_fixedChild? h leads with ⟨child', hat, hbelow⟩
      rw [closeGlob_of_progress hother]
      exact .exact kind value hat (ih hbelow rfl)
  | @judged t c rest i e glob choices path b present leads kind accepts onward ih =>
      rcases hR.exists_judged h leads with ⟨child', hat, hbelow⟩
      rw [closeGlob_of_progress hother]
      exact .judged (e := (e.1, child')) present hat kind accepts (ih hbelow rfl)
  | anything leads onward ih =>
      rcases hR.exists_fixedChild? h leads with ⟨child', hat, hbelow⟩
      rw [closeGlob_of_progress hother, (hR.judged h).length_eq]
      exact .anything hat (ih hbelow rfl)
  | literal leads kind onward ih =>
      rcases hR.exists_fixedChild? h leads with ⟨child', hat, hbelow⟩
      rw [closeGlob_of_progress hother]
      exact .literal hat kind (ih hbelow rfl)
  | separator leads kind onward ih =>
      rcases hR.exists_fixedChild? h leads with ⟨child', hat, hbelow⟩
      exact .separator hat kind (ih hbelow hother)
  | single mark leads kind accepts onward ih =>
      rcases hR.exists_binder h leads with ⟨w, child', hat, hlike, hbelow⟩
      rw [accepts_of_position hlike.1] at accepts
      rw [closeGlob_of_progress hother, hlike.name_eq]
      exact .single mark hat (glob_none_of_position hlike.1 kind) accepts (ih hbelow rfl)
  | several mark leads kind greedy accepts onward ih =>
      rcases hR.exists_binder h leads with ⟨w, child', hat, hlike, hbelow⟩
      rcases hlike.exists_glob kind with ⟨g', hglob, hgreedy, _⟩
      rw [accepts_of_position hlike.1] at accepts
      rw [closeGlob_of_progress hother]
      exact .several mark hat hglob (hgreedy.trans greedy) accepts
        (ih hbelow (progress_of_position hlike.1 _))
  | greedy mark leads kind greedy takes onward ih =>
      rcases hR.exists_binder h leads with ⟨w, child', hat, hlike, hbelow⟩
      rcases hlike.exists_glob kind with ⟨g', hglob, hgreedy, _⟩
      rw [greedyTake_of_like hlike kind hglob greedy] at takes
      rw [closeGlob_of_progress hother, hlike.name_eq]
      exact .greedy mark hat hglob (hgreedy.trans greedy) takes (ih hbelow rfl)
  | skip mark onward ih =>
      rcases Option.map_eq_some_iff.1 hother.symm with ⟨g', rfl, _⟩
      exact .skip mark (ih h hother)
  | take mark accepts onward ih =>
      rcases Option.map_eq_some_iff.1 hother.symm with ⟨g', rfl, hprogress⟩
      have hposition := congrArg Prod.fst hprogress
      have htaken : g'.taken = _ := congrArg Prod.snd hprogress
      refine .take mark ((accepts_of_position hposition _).trans accepts) (ih h ?_)
      rw [htaken]
      exact progress_of_position hposition.symm _

end Unseen

/-- A turn on the way to a node: to which of the children it goes. Turns name
    a node, whose variable can then be replaced, without a word about which
    paths lead there. -/
inductive Turn where
  | fixed (i : Nat)
  | judged (i : Nat)
  | binder

/-- The variable that a node on the way has its last child for. -/
def labelAt? : List Turn → Trie α → Option Variable
  | [], t => t.binder.map Prod.fst
  | .fixed i :: turns, t => t.fixed[i]?.bind fun e => labelAt? turns e.2
  | .judged i :: turns, t => t.judged[i]?.bind fun e => labelAt? turns e.2
  | .binder :: turns, t => t.binder.bind fun e => labelAt? turns e.2

/-- The tree with another variable there. -/
def relabel (w : Variable) : List Turn → Trie α → Trie α
  | [], t => .node t.depth t.terminal t.fixed t.judged (t.binder.map fun e => (w, e.2))
  | .fixed i :: turns, t =>
    .node t.depth t.terminal (t.fixed.modify i fun e => (e.1, relabel w turns e.2)) t.judged
      t.binder
  | .judged i :: turns, t =>
    .node t.depth t.terminal t.fixed (t.judged.modify i fun e => (e.1, relabel w turns e.2))
      t.binder
  | .binder :: turns, t =>
    .node t.depth t.terminal t.fixed t.judged (t.binder.map fun e => (e.1, relabel w turns e.2))

/-- The trees are the same but for one variable, if at all. -/
def Relabels (v w : Variable) (t t' : Trie α) : Prop :=
  t = t' ∨ ∃ turns, t.labelAt? turns = some v ∧ t.relabel w turns = t'

/-- Another variable is not seen if it is like the one before. -/
theorem unseen_relabels {v w : Variable} (hlike : v.Like w) :
    Unseen (Relabels v w : Trie α → Trie α → Prop) := by
  have hsame : ∀ {β : Type} (e : β × Trie α), e.1 = e.1 ∧ Relabels v w e.2 e.2 :=
    fun _ => ⟨rfl, Or.inl rfl⟩
  have hall : ∀ {β : Type} (l : List (β × Trie α)),
      List.Forall₂ (fun e e' => e.1 = e'.1 ∧ Relabels v w e.2 e'.2) l l :=
    fun l => List.forall₂_same.2 fun e _ => hsame e
  have hlabel : ∀ {β : Type} {turns : List Turn} {l : List (β × Trie α)} {i : Nat},
      (l[i]?.bind fun e => labelAt? turns e.2) = some v → ∀ e, l[i]? = some e →
      e.1 = e.1 ∧ Relabels v w e.2 (relabel w turns e.2) := by
    intro β turns l i hat e he
    rw [he] at hat
    exact ⟨rfl, Or.inr ⟨turns, hat, rfl⟩⟩
  -- On the turns to the node that is relabelled: it is this node, or it is behind one child and the
  -- other children stay as they are. Each kind of child in turn.
  constructor
  · rintro t t' (rfl | ⟨turns, hat, rfl⟩)
    · rfl
    · rcases turns with _ | ⟨_ | _ | _, turns⟩ <;> rfl
  · rintro t t' (rfl | ⟨turns, hat, rfl⟩)
    · exact hall _
    · rcases turns with _ | ⟨i | _ | _, turns⟩
      · exact hall _
      · exact forall₂_modify hsame (hlabel hat)
      · exact hall _
      · exact hall _
  · rintro t t' (rfl | ⟨turns, hat, rfl⟩)
    · exact hall _
    · rcases turns with _ | ⟨_ | i | _, turns⟩
      · exact hall _
      · exact hall _
      · exact forall₂_modify hsame (hlabel hat)
      · exact hall _
  · have hbinder : ∀ x : Option (Variable × Trie α),
        Option.Rel (fun e e' => e.1.Like e'.1 ∧ Relabels v w e.2 e'.2) x x := by
      intro x
      cases x with
      | none => exact .none
      | some e => exact .some ⟨.refl e.1, Or.inl rfl⟩
    rintro t t' (rfl | ⟨turns, hat, rfl⟩)
    · exact hbinder _
    · rcases turns with _ | ⟨_ | _ | _, turns⟩
      · rw [labelAt?] at hat
        rcases Option.map_eq_some_iff.1 hat with ⟨e, he, rfl⟩
        rw [relabel, binder, he]
        exact .some ⟨hlike, Or.inl rfl⟩
      · exact hbinder _
      · exact hbinder _
      · rw [labelAt?] at hat
        rcases Option.bind_eq_some_iff.1 hat with ⟨e, he, hbelow⟩
        rw [relabel, binder, he]
        exact .some ⟨.refl e.1, Or.inr ⟨turns, hbelow, rfl⟩⟩

/-- It makes no difference which of two variables of one position a node
    keeps, if they are held to a requirement alike: the search finds the same,
    and there are the same walks with the same bindings. And whichever path
    came first, what is found is on a run of that path, over its own
    conditions and variables, and what is bound suits these. -/
theorem relabel_unseen [Host] :
    (∀ (v w : Variable) (t : Trie α) (turns : List Turn), v.sharesPosition w = true →
      v.isHeld = w.isHeld → t.labelAt? turns = some v → ∀ (delimiters : List String)
      (tokens : List Token), (t.relabel w turns).find delimiters tokens = t.find delimiters tokens ∧
        ∀ choices path b, Walk delimiters (t.relabel w turns) tokens none choices path b ↔
          Walk delimiters t tokens none choices path b) ∧
    ∀ (delimiters : List String) (t : Trie α) (paths : List (α × Path)), t.Built delimiters paths →
      ∀ (attributes : List Condition) (pieces : List String) (a : α) (b : Bindings),
        t.find delimiters (attributes.map Token.attribute ++ pieces.map Token.ofText) =
          .ok (some (a, b)) →
        ∃ p, (a, p) ∈ paths ∧
          (∃ choices, Run delimiters (entriesOf paths) p.segments
            (attributes.map Token.attribute ++ pieces.map Token.ofText) none choices b) ∧
          Binds delimiters pieces p.binders b := by
  constructor
  · intro v w t turns hshares hheld hat delimiters tokens
    have hunseen : Unseen (Relabels v w : Trie α → Trie α → Prop) :=
      unseen_relabels ⟨Variable.sharesPosition_iff.1 hshares, hheld⟩
    have hrelabels : Relabels v w t (t.relabel w turns) := Or.inr ⟨turns, hat, rfl⟩
    -- A tree is related to the one with the other variable, and relations may be turned round.
    exact ⟨(hunseen.find_eq hrelabels tokens).symm, fun choices path b =>
      ⟨fun hwalk => hunseen.flip.walk hwalk hrelabels rfl,
        fun hwalk => hunseen.walk hwalk hrelabels rfl⟩⟩
  · intro delimiters t paths hbuilt attributes pieces a b hfind
    rcases hbuilt.exists_binds hfind with ⟨p, hp, hrun, hbinds, _⟩
    exact ⟨p, hp, hrun, hbinds⟩

/-- A node keeps the variable of the first path. With that of the second one,
    which has a default, the second path is found just the same. -/
theorem relabel_unseen_of_two :
    let v : Variable := ⟨"x", none, .none, some "/", none⟩
    let w : Variable := ⟨"x", none, .int 5, some "/", none⟩
    let first : Path := ⟨[], [.separator "/", .var v, .separator "/", .literal "b"]⟩
    let second : Path := ⟨[], [.separator "/", .var w, .separator "/", .literal "c"]⟩
    let t : Trie Nat := (Trie.insertAll (entriesOf [(0, first), (1, second)]) .empty).trie
    let pieces := ["/", "a", "/", "c"]
    t.labelAt? [.fixed 0] = some v ∧
      @Trie.find Host.idle Nat ["/", "."] (t.relabel w [.fixed 0]) (pieces.map Token.ofText) =
        .ok (some (1, [("x", .one (.text "a"))])) ∧
      ∃ p, (1, p) ∈ [(0, first), (1, second)] ∧
        @Binds Host.idle ["/", "."] pieces p.binders [("x", .one (.text "a"))] := by
  intro v w first second t pieces
  have hfirst : @Pattern.compile Host.idle ["/", "."] "/:x/b" [] [] = .ok [first.parts] := by cbv
  have hsecond : @Pattern.compile Host.idle ["/", "."] "/:x/c" [] [("x", .int 5)] =
      .ok [second.parts] := by cbv
  have hcompiled : ∀ e ∈ [(0, first), (1, second)], e.2.Compiled ["/", "."] := by
    intro e he
    rcases List.mem_pair.1 he with rfl | rfl
    · exact ⟨_, _, _, _, _, hfirst, List.mem_singleton_self _⟩
    · exact ⟨_, _, _, _, _, hsecond, List.mem_singleton_self _⟩
  have hbuilt : t.Built ["/", "."] [(0, first), (1, second)] :=
    Built.empty.insertAll hcompiled (by cbv)
  have hfind : @Trie.find Host.idle Nat ["/", "."] t (pieces.map Token.ofText) =
      .ok (some (1, [("x", .one (.text "a"))])) := by cbv
  have hlabel : t.labelAt? [.fixed 0] = some v := by cbv
  rcases @relabel_unseen Nat Host.idle with ⟨hrelabel, hbinds⟩
  have hsame := (hrelabel v w t [.fixed 0] (by cbv) rfl hlabel ["/", "."]
    (pieces.map Token.ofText)).1
  rcases hbinds _ t _ hbuilt [] pieces 1 _ hfind with ⟨p, hp, _, hbound⟩
  exact ⟨hlabel, hsame.trans hfind, p, hp, hbound⟩

end Trie

end PathRouting
