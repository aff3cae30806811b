import PathRouting.Proofs.Sameness
import PathRouting.Trie.Basic

/-!
# Insertion and What Stands in Its Way

A node files its children by kind, in three tables. Seen from outside there is
one table: every segment has a place, and behind a place there is one child at
most. Setting a child changes what is behind its own place and nothing else,
whichever table it is in.

With that, a path can be inserted exactly if all of its segments can be filed
and the check finds nothing in the way, and what an inserted path adds to the
check is exactly a conflict with that path. The check on the trie is therefore
the same as the check against every path in turn.

## Main definitions

* `Place`, `Segment.place`: Where a segment is filed.
* `Segment.isFileable`: The segment can be filed at all.
* `Trie.childAt?`: What is behind a place.
* `Trie.blocks`: A variable cannot share its place with the one already there.
* `Conflict`: Two paths part at variables that cannot share a place.

## Theorems

* `child?_eq_ok`: Where a segment leads.
* `childAt?_setChild`, `blocks_setChild`: What setting a child changes.
* `insert_eq_ok`: When a path can be inserted.
* `check_insert`: What an inserted path adds to the check.
-/

namespace PathRouting

/-- Where a segment is filed at a node. Segments with one place lead to one
    child, so that a path is found by its places, and two paths with the same
    places are the same to the tree. -/
inductive Place where
  | fixed (key : EdgeKey)
  | judged (kind validator : Form)
  | binder (position : Position)
  deriving DecidableEq, Repr

/-- These are places for variables, and a node has one of them at most. Two
    places clash only if they differ. -/
def Place.clashes : Place → Place → Bool
  | .binder position, .binder other => position != other
  | _, _ => false

theorem Place.ne_of_clashes {p q : Place} (h : p.clashes q = true) : p ≠ q := by
  intro hboth
  rcases hboth with rfl
  cases p <;> simp [clashes] at h

namespace Segment

/-- Where the segment is filed. Two segments share a child if this is the
    same. Of a variable it holds what decides whether two of them can share a
    node, and so not its default. -/
def place : Segment → Place
  | .literal text => .fixed (.text text)
  | .separator mark => .fixed (.text mark)
  | .condition ⟨kind, .validator v⟩ => .judged kind.form v.form
  | .condition ⟨kind, v⟩ => .fixed (.condition kind.form v.form)
  | .var v => .binder v.position

/-- The segment can be filed: a condition only if it can be compared as a key. -/
def isFileable : Segment → Bool
  | .condition c => c.kind.isKey && c.value.isKey
  | _ => true

theorem place_condition {c : Condition} (h : c.isPattern = false) :
    (Segment.condition c).place = .fixed (.condition c.kind.form c.value.form) := by
  rcases c with ⟨kind, value⟩
  cases value with
  | validator v => cases h
  | _ => rfl

/-- The key of a segment is its place among texts and exact conditions. -/
theorem edgeKey?_eq_some {s : Segment} {key : EdgeKey} :
    s.edgeKey? = some key ↔ s.place = .fixed key := by
  cases s with
  | condition c =>
      cases hpattern : c.isPattern with
      | false => simp [edgeKey?, hpattern, place_condition hpattern]
      | true =>
          rcases c with ⟨kind, value⟩
          cases value with
          | validator v => simp [edgeKey?, place, Condition.isPattern]
          | _ => cases hpattern
  | _ => simp [edgeKey?, place]

/-- A segment has a key, judges, or is a variable. -/
theorem place_cases (s : Segment) :
    (∃ key, s.edgeKey? = some key) ∨ (∃ kind v, s = .condition ⟨kind, .validator v⟩) ∨
      ∃ v, s = .var v := by
  cases s with
  | literal text => exact Or.inl ⟨.text text, rfl⟩
  | separator mark => exact Or.inl ⟨.text mark, rfl⟩
  | condition c =>
      rcases c with ⟨kind, value⟩
      cases value with
      | validator v => exact Or.inr (Or.inl ⟨kind, v, rfl⟩)
      | _ => exact Or.inl ⟨_, rfl⟩
  | var v => exact Or.inr (Or.inr ⟨v, rfl⟩)

theorem eq_of_place_text {s : Segment} {text : String} (h : s.place = .fixed (.text text)) :
    s = .literal text ∨ s = .separator text := by
  cases s with
  | literal other =>
      cases h
      exact Or.inl rfl
  | separator other =>
      cases h
      exact Or.inr rfl
  | condition c =>
      rcases c with ⟨kind, value⟩
      cases value <;> cases h
  | var v => cases h

theorem eq_of_place_condition {s : Segment} {kind value : Form}
    (h : s.place = .fixed (.condition kind value)) :
    ∃ c, s = .condition c ∧ c.isPattern = false ∧ c.kind.form = kind ∧ c.value.form = value := by
  cases s with
  | literal text | separator mark | var v => cases h
  | condition c =>
      rcases c with ⟨k, v⟩
      cases v with
      | validator w => cases h
      | _ =>
          cases h
          exact ⟨_, rfl, rfl, rfl, rfl⟩

theorem eq_of_place_judged {s : Segment} {kind validator : Form}
    (h : s.place = .judged kind validator) :
    ∃ k w, s = .condition ⟨k, .validator w⟩ ∧ k.form = kind ∧ w.form = validator := by
  cases s with
  | literal text | separator mark | var v => cases h
  | condition c =>
      rcases c with ⟨k, value⟩
      cases value with
      | validator w =>
          cases h
          exact ⟨k, w, rfl, rfl, rfl⟩
      | _ => cases h

theorem eq_of_place_binder {s : Segment} {position : Position} (h : s.place = .binder position) :
    ∃ v, s = .var v ∧ v.position = position := by
  cases s with
  | literal text | separator mark => cases h
  | condition c =>
      rcases c with ⟨kind, value⟩
      cases value <;> cases h
  | var v =>
      cases h
      exact ⟨v, rfl, rfl⟩

end Segment

/-- The paths have their beginnings in common up to variables that cannot
    share a place. The relation is on segments alone: whether a path may come
    into a tree depends on the tree only through the paths in it. -/
inductive Conflict : List Segment → List Segment → Prop
  | here {s u : Segment} {as bs : List Segment} (h : s.place.clashes u.place = true) :
      Conflict (s :: as) (u :: bs)
  | later {s u : Segment} {as bs : List Segment} (h : s.place = u.place)
      (rest : Conflict as bs) : Conflict (s :: as) (u :: bs)

namespace Trie

variable {α : Type}

/-- Where the child for a condition that judges is filed. -/
def judgedPlace (u : Value × Validator) : Place :=
  .judged u.1.form u.2.form

/-- What is behind a place, with the segment it was made for. -/
def childAt? (t : Trie α) : Place → Option (Segment × Trie α)
  | .fixed key => t.fixedChild? key
  | .judged kind validator =>
    (t.judged.find? fun e => judgedPlace e.1 == .judged kind validator).map fun e =>
      (.condition ⟨e.1.1, .validator e.1.2⟩, e.2)
  | .binder position =>
    (t.binder.filter fun e => e.1.position == position).map fun e => (.var e.1, e.2)

/-- The place is one for a variable other than the one that is there. -/
def blocks (t : Trie α) : Place → Bool
  | .binder position => t.binder.any fun e => e.1.position != position
  | _ => false

/-- What is behind a place was made for a segment with that place. -/
theorem place_of_childAt? {t child : Trie α} {p : Place} {s : Segment}
    (h : t.childAt? p = some (s, child)) : s.place = p := by
  cases p with
  | fixed key =>
      have hkey := List.find?_some h
      exact Segment.edgeKey?_eq_some.1 (eq_of_beq hkey)
  | judged kind validator =>
      rcases Option.map_eq_some_iff.1 h with ⟨e, he, hs⟩
      cases hs
      have hforms := List.find?_some he
      exact eq_of_beq hforms
  | binder position =>
      rcases Option.map_eq_some_iff.1 h with ⟨e, he, hs⟩
      cases hs
      have hposition := (Option.filter_eq_some_iff.1 he).2
      rw [Segment.place, eq_of_beq hposition]

/-- A condition that judges is compared by its place. -/
theorem judges_eq (kind : Value) (v : Validator) :
    judges (α := α) kind v = fun e => judgedPlace e.1 == judgedPlace (kind, v) := by
  funext e
  rw [Bool.eq_iff_iff]
  simp [judges, judgedPlace, Value.same, Validator.same]

/-- A segment leads to what is behind its place, if it can be filed and nothing
    blocks it. So the two partial steps of an insertion, hashing a key and
    finding the place of a variable taken, are out of the way from here on. -/
theorem child?_eq_ok {t : Trie α} {s : Segment} {c : Option (Trie α)} :
    t.child? s = .ok c ↔
      s.isFileable = true ∧ t.blocks s.place = false ∧ (t.childAt? s.place).map Prod.snd = c := by
  -- Conditions are never in each other's way, so all that counts is the key.
  have hkeyed : ∀ {b : Bool} {x : Option (Trie α)},
      (if b then .ok x else .error (.type .notAKey) : Except Fault _) = .ok c ↔
        b = true ∧ false = false ∧ x = c := by
    intro b x
    cases b <;> simp
  cases s with
  | literal text | separator mark =>
      simp [child?, Segment.isFileable, blocks, childAt?, Segment.place]
  | condition c =>
      rcases c with ⟨kind, value⟩
      cases value with
      | validator v =>
          refine hkeyed.trans (and_congr_right fun _ => and_congr_right fun _ => ?_)
          rw [Segment.place, childAt?, Option.map_map, judges_eq]
          rfl
      | _ => exact hkeyed
  | var v =>
      rw [child?, Segment.place, childAt?]
      cases hbinder : t.binder with
      | none => simp [Segment.isFileable, blocks, hbinder]
      | some e =>
          by_cases hposition : e.1.position = v.position
          · simp [Segment.isFileable, blocks, hbinder, Variable.sharesPosition, hposition,
              Option.filter]
          · simp [Segment.isFileable, blocks, hbinder, Variable.sharesPosition, hposition]

section Redirect

variable {β γ : Type} [BEq γ] [LawfulBEq γ] (f : β → γ) (b : β) (child : Trie α)

/-- What is filed under the key leads to the new tree, and everything else to
    where it led. -/
theorem find?_redirect [DecidableEq γ] (key : γ) (l : List (β × Trie α)) :
    (redirect (fun e => f e.1 == f b) b child l).find? (fun e => f e.1 == key) =
      if key = f b then some (((l.find? fun e => f e.1 == key).map Prod.fst).getD b, child)
      else l.find? fun e => f e.1 == key := by
  by_cases hkey : key = f b
  -- Redirecting goes to the first entry of the key, which is the one that is found.
  · rw [if_pos hkey, hkey]
    induction l with
    | nil => simp [redirect]
    | cons e rest ih =>
        by_cases he : f e.1 = f b
        · simp [redirect, he]
        · simp [redirect, he, ih]
  · rw [if_neg hkey]
    induction l with
    | nil => simp [redirect, Ne.symm hkey]
    | cons e rest ih =>
        by_cases he : f e.1 = f b
        · simp [redirect, he, Ne.symm hkey]
        · simp [redirect, he, List.find?_cons, ih]

/-- Entries keep their place in the list, and a new one comes last. -/
theorem map_redirect (l : List (β × Trie α)) :
    (redirect (fun e => f e.1 == f b) b child l).map (fun e => f e.1) =
      if (l.map fun e => f e.1).contains (f b) then l.map fun e => f e.1
      else (l.map fun e => f e.1) ++ [f b] := by
  induction l with
  | nil => rfl
  | cons e rest ih =>
      by_cases he : f e.1 = f b
      · simp [redirect, he]
      · rw [redirect, if_neg (by simpa using he), List.map_cons, ih, List.map_cons,
          List.contains_cons, beq_false_of_ne (Ne.symm he), Bool.false_or]
        split <;> rfl

end Redirect

/-- The tables after a child was set, for each kind of segment. -/
theorem setChild_of_edgeKey? {s : Segment} {key : EdgeKey} (h : s.edgeKey? = some key)
    (t child : Trie α) :
    t.setChild s child = .node t.depth t.terminal
      (redirect (fun e => e.1.edgeKey? == some key) s child t.fixed) t.judged t.binder := by
  rw [← h]
  rcases s with _ | _ | ⟨kind, value⟩ | v
  · rfl
  · rfl
  · cases value with
    | validator v => cases h
    | _ => rfl
  · cases h

/-- What is behind a place after a child was set behind the place of a
    segment: that child, under the segment the place was first made for, or
    what was there. -/
def childAfter (t : Trie α) (s : Segment) (child : Trie α) (p : Place) :
    Option (Segment × Trie α) :=
  if p = s.place then some (((t.childAt? p).map Prod.fst).getD s, child) else t.childAt? p

theorem childAt?_setChild_fixed {s : Segment} {key : EdgeKey} (h : s.edgeKey? = some key)
    (t child : Trie α) (p : Place) :
    (t.setChild s child).childAt? p = t.childAfter s child p := by
  rw [setChild_of_edgeKey? h, childAfter, Segment.edgeKey?_eq_some.1 h, ← h]
  cases p with
  | fixed other =>
      refine (find?_redirect Segment.edgeKey? s child (some other) t.fixed).trans ?_
      rw [h]
      by_cases hother : other = key
      · rw [if_pos (congrArg some hother), if_pos (congrArg Place.fixed hother)]
        rfl
      · rw [if_neg fun h => hother (Option.some.inj h), if_neg fun h => hother (Place.fixed.inj h)]
        rfl
  | judged kind w => rfl
  | binder position => rfl

theorem childAt?_setChild_judged (kind : Value) (v : Validator) (t child : Trie α) (p : Place) :
    (t.setChild (.condition ⟨kind, .validator v⟩) child).childAt? p =
      t.childAfter (.condition ⟨kind, .validator v⟩) child p := by
  -- To set the child is to redirect the entry of that place, or to add one, and nothing else.
  have hset : t.setChild (.condition ⟨kind, .validator v⟩) child =
      .node t.depth t.terminal t.fixed
        (redirect (fun e => judgedPlace e.1 == judgedPlace (kind, v)) (kind, v) child t.judged)
        t.binder := by
    rw [← judges_eq]
    rfl
  have hplace : (Segment.condition ⟨kind, .validator v⟩).place = judgedPlace (kind, v) := rfl
  rw [hset, childAfter, hplace]
  cases p with
  | fixed key => rfl
  | judged other w =>
      have hfind := find?_redirect judgedPlace (kind, v) child (.judged other w) t.judged
      refine (congrArg (Option.map _) hfind).trans ?_
      by_cases hother : Place.judged other w = judgedPlace (kind, v)
      · rw [if_pos hother, if_pos hother, childAt?]
        cases t.judged.find? fun e => judgedPlace e.1 == .judged other w <;> rfl
      · rw [if_neg hother, if_neg hother]
        rfl
  | binder position => rfl

theorem childAt?_setChild_var {t : Trie α} {v : Variable}
    (h : t.blocks (.binder v.position) = false) (child : Trie α) (p : Place) :
    (t.setChild (.var v) child).childAt? p = t.childAfter (.var v) child p := by
  rcases t with ⟨depth, terminal, fixed, judged, held⟩
  rw [childAfter, Segment.place]
  cases p with
  | fixed key => rfl
  | judged kind w => rfl
  | binder position =>
      -- The variable that is there already, if any, has the position of the new one.
      cases held with
      | none =>
          by_cases hposition : v.position = position
          · simp [setChild, childAt?, binder, hposition, Option.filter]
          · simp [setChild, childAt?, binder, hposition, Ne.symm hposition, Option.filter]
      | some e =>
          have hheld : e.1.position = v.position := by simpa [blocks, binder] using h
          by_cases hposition : v.position = position
          · simp [setChild, childAt?, binder, hheld, hposition, Option.filter]
          · simp [setChild, childAt?, binder, hheld, hposition, Ne.symm hposition,
              Option.filter]

/-- Setting a child changes what is behind its place and nothing else. All
    that is known of the three tables of a node is brought together here. -/
theorem childAt?_setChild {t : Trie α} {s : Segment} (h : t.blocks s.place = false)
    (child : Trie α) (p : Place) :
    (t.setChild s child).childAt? p = t.childAfter s child p := by
  -- Each kind of segment is filed in a table of its own.
  rcases s.place_cases with ⟨key, hkey⟩ | ⟨kind, v, rfl⟩ | ⟨v, rfl⟩
  · exact childAt?_setChild_fixed hkey t child p
  · exact childAt?_setChild_judged kind v t child p
  · exact childAt?_setChild_var h child p

/-- A child that is set behind a variable blocks what clashes with that variable. -/
theorem blocks_setChild {t : Trie α} {s : Segment} (h : t.blocks s.place = false)
    (child : Trie α) (p : Place) :
    (t.setChild s child).blocks p = (t.blocks p || s.place.clashes p) := by
  cases p with
  | binder position =>
      rcases s.place_cases with ⟨key, hkey⟩ | ⟨kind, v, rfl⟩ | ⟨v, rfl⟩
      · rw [setChild_of_edgeKey? hkey, Segment.edgeKey?_eq_some.1 hkey]
        exact (Bool.or_false _).symm
      · exact (Bool.or_false _).symm
      · rcases t with ⟨depth, terminal, fixed, judged, held⟩
        cases held with
        | none => rfl
        | some e =>
            -- The variable of the node stays, and has the position of the new one.
            have hheld : e.1.position = v.position := by
              simpa [blocks, binder, Segment.place] using h
            simp [setChild, blocks, binder, Segment.place, Place.clashes, hheld]
  | _ => cases s.place <;> rfl

/-- The segment leads to the child that was set behind its place. -/
theorem child?_setChild_same {t : Trie α} {s u : Segment} (h : t.blocks s.place = false)
    (hu : u.isFileable = true) (hplace : u.place = s.place) (child : Trie α) :
    (t.setChild s child).child? u = .ok (some child) := by
  refine child?_eq_ok.2 ⟨hu, ?_, ?_⟩
  · rw [blocks_setChild h, hplace, h, Bool.false_or, Bool.eq_false_iff]
    exact fun hclash => Place.ne_of_clashes hclash rfl
  · rw [childAt?_setChild h, childAfter, if_pos hplace]
    rfl

/-- Segments with other places lead where they led, unless they are blocked now. -/
theorem child?_setChild_other {t : Trie α} {s u : Segment} (h : t.blocks s.place = false)
    (hplace : u.place ≠ s.place) (child : Trie α) (c : Option (Trie α)) :
    (t.setChild s child).child? u = .ok c ↔
      t.child? u = .ok c ∧ s.place.clashes u.place = false := by
  rw [child?_eq_ok, child?_eq_ok, blocks_setChild h, childAt?_setChild h, childAfter,
    if_neg hplace, Bool.or_eq_false_iff]
  constructor
  · intro hboth
    rcases hboth with ⟨hu, ⟨hfree, hclash⟩, hc⟩
    exact ⟨⟨hu, hfree, hc⟩, hclash⟩
  · intro hboth
    rcases hboth with ⟨⟨hu, hfree, hc⟩, hclash⟩
    exact ⟨hu, ⟨hfree, hclash⟩, hc⟩

/-- A path passes the check if its first segment is not in the way of
    anything, and the rest is not behind it. -/
theorem check_cons {t : Trie α} {s : Segment} {rest : List Segment} :
    t.check (s :: rest) = .ok () ↔
      ∃ c, t.child? s = .ok c ∧ ∀ child, c = some child → child.check rest = .ok () := by
  rw [check]
  cases t.child? s with
  | error e => simp
  | ok c =>
      cases c with
      | none => simp
      | some child => simp

/-- Nothing is in the way of a path at a node that was just made. Only the
    segments themselves can be at fault there, when they cannot be filed. -/
theorem check_fresh (depth : Nat) {segments : List Segment}
    (h : ∀ s ∈ segments, s.isFileable = true) :
    (fresh depth : Trie α).check segments = .ok () := by
  cases segments with
  | nil => rfl
  | cons s rest =>
      have hchild : (fresh depth : Trie α).child? s = .ok none := by
        refine child?_eq_ok.2 ⟨h s List.mem_cons_self, ?_, ?_⟩
        · cases s.place <;> rfl
        · cases s.place <;> rfl
      rw [check, hchild]

theorem check_empty {segments : List Segment} (h : ∀ s ∈ segments, s.isFileable = true) :
    (empty : Trie α).check segments = .ok () :=
  check_fresh 0 h

theorem check_setTerminal (path : α) (t : Trie α) (segments : List Segment) :
    (t.setTerminal path).check segments = t.check segments := by
  cases segments with
  | nil => rfl
  | cons s rest =>
      have hchild : (t.setTerminal path).child? s = t.child? s := rfl
      rw [check, check, hchild]

/-- One step of an insertion. -/
theorem insert_cons_eq_ok {path : α} {s : Segment} {rest : List Segment} {t : Trie α}
    {old : Option α} :
    (insert path (s :: rest) t).outcome = .ok old ↔
      ∃ c, t.child? s = .ok c ∧
        (insert path rest (c.getD (fresh (t.depth + 1)))).outcome = .ok old := by
  rw [insert]
  cases t.child? s with
  | error e => simp
  | ok c => simp

/-- A path can be inserted exactly if all of its segments can be filed and it
    passes the check. So a registration that rehearses its paths first does
    not fail when it files them. -/
theorem insert_eq_ok {path : α} {segments : List Segment} {t : Trie α} :
    (∃ old, (insert path segments t).outcome = .ok old) ↔
      (∀ s ∈ segments, s.isFileable = true) ∧ t.check segments = .ok () := by
  induction segments generalizing t with
  | nil => exact ⟨fun _ => ⟨fun _ h => absurd h List.not_mem_nil, rfl⟩, fun _ => ⟨_, rfl⟩⟩
  | cons s rest ih =>
      rw [List.forall_mem_cons, check_cons]
      constructor
      · intro hboth
        rcases hboth with ⟨old, h⟩
        rcases insert_cons_eq_ok.1 h with ⟨c, hc, hrest⟩
        rcases ih.1 ⟨old, hrest⟩ with ⟨hfileable, hcheck⟩
        refine ⟨⟨(child?_eq_ok.1 hc).1, hfileable⟩, c, hc, ?_⟩
        intro child hchild
        rcases hchild with rfl
        exact hcheck
      · intro hboth
        rcases hboth with ⟨⟨_, hfileable⟩, c, hc, hcheck⟩
        -- Behind a step that nothing was filed for, the insertion goes on at a new node.
        have hbelow : (c.getD (fresh (t.depth + 1))).check rest = .ok () := by
          cases c with
          | none => exact check_fresh _ hfileable
          | some child => exact hcheck child rfl
        rcases ih.2 ⟨hfileable, hbelow⟩ with ⟨old, hold⟩
        exact ⟨old, insert_cons_eq_ok.2 ⟨c, hc, hold⟩⟩

/-- The tree after one step of an insertion. -/
theorem insert_cons_trie {path : α} {s : Segment} {rest : List Segment} {t : Trie α}
    {c : Option (Trie α)} (h : t.child? s = .ok c) :
    (insert path (s :: rest) t).trie =
      t.setChild s (insert path rest (c.getD (fresh (t.depth + 1)))).trie := by
  rw [insert, h]

/-- What an inserted path adds to the check is a conflict with that path.
    Where the two paths take the same step, the question is passed on to what
    is behind it; where they part, only variables can be in each other's way. -/
theorem check_insert {path : α} {as bs : List Segment} {t : Trie α} {old : Option α}
    (has : (insert path as t).outcome = .ok old) (hbs : ∀ s ∈ bs, s.isFileable = true) :
    (insert path as t).trie.check bs = .ok () ↔ t.check bs = .ok () ∧ ¬Conflict as bs := by
  induction as generalizing t bs with
  | nil =>
      rw [insert_nil, check_setTerminal]
      exact ⟨fun h => ⟨h, fun hconflict => by cases hconflict⟩, And.left⟩
  | cons s rest ih =>
      rcases insert_cons_eq_ok.1 has with ⟨c, hc, hrest⟩
      rw [insert_cons_trie hc]
      have hfree : t.blocks s.place = false := (child?_eq_ok.1 hc).2.1
      cases bs with
      | nil => exact ⟨fun _ => ⟨rfl, fun hconflict => by cases hconflict⟩, fun _ => rfl⟩
      | cons u more =>
          rcases List.forall_mem_cons.1 hbs with ⟨hu, hmore⟩
          by_cases hplace : u.place = s.place
          -- The same step: a conflict is one of what is behind it.
          · have hchild : t.child? u = .ok c := by
              rw [child?_eq_ok, hplace]
              exact ⟨hu, (child?_eq_ok.1 hc).2⟩
            have hconflict : Conflict (s :: rest) (u :: more) ↔ Conflict rest more := by
              constructor
              · intro h
                cases h with
                | here hclash => exact absurd hplace.symm (Place.ne_of_clashes hclash)
                | later _ h => exact h
              · exact Conflict.later hplace.symm
            rw [check, child?_setChild_same hfree hu hplace, hconflict]
            simp only
            rw [ih hrest hmore, check, hchild]
            cases c with
            | none => simp [check_fresh _ hmore]
            | some child => simp
          -- Different steps: what is behind them is as it was, and only the steps clash.
          · rw [check_cons, check_cons]
            constructor
            · intro hboth
              rcases hboth with ⟨d, hd, hbelow⟩
              rcases (child?_setChild_other hfree hplace _ d).1 hd with ⟨hd, hclash⟩
              refine ⟨⟨d, hd, hbelow⟩, fun h => ?_⟩
              cases h with
              | here h => exact absurd h (Bool.eq_false_iff.1 hclash)
              | later h _ => exact hplace h.symm
            · intro hboth
              rcases hboth with ⟨⟨d, hd, hbelow⟩, hconflict⟩
              refine ⟨d, (child?_setChild_other hfree hplace _ d).2 ⟨hd, ?_⟩, hbelow⟩
              exact Bool.eq_false_iff.2 fun h => hconflict (.here h)

end Trie

end PathRouting
