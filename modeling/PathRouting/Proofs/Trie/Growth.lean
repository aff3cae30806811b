import PathRouting.Proofs.Trie.Admission
import PathRouting.Proofs.Trie.Shape

/-!
# What an Insertion Changes

The check and the insertion take the same way through a tree, for as long as
there are nodes to go through. Behind the last of them nothing has been filed
yet, so nothing can be in the way there. A path is refused, if at all, on a
node that existed before, and up to that node an insertion has changed
nothing. The two therefore refuse the same paths with the same words, and a
refusal leaves the tree as it was.

A path that is accepted changes the nodes it passes, and those as little as
possible. A node without the child that the path needs gets it, at the end of
its table, and the last node gets the path as its terminal. What no beginning
of the path leads to stays as it was, with everything below it.

Nodes are told apart by their addresses, which are the places that lead to
them from the root. In a tree that was grown by insertions every node has an
address.

## Main definitions

* `Shell`, `Trie.shell`: A node without what is below it.
* `Trie.nodeAt?`, `Trie.shellAt`: The node at an address.
* `Trie.Grown`: The trees that insertions lead to, those that were refused
  included.
* `Trie.Extends`: What an accepted path does to a tree.

## Theorems

* `setChild_eq_self`: A child that is set in its own place changes nothing.
* `shell_setChild`: What setting a child does to the node itself.
* `check_eq_error_iff`, `insert_eq_self_of_error`: The check predicts a
  refusal, and a refused path changes nothing.
* `Shaped.exists_address`: Every node has an address.
* `nodeAt?_insert`, `shell_passed`, `shell_last`: What an accepted path does
  to the nodes that it does not pass, to those that it passes, and to the last
  one.
* `extends_insert`: So it changes nothing but what it needs.
* `Grown.insert_effect`: The three together, for a tree that was grown by
  insertions.
-/

namespace PathRouting

variable {α : Type}

/-- A node without what is below it: how deep it was made, what ends there,
    and what its children were made for, table by table. That a tree changed
    at some nodes only is said by comparing shells, since the node itself
    changes with everything below it. -/
structure Shell (α : Type) where
  depth : Nat
  terminal : Option α
  fixed : List Segment
  judged : List (Value × Validator)
  binder : Option Variable

namespace Shell

/-- A node that was just made. -/
def fresh (depth : Nat) : Shell α := ⟨depth, none, [], [], none⟩

/-- The node with one more child, the last one in its table. -/
def withChild (shell : Shell α) : Segment → Shell α
  | .var v => { shell with binder := some v }
  | .condition ⟨kind, .validator v⟩ => { shell with judged := shell.judged ++ [(kind, v)] }
  | s => { shell with fixed := shell.fixed ++ [s] }

/-- The node with a path that ends there. -/
def withTerminal (shell : Shell α) (path : α) : Shell α :=
  { shell with terminal := some path }

/-- A segment with a key gets its child in the table for texts and exact conditions. -/
theorem withChild_of_edgeKey? {s : Segment} {key : EdgeKey} (h : s.edgeKey? = some key)
    (shell : Shell α) : shell.withChild s = { shell with fixed := shell.fixed ++ [s] } := by
  cases s with
  | literal text => rfl
  | separator mark => rfl
  | var v => cases h
  | condition c =>
      rcases c with ⟨kind, value⟩
      cases value with
      | validator v => cases h
      | _ => rfl

end Shell

namespace Trie

/-- The node without what is below it. -/
def shell (t : Trie α) : Shell α :=
  ⟨t.depth, t.terminal, t.fixed.map Prod.fst, t.judged.map Prod.fst, t.binder.map Prod.fst⟩

/-- The node at an address: one place after the other leads to it from the root. -/
def nodeAt? : List Place → Trie α → Option (Trie α)
  | [], t => some t
  | p :: rest, t => (t.childAt? p).bind fun e => nodeAt? rest e.2

/-- The node at an address, or else the one that is made when a path needs it.
    So a node that is new can be compared with what it was made as. -/
def shellAt (t : Trie α) (address : List Place) : Shell α :=
  ((t.nodeAt? address).map shell).getD (.fresh (t.depth + address.length))

/-- The trees that insertions lead to, whatever became of them. Refused paths
    count as well, so that a statement about these trees covers a failed
    insertion that might have left something behind. -/
inductive Grown : Trie α → Prop
  | empty : Grown .empty
  | insert {t : Trie α} (grown : Grown t) (path : α) (segments : List Segment) :
      Grown (Trie.insert path segments t).trie

/-- The trees differ in nothing but the nodes that the path needs and in what
    ends at the last of them. Addresses name nodes from the root, so that the
    nodes of both trees can be compared one by one. -/
structure Extends (path : α) (segments : List Segment) (t t' : Trie α) : Prop where
  /-- What no beginning of the path leads to is as it was, with all that is below it. -/
  elsewhere : ∀ address, ¬address <+: segments.map Segment.place →
    t'.nodeAt? address = t.nodeAt? address
  /-- A node that the path passes is as it was if there was a child to go on
      to. If not, it has one more child. -/
  passed : ∀ front s back, segments = front ++ s :: back →
    (t'.nodeAt? (front.map Segment.place)).map shell =
      some (if (t.nodeAt? ((front ++ [s]).map Segment.place)).isSome
        then t.shellAt (front.map Segment.place)
        else (t.shellAt (front.map Segment.place)).withChild s)
  /-- The last node is as it was, except for what ends there. -/
  last : (t'.nodeAt? (segments.map Segment.place)).map shell =
    some ((t.shellAt (segments.map Segment.place)).withTerminal path)
  /-- There are no nodes besides those with an address. -/
  addressed : ∀ n node, t'.Below n node →
    ∃ address, address.length = n ∧ t'.nodeAt? address = some node

theorem shell_node (depth : Nat) (terminal : Option α) (fixed : List (Segment × Trie α))
    (judged : List ((Value × Validator) × Trie α)) (held : Option (Variable × Trie α)) :
    (node depth terminal fixed judged held).shell =
      ⟨depth, terminal, fixed.map Prod.fst, judged.map Prod.fst, held.map Prod.fst⟩ :=
  rfl

/-! ## Setting a child -/

theorem childAt?_eq_none {t : Trie α} {s : Segment} (h : t.child? s = .ok none) :
    t.childAt? s.place = none :=
  Option.map_eq_none_iff.1 (child?_eq_ok.1 h).2.2

theorem exists_childAt? {t child : Trie α} {s : Segment} (h : t.child? s = .ok (some child)) :
    ∃ u, t.childAt? s.place = some (u, child) := by
  rcases Option.map_eq_some_iff.1 (child?_eq_ok.1 h).2.2 with ⟨⟨u, _⟩, hat, rfl⟩
  exact ⟨u, hat⟩

section Redirect

variable {β : Type} {p : β × Trie α → Bool}

theorem redirect_of_find? {new : β} {e : β × Trie α} {l : List (β × Trie α)}
    (h : l.find? p = some e) : redirect p new e.2 l = l := by
  induction l with
  | nil => cases h
  | cons first rest ih =>
      by_cases hfirst : p first = true
      · rw [List.find?_cons_of_pos hfirst] at h
        cases h
        simp [redirect, hfirst]
      · rw [List.find?_cons_of_neg hfirst] at h
        simp [redirect, hfirst, ih h]

/-- Entries are what they were made for, and a new one comes last. -/
theorem map_fst_redirect (new : β) (child : Trie α) (l : List (β × Trie α)) :
    (redirect p new child l).map Prod.fst =
      if (l.find? p).isSome then l.map Prod.fst else l.map Prod.fst ++ [new] := by
  induction l with
  | nil => rfl
  | cons first rest ih =>
      by_cases hfirst : p first = true
      · simp [redirect, hfirst]
      · rw [redirect, if_neg hfirst, List.map_cons, ih, List.find?_cons_of_neg hfirst]
        split <;> rfl

end Redirect

/-- A child that is set in its own place changes nothing. An insertion that is
    refused further down sets every child on the way back as it was, and so
    the whole tree is. -/
theorem setChild_eq_self {t : Trie α} {s : Segment} {e : Segment × Trie α}
    (h : t.childAt? s.place = some e) : t.setChild s e.2 = t := by
  rcases t with ⟨depth, terminal, fixed, judged, held⟩
  -- Each kind of segment has a table of its own, and only that one is set.
  rcases s.place_cases with ⟨key, hkey⟩ | ⟨kind, v, rfl⟩ | ⟨v, rfl⟩
  · rw [Segment.edgeKey?_eq_some.1 hkey] at h
    rw [setChild_of_edgeKey? hkey]
    exact congrArg (fun l => node depth terminal l judged held) (redirect_of_find? h)
  · rcases Option.map_eq_some_iff.1 h with ⟨entry, hfind, rfl⟩
    have hfind : judged.find? (judges kind v) = some entry := by
      rw [judges_eq]
      exact hfind
    exact congrArg (fun l => node depth terminal fixed l held) (redirect_of_find? hfind)
  · rcases binder_of_childAt? h with ⟨w, _, _, hheld⟩
    cases hheld
    rfl

/-- What setting a child does to the node: nothing, if there is a child in its
    place, and otherwise it has one more. -/
theorem shell_setChild {t : Trie α} {s : Segment} (h : t.blocks s.place = false)
    (child : Trie α) : (t.setChild s child).shell =
      if (t.childAt? s.place).isSome then t.shell else t.shell.withChild s := by
  rcases s.place_cases with ⟨key, hkey⟩ | ⟨kind, v, rfl⟩ | ⟨v, rfl⟩
  · rw [setChild_of_edgeKey? hkey, shell_node, map_fst_redirect,
      Segment.edgeKey?_eq_some.1 hkey, Shell.withChild_of_edgeKey? hkey]
    change _ = if (t.fixed.find? fun e => e.1.edgeKey? == some key).isSome then _ else _
    split <;> rfl
  · have hfind : (t.childAt? (Segment.condition ⟨kind, .validator v⟩).place).isSome =
        (t.judged.find? (judges kind v)).isSome := by
      rw [judges_eq]
      exact Option.isSome_map
    rw [setChild, shell_node, map_fst_redirect, hfind]
    split <;> rfl
  · rcases t with ⟨depth, terminal, fixed, judged, held⟩
    cases held with
    | none => rfl
    | some e =>
        -- The variable of the node stays, and has the position of the new one.
        have hposition : e.1.position = v.position := by
          simpa [blocks, binder, Segment.place] using h
        have hchild : (childAt? (node depth terminal fixed judged (some e))
            (Segment.var v).place).isSome = true := by
          simp [childAt?, binder, Segment.place, hposition]
        rw [if_pos hchild]
        rfl

/-! ## Refused paths -/

/-- Where there is no child to go on to, nothing is in the way of the rest of a path. -/
theorem insert_fresh_ne_error (path : α) (depth : Nat) {segments : List Segment}
    (h : ∀ s ∈ segments, s.isFileable = true) (e : Fault) :
    (insert path segments (fresh depth)).outcome ≠ .error e := by
  have haccepted : ∃ old, (insert path segments (fresh depth)).outcome = .ok old :=
    insert_eq_ok.2 ⟨h, check_fresh depth h⟩
  rcases haccepted with ⟨old, hold⟩
  simp [hold]

/-- The check refuses what the insertion refuses, with the same words. Both follow
    the same steps until one is blocked; the insertion also makes nodes on the
    way, and behind a node that it has just made nothing can be refused any more. -/
theorem check_eq_error_iff {t : Trie α} (path : α) {segments : List Segment}
    (h : ∀ s ∈ segments, s.isFileable = true) {e : Fault} :
    t.check segments = .error e ↔ (insert path segments t).outcome = .error e := by
  induction segments generalizing t with
  | nil => simp [check]
  | cons s rest ih =>
      have hrest := (List.forall_mem_cons.1 h).2
      rw [check, insert]
      cases t.child? s with
      | error e' => simp
      | ok c =>
          cases c with
          | none =>
              -- The check stops here, and the insertion goes on into new nodes.
              exact iff_of_false (by simp) (insert_fresh_ne_error path (t.depth + 1) hrest e)
          | some child => exact ih hrest

/-- A path that is refused changes nothing. The induction is on the path: a refusal
    comes from below a child that was there, and that child is set as it was. -/
theorem insert_eq_self_of_error {t : Trie α} {path : α} {segments : List Segment}
    (h : ∀ s ∈ segments, s.isFileable = true) {e : Fault}
    (herror : (insert path segments t).outcome = .error e) :
    (insert path segments t).trie = t := by
  induction segments generalizing t with
  | nil => cases herror
  | cons s rest ih =>
      have hrest := (List.forall_mem_cons.1 h).2
      cases hstep : t.child? s with
      | error e' => rw [insert, hstep]
      | ok c =>
          rw [insert, hstep] at herror
          rw [insert_cons_trie hstep]
          cases c with
          | none => exact absurd herror (insert_fresh_ne_error path (t.depth + 1) hrest e)
          | some child =>
              have hkept : (insert path rest child).trie = child := ih hrest herror
              rcases exists_childAt? hstep with ⟨u, hat⟩
              rw [Option.getD_some, hkept]
              exact setChild_eq_self hat

/-! ## Accepted paths -/

theorem nodeAt?_setChild {t : Trie α} {s : Segment} (h : t.blocks s.place = false)
    (child : Trie α) (p : Place) (address : List Place) :
    (t.setChild s child).nodeAt? (p :: address) =
      if p = s.place then child.nodeAt? address else t.nodeAt? (p :: address) := by
  rw [nodeAt?, childAt?_setChild h, childAfter]
  split <;> rfl

theorem nodeAt?_fresh (depth : Nat) (p : Place) (address : List Place) :
    (fresh depth : Trie α).nodeAt? (p :: address) = none := by
  cases p <;> rfl

/-- In a tree that is in shape, every node has an address. -/
theorem Shaped.exists_address {n : Nat} {t : Trie α} (h : Shaped n t) {m : Nat}
    {node : Trie α} (hbelow : t.Below m node) :
    ∃ address, address.length = m ∧ t.nodeAt? address = some node := by
  induction hbelow generalizing n with
  | root t => exact ⟨[], rfl, rfl⟩
  | @child t child node s m edge _ ih =>
      rcases ih (h.child_shaped edge) with ⟨address, hlength, hnode⟩
      refine ⟨s.place :: address, by simp [hlength], ?_⟩
      rw [nodeAt?, h.childAt?_of_mem edge]
      exact hnode

section Step

variable {n : Nat} {t : Trie α} {s : Segment} {c : Option (Trie α)} (hshaped : Shaped n t)
  (hstep : t.child? s = .ok c)

include hshaped hstep

/-- The tree that an insertion goes on with, a child or a new node. -/
theorem shaped_onward : Shaped (n + 1) (c.getD (fresh (t.depth + 1))) := by
  cases c with
  | none =>
      rw [hshaped.depth_eq]
      exact shaped_fresh (n + 1)
  | some child =>
      rcases exists_childAt? hstep with ⟨u, hat⟩
      exact hshaped.child_shaped (mem_children_of_childAt? hat)

omit hshaped in
/-- An address behind the step is one in that tree, unless the step itself is missing. -/
theorem nodeAt?_onward {p : Place} {address : List Place} (hp : p = s.place)
    (hne : c = none → address ≠ []) :
    t.nodeAt? (p :: address) = (c.getD (fresh (t.depth + 1))).nodeAt? address := by
  rw [hp, nodeAt?]
  cases c with
  | none =>
      rw [childAt?_eq_none hstep]
      cases address with
      | nil => exact absurd rfl (hne rfl)
      | cons q more => exact (nodeAt?_fresh _ q more).symm
  | some child =>
      rcases exists_childAt? hstep with ⟨u, hat⟩
      rw [hat]
      rfl

/-- What is at an address behind the step, or is made there, is the same in
    both trees. -/
theorem shellAt_onward (address : List Place) :
    t.shellAt (s.place :: address) = (c.getD (fresh (t.depth + 1))).shellAt address := by
  have hdepth : (c.getD (fresh (t.depth + 1))).depth = t.depth + 1 := by
    rw [(shaped_onward hshaped hstep).depth_eq, hshaped.depth_eq]
  by_cases hnew : c = none ∧ address = []
  · -- The step is missing, and the new node is what is made for it.
    rcases hnew with ⟨rfl, rfl⟩
    simp only [shellAt, nodeAt?, childAt?_eq_none hstep]
    rfl
  · -- The node is the same one, and what is made for a missing one is as deep.
    rw [shellAt, shellAt, nodeAt?_onward hstep rfl fun hc ha => hnew ⟨hc, ha⟩, hdepth,
      List.length_cons, Nat.add_assoc, Nat.add_comm 1]

end Step

section Accepted

variable {t : Trie α} {path : α} {segments : List Segment} {old : Option α}
  (hold : (insert path segments t).outcome = .ok old)

include hold

/-- What no beginning of the path leads to stays as it was. The induction is
    on the path, with the address followed alongside until the two part. -/
theorem nodeAt?_insert {address : List Place} (h : ¬address <+: segments.map Segment.place) :
    (insert path segments t).trie.nodeAt? address = t.nodeAt? address := by
  induction segments generalizing t address with
  | nil =>
      cases address with
      | nil => exact absurd List.nil_prefix h
      | cons p more =>
          rcases t with ⟨depth, terminal, fixed, judged, held⟩
          cases p <;> rfl
  | cons s rest ih =>
      rcases insert_cons_eq_ok.1 hold with ⟨c, hstep, hrest⟩
      cases address with
      | nil => exact absurd List.nil_prefix h
      | cons p more =>
          rw [insert_cons_trie hstep, nodeAt?_setChild (child?_eq_ok.1 hstep).2.1]
          by_cases hp : p = s.place
          · -- The address goes the way of the path and leaves it behind this step.
            have hmore : ¬more <+: rest.map Segment.place := fun hprefix =>
              h (hp ▸ List.cons_prefix_cons.2 ⟨rfl, hprefix⟩)
            rw [if_pos hp, ih hrest hmore]
            exact (nodeAt?_onward hstep hp fun _ hnil => hmore (by simp [hnil])).symm
          · -- The address goes another way, where nothing is set.
            rw [if_neg hp]

/-- A node that the path passes gets a child if there is none to go on to. -/
theorem shell_passed {n : Nat} (hshaped : Shaped n t) {front back : List Segment}
    {s : Segment} (h : segments = front ++ s :: back) :
    ((insert path segments t).trie.nodeAt? (front.map Segment.place)).map shell =
      some (if (t.nodeAt? ((front ++ [s]).map Segment.place)).isSome
        then t.shellAt (front.map Segment.place)
        else (t.shellAt (front.map Segment.place)).withChild s) := by
  induction segments generalizing n t front with
  | nil => simp at h
  | cons first rest ih =>
      rcases insert_cons_eq_ok.1 hold with ⟨c, hstep, hrest⟩
      have hfree := (child?_eq_ok.1 hstep).2.1
      rw [insert_cons_trie hstep]
      cases front with
      | nil =>
          -- The node is the one whose child is set.
          rcases List.cons.inj h with ⟨rfl, rfl⟩
          have hchild : (t.nodeAt? [first.place]).isSome = (t.childAt? first.place).isSome := by
            rw [nodeAt?]
            cases t.childAt? first.place <;> rfl
          simp [nodeAt?, shellAt, shell_setChild hfree, ← hchild]
      | cons u more =>
          -- The node is behind the first step, and so is the one that comes next.
          rcases List.cons.inj h with ⟨rfl, hback⟩
          simp only [List.cons_append, List.map_cons]
          rw [nodeAt?_setChild hfree, if_pos rfl, ih hrest (shaped_onward hshaped hstep) hback,
            nodeAt?_onward hstep rfl (by simp), shellAt_onward hshaped hstep]

theorem shell_last {n : Nat} (hshaped : Shaped n t) :
    ((insert path segments t).trie.nodeAt? (segments.map Segment.place)).map shell =
      some ((t.shellAt (segments.map Segment.place)).withTerminal path) := by
  induction segments generalizing n t with
  | nil => rfl
  | cons s rest ih =>
      rcases insert_cons_eq_ok.1 hold with ⟨c, hstep, hrest⟩
      rw [insert_cons_trie hstep, List.map_cons, nodeAt?_setChild (child?_eq_ok.1 hstep).2.1,
        if_pos rfl, ih hrest (shaped_onward hshaped hstep), shellAt_onward hshaped hstep]

/-- An accepted path changes nothing but what it needs. The induction is on
    the path; each step is one of its nodes and, at the end, the terminal. -/
theorem extends_insert {n : Nat} (hshaped : Shaped n t) :
    t.Extends path segments (insert path segments t).trie where
  elsewhere _ h := nodeAt?_insert hold h
  passed _ _ _ h := shell_passed hold hshaped h
  last := shell_last hold hshaped
  addressed _ _ hbelow := (hshaped.insert path segments).exists_address hbelow

end Accepted

/-! ## Grown trees -/

/-- Whatever becomes of an insertion, the tree is in shape. -/
theorem Grown.shaped {t : Trie α} (h : Grown t) : Shaped 0 t := by
  induction h with
  | empty => exact shaped_fresh 0
  | insert _ path segments ih => exact ih.insert path segments

/-- The check predicts what becomes of an insertion, a path that is refused changes
    nothing, and a path that is accepted changes nothing but what it needs. -/
theorem Grown.insert_effect {t : Trie α} (h : Grown t) (path : α) (segments : List Segment)
    (hsegments : ∀ s ∈ segments, s.isFileable = true) :
    (∀ added held, t.check segments = .error (.ambiguous added held) ↔
      (Trie.insert path segments t).outcome = .error (.ambiguous added held)) ∧
    (∀ e, (Trie.insert path segments t).outcome = .error e →
      (Trie.insert path segments t).trie = t) ∧
    ∀ old, (Trie.insert path segments t).outcome = .ok old →
      t.Extends path segments (Trie.insert path segments t).trie :=
  ⟨fun _ _ => check_eq_error_iff path hsegments,
    fun _ herror => insert_eq_self_of_error hsegments herror,
    fun _ hold => extends_insert hold h.shaped⟩

/-- Behind a separator there is one variable. Another variable in its place is
    refused and changes nothing, and a text besides it is accepted. -/
theorem insert_effect_besides_variable :
    let id : Segment := .var ⟨"id", none, .none, none, none⟩
    let name : Segment := .var ⟨"name", none, .none, none, none⟩
    let t : Trie String := (insert "id" [.separator "/", id] empty).trie
    (t.check [.separator "/", name, .literal "edit"] = .error (.ambiguous ":name" ":id") ∧
      (insert "name" [.separator "/", name, .literal "edit"] t).trie = t) ∧
    t.Extends "new" [.separator "/", .literal "new"]
      (insert "new" [.separator "/", .literal "new"] t).trie := by
  intro id name t
  have hgrown : Grown t := .insert .empty _ _
  have herror : (insert "name" [.separator "/", name, .literal "edit"] t).outcome =
      .error (.ambiguous ":name" ":id") := by rfl
  rcases hgrown.insert_effect "name" [.separator "/", name, .literal "edit"] (by decide) with
    ⟨hcheck, hrefused, _⟩
  rcases hgrown.insert_effect "new" [.separator "/", .literal "new"] (by decide) with
    ⟨_, _, haccepted⟩
  exact ⟨⟨(hcheck _ _).2 herror, hrefused _ herror⟩, haccepted none (by rfl)⟩

end Trie

end PathRouting
