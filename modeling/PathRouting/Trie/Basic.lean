import PathRouting.Segment

/-!
# The Tree of Routes

Concrete paths share their common beginnings in a tree, so that looking up a
path costs as much as the path is long, however many routes there are. A node
has a child for every text and every exact condition it is followed by, one for
every validator that judges a condition, and at most one for a variable.

Two segments lead to the same child when their edges agree. For variables that
is their position; a variable that cannot share the place of the one already
there makes the new path ambiguous. That can only happen on nodes that existed
before, so a path is refused before it has changed anything.

A segment that holds a list or a dictionary cannot be compared with others and
is refused as well. Nodes that were made on the way to it remain.

The tree does not know what ends at its nodes: the terminals are of any type.

## Main definitions

* `EdgeKey`: What a literal, a separator or an exact condition is filed under.
* `Trie`: The tree.
* `Trie.child?`: The child that a segment leads to.
* `Trie.check`: Whether a path can be inserted.
* `Trie.insert`: A path inserted, with what it replaced.
* `Trie.insertAll`, `Trie.stageAll`: Several paths inserted, for good or on
  trial.
* `Trie.toList`: The terminals in the order of the tree.

## Theorems

* `insert_nil`: Nothing but the terminal of a node changes when a path ends
  there.
-/

namespace PathRouting

/-- What a literal, a separator or an exact condition is filed under. A
    literal and a separator of the same text share a child, and so do
    conditions whose kinds and values are the same keys. -/
inductive EdgeKey where
  | text (s : String)
  | condition (kind value : Form)
  deriving DecidableEq, Repr

/-- A tree of concrete paths. A node knows how deep it was made and what ends
    at it. The children of each kind are in the order they were made. -/
inductive Trie (α : Type) where
  | node (depth : Nat) (terminal : Option α) (fixed : List (Segment × Trie α))
      (judged : List ((Value × Validator) × Trie α)) (binder : Option (Variable × Trie α))

namespace Segment

/-- What a segment is filed under, unless it is a variable or judges. -/
def edgeKey? : Segment → Option EdgeKey
  | .literal text => some (.text text)
  | .separator mark => some (.text mark)
  | .condition c => if c.isPattern then none else some (.condition c.kind.form c.value.form)
  | .var _ => none

end Segment

namespace Trie

variable {α : Type}

/-- A node that was just made, without any path. -/
def fresh (depth : Nat) : Trie α := .node depth none [] [] none

/-- The tree without any path. -/
def empty : Trie α := fresh 0

instance : Inhabited (Trie α) := ⟨empty⟩

/-- How deep the root was made. -/
def depth : Trie α → Nat
  | .node depth _ _ _ _ => depth

/-- What ends at the root. -/
def terminal : Trie α → Option α
  | .node _ terminal _ _ _ => terminal

/-- The children for texts and exact conditions. -/
def fixed : Trie α → List (Segment × Trie α)
  | .node _ _ fixed _ _ => fixed

/-- The children for conditions that judge, with kind and validator. -/
def judged : Trie α → List ((Value × Validator) × Trie α)
  | .node _ _ _ judged _ => judged

/-- The child for a variable. -/
def binder : Trie α → Option (Variable × Trie α)
  | .node _ _ _ _ binder => binder

/-- The children with their segments: texts and exact conditions first, then
    the conditions that judge, then the variable. -/
def children (t : Trie α) : List (Segment × Trie α) :=
  t.fixed ++ t.judged.map (fun e => (.condition ⟨e.1.1, .validator e.1.2⟩, e.2)) ++
    t.binder.toList.map (fun e => (.var e.1, e.2))

/-- The child filed under a key, with the segment it was made for. -/
def fixedChild? (t : Trie α) (key : EdgeKey) : Option (Segment × Trie α) :=
  t.fixed.find? fun e => e.1.edgeKey? == some key

/-- The condition that judges has this kind and this validator. -/
def judges (kind : Value) (v : Validator) (e : (Value × Validator) × Trie α) : Bool :=
  e.1.1.same kind && e.1.2.same v

/-- The child that a segment leads to, if there is one. -/
def child? (t : Trie α) : Segment → Except Fault (Option (Trie α))
  | .var v =>
    match t.binder with
    | none => .ok none
    | some (w, child) =>
      if w.sharesPosition v then .ok (some child) else .error (.ambiguous v.text w.text)
  | .condition ⟨kind, .validator v⟩ =>
    if kind.isKey && v.isKey then .ok ((t.judged.find? (judges kind v)).map Prod.snd)
    else .error (.type .notAKey)
  | .condition ⟨kind, v⟩ =>
    if kind.isKey && v.isKey then
      .ok ((t.fixedChild? (.condition kind.form v.form)).map Prod.snd)
    else .error (.type .notAKey)
  | .literal s | .separator s => .ok ((t.fixedChild? (.text s)).map Prod.snd)

/-- The entries with the first that satisfies the predicate led to another
    tree, or with a new entry at the end. -/
def redirect {β : Type} (p : β × Trie α → Bool) (new : β) (child : Trie α) :
    List (β × Trie α) → List (β × Trie α)
  | [] => [(new, child)]
  | e :: rest => if p e then (e.1, child) :: rest else e :: redirect p new child rest

/-- The tree with another child behind a segment. A child that was there keeps
    the segment it was made for. -/
def setChild (t : Trie α) (s : Segment) (child : Trie α) : Trie α :=
  match s with
  | .var v =>
    .node t.depth t.terminal t.fixed t.judged (some (t.binder.elim v Prod.fst, child))
  | .condition ⟨kind, .validator v⟩ =>
    .node t.depth t.terminal t.fixed (redirect (judges kind v) (kind, v) child t.judged) t.binder
  | s =>
    .node t.depth t.terminal (redirect (fun e => e.1.edgeKey? == s.edgeKey?) s child t.fixed)
      t.judged t.binder

/-- The tree with another terminal at its root. -/
def setTerminal (t : Trie α) (path : α) : Trie α :=
  .node t.depth (some path) t.fixed t.judged t.binder

/-- Whether a path can be inserted. Nothing behind the nodes that exist
    already can be in its way. A check changes nothing, not even by making the
    nodes that an insertion would. -/
def check (t : Trie α) : List Segment → Except Fault Unit
  | [] => .ok ()
  | s :: rest =>
    match t.child? s with
    | .error e => .error e
    | .ok none => .ok ()
    | .ok (some child) => child.check rest

/-- What became of an insertion: the tree after it, and what ended at the last
    node before, or why the path was refused. -/
structure Insertion (α : Type) where
  trie : Trie α
  outcome : Except Fault (Option α)

/-- The tree with a path inserted along its segments. -/
def insert (path : α) : List Segment → Trie α → Insertion α
  | [], t => ⟨t.setTerminal path, .ok t.terminal⟩
  | s :: rest, t =>
    match t.child? s with
    | .error e => ⟨t, .error e⟩
    | .ok child =>
      let below := insert path rest (child.getD (fresh (t.depth + 1)))
      ⟨t.setChild s below.trie, below.outcome⟩

/-- What became of inserting several paths: the tree after them, which terminals
    took the place of which others, and why the insertion stopped, if it did. -/
structure Insertions (α : Type) where
  trie : Trie α
  replaced : List (α × α)
  outcome : Except Fault Unit

/-- The terminal with the different one it took the place of, if there was one. -/
def replacement [DecidableEq α] (path : α) : Option α → List (α × α)
  | some old => if old = path then [] else [(path, old)]
  | none => []

/-- The tree with several paths inserted, one after the other up to the first
    that is refused. Those before it stay, which is why they are rehearsed. -/
def insertAll [DecidableEq α] : List (α × List Segment) → Trie α → Insertions α
  | [], t => ⟨t, [], .ok ()⟩
  | (path, segments) :: rest, t =>
    let one := insert path segments t
    match one.outcome with
    | .error e => ⟨one.trie, [], .error e⟩
    | .ok old =>
      let more := insertAll rest one.trie
      { more with replaced := replacement path old ++ more.replaced }

/-- Whether several paths can be inserted into the live tree. Each is checked
    against it and then inserted into the other one, where it meets the paths
    before it. The live tree is not touched. -/
def stageAll [DecidableEq α] (live : Trie α) :
    List (α × List Segment) → Trie α → Insertions α
  | [], t => ⟨t, [], .ok ()⟩
  | (path, segments) :: rest, t =>
    match live.check segments with
    | .error e => ⟨t, [], .error e⟩
    | .ok () =>
      let one := insert path segments t
      match one.outcome with
      | .error e => ⟨one.trie, [], .error e⟩
      | .ok old =>
        let more := stageAll live rest one.trie
        { more with replaced := replacement path old ++ more.replaced }

mutual

/-- The terminals in the order of the tree: the root first, then child by child. -/
def toList : Trie α → List α
  | .node _ terminal fixed judged binder =>
    terminal.toList ++ fixedTerminals fixed ++ judgedTerminals judged ++ binderTerminals binder

/-- The terminals below texts and exact conditions. -/
def fixedTerminals : List (Segment × Trie α) → List α
  | [] => []
  | (_, t) :: rest => t.toList ++ fixedTerminals rest

/-- The terminals below conditions that judge. -/
def judgedTerminals : List ((Value × Validator) × Trie α) → List α
  | [] => []
  | (_, t) :: rest => t.toList ++ judgedTerminals rest

/-- The terminals below a variable. -/
def binderTerminals : Option (Variable × Trie α) → List α
  | none => []
  | some (_, t) => t.toList

end

/-- The written form of a node: the segment that leads to it and its depth. -/
def writtenNode (segment : Option Segment) (depth : Nat) : Except Fault String := do
  let shown ← match segment with
    | some s => s.written
    | none => Value.none.written
  return "<TrieNode " ++ shown ++ " depth=" ++ toString depth ++ ">"

@[simp] theorem insert_nil (path : α) (t : Trie α) :
    insert path [] t = ⟨t.setTerminal path, .ok t.terminal⟩ := rfl

end Trie

end PathRouting
