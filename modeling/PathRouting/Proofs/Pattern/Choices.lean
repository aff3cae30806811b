import Mathlib.Data.List.Nodup
import PathRouting.Pattern.Expansion

/-!
# The Choices of a Pattern

Going through a pattern from left to right, every option that is reached has
to be taken or left, and every choice that is reached has to be settled; what
is inside an option that is left, or in a branch that is not taken, is never
reached. The decisions that were made, in order, select the segments that were
passed.

Expanding a pattern lists exactly these ways through it, each of them once,
and in a fixed order: of two ways, the one comes first whose decision comes
first where they part. Two ways through the same pattern always part at some
decision, as neither can end while the other goes on; the order is therefore
said by the first difference alone.

## Main definitions

* `Decision`, `Decision.Before`: The decisions, and which of two comes first.
* `Earlier`: The order of two lists of decisions.
* `Part.Selects`, `Selects`: The segments that some decisions select.
* `Part.count`, `count`: How many ways there are.
* `Way`, `Part.ways`, `ways`: The ways through a pattern, listed.

## Theorems

* `map_segments_ways`: The segments of the listed ways are the expansion.
* `mem_ways_iff`: The listed ways are those that the pattern has.
* `pairwise_ways`: They are listed in order.
* `length_expand`: How long the expansion is.
* `expand_enumerates`: Expanding lists every way through a pattern once and in
  order.
-/

namespace PathRouting

namespace Pattern

/-- What is decided where a pattern leaves something open. The decisions on a
    way are listed in the order in which the pattern asks for them, with those
    inside an option or a branch right behind it. -/
inductive Decision where
  /-- An option is taken. -/
  | present
  /-- An option is left. -/
  | absent
  /-- A choice is settled for its branch of this number, counted from zero. -/
  | branch (n : Nat)
  deriving DecidableEq, Repr

/-- Of two decisions about the same thing, the first comes before the second. -/
inductive Decision.Before : Decision → Decision → Prop
  | option : Before .present .absent
  | choice {m n : Nat} (h : m < n) : Before (.branch m) (.branch n)

/-- Where the decisions differ for the first time, the first comes before the
    second. It is the order of a dictionary, with leaving an option out after
    taking it, and branches in the order they are written in. -/
inductive Earlier : List Decision → List Decision → Prop
  | here {d e : Decision} {ds es : List Decision} (h : d.Before e) : Earlier (d :: ds) (e :: es)
  | there {d : Decision} {ds es : List Decision} (h : Earlier ds es) :
      Earlier (d :: ds) (d :: es)

mutual

/-- The segments of a part that some decisions select. -/
inductive Part.Selects : Part → List Decision → List Segment → Prop
  | leaf (s : Segment) : Part.Selects (.leaf s) [] [s]
  | present {parts : List Part} {ds : List Decision} {segments : List Segment}
      (h : Selects parts ds segments) : Part.Selects (.optional parts) (.present :: ds) segments
  | absent (parts : List Part) : Part.Selects (.optional parts) [.absent] []
  | branch {branches : List (List Part)} {n : Nat} {b : List Part} {ds : List Decision}
      {segments : List Segment} (hb : branches[n]? = some b) (h : Selects b ds segments) :
      Part.Selects (.choice branches) (.branch n :: ds) segments

/-- The segments of some parts that the decisions for one after the other select. -/
inductive Selects : List Part → List Decision → List Segment → Prop
  | nil : Selects [] [] []
  | cons {p : Part} {rest : List Part} {ds es : List Decision} {front back : List Segment}
      (hp : p.Selects ds front) (hrest : Selects rest es back) :
      Selects (p :: rest) (ds ++ es) (front ++ back)

end

mutual

/-- How many ways there are through a part. -/
def Part.count : Part → Nat
  | .leaf _ => 1
  | .optional parts => Pattern.count parts + 1
  | .choice branches => countOfBranches branches

/-- How many ways there are through some parts: each way through one goes with
    each through another. -/
def count : List Part → Nat
  | [] => 1
  | p :: rest => p.count * count rest

/-- How many ways there are through one of some branches. -/
def countOfBranches : List (List Part) → Nat
  | [] => 0
  | b :: rest => count b + countOfBranches rest

end

/-- A way through a pattern: the decisions on it and the segments that it passes. -/
structure Way where
  decisions : List Decision
  segments : List Segment

/-- The way with a decision in front of the others. -/
def Way.after (d : Decision) (w : Way) : Way :=
  ⟨d :: w.decisions, w.segments⟩

/-- One way and then the other. -/
def Way.append (v w : Way) : Way :=
  ⟨v.decisions ++ w.decisions, v.segments ++ w.segments⟩

mutual

/-- The ways through a part. -/
def Part.ways : Part → List Way
  | .leaf s => [⟨[], [s]⟩]
  | .optional parts => (Pattern.ways parts).map (Way.after .present) ++ [⟨[.absent], []⟩]
  | .choice branches => waysOfBranches 0 branches

/-- The ways through some parts. -/
def ways : List Part → List Way
  | [] => [⟨[], []⟩]
  | p :: rest => p.ways.flatMap fun w => (ways rest).map w.append

/-- The ways through one of some branches, the first of which has a number. -/
def waysOfBranches : Nat → List (List Part) → List Way
  | _, [] => []
  | n, b :: rest => (ways b).map (Way.after (.branch n)) ++ waysOfBranches (n + 1) rest

end

/-! ## What is listed -/

theorem map_segments_after (d : Decision) (vs : List Way) :
    (vs.map (Way.after d)).map Way.segments = vs.map Way.segments := by
  rw [List.map_map]
  rfl

mutual

theorem Part.map_segments_ways : (p : Part) → p.ways.map Way.segments = p.expand
  | .leaf s => rfl
  | .optional parts => by
      rw [Part.ways, Part.expand, List.map_append, map_segments_after,
        Pattern.map_segments_ways parts]
      rfl
  | .choice branches => map_segments_waysOfBranches 0 branches

/-- The segments of the listed ways are the expansion, in the same order. -/
theorem map_segments_ways : (parts : List Part) → (ways parts).map Way.segments = expand parts
  | [] => rfl
  | p :: rest => by
      rw [ways, expand, product, ← p.map_segments_ways, ← map_segments_ways rest,
        List.map_flatMap, List.flatMap_map]
      simp only [List.map_map]
      rfl

theorem map_segments_waysOfBranches : (n : Nat) → (branches : List (List Part)) →
    (waysOfBranches n branches).map Way.segments = expandBranches branches
  | _, [] => rfl
  | n, b :: rest => by
      rw [waysOfBranches, expandBranches, List.map_append, map_segments_after,
        map_segments_ways b, map_segments_waysOfBranches (n + 1) rest]

end

mutual

theorem Part.mem_ways_iff : (p : Part) → ∀ w : Way,
    w ∈ p.ways ↔ p.Selects w.decisions w.segments
  | .leaf s => by
      rintro ⟨ds, segments⟩
      constructor
      · intro h
        cases List.mem_singleton.1 h
        exact .leaf s
      · intro h
        cases h
        exact List.mem_singleton_self _
  | .optional parts => by
      rintro ⟨ds, segments⟩
      rw [Part.ways, List.mem_append, List.mem_singleton, List.mem_map]
      -- The first way leaves the option out, and the others are those of its parts.
      constructor
      · rintro (⟨w, hw, heq⟩ | heq)
        · cases heq
          exact .present ((Pattern.mem_ways_iff parts _).1 hw)
        · cases heq
          exact .absent parts
      · intro h
        cases h with
        | present h => exact Or.inl ⟨⟨_, _⟩, (Pattern.mem_ways_iff parts _).2 h, rfl⟩
        | absent => exact Or.inr rfl
  | .choice branches => by
      rintro ⟨ds, segments⟩
      rw [Part.ways, mem_waysOfBranches_iff 0 branches]
      simp only [Nat.zero_add]
      constructor
      · rintro ⟨i, b, es, hb, rfl, h⟩
        exact .branch hb h
      · intro h
        cases h with
        | branch hb h => exact ⟨_, _, _, hb, rfl, h⟩

/-- The listed ways are those on which the decisions select the segments. -/
theorem mem_ways_iff : (parts : List Part) → ∀ w : Way,
    w ∈ ways parts ↔ Selects parts w.decisions w.segments
  | [] => by
      rintro ⟨ds, segments⟩
      constructor
      · intro h
        cases List.mem_singleton.1 h
        exact .nil
      · intro h
        cases h
        exact List.mem_singleton_self _
  | p :: rest => by
      rintro ⟨ds, segments⟩
      -- A way through the sequence is one through the first part and then one through the rest.
      rw [ways, List.mem_flatMap]
      simp only [List.mem_map]
      constructor
      · rintro ⟨v, hv, w, hw, heq⟩
        cases heq
        exact .cons ((p.mem_ways_iff _).1 hv) ((mem_ways_iff rest _).1 hw)
      · intro h
        cases h with
        | cons hp hrest =>
            exact ⟨⟨_, _⟩, (p.mem_ways_iff _).2 hp, ⟨_, _⟩, (mem_ways_iff rest _).2 hrest, rfl⟩

/-- The number of a branch that a way goes through counts from that of the first. -/
theorem mem_waysOfBranches_iff : (n : Nat) → (branches : List (List Part)) → ∀ w : Way,
    w ∈ waysOfBranches n branches ↔ ∃ i b ds, branches[i]? = some b ∧
      w.decisions = .branch (n + i) :: ds ∧ Selects b ds w.segments
  | n, [] => by simp [waysOfBranches]
  | n, b :: rest => by
      rintro ⟨ds, segments⟩
      -- Each branch behind the first has a number one greater here than in the rest.
      rw [waysOfBranches, List.mem_append, List.mem_map, mem_waysOfBranches_iff (n + 1) rest]
      constructor
      · rintro (⟨w, hw, heq⟩ | ⟨i, c, es, hc, hds, h⟩)
        · cases heq
          exact ⟨0, b, _, rfl, rfl, (mem_ways_iff b _).1 hw⟩
        · exact ⟨i + 1, c, es, hc, by rw [hds]; congr 2; omega, h⟩
      · rintro ⟨i, c, es, hc, hds, h⟩
        cases i with
        | zero =>
            cases hc
            cases hds
            exact Or.inl ⟨⟨_, _⟩, (mem_ways_iff b _).2 h, rfl⟩
        | succ i => exact Or.inr ⟨i, c, es, hc, by rw [hds]; congr 2; omega, h⟩

end

/-! ## The order -/

/-- No decisions are earlier than themselves. -/
theorem Earlier.ne {ds es : List Decision} (h : Earlier ds es) : ds ≠ es := by
  induction h with
  | here h =>
      rintro ⟨⟩
      cases h with
      | choice h => exact Nat.lt_irrefl _ h
  | there _ ih => exact fun heq => ih (List.cons.inj heq).2

theorem Earlier.append_right {ds es : List Decision} (h : Earlier ds es) (as bs : List Decision) :
    Earlier (ds ++ as) (es ++ bs) := by
  induction h with
  | here h => exact .here h
  | there _ ih => exact .there ih

theorem Earlier.append_left {ds es : List Decision} (h : Earlier ds es) (as : List Decision) :
    Earlier (as ++ ds) (as ++ es) := by
  induction as with
  | nil => exact h
  | cons a as ih => exact .there ih

/-- The ways are listed in order. -/
def Ordered (vs : List Way) : Prop :=
  vs.Pairwise fun v w => Earlier v.decisions w.decisions

theorem Ordered.after {vs : List Way} (h : Ordered vs) (d : Decision) :
    Ordered (vs.map (Way.after d)) :=
  List.pairwise_map.2 (h.imp .there)

mutual

theorem Part.pairwise_ways : (p : Part) → Ordered p.ways
  | .leaf s => List.pairwise_singleton _ _
  | .optional parts => by
      rw [Part.ways, Ordered, List.pairwise_append]
      refine ⟨(Pattern.pairwise_ways parts).after _, List.pairwise_singleton _ _, ?_⟩
      intro v hv w hw
      obtain ⟨u, _, rfl⟩ := List.mem_map.1 hv
      rw [List.mem_singleton.1 hw]
      exact .here .option
  | .choice branches => pairwise_waysOfBranches 0 branches

/-- The ways through some parts are listed in order: what is decided for the
    first part counts for more than what is decided behind it. The induction
    is on the tree, with one case for each kind of part. -/
theorem pairwise_ways : (parts : List Part) → Ordered (ways parts)
  | [] => List.pairwise_singleton _ _
  | p :: rest => by
      rw [ways, Ordered, List.pairwise_flatMap]
      constructor
      · intro v _
        exact List.pairwise_map.2 ((pairwise_ways rest).imp fun h => h.append_left _)
      · refine p.pairwise_ways.imp fun h v hv w hw => ?_
        obtain ⟨v', _, rfl⟩ := List.mem_map.1 hv
        obtain ⟨w', _, rfl⟩ := List.mem_map.1 hw
        exact h.append_right _ _

theorem pairwise_waysOfBranches : (n : Nat) → (branches : List (List Part)) →
    Ordered (waysOfBranches n branches)
  | _, [] => List.Pairwise.nil
  | n, b :: rest => by
      rw [waysOfBranches, Ordered, List.pairwise_append]
      refine ⟨(pairwise_ways b).after _, pairwise_waysOfBranches (n + 1) rest, ?_⟩
      intro v hv w hw
      obtain ⟨u, _, rfl⟩ := List.mem_map.1 hv
      obtain ⟨i, _, _, _, hdecisions, _⟩ := (mem_waysOfBranches_iff (n + 1) rest w).1 hw
      rw [hdecisions]
      exact .here (.choice (by omega))

end

/-- The same decisions select the same segments. -/
theorem Selects.unique {parts : List Part} {ds : List Decision} {a b : List Segment}
    (ha : Selects parts ds a) (hb : Selects parts ds b) : a = b := by
  have hnodup : ((ways parts).map Way.decisions).Nodup :=
    List.pairwise_map.2 ((pairwise_ways parts).imp Earlier.ne)
  have hsame := List.inj_on_of_nodup_map hnodup ((mem_ways_iff parts ⟨ds, a⟩).2 ha)
    ((mem_ways_iff parts ⟨ds, b⟩).2 hb) rfl
  exact congrArg Way.segments hsame

/-! ## The number -/

theorem length_product {α : Type} (first second : List (List α)) :
    (product first second).length = first.length * second.length := by
  simp [product, List.length_flatMap]

mutual

theorem Part.length_expand : (p : Part) → p.expand.length = p.count
  | .leaf _ => rfl
  | .optional parts => by
      rw [Part.expand, List.length_append, Pattern.length_expand parts]
      rfl
  | .choice branches => length_expandBranches branches

/-- There are as many sequences as there are ways to settle what a pattern
    leaves open. -/
theorem length_expand : (parts : List Part) → (expand parts).length = count parts
  | [] => rfl
  | p :: rest => by rw [expand, length_product, p.length_expand, length_expand rest, count]

theorem length_expandBranches : (branches : List (List Part)) →
    (expandBranches branches).length = countOfBranches branches
  | [] => rfl
  | b :: rest => by
      rw [expandBranches, List.length_append, length_expand b, length_expandBranches rest,
        countOfBranches]

end

-- An option inside another and one behind them: three ways go with two.
example (s : Segment) : count [.leaf s, .optional [.leaf s, .optional [.leaf s]],
    .optional [.leaf s]] = 6 := rfl

/-- Expanding a pattern lists every way through it once and in order: the list
    of the ways, of which each has the segments that its decisions select, is
    that of the sequences. Two ways may select the same segments, and are
    listed both; it is decisions that do not repeat. -/
theorem expand_enumerates (tree : List Part) :
    (∃ listed : List Way, listed.map Way.segments = expand tree ∧
      (∀ w, w ∈ listed ↔ Selects tree w.decisions w.segments) ∧
      listed.Pairwise fun v w => Earlier v.decisions w.decisions) ∧
    (∀ ds a b, Selects tree ds a → Selects tree ds b → a = b) ∧
    (expand tree).length = count tree :=
  ⟨⟨ways tree, map_segments_ways tree, mem_ways_iff tree, pairwise_ways tree⟩,
    fun _ _ _ => Selects.unique, length_expand tree⟩

end Pattern

end PathRouting
