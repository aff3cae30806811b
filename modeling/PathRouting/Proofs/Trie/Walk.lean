import PathRouting.Proofs.Trie.Answers
import PathRouting.Proofs.Trie.Greedy

/-!
# The Search Finds the First Walk

A walk goes through a tree from its root, over one token after the other, and
at every node takes any of the ways that are open to it. Which one it takes is
noted as a number: a child for the very token is zero, the conditions that
judge come after it in order, then the wildcard; for a piece of a path the
variable is one, and the open glob two. The search is the walk with the least
numbers.

That holds for every tree, however it came about. It is shown for each
alternative on its own, from what is known about the search behind the token,
and the alternatives are put together in order. A search can only go wrong
where a validator does, or where the kind of an attribute cannot be looked up.

## Main definitions

* `Orderly`: Attributes of a request, and then texts.
* `Segment.Asks`, `Trie.Asks`: What a search may put to a validator of a
  segment, and of a tree.
* `Trie.Child`: The children of a node.
* `Trie.Walk`: The walks through a tree.
* `Ways`, `Proceeds`: What a search finds behind some bindings, and that it
  goes on as it should behind a token.

## Theorems

* `attribute_answers`, `text_answers`: The alternatives over an attribute, and
  over a text.
* `Trie.search_answers`: The search finds the first walk.
* `Trie.find_answers`: So does the search from the root.
-/

namespace PathRouting

/-- Attributes of a request, and then texts: what is brought to a search.
    Every request has this form, and only on such tokens a variable is asked
    about texts alone. -/
inductive Orderly : List Token → Prop
  | texts (pieces : List String) : Orderly (pieces.map Token.ofText)
  | before {c : Condition} {rest : List Token} (orderly : Orderly rest) :
      Orderly (.attribute c :: rest)

theorem Orderly.tail {token : Token} {rest : List Token} (h : Orderly (token :: rest)) :
    Orderly rest := by
  generalize htokens : token :: rest = tokens at h
  cases h with
  | texts pieces =>
      rcases List.map_eq_cons_iff.1 htokens.symm with ⟨s, more, rfl, _, rfl⟩
      exact .texts more
  | before orderly =>
      cases htokens
      exact orderly

theorem Orderly.of_append (attributes : List Condition) (pieces : List String) :
    Orderly (attributes.map Token.attribute ++ pieces.map Token.ofText) := by
  induction attributes with
  | nil => exact .texts pieces
  | cons c rest ih => exact .before ih

/-- Where a piece is, there are only texts left. -/
theorem Orderly.piece_text {v : Value} {rest : List Token} (h : Orderly (.piece v :: rest)) :
    ∃ s pieces, v = .text s ∧ rest = List.map Token.ofText pieces := by
  generalize htokens : Token.piece v :: rest = tokens at h
  cases h with
  | texts pieces =>
      rcases List.map_eq_cons_iff.1 htokens.symm with ⟨s, more, rfl, hs, rfl⟩
      cases hs
      exact ⟨s, more, rfl, rfl⟩
  | before orderly => cases htokens

/-- The attribute is among the tokens. -/
def Brought (tokens : List Token) (c : Condition) : Prop :=
  Token.attribute c ∈ tokens

/-- What a search may put to the validator of a segment. That of a condition
    judges the attributes of its kind that are brought, as long as they are
    not absent. That of a variable judges texts, and nothing else. -/
inductive Segment.Asks (brought : Condition → Prop) : Segment → Validator → Value → Prop
  | condition {kind : Value} {w : Validator} {c : Condition} (here : brought c)
      (same : kind.equal c.kind = true) (present : c.value.isNone = false) :
      Asks brought (.condition ⟨kind, .validator w⟩) w c.value
  | var {v : Variable} {w : Validator} (held : v.validator = some w) (text : String) :
      Asks brought (.var v) w (.text text)

theorem Segment.Asks.mono {brought others : Condition → Prop} (h : ∀ c, brought c → others c)
    {s : Segment} {w : Validator} {x : Value} (hasks : s.Asks brought w x) :
    s.Asks others w x := by
  cases hasks with
  | condition here same present => exact .condition (h _ here) same present
  | var held text => exact .var held text

namespace Trie

variable {α : Type}

/-- The children of a node that a search may go on from. Which table a child is
    in does not matter for what holds below it, and this is how to say that. -/
inductive Child (t : Trie α) : Segment → Trie α → Prop
  | fixed {key : EdgeKey} {s : Segment} {child : Trie α}
      (h : t.fixedChild? key = some (s, child)) : Child t s child
  | judged {e : (Value × Validator) × Trie α} (h : e ∈ t.judged) :
      Child t (.condition ⟨e.1.1, .validator e.1.2⟩) e.2
  | binder {v : Variable} {child : Trie α} (h : t.binder = some (v, child)) :
      Child t (.var v) child

/-- What a search through the tree may put to the validators in it. The
    validators are the application's own code and may fail; to rule that out,
    one has to know what they are asked. -/
inductive Asks (brought : Condition → Prop) : Trie α → Validator → Value → Prop
  | label {t child : Trie α} {s : Segment} {w : Validator} {x : Value} (leads : Child t s child)
      (asks : s.Asks brought w x) : Asks brought t w x
  | behind {t child : Trie α} {s : Segment} {w : Validator} {x : Value} (leads : Child t s child)
      (asks : Asks brought child w x) : Asks brought t w x

/-- Every question that a search from the node may put to a validator is among
    some. The owner of an open glob is asked as well. -/
def AsksOnly (brought : Condition → Prop) (asked : Validator → Value → Prop) (t : Trie α)
    (glob : Option OpenGlob) : Prop :=
  (∀ w x, t.Asks brought w x → asked w x) ∧
    ∀ g w, glob = some g → g.owner.validator = some w → ∀ text, asked w (.text text)

theorem AsksOnly.child {brought : Condition → Prop} {asked : Validator → Value → Prop}
    {t child : Trie α} {glob : Option OpenGlob} {s : Segment} (h : AsksOnly brought asked t glob)
    (hchild : t.Child s child) : AsksOnly brought asked child none :=
  ⟨fun w x hw => h.1 w x (.behind hchild hw), fun _ _ hg => absurd hg (Option.some_ne_none _).symm⟩

theorem closeGlob_eq (held : Bindings) (glob : Option OpenGlob) :
    closeGlob held glob = held ++ closeGlob [] glob := by
  cases glob with
  | none => exact (List.append_nil held).symm
  | some g => rfl

variable [Host]

/-- The walks through a tree over some tokens, with the choices made on the way,
    the path they arrive at, and what is bound behind what was bound before. -/
inductive Walk (delimiters : List String) :
    Trie α → List Token → Option OpenGlob → List Nat → α → Bindings → Prop
  | stop {t : Trie α} {glob : Option OpenGlob} {path : α} (ends : t.terminal = some path) :
      Walk delimiters t [] glob [] path (closeGlob [] glob)
  | exact {t child : Trie α} {c : Condition} {rest : List Token} {s : Segment}
      {glob : Option OpenGlob} {choices : List Nat} {path : α} {b : Bindings}
      (kind : c.kind.isKey = true) (value : c.value.isKey = true)
      (leads : t.fixedChild? (.condition c.kind.form c.value.form) = some (s, child))
      (onward : Walk delimiters child rest none choices path b) :
      Walk delimiters t (.attribute c :: rest) glob (0 :: choices) path (closeGlob [] glob ++ b)
  | judged {t : Trie α} {c : Condition} {rest : List Token} {i : Nat}
      {e : (Value × Validator) × Trie α} {glob : Option OpenGlob} {choices : List Nat} {path : α}
      {b : Bindings} (present : c.value.isNone = false) (leads : t.judged[i]? = some e)
      (kind : e.1.1.equal c.kind = true) (accepts : e.1.2.accepts c.value = .ok true)
      (onward : Walk delimiters e.2 rest none choices path b) :
      Walk delimiters t (.attribute c :: rest) glob ((i + 1) :: choices) path
        (closeGlob [] glob ++ b)
  | anything {t child : Trie α} {c : Condition} {rest : List Token} {s : Segment}
      {glob : Option OpenGlob} {choices : List Nat} {path : α} {b : Bindings}
      (leads : t.fixedChild? (.condition c.kind.form Value.wildcard.form) = some (s, child))
      (onward : Walk delimiters child rest none choices path b) :
      Walk delimiters t (.attribute c :: rest) glob ((t.judged.length + 1) :: choices) path
        (closeGlob [] glob ++ b)
  | literal {t child : Trie α} {s : String} {rest : List Token} {u : Segment}
      {glob : Option OpenGlob} {choices : List Nat} {path : α} {b : Bindings}
      (leads : t.fixedChild? (.text s) = some (u, child)) (kind : u.isSeparator = false)
      (onward : Walk delimiters child rest none choices path b) :
      Walk delimiters t (.piece (.text s) :: rest) glob (0 :: choices) path
        (closeGlob [] glob ++ b)
  | separator {t child : Trie α} {s : String} {rest : List Token} {u : Segment}
      {glob : Option OpenGlob} {choices : List Nat} {path : α} {b : Bindings}
      (leads : t.fixedChild? (.text s) = some (u, child)) (kind : u.isSeparator = true)
      (onward : Walk delimiters child rest glob choices path b) :
      Walk delimiters t (.piece (.text s) :: rest) glob (0 :: choices) path b
  | single {t child : Trie α} {s : String} {rest : List Token} {v : Variable}
      {glob : Option OpenGlob} {choices : List Nat} {path : α} {b : Bindings}
      (mark : Tokens.isDelimiter delimiters s = false) (leads : t.binder = some (v, child))
      (kind : v.glob = none) (accepts : v.accepts (.text s) = .ok true)
      (onward : Walk delimiters child rest none choices path b) :
      Walk delimiters t (.piece (.text s) :: rest) glob (1 :: choices) path
        (closeGlob [] glob ++ (v.name, .one (.text s)) :: b)
  | several {t child : Trie α} {s : String} {rest : List Token} {v : Variable} {g : Glob}
      {glob : Option OpenGlob} {choices : List Nat} {path : α} {b : Bindings}
      (mark : Tokens.isDelimiter delimiters s = false) (leads : t.binder = some (v, child))
      (kind : v.glob = some g) (greedy : g.greedy = false)
      (accepts : v.accepts (.text s) = .ok true)
      (onward : Walk delimiters child rest (some ⟨v, [.text s]⟩) choices path b) :
      Walk delimiters t (.piece (.text s) :: rest) glob (1 :: choices) path
        (closeGlob [] glob ++ b)
  | greedy {t child : Trie α} {s : String} {rest : List Token} {v : Variable} {g : Glob}
      {matched : String} {n : Nat} {glob : Option OpenGlob} {choices : List Nat} {path : α}
      {b : Bindings}
      (mark : Tokens.isDelimiter delimiters s = false) (leads : t.binder = some (v, child))
      (kind : v.glob = some g) (greedy : g.greedy = true)
      (takes : greedyTake v g (.piece (.text s) :: rest) = .ok (some (matched, n)))
      (onward : Walk delimiters child (rest.drop (n - 1)) none choices path b) :
      Walk delimiters t (.piece (.text s) :: rest) glob (1 :: choices) path
        (closeGlob [] glob ++ (v.name, .one (.text matched)) :: b)
  | skip {t : Trie α} {s : String} {rest : List Token} {g : OpenGlob} {choices : List Nat}
      {path : α} {b : Bindings} (mark : Tokens.isDelimiter delimiters s = true)
      (onward : Walk delimiters t rest (some g) choices path b) :
      Walk delimiters t (.piece (.text s) :: rest) (some g) (2 :: choices) path b
  | take {t : Trie α} {s : String} {rest : List Token} {g : OpenGlob} {choices : List Nat}
      {path : α} {b : Bindings} (mark : Tokens.isDelimiter delimiters s = false)
      (accepts : g.owner.accepts (.text s) = .ok true)
      (onward : Walk delimiters t rest (some ⟨g.owner, g.taken ++ [.text s]⟩) choices path b) :
      Walk delimiters t (.piece (.text s) :: rest) (some g) (2 :: choices) path b

/-- What a search finds on the walks behind what was bound before. A walk
    knows nothing of that; the search carries it along. So walks can be
    compared wherever they start. -/
def Ways (delimiters : List String) (t : Trie α) (tokens : List Token) (held : Bindings)
    (glob : Option OpenGlob) (choices : List Nat) (x : α × Bindings) : Prop :=
  ∃ b, Walk delimiters t tokens glob choices x.1 b ∧ x.2 = held ++ b

/-- One of the validators is at fault for what it is asked, or one of the
    attributes has a kind that cannot be looked up. -/
def Faulty (asked : Validator → Value → Prop) (brought : Condition → Prop) (e : Fault) : Prop :=
  (∃ w x, asked w x ∧ w.accepts x = .error e) ∨
    (∃ c, brought c ∧ c.kind.isKey = false) ∧ e = .type .notAKey

/-- The search goes on as it should behind a token. It is what each of the
    ways on asks for, and what the induction over the tokens supplies. -/
def Proceeds (delimiters : List String) (asked : Validator → Value → Prop)
    (brought : Condition → Prop) (rest : List Token) (onward : Onward α) : Prop :=
  ∀ skip t held glob, AsksOnly brought asked t glob →
    Answers (Ways delimiters t (rest.drop skip) held glob) (Faulty asked brought)
      (onward skip t held glob)

variable {delimiters : List String} {asked : Validator → Value → Prop}
  {brought : Condition → Prop} {rest : List Token} {onward : Onward α} {t : Trie α}
  {held : Bindings} {glob : Option OpenGlob}

/-- What is bound behind a closed glob is bound behind what was bound before. -/
theorem ways_closed {tokens : List Token} {choices : List Nat} {x : α × Bindings} :
    Ways delimiters t tokens (closeGlob held glob) none choices x ↔
      ∃ b, Walk delimiters t tokens none choices x.1 b ∧
        x.2 = held ++ (closeGlob [] glob ++ b) := by
  unfold Ways
  rw [closeGlob_eq held glob]
  simp only [List.append_assoc]

/-- A fault of a variable is one of its validator. -/
theorem faulty_of_accepts {v : Variable} {text : String} {e : Fault}
    (hasked : ∀ w, v.validator = some w → ∀ text, asked w (.text text))
    (h : v.accepts (.text text) = .error e) : Faulty asked brought e := by
  unfold Variable.accepts at h
  cases hv : v.validator with
  | none =>
      rw [hv] at h
      cases h
  | some w =>
      rw [hv] at h
      exact Or.inl ⟨w, .text text, hasked w hv text, h⟩

section Binder

variable {v : Variable} {child : Trie α} {s : String}
  (hmark : Tokens.isDelimiter delimiters s = false) (hleads : t.binder = some (v, child))

include hmark hleads

/-- The walks over a variable for one token. -/
theorem ways_single (hkind : v.glob = none) {d : List Nat} {x : α × Bindings} :
    Ways delimiters t (.piece (.text s) :: rest) held glob (1 :: d) x ↔
      v.accepts (.text s) = .ok true ∧ Ways delimiters child rest
        (closeGlob held glob ++ [(v.name, .one (.text s))]) none d x := by
  unfold Ways
  rw [closeGlob_eq held glob]
  constructor
  · intro hway
    rcases hway with ⟨b, hwalk, hx⟩
    -- A choice of this number is one over the variable, and the variable of the node is no glob.
    cases hwalk with
    | single mark leads kind accepts onward =>
        cases leads.symm.trans hleads
        refine ⟨accepts, _, onward, ?_⟩
        simpa only [List.append_assoc, List.cons_append, List.nil_append] using hx
    | several mark leads kind | greedy mark leads kind =>
        cases leads.symm.trans hleads
        rw [hkind] at kind
        cases kind
  · intro hway
    rcases hway with ⟨haccepts, b, hwalk, hx⟩
    refine ⟨_, .single hmark hleads hkind haccepts hwalk, ?_⟩
    simpa only [List.append_assoc, List.cons_append, List.nil_append] using hx

/-- The walks over a variable for several tokens, which takes the first of them. -/
theorem ways_several {g : Glob} (hkind : v.glob = some g) (hgreedy : g.greedy = false)
    {d : List Nat} {x : α × Bindings} :
    Ways delimiters t (.piece (.text s) :: rest) held glob (1 :: d) x ↔
      v.accepts (.text s) = .ok true ∧ Ways delimiters child rest
        (closeGlob held glob) (some ⟨v, [.text s]⟩) d x := by
  unfold Ways
  rw [closeGlob_eq held glob]
  constructor
  · intro hway
    rcases hway with ⟨b, hwalk, hx⟩
    -- Again the number says that the variable was chosen, and the glob which step that was.
    cases hwalk with
    | several mark leads kind greedy accepts onward =>
        cases leads.symm.trans hleads
        refine ⟨accepts, _, onward, ?_⟩
        simpa only [List.append_assoc, List.cons_append, List.nil_append] using hx
    | single mark leads kind =>
        cases leads.symm.trans hleads
        rw [hkind] at kind
        cases kind
    | greedy mark leads kind greedy =>
        cases leads.symm.trans hleads
        cases hkind.symm.trans kind
        rw [hgreedy] at greedy
        cases greedy
  · intro hway
    rcases hway with ⟨haccepts, b, hwalk, hx⟩
    refine ⟨_, .several hmark hleads hkind hgreedy haccepts hwalk, ?_⟩
    simpa only [List.append_assoc, List.cons_append, List.nil_append] using hx

/-- The walks over a greedy variable, which takes all of its tokens at once. -/
theorem ways_greedy {g : Glob} (hkind : v.glob = some g) (hgreedy : g.greedy = true)
    {d : List Nat} {x : α × Bindings} :
    Ways delimiters t (.piece (.text s) :: rest) held glob (1 :: d) x ↔
      ∃ matched n, greedyTake v g (.piece (.text s) :: rest) = .ok (some (matched, n)) ∧
        Ways delimiters child (rest.drop (n - 1))
          (closeGlob held glob ++ [(v.name, .one (.text matched))]) none d x := by
  unfold Ways
  rw [closeGlob_eq held glob]
  constructor
  · intro hway
    rcases hway with ⟨b, hwalk, hx⟩
    -- So does it here, with a greedy glob.
    cases hwalk with
    | greedy mark leads kind greedy takes onward =>
        cases leads.symm.trans hleads
        cases hkind.symm.trans kind
        refine ⟨_, _, takes, _, onward, ?_⟩
        simpa only [List.append_assoc, List.cons_append, List.nil_append] using hx
    | single mark leads kind =>
        cases leads.symm.trans hleads
        rw [hkind] at kind
        cases kind
    | several mark leads kind greedy =>
        cases leads.symm.trans hleads
        cases hkind.symm.trans kind
        rw [hgreedy] at greedy
        cases greedy
  · intro hway
    rcases hway with ⟨matched, n, htakes, b, hwalk, hx⟩
    refine ⟨_, .greedy hmark hleads hkind hgreedy htakes hwalk, ?_⟩
    simpa only [List.append_assoc, List.cons_append, List.nil_append] using hx

end Binder

variable (ho : Proceeds delimiters asked brought rest onward)
  (ha : AsksOnly brought asked t glob)

include ho ha

/-- The walks whose first choice is the child for exactly this attribute. -/
theorem viaExact_answers (c : Condition) :
    Answers (fun choices x => ∃ d, choices = 0 :: d ∧
        Ways delimiters t (.attribute c :: rest) held glob (0 :: d) x) (Faulty asked brought)
      (viaExact onward t c (closeGlob held glob)) := by
  refine (answers_option (fun e => Ways delimiters e.2 rest (closeGlob held glob) none) 0
    fun e he => ?_).congr fun choices x => ?_
  · by_cases hkey : (c.kind.isKey && c.value.isKey) = true
    · rw [if_pos hkey] at he
      exact ho 0 e.2 _ none (ha.child (.fixed he))
    · rw [if_neg hkey] at he
      cases he
  · constructor
    · intro hway
      rcases hway with ⟨d, rfl, b, hwalk, hx⟩
      -- The walk could look the attribute up, so the search can.
      cases hwalk with
      | exact kind value leads onward =>
          refine ⟨_, d, (if_pos ?_).trans leads, rfl, ways_closed.2 ⟨_, onward, hx⟩⟩
          rw [kind, value]
          rfl
    · intro hway
      rcases hway with ⟨e, d, he, rfl, hways⟩
      rcases ways_closed.1 hways with ⟨b, hwalk, hx⟩
      by_cases hkey : (c.kind.isKey && c.value.isKey) = true
      · rw [if_pos hkey] at he
        rw [Bool.and_eq_true] at hkey
        exact ⟨d, rfl, _, .exact hkey.1 hkey.2 he hwalk, hx⟩
      · rw [if_neg hkey] at he
        cases he

/-- The walks whose first choice is a condition that judges the attribute. -/
theorem viaJudged_answers {c : Condition} (hc : brought c) :
    Answers (fun choices x => ∃ i d, i < t.judged.length ∧ choices = (i + 1) :: d ∧
        Ways delimiters t (.attribute c :: rest) held glob ((i + 1) :: d) x) (Faulty asked brought)
      (viaJudged onward t c (closeGlob held glob)) := by
  unfold viaJudged
  cases hpresent : c.value.isNone with
  | true =>
      -- No condition judges an absent value.
      intro choices x hway
      rcases hway with ⟨i, d, hi, rfl, b, hwalk, hx⟩
      cases hwalk with
      | judged present leads kind accepts onward =>
          rw [hpresent] at present
          cases present
      | anything leads onward => exact absurd hi (Nat.lt_irrefl _)
  | false =>
      refine (answers_firstFound (fun (e : (Value × Validator) × Trie α) choices x =>
        e.1.2.accepts c.value = .ok true ∧
          Ways delimiters e.2 rest (closeGlob held glob) none choices x) 1
        (fun e => e.1.1.equal c.kind) fun e he hkind => ?_).congr fun choices x => ?_
      · refine Answers.guard (fun fault hfault => ?_) fun _ =>
          ho 0 e.2 _ none (ha.child (.judged he))
        exact Or.inl ⟨e.1.2, c.value,
          ha.1 _ _ (.label (.judged he) (.condition hc hkind hpresent)), hfault⟩
      · constructor
        · intro hway
          rcases hway with ⟨i, d, hi, rfl, b, hwalk, hx⟩
          cases hwalk with
          | judged present leads kind accepts onward =>
              exact ⟨i, _, d, leads, kind, rfl, accepts, ways_closed.2 ⟨_, onward, hx⟩⟩
          | anything leads onward => exact absurd hi (Nat.lt_irrefl _)
        · intro hway
          rcases hway with ⟨i, e, d, he, hkind, rfl, haccepts, hways⟩
          rcases ways_closed.1 hways with ⟨b, hwalk, hx⟩
          exact ⟨i, d, (List.getElem?_eq_some_iff.1 he).1, rfl, _,
            .judged hpresent he hkind haccepts hwalk, hx⟩

/-- The walks whose first choice is the wildcard. -/
theorem viaAnything_answers {c : Condition} (hc : brought c) :
    Answers (fun choices x => ∃ d, choices = (t.judged.length + 1) :: d ∧
        Ways delimiters t (.attribute c :: rest) held glob ((t.judged.length + 1) :: d) x)
      (Faulty asked brought) (viaAnything onward t c (closeGlob held glob)) := by
  unfold viaAnything
  cases hkey : c.kind.isKey with
  | false => exact Or.inr ⟨⟨c, hc, hkey⟩, rfl⟩
  | true =>
      rw [if_pos rfl]
      refine (answers_option (fun e => Ways delimiters e.2 rest (closeGlob held glob) none)
        (t.judged.length + 1) fun e he => ?_).congr fun choices x => ?_
      · exact ho 0 e.2 _ none (ha.child (.fixed he))
      · constructor
        · intro hway
          rcases hway with ⟨d, rfl, b, hwalk, hx⟩
          -- The number is behind those of all conditions that judge, so it is that of the wildcard.
          cases hwalk with
          | judged present leads kind accepts onward =>
              exact absurd (List.getElem?_eq_some_iff.1 leads).1 (Nat.lt_irrefl _)
          | anything leads onward =>
              exact ⟨(_, _), d, leads, rfl, ways_closed.2 ⟨_, onward, hx⟩⟩
        · intro hway
          rcases hway with ⟨e, d, he, rfl, hways⟩
          rcases ways_closed.1 hways with ⟨b, hwalk, hx⟩
          exact ⟨d, rfl, _, .anything he hwalk, hx⟩

/-- The walks whose first choice is the child for this very piece. -/
theorem viaLiteral_answers (s : String) :
    Answers (fun choices x => ∃ d, choices = 0 :: d ∧
        Ways delimiters t (.piece (.text s) :: rest) held glob (0 :: d) x) (Faulty asked brought)
      (viaLiteral onward t (.text s) held glob) := by
  refine (answers_option (fun e => if e.1.isSeparator then Ways delimiters e.2 rest held glob
    else Ways delimiters e.2 rest (closeGlob held glob) none) 0 fun e he => ?_).congr
      fun choices x => ?_
  · have hchild : t.Child e.1 e.2 := .fixed he
    by_cases hkind : e.1.isSeparator = true
    · rw [if_pos hkind, if_pos hkind]
      exact ho 0 e.2 held glob ⟨fun w x hw => ha.1 w x (.behind hchild hw), ha.2⟩
    · rw [if_neg hkind, if_neg hkind]
      exact ho 0 e.2 _ none (ha.child hchild)
  · constructor
    · intro hway
      rcases hway with ⟨d, rfl, b, hwalk, hx⟩
      -- A literal closes the open glob, a separator leaves it open.
      cases hwalk with
      | literal leads kind onward =>
          refine ⟨_, d, leads, rfl, ?_⟩
          rw [if_neg (Bool.eq_false_iff.1 kind)]
          exact ways_closed.2 ⟨_, onward, hx⟩
      | separator leads kind onward =>
          refine ⟨_, d, leads, rfl, ?_⟩
          rw [if_pos kind]
          exact ⟨_, onward, hx⟩
    · intro hway
      rcases hway with ⟨e, d, he, rfl, hways⟩
      by_cases hkind : e.1.isSeparator = true
      · rw [if_pos hkind] at hways
        rcases hways with ⟨b, hwalk, hx⟩
        exact ⟨d, rfl, _, .separator he hkind hwalk, hx⟩
      · rw [if_neg hkind] at hways
        rcases ways_closed.1 hways with ⟨b, hwalk, hx⟩
        exact ⟨d, rfl, _, .literal he (Bool.eq_false_iff.2 hkind) hwalk, hx⟩

/-- The walks whose first choice is the open glob. -/
theorem viaOpen_answers (s : String) :
    Answers (fun choices x => ∃ d, choices = 2 :: d ∧
        Ways delimiters t (.piece (.text s) :: rest) held glob (2 :: d) x) (Faulty asked brought)
      (viaOpen onward delimiters t (.text s) held glob) := by
  refine (answers_option (fun g choices x =>
    Ways delimiters t (.piece (.text s) :: rest) held (some g) (2 :: choices) x) 2
      fun g hg => ?_).congr fun choices x => ?_
  -- Whatever the glob takes, its owner asks no more than before.
  · have howner : ∀ {taken}, AsksOnly brought asked t (some ⟨g.owner, taken⟩) := by
      intro taken
      refine ⟨ha.1, fun g' w hg' hw text => ?_⟩
      cases hg'
      exact ha.2 g w hg hw text
    cases hmark : Tokens.isDelimiter delimiters s with
    | true =>
        rw [if_pos (show isMark delimiters (.text s) = true from hmark)]
        refine (ho 0 t held (some g) howner).congr fun choices x => ?_
        constructor
        · intro hway
          rcases hway with ⟨b, hwalk, hx⟩
          cases hwalk with
          | skip mark onward => exact ⟨_, onward, hx⟩
          | take mark accepts onward =>
              rw [hmark] at mark
              cases mark
        · intro hway
          rcases hway with ⟨b, hwalk, hx⟩
          exact ⟨b, .skip hmark hwalk, hx⟩
    | false =>
        rw [if_neg (show ¬isMark delimiters (.text s) = true from Bool.eq_false_iff.1 hmark)]
        refine Answers.congr (Answers.guard
          (fun e he => faulty_of_accepts (fun w hw => ha.2 g w hg hw) he)
          fun _ => ho 0 t held (some ⟨g.owner, g.taken ++ [.text s]⟩) howner) fun choices x => ?_
        constructor
        · intro hway
          rcases hway with ⟨b, hwalk, hx⟩
          cases hwalk with
          | skip mark onward =>
              rw [hmark] at mark
              cases mark
          | take mark accepts onward => exact ⟨accepts, _, onward, hx⟩
        · intro hway
          rcases hway with ⟨haccepts, b, hwalk, hx⟩
          exact ⟨b, .take hmark haccepts hwalk, hx⟩
  · constructor
    · intro hway
      rcases hway with ⟨d, rfl, b, hwalk, hx⟩
      cases hwalk with
      | skip mark onward => exact ⟨_, d, rfl, rfl, _, .skip mark onward, hx⟩
      | take mark accepts onward => exact ⟨_, d, rfl, rfl, _, .take mark accepts onward, hx⟩
    · intro hway
      rcases hway with ⟨g, d, rfl, rfl, hways⟩
      exact ⟨d, rfl, hways⟩

/-- The walks whose first choice is the variable. -/
theorem viaBinder_answers {s : String} {pieces : List String}
    (hrest : rest = pieces.map Token.ofText) :
    Answers (fun choices x => ∃ d, choices = 1 :: d ∧
        Ways delimiters t (.piece (.text s) :: rest) held glob (1 :: d) x) (Faulty asked brought)
      (viaBinder onward delimiters t (.text s) rest (closeGlob held glob)) := by
  unfold viaBinder
  cases hmark : Tokens.isDelimiter delimiters s with
  | true =>
      rw [if_pos (show isMark delimiters (.text s) = true from hmark)]
      intro choices x hway
      rcases hway with ⟨d, rfl, b, hwalk, hx⟩
      cases hwalk with
      | single mark | several mark | greedy mark =>
          rw [hmark] at mark
          cases mark
  | false =>
      rw [if_neg (show ¬isMark delimiters (.text s) = true from Bool.eq_false_iff.1 hmark)]
      refine (answers_option (fun (_ : Variable × Trie α) choices x =>
        Ways delimiters t (.piece (.text s) :: rest) held glob (1 :: choices) x) 1
          fun e he => ?_).congr fun choices x => ?_
      · rcases e with ⟨v, child⟩
        have hchild : t.Child (.var v) child := .binder he
        have hasked : ∀ w, v.validator = some w → ∀ text, asked w (.text text) :=
          fun w hw text => ha.1 w _ (.label hchild (.var hw text))
        dsimp only
        split
        · next g hglob =>
          by_cases hgreedy : g.greedy = true
          · rw [if_pos hgreedy]
            refine Answers.congr ?_ fun d x => ways_greedy hmark he hglob hgreedy
            -- The tokens are passed over by counting them down, so the walk goes on
            -- behind all of them.
            cases htakes : greedyTake v g (.piece (.text s) :: rest) with
            | error fault =>
                have htexts : .piece (.text s) :: rest = (s :: pieces).map Token.ofText := by
                  rw [hrest]
                  rfl
                rw [htexts] at htakes
                rcases greedyTake_eq_error htakes with ⟨matched, hfault⟩
                exact faulty_of_accepts hasked hfault
            | ok taken =>
                cases taken with
                | none =>
                    intro d x hway
                    rcases hway with ⟨matched, n, hnone, _⟩
                    cases hnone
                | some taken =>
                    refine (ho (taken.2 - 1) child _ none (ha.child hchild)).congr fun d x => ?_
                    constructor
                    · intro hway
                      rcases hway with ⟨matched, n, hsome, hways⟩
                      cases hsome
                      exact hways
                    · exact fun hways => ⟨_, _, rfl, hways⟩
          · rw [if_neg hgreedy]
            refine Answers.congr (Answers.guard (fun fault hf => faulty_of_accepts hasked hf)
              fun _ => ho 0 child _ (some ⟨v, [.text s]⟩) ⟨(ha.child hchild).1, ?_⟩)
              fun d x => ways_several hmark he hglob (Bool.eq_false_iff.2 hgreedy)
            intro g' w hg' hw text
            cases hg'
            exact hasked w hw text
        · next hglob =>
          exact Answers.congr (Answers.guard (fun fault hf => faulty_of_accepts hasked hf)
            fun _ => ho 0 child _ none (ha.child hchild)) fun d x => ways_single hmark he hglob
      · constructor
        · intro hway
          rcases hway with ⟨d, rfl, hways⟩
          have hleads : ∃ e, t.binder = some e := by
            rcases hways with ⟨b, hwalk, hx⟩
            cases hwalk <;> exact ⟨_, ‹t.binder = some _›⟩
          rcases hleads with ⟨e, he⟩
          exact ⟨e, d, he, rfl, hways⟩
        · intro hway
          rcases hway with ⟨e, d, _, rfl, hways⟩
          exact ⟨d, rfl, hways⟩

/-- The walks over an attribute, whatever their first choice is. -/
theorem attribute_answers {c : Condition} (hc : brought c) :
    Answers (Ways delimiters t (.attribute c :: rest) held glob) (Faulty asked brought)
      (orElseFound (viaExact onward t c (closeGlob held glob)) fun _ =>
        orElseFound (viaJudged onward t c (closeGlob held glob)) fun _ =>
          viaAnything onward t c (closeGlob held glob)) := by
  refine Answers.congr ((viaExact_answers ho ha c).orElseFound
    ((viaJudged_answers ho ha hc).orElseFound (viaAnything_answers ho ha hc) ?_) ?_)
      fun choices x => ?_
  -- The wildcard has the number behind all of the conditions that judge.
  · intro _ x _ y hfirst hsecond
    rcases hfirst with ⟨i, d, hi, rfl, _⟩
    rcases hsecond with ⟨d', rfl, _⟩
    exact List.cons_lt_cons_iff.2 (Or.inl (by omega))
  · intro _ x _ y hfirst hsecond
    rcases hfirst with ⟨d, rfl, _⟩
    rcases hsecond with ⟨i, d', _, rfl, _⟩ | ⟨d', rfl, _⟩
    · exact List.cons_lt_cons_iff.2 (Or.inl (by omega))
    · exact List.cons_lt_cons_iff.2 (Or.inl (by omega))
  · constructor
    · intro hways
      have hwalks := hways
      rcases hwalks with ⟨b, hwalk, _⟩
      cases hwalk with
      | exact => exact Or.inl ⟨_, rfl, hways⟩
      | judged _ leads =>
          exact Or.inr (Or.inl ⟨_, _, (List.getElem?_eq_some_iff.1 leads).1, rfl, hways⟩)
      | anything => exact Or.inr (Or.inr ⟨_, rfl, hways⟩)
    · intro hway
      rcases hway with ⟨d, rfl, hways⟩ | ⟨i, d, _, rfl, hways⟩ | ⟨d, rfl, hways⟩
      · exact hways
      · exact hways
      · exact hways

/-- The walks over a text, whatever their first choice is. -/
theorem text_answers {s : String} {pieces : List String}
    (hrest : rest = pieces.map Token.ofText) :
    Answers (Ways delimiters t (.piece (.text s) :: rest) held glob) (Faulty asked brought)
      (orElseFound (viaLiteral onward t (.text s) held glob) fun _ =>
        orElseFound (viaBinder onward delimiters t (.text s) rest (closeGlob held glob)) fun _ =>
          viaOpen onward delimiters t (.text s) held glob) := by
  refine Answers.congr ((viaLiteral_answers ho ha s).orElseFound
    ((viaBinder_answers ho ha hrest).orElseFound (viaOpen_answers ho ha s) ?_) ?_)
      fun choices x => ?_
  -- The three ways have choices of their own, in the order in which they are tried.
  · intro _ x _ y hfirst hsecond
    rcases hfirst with ⟨d, rfl, _⟩
    rcases hsecond with ⟨d', rfl, _⟩
    exact List.cons_lt_cons_iff.2 (Or.inl (by omega))
  · intro _ x _ y hfirst hsecond
    rcases hfirst with ⟨d, rfl, _⟩
    rcases hsecond with ⟨d', rfl, _⟩ | ⟨d', rfl, _⟩
    · exact List.cons_lt_cons_iff.2 (Or.inl (by omega))
    · exact List.cons_lt_cons_iff.2 (Or.inl (by omega))
  · constructor
    · intro hways
      have hwalks := hways
      rcases hwalks with ⟨b, hwalk, _⟩
      cases hwalk with
      | literal | separator => exact Or.inl ⟨_, rfl, hways⟩
      | single | several | greedy => exact Or.inr (Or.inl ⟨_, rfl, hways⟩)
      | skip | take => exact Or.inr (Or.inr ⟨_, rfl, hways⟩)
    · intro hway
      rcases hway with ⟨d, rfl, hways⟩ | ⟨d, rfl, hways⟩ | ⟨d, rfl, hways⟩
      · exact hways
      · exact hways
      · exact hways

omit ho ha

/-- At the end of the tokens, the only walk is to stop. -/
theorem stop_answers :
    Answers (Ways delimiters t [] held glob) (Faulty asked brought)
      (.ok (t.terminal.map fun path => (path, closeGlob held glob))) := by
  -- A glob that is still open is closed by the end of the tokens.
  have hways : ∀ c x, Ways delimiters t [] held glob c x ↔
      c = [] ∧ ∃ path, t.terminal = some path ∧ x = (path, closeGlob held glob) := by
    intro c x
    rw [closeGlob_eq held glob]
    constructor
    · intro hway
      rcases hway with ⟨b, hwalk, hx⟩
      cases hwalk with
      | stop ends => exact ⟨rfl, x.1, ends, Prod.ext rfl hx⟩
    · intro hway
      rcases hway with ⟨rfl, path, hends, rfl⟩
      exact ⟨_, .stop hends, rfl⟩
  refine Answers.congr ?_ hways
  cases t.terminal with
  | none =>
      intro c x hway
      rcases hway with ⟨_, path, hpath, _⟩
      cases hpath
  | some path =>
      refine ⟨[], ⟨rfl, path, rfl, rfl⟩, ?_⟩
      intro d y hway
      rcases hway with ⟨rfl, _, hpath, rfl⟩
      cases hpath
      exact Or.inr ⟨rfl, rfl⟩

/-- The search finds the first walk. Every token is passed over in one step,
    so what is known about the search behind it settles each of the ways on. A
    greedy variable takes several tokens at once, but these too are passed
    over one by one, as the number to skip. -/
theorem search_answers {tokens : List Token} (h : Orderly tokens)
    (hbrought : ∀ c, Brought tokens c → brought c) (skip : Nat)
    (ha : AsksOnly brought asked t glob) :
    Answers (Ways delimiters t (tokens.drop skip) held glob) (Faulty asked brought)
      (search delimiters skip t tokens held glob) := by
  induction tokens generalizing skip t held glob with
  | nil => cases skip <;> exact stop_answers
  | cons token rest ih =>
      have hrest : ∀ c, Brought rest c → brought c :=
        fun c hc => hbrought c (List.mem_cons_of_mem _ hc)
      -- What the induction gives is all that the alternatives need to know.
      have ho : Proceeds delimiters asked brought rest
          fun skip t held glob => search delimiters skip t rest held glob :=
        fun skip t held glob ha => ih h.tail hrest skip ha
      cases skip with
      | succ skip => exact ih h.tail hrest skip ha
      | zero =>
          rcases token with v | c
          · rcases h.piece_text with ⟨s, pieces, rfl, hpieces⟩
            exact text_answers ho ha hpieces
          · exact attribute_answers ho ha (hbrought c List.mem_cons_self)

/-- The search from the root finds the first walk through the tree. A walk is
    declarative where the search goes back and forth: no order of trials
    occurs in it, but that of the choices. -/
theorem find_answers {tokens : List Token} (h : Orderly tokens) (t : Trie α) :
    Answers (fun choices x => Walk delimiters t tokens none choices x.1 x.2)
      (Faulty (t.Asks (Brought tokens)) (Brought tokens)) (t.find delimiters tokens) := by
  have ha : AsksOnly (Brought tokens) (t.Asks (Brought tokens)) t none :=
    ⟨fun _ _ hasks => hasks, fun _ _ hg => absurd hg (Option.some_ne_none _).symm⟩
  refine (search_answers h (fun _ hc => hc) 0 ha).congr fun choices x => ?_
  constructor
  · exact fun hwalk => ⟨x.2, hwalk, rfl⟩
  · intro hway
    rcases hway with ⟨b, hwalk, hx⟩
    rw [hx]
    exact hwalk

end Trie

end PathRouting
