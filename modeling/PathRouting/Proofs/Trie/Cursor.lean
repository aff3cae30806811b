import PathRouting.Proofs.Trie.Refinement

/-!
# The Search by Position

The search of the tree goes down the list of tokens, keeps an open glob apart
from the finished bindings, and counts down what a greedy variable takes. So
there is no position in it that could be wrong. A program on arrays has three:
where it reads the next token, how far it has read while it measures the match
of a greedy variable, and the slot of the open glob among the bindings, which
it writes to from far behind.

Here the search is told in that way. Everything that such a program can
stumble over is an outcome of its own: a position behind the last token, a
slot that is not there or holds a single piece, a greedy variable without an
expression, and going on without having moved. The look-up of an attribute
that cannot be a key does fail, and the failure is caught. Then both ways of
telling come to the same: the position is the number of tokens in front, the
slot is the number of finished bindings, and the match of a greedy variable is
spelled by the tokens that are left. A search by position never stumbles, as
long as the greedy variables in the tree have their expressions, as all have
that come from patterns.

## Main definitions

* `Crash`, `raised`: What a search by position can stumble over, and faults
  among that.
* `takeInto`: A piece taken into the slot of the open glob.
* `measure`: The loop that measures a match along the tokens.
* `boundary?`, `greedyTakeAt`: What a greedy variable takes at a position, and
  where it ends.
* `Trie.searchAt`: The search by position and slot.
* `Trie.Carries`: The variables in a tree.

## Theorems

* `boundary?_eq`: A match that is not longer than the tokens is measured
  without stumbling.
* `greedyTakeAt_eq`: A greedy variable takes the same at a position as of the
  tokens behind it.
* `Trie.Holds.fits_of_carries`: The variables in a tree are as compiling makes
  them.
* `takeInto_closeGlob`: The open glob is found in its slot.
* `Trie.searchAt_eq_search`: The search by position is the search of the
  tokens behind it.
-/

namespace PathRouting

/-- What a search by position can stumble over. Each constructor belongs to a
    step that is partial: a token is read by its index, a slot is written by
    its number, an expression is taken for granted, and the position is
    expected to move forward. -/
inductive Crash where
  /-- There is no token at the position. -/
  | token (position : Nat)
  /-- The slot is not there, or holds a single piece. -/
  | slot (position : Nat)
  /-- A greedy variable has no expression to match with. -/
  | expression
  /-- The search would go on where it is. -/
  | stall
  /-- A fault that the search does not cause by itself. -/
  | fault (e : Fault)

/-- An answer that may be a fault as one that may be a crash. -/
def raised {β : Type} : Except Fault β → Except Crash β
  | .ok b => .ok b
  | .error e => .error (.fault e)

/-- The second answer, if the first is that there is nothing. -/
def otherwise {γ : Type} (first : Except Crash (Option γ))
    (second : Unit → Except Crash (Option γ)) : Except Crash (Option γ) :=
  match first with
  | .ok none => second ()
  | answer => answer

/-- The first of the answers that is there. -/
def firstOf {β γ : Type} (f : β → Except Crash (Option γ)) :
    List β → Except Crash (Option γ)
  | [] => .ok none
  | b :: rest => otherwise (f b) fun _ => firstOf f rest

/-- The bindings with one more piece in a slot. -/
def takeInto (bindings : Bindings) (slot : Nat) (s : Value) : Except Crash Bindings :=
  match bindings[slot]? with
  | some (name, .many taken) => .ok (bindings.set slot (name, .many (taken ++ [s])))
  | _ => .error (.slot slot)

/-- The loop that measures a match: from `stop` on, tokens are read until so
    many characters are reached. It ends with the characters that were read,
    and with the position behind the last token that was. -/
def measure (tokens : List Token) (length consumed stop : Nat) : Except Crash (Nat × Nat) :=
  if consumed < length then
    match _h : tokens[stop]? with
    | some (.piece (.text s)) => measure tokens length (consumed + s.length) (stop + 1)
    | some _ => .error (.fault (.type .notText))
    | none => .error (.token stop)
  else .ok (consumed, stop)
termination_by tokens.length - stop
decreasing_by
  have hlt := (List.getElem?_eq_some_iff.1 _h).1
  omega

/-- The position behind the tokens that a match of so many characters takes.
    It has to end where a token ends. -/
def boundary? (tokens : List Token) (length position : Nat) : Except Crash (Option Nat) := do
  let (consumed, stop) ← measure tokens length 0 position
  return if consumed = length then some stop else none

/-- The text that a greedy variable takes at a position, and the position
    where it ends. -/
def greedyTakeAt [Host] (v : Variable) (g : Glob) (tokens : List Token) (position : Nat) :
    Except Crash (Option (String × Nat)) :=
  match joined? (tokens.drop position), g.regex with
  | none, _ => .error (.fault (.type .notText))
  | some remaining, some (.regex r) =>
    match r.prefixMatch? remaining with
    | none => .ok none
    | some matched =>
      if matched.isEmpty then .ok none
      else do
        let passes ← if g.separate then raised (v.accepts (.text matched)) else .ok true
        if passes then return (← boundary? tokens matched.length position).map (matched, ·)
        else return none
  | some _, _ => .error .expression

namespace Trie

variable {α : Type}

/-- The child for exactly this condition. A dictionary does not look up what
    cannot be a key. A look-up can fail in no other way, so this is all that
    the search has to catch when it tries a child. -/
def lookupCondition (t : Trie α) (kind value : Value) :
    Except Crash (Option (Segment × Trie α)) :=
  if kind.isKey && value.isKey then .ok (t.fixedChild? (.condition kind.form value.form))
  else .error (.fault (.type .notAKey))

/-- How a search by position goes on: the next position, the node it goes on
    from, the bindings, and the slot and the variable of the open glob. -/
abbrev OnwardAt (α : Type) :=
  Nat → Trie α → Bindings → Option (Nat × Variable) → Except Crash (Option (α × Bindings))

section Ways

variable [Host] (onward : OnwardAt α) (delimiters : List String) (tokens : List Token)
  (position : Nat) (t : Trie α) (bindings : Bindings) (glob : Option (Nat × Variable))

/-- The way on over the child for exactly this attribute. One that cannot be
    looked up is passed over. -/
def viaExactAt (c : Condition) : Except Crash (Option (α × Bindings)) :=
  let child := match t.lookupCondition c.kind c.value with
    | .ok child => child
    | .error _ => none
  firstOf (fun e => onward (position + 1) e.2 bindings none) child.toList

/-- The ways on over the children whose conditions judge the attribute. -/
def viaJudgedAt (c : Condition) : Except Crash (Option (α × Bindings)) :=
  firstOf (fun e => do
      if ← raised (e.1.2.accepts c.value) then onward (position + 1) e.2 bindings none
      else return none)
    (if c.value.isNone then [] else t.judged.filter fun e => e.1.1.equal c.kind)

/-- The way on over the child that any value of the attribute will do for. -/
def viaAnythingAt (c : Condition) : Except Crash (Option (α × Bindings)) := do
  let child ← t.lookupCondition c.kind .wildcard
  firstOf (fun e => onward (position + 1) e.2 bindings none) child.toList

/-- The way on over the child for this very piece. A separator does not close
    the glob. -/
def viaLiteralAt (s : Value) : Except Crash (Option (α × Bindings)) :=
  firstOf (fun e : Segment × Trie α =>
      onward (position + 1) e.2 bindings (if e.1.isSeparator then glob else none))
    ((pieceKey? s).bind t.fixedChild?).toList

/-- The way on over the variable. A glob starts in a new slot. -/
def viaBinderAt (s : Value) : Except Crash (Option (α × Bindings)) :=
  firstOf (fun e : Variable × Trie α =>
      match e.1.glob with
      | some g =>
        if g.greedy then do
          match ← greedyTakeAt e.1 g tokens position with
          | some (matched, stop) =>
            onward stop e.2 (bindings ++ [(e.1.name, .one (.text matched))]) none
          | none => return none
        else do
          if ← raised (e.1.accepts s) then
            onward (position + 1) e.2 (bindings ++ [(e.1.name, .many [s])])
              (some (bindings.length, e.1))
          else return none
      | none => do
        if ← raised (e.1.accepts s) then
          onward (position + 1) e.2 (bindings ++ [(e.1.name, .one s)]) none
        else return none)
    (if isMark delimiters s then [] else t.binder.toList)

/-- The way on with the open glob, which takes the piece into its slot unless
    the piece is a delimiter. -/
def viaOpenAt (s : Value) : Except Crash (Option (α × Bindings)) :=
  firstOf (fun o : Nat × Variable =>
      if isMark delimiters s then onward (position + 1) t bindings (some o)
      else do
        if ← raised (o.2.accepts s) then
          onward (position + 1) t (← takeInto bindings o.1 s) (some o)
        else return none) glob.toList

/-- The ways on over an attribute. -/
def viaAttributeAt (c : Condition) : Except Crash (Option (α × Bindings)) :=
  otherwise (viaExactAt onward position t bindings c) fun _ =>
    otherwise (viaJudgedAt onward position t bindings c) fun _ =>
      viaAnythingAt onward position t bindings c

/-- The ways on over a piece of a path. -/
def viaPieceAt (s : Value) : Except Crash (Option (α × Bindings)) :=
  if s.isKey then
    otherwise (viaLiteralAt onward position t bindings glob s) fun _ =>
      otherwise (viaBinderAt onward delimiters tokens position t bindings s) fun _ =>
        viaOpenAt onward delimiters position t bindings glob s
  else .error (.fault (.type .notAKey))

end Ways

/-- The search from a node over the tokens from a position on, with the
    bindings so far and the slot and variable of the open glob. -/
def searchAt [Host] (delimiters : List String) (tokens : List Token) (position : Nat)
    (t : Trie α) (bindings : Bindings) (glob : Option (Nat × Variable)) :
    Except Crash (Option (α × Bindings)) :=
  if position = tokens.length then .ok (t.terminal.map fun path => (path, bindings))
  else
    match _h : tokens[position]? with
    | none => .error (.token position)
    | some token =>
      let onward : OnwardAt α := fun next t bindings glob =>
        if position < next then searchAt delimiters tokens next t bindings glob
        else .error .stall
      match token with
      | .attribute c => viaAttributeAt onward position t bindings c
      | .piece s => viaPieceAt onward delimiters tokens position t bindings glob s
termination_by tokens.length - position
decreasing_by
  have hlt := (List.getElem?_eq_some_iff.1 _h).1
  omega

/-- The variables in a tree. -/
inductive Carries : Trie α → Variable → Prop
  | label {t child : Trie α} {v : Variable} (leads : t.binder = some (v, child)) : Carries t v
  | behind {t child : Trie α} {s : Segment} {v : Variable} (leads : Child t s child)
      (carries : Carries child v) : Carries t v

/-- The variables in a tree are as compiling makes them. -/
theorem Holds.fits_of_carries {delimiters : List String} {t : Trie α} {v : Variable}
    (hcarries : t.Carries v) {es : Entries α} (h : t.Holds es) (hsound : Sound delimiters es) :
    v.Fits := by
  induction hcarries generalizing es with
  | label hleads => exact h.fits_of_binder hsound hleads
  | behind hleads _ ih =>
      exact ih (h.child_holds (h.childAt?_of_child hleads)) (hsound.after _)

end Trie

section Outcomes

variable {β γ : Type}

theorem raised_bind (x : Except Fault β) (f : β → Except Fault γ) :
    raised (x >>= f) = raised x >>= fun b => raised (f b) := by
  cases x <;> rfl

theorem raised_orElseFound (first : Except Fault (Option γ))
    (second : Unit → Except Fault (Option γ)) :
    raised (orElseFound first second) = otherwise (raised first) fun _ => raised (second ()) := by
  rcases first with e | _ | x <;> rfl

theorem raised_firstFound (f : β → Except Fault (Option γ)) (l : List β) :
    raised (firstFound f l) = firstOf (fun b => raised (f b)) l := by
  induction l with
  | nil => rfl
  | cons b rest ih =>
      rw [firstFound_cons, raised_orElseFound, ih]
      rfl

/-- Only the answers behind the elements of the list count. -/
theorem firstOf_congr {f g : β → Except Crash (Option γ)} {l : List β}
    (h : ∀ b ∈ l, f b = g b) : firstOf f l = firstOf g l := by
  induction l with
  | nil => rfl
  | cons b rest ih =>
      rcases List.forall_mem_cons.1 h with ⟨hb, hrest⟩
      rw [firstOf, firstOf, hb, ih hrest]

end Outcomes

/-- The loop ends when enough was read. -/
theorem measure_of_le {tokens : List Token} {length consumed stop : Nat} (h : length ≤ consumed) :
    measure tokens length consumed stop = .ok (consumed, stop) := by
  rw [measure, if_neg (by omega)]

/-- The loop reads one token after the other. -/
theorem measure_of_text {tokens : List Token} {length consumed stop : Nat} {s : String}
    (hlt : consumed < length) (h : tokens[stop]? = some (.piece (.text s))) :
    measure tokens length consumed stop =
      measure tokens length (consumed + s.length) (stop + 1) := by
  rw [measure, if_pos hlt]
  split
  · next heq =>
    cases h.symm.trans heq
    rfl
  · next hother heq =>
    cases h.symm.trans heq
    exact absurd rfl (hother s)
  · next heq => cases h.symm.trans heq

/-- The first of the tokens behind a position is the one that is read there. -/
theorem getElem?_of_drop {tokens rest : List Token} {token : Token} {position : Nat}
    (h : tokens.drop position = token :: rest) :
    tokens[position]? = some token ∧ tokens.drop (position + 1) = rest := by
  constructor
  · rw [← List.head?_drop, h]
    rfl
  · rw [← List.tail_drop, h]
    rfl

/-- A match that is not longer than the texts behind a position is measured
    without reading past them, and ends where a token ends exactly if some of
    the tokens spell it. The loop counts characters, and the search of tokens
    compares texts; that they agree needs the match to be a beginning of the
    joined text. -/
theorem measure_eq {tokens : List Token} {pieces : List String} {position : Nat}
    (htokens : tokens.drop position = pieces.map Token.ofText) (consumed : Nat) {k : Nat}
    (hle : k ≤ (String.join pieces).length) :
    ∃ total stop, measure tokens (consumed + k) consumed position = .ok (total, stop) ∧
      (if total = consumed + k then some stop else none) =
        (span? k (tokens.drop position)).map (position + ·) := by
  induction pieces generalizing position k consumed with
  | nil =>
      rw [String.join_nil] at hle
      cases Nat.le_zero.1 hle
      exact ⟨consumed, position, measure_of_le (by omega), by simp [span?]⟩
  | cons s rest ih =>
      rcases k with _ | k
      · exact ⟨consumed, position, measure_of_le (by omega), by simp [span?]⟩
      · rcases getElem?_of_drop htokens with ⟨hread, hrest⟩
        rw [measure_of_text (by omega) hread, htokens, List.map_cons, Token.ofText, span?]
        rw [String.join_cons, String.length_append] at hle
        split
        -- What is left of the match is measured from the next token on.
        · next hfits =>
          have hmore : consumed + s.length + (k + 1 - s.length) = consumed + (k + 1) := by omega
          have hleft : k + 1 - s.length ≤ (String.join rest).length := by omega
          rcases ih hrest (consumed + s.length) hleft with ⟨total, stop, hmeasure, hspan⟩
          rw [hmore] at hmeasure hspan
          refine ⟨total, stop, hmeasure, hspan.trans ?_⟩
          rw [hrest, Option.map_map]
          refine congrArg (Option.map · _) (funext fun n => ?_)
          exact (Nat.add_right_comm position 1 n).trans (Nat.add_assoc position n 1)
        -- The match ends inside of this token.
        · exact ⟨_, _, measure_of_le (by omega), if_neg (by omega)⟩

/-- A match that is not longer than the texts behind a position ends behind
    the tokens that spell it. -/
theorem boundary?_eq {tokens : List Token} {pieces : List String} {position : Nat}
    (htokens : tokens.drop position = pieces.map Token.ofText) {length : Nat}
    (hle : length ≤ (String.join pieces).length) :
    boundary? tokens length position =
      .ok ((span? length (tokens.drop position)).map (position + ·)) := by
  rcases measure_eq htokens 0 hle with ⟨total, stop, hmeasure, hspan⟩
  rw [Nat.zero_add] at hmeasure hspan
  rw [boundary?, hmeasure, ← hspan]
  rfl

/-- A greedy variable with an expression takes the same text at a position as
    of the tokens behind it, and ends as many tokens further on. -/
theorem greedyTakeAt_eq [Host] {v : Variable} {g : Glob} {r : Regex}
    (hregex : g.regex = some (.regex r)) (tokens : List Token) (position : Nat) :
    greedyTakeAt v g tokens position =
      raised ((greedyTake v g (tokens.drop position)).map
        (Option.map fun taken => (taken.1, position + taken.2))) := by
  unfold greedyTakeAt greedyTake
  rw [hregex]
  cases hjoined : joined? (tokens.drop position) with
  | none => rfl
  | some remaining =>
      rcases joined?_eq_some hjoined with ⟨pieces, hpieces, rfl⟩
      simp only
      cases hmatch : r.prefixMatch? (String.join pieces) with
      | none => rfl
      | some matched =>
          simp only
          split
          · rfl
          -- What an expression matches is the beginning of the text, so it is not longer.
          · have hle : matched.length ≤ (String.join pieces).length := by
              have hprefix := (Regex.prefixMatch?_isPrefix hmatch).length_le
              rwa [String.length_toList, String.length_toList] at hprefix
            have hends := boundary?_eq hpieces hle
            have hpasses : ∀ passes : Bool, (if passes then do
                  return (← boundary? tokens matched.length position).map (matched, ·)
                else return none) = Except.ok ((if passes then
                  (span? matched.length (tokens.drop position)).map (matched, ·)
                else none).map fun taken => (taken.1, position + taken.2)) := by
              intro passes
              rw [hends]
              cases passes with
              | false => rfl
              | true => simp [bind, Except.bind, pure, Except.pure, Function.comp_def]
            split
            · cases v.accepts (.text matched) with
              | error e => rfl
              | ok passes => exact hpasses passes
            · exact hpasses true

/-- A greedy variable takes at least one token, and not more than there are. -/
theorem length_of_greedyTake [Host] {v : Variable} {g : Glob} {tokens : List Token}
    {matched : String} {n : Nat} (h : greedyTake v g tokens = .ok (some (matched, n))) :
    0 < n ∧ n ≤ tokens.length := by
  rcases texts_of_greedyTake h with ⟨pieces, rfl⟩
  rcases greedyTake_eq_some.1 h with ⟨r, front, back, _, rfl, rfl, _, hne, hjoin, _, _⟩
  cases front with
  | nil => exact absurd (hjoin.symm.trans String.join_nil) hne
  | cons s more => simp

/-- Where the open glob is among the bindings, and whose it is. Its pieces are
    collected apart from the bindings in one search, and in their last slot in
    the other. -/
def OpenGlob.slot (held : Bindings) (g : OpenGlob) : Nat × Variable :=
  (held.length, g.owner)

/-- The open glob is found in its slot. It was written to the last slot when
    it was opened, and nothing is bound while it is open, so that slot is
    still the one of its owner. -/
theorem takeInto_closeGlob (held : Bindings) (g : OpenGlob) (s : Value) :
    takeInto (closeGlob held (some g)) (g.slot held).1 s =
      .ok (closeGlob held (some ⟨g.owner, g.taken ++ [s]⟩)) := by
  simp [takeInto, closeGlob, OpenGlob.slot]

namespace Trie

variable [Host] {α : Type} {delimiters : List String} {tokens : List Token} {position : Nat}
  {t : Trie α} {held : Bindings} {glob : Option OpenGlob}

/-- Tokens that are passed over are not looked at. -/
theorem search_skip (delimiters : List String) (skip : Nat) (t : Trie α) (tokens : List Token)
    (held : Bindings) (glob : Option OpenGlob) :
    search delimiters skip t tokens held glob =
      search delimiters 0 t (tokens.drop skip) held glob := by
  induction tokens generalizing skip with
  | nil => cases skip <;> rfl
  | cons token rest ih =>
      cases skip with
      | zero => rfl
      | succ skip => exact ih skip

/-- A search goes on by position as it does behind the tokens. It is the hypothesis
    of each of the ways on, and what the induction over the tokens supplies. -/
def Follows (tokens : List Token) (position : Nat) (onward : Onward α)
    (onwardAt : OnwardAt α) : Prop :=
  ∀ skip t held glob, (∀ v, t.Carries v → v.Fits) → position + 1 + skip ≤ tokens.length →
    onwardAt (position + 1 + skip) t (closeGlob held glob) (glob.map (OpenGlob.slot held)) =
      raised (onward skip t held glob)

section Ways

variable {onward : Onward α} {onwardAt : OnwardAt α}
  (hfollows : Follows tokens position onward onwardAt) (hlt : position < tokens.length)
  (hfits : ∀ v, t.Carries v → v.Fits)

include hfollows hlt hfits

omit [Host] in
/-- The search goes on alike from a child, whose glob is none or the one that
    was open. -/
theorem Follows.child {s : Segment} {child : Trie α} (hleads : t.Child s child) (held : Bindings)
    (glob : Option OpenGlob) :
    onwardAt (position + 1) child (closeGlob held glob) (glob.map (OpenGlob.slot held)) =
      raised (onward 0 child held glob) :=
  hfollows 0 child held glob (fun v hv => hfits v (.behind hleads hv)) hlt

omit [Host] in
theorem viaExactAt_eq (c : Condition) (closed : Bindings) :
    viaExactAt onwardAt position t closed c = raised (viaExact onward t c closed) := by
  -- A look-up that fails and one that finds nothing come to the same.
  have hchild : (match t.lookupCondition c.kind c.value with
      | .ok child => child
      | .error _ => none) = if c.kind.isKey && c.value.isKey then
        t.fixedChild? (.condition c.kind.form c.value.form) else none := by
    by_cases hkey : (c.kind.isKey && c.value.isKey) = true <;> simp [lookupCondition, hkey]
  rw [viaExact, raised_firstFound, viaExactAt, hchild]
  refine firstOf_congr fun e he => ?_
  split at he
  · exact hfollows.child hlt hfits (.fixed (Option.mem_toList.1 he)) closed none
  · exact absurd he List.not_mem_nil

theorem viaJudgedAt_eq (c : Condition) (closed : Bindings) :
    viaJudgedAt onwardAt position t closed c = raised (viaJudged onward t c closed) := by
  rw [viaJudged, raised_firstFound, viaJudgedAt]
  refine firstOf_congr fun e he => ?_
  have hmem : e ∈ t.judged := by
    split at he
    · exact absurd he List.not_mem_nil
    · exact (List.mem_filter.1 he).1
  have hnext := hfollows.child hlt hfits (.judged hmem) closed none
  rw [raised_bind]
  refine bind_congr fun verdict => ?_
  cases verdict with
  | false => rfl
  | true => exact hnext

omit [Host] in
theorem viaAnythingAt_eq (c : Condition) (closed : Bindings) :
    viaAnythingAt onwardAt position t closed c = raised (viaAnything onward t c closed) := by
  have hwildcard : Value.wildcard.isKey = true := rfl
  rw [viaAnythingAt, lookupCondition, hwildcard, Bool.and_true, viaAnything]
  split
  · rw [raised_firstFound]
    refine firstOf_congr fun e he => ?_
    exact hfollows.child hlt hfits (.fixed (Option.mem_toList.1 he)) closed none
  · rfl

omit [Host] in
theorem viaLiteralAt_eq (s : Value) :
    viaLiteralAt onwardAt position t (closeGlob held glob) (glob.map (OpenGlob.slot held)) s =
      raised (viaLiteral onward t s held glob) := by
  rw [viaLiteral, raised_firstFound, viaLiteralAt]
  refine firstOf_congr fun e he => ?_
  rcases Option.bind_eq_some_iff.1 (Option.mem_toList.1 he) with ⟨key, _, hleads⟩
  split
  · exact hfollows.child hlt hfits (.fixed hleads) held glob
  · exact hfollows.child hlt hfits (.fixed hleads) (closeGlob held glob) none

/-- A greedy variable goes on from where its match ends. -/
theorem greedy_eq {v : Variable} {g : Glob} {child : Trie α} (hleads : t.binder = some (v, child))
    (hkind : v.glob = some g) (hgreedy : g.greedy = true) (closed : Bindings) :
    (greedyTakeAt v g tokens position >>= fun
      | some (matched, stop) =>
        onwardAt stop child (closed ++ [(v.name, .one (.text matched))]) none
      | none => .ok none) =
    raised (greedyTake v g (tokens.drop position) >>= fun
      | some (matched, n) =>
        onward (n - 1) child (closed ++ [(v.name, .one (.text matched))]) none
      | none => .ok none) := by
  rcases hfits v (.label hleads) g hkind hgreedy with ⟨r, hregex, _⟩
  rw [greedyTakeAt_eq hregex]
  cases htake : greedyTake v g (tokens.drop position) with
  | error e => rfl
  | ok taken =>
      rcases taken with _ | ⟨matched, n⟩
      · rfl
      -- At least one token is taken, so the search goes on further behind.
      · rcases length_of_greedyTake htake with ⟨hpos, hle⟩
        rw [List.length_drop] at hle
        have hstop : position + 1 + (n - 1) = position + n := by omega
        have hnext := hfollows (n - 1) child (closed ++ [(v.name, .one (.text matched))]) none
          (fun w hw => hfits w (.behind (.binder hleads) hw)) (by omega)
        rw [hstop] at hnext
        exact hnext

theorem viaBinderAt_eq {s : Value} {rest : List Token}
    (htokens : tokens.drop position = .piece s :: rest) (closed : Bindings) :
    viaBinderAt onwardAt delimiters tokens position t closed s =
      raised (viaBinder onward delimiters t s rest closed) := by
  rw [viaBinder, raised_firstFound, viaBinderAt]
  refine firstOf_congr fun e he => ?_
  have hleads : t.binder = some (e.1, e.2) := by
    split at he
    · exact absurd he List.not_mem_nil
    · exact Option.mem_toList.1 he
  have hnext := hfollows.child hlt hfits (.binder hleads)
  -- Both searches try the same variable, and the position grows by what the other one drops.
  cases hkind : e.1.glob with
  | none =>
      simp only
      rw [raised_bind]
      refine bind_congr fun verdict => ?_
      cases verdict with
      | false => rfl
      | true => exact hnext (closed ++ [(e.1.name, .one s)]) none
  | some g =>
      simp only
      by_cases hgreedy : g.greedy = true
      · rw [if_pos hgreedy, if_pos hgreedy, ← htokens]
        exact greedy_eq hfollows hlt hfits hleads hkind hgreedy closed
      · rw [if_neg hgreedy, if_neg hgreedy, raised_bind]
        refine bind_congr fun verdict => ?_
        cases verdict with
        | false => rfl
        | true => exact hnext closed (some ⟨e.1, [s]⟩)

theorem viaOpenAt_eq (s : Value) :
    viaOpenAt onwardAt delimiters position t (closeGlob held glob)
        (glob.map (OpenGlob.slot held)) s =
      raised (viaOpen onward delimiters t s held glob) := by
  rw [viaOpen, raised_firstFound, viaOpenAt]
  cases glob with
  | none => rfl
  | some g =>
      -- The glob stays where it is in the tree, and only its slot grows.
      have hnext : ∀ g', onwardAt (position + 1) t (closeGlob held (some g'))
          (some (g'.slot held)) = raised (onward 0 t held (some g')) :=
        fun g' => hfollows 0 t held (some g') hfits hlt
      have hone : ∀ {β : Type} (f : β → Except Crash (Option (α × Bindings))) (b : β),
          firstOf f [b] = f b := by
        intro β f b
        rw [firstOf]
        rcases f b with e | _ | x <;> rfl
      rw [Option.map_some, Option.toList_some, Option.toList_some, hone, hone]
      split
      · exact hnext g
      · rw [raised_bind, takeInto_closeGlob]
        refine bind_congr fun verdict => ?_
        cases verdict with
        | false => rfl
        | true => exact hnext ⟨g.owner, g.taken ++ [s]⟩

end Ways

/-- The search by position is the search of the tokens behind it. It reads no
    token that is not there and writes to no slot but that of the open glob,
    and it comes to an end. Both searches are kept because each is the natural
    one for something: this one for what may go wrong on the way, that one for
    inductions on the tokens. -/
theorem searchAt_eq_search (hle : position ≤ tokens.length) (hfits : ∀ v, t.Carries v → v.Fits) :
    searchAt delimiters tokens position t (closeGlob held glob)
        (glob.map (OpenGlob.slot held)) =
      raised (search delimiters 0 t (tokens.drop position) held glob) := by
  -- On the number of tokens that are left.
  induction hleft : tokens.length - position using Nat.strongRecOn
    generalizing position t held glob with
  | _ left ih =>
    rw [searchAt]
    split
    · next hend =>
      rw [hend, List.drop_length]
      rfl
    · next hend =>
      have hlt : position < tokens.length := by omega
      have hfollows : Follows tokens position
          (fun skip t held glob => search delimiters skip t (tokens.drop (position + 1)) held glob)
          (fun next (t : Trie α) bindings glob =>
            if position < next then searchAt delimiters tokens next t bindings glob
            else .error .stall) := by
        intro skip t held glob hfits hskip
        have hahead : position < position + 1 + skip := by omega
        simp only [if_pos hahead]
        rw [search_skip, List.drop_drop]
        exact ih _ (by omega) (by omega) hfits rfl
      split
      · next hnone => exact absurd (List.getElem?_eq_none_iff.1 hnone) (by omega)
      · next token hread =>
        have htokens : tokens.drop position = token :: tokens.drop (position + 1) := by
          rcases List.getElem?_eq_some_iff.1 hread with ⟨hlt, rfl⟩
          exact List.drop_eq_getElem_cons hlt
        rw [htokens]
        rcases token with s | c
        · rw [search]
          simp only [viaPieceAt]
          split
          · rw [raised_orElseFound, raised_orElseFound, viaLiteralAt_eq hfollows hlt hfits,
              viaBinderAt_eq hfollows hlt hfits htokens, viaOpenAt_eq hfollows hlt hfits]
          · rfl
        · rw [search, raised_orElseFound, raised_orElseFound]
          simp only [viaAttributeAt]
          rw [viaExactAt_eq hfollows hlt hfits, viaJudgedAt_eq hfollows hlt hfits,
            viaAnythingAt_eq hfollows hlt hfits]

/-- So is the search by position from the root. -/
theorem searchAt_eq_find (hfits : ∀ v, t.Carries v → v.Fits) :
    t.searchAt delimiters tokens 0 [] none = raised (t.find delimiters tokens) := by
  have hsearch := @searchAt_eq_search _ α delimiters tokens 0 t [] none (Nat.zero_le _) hfits
  exact hsearch

end Trie

end PathRouting
