import PathRouting.Tokens
import PathRouting.Trie.Basic

/-!
# Searching the Tree

Matching tokens against the tree of routes. The tokens are the attributes of the
request, one for every kind of condition, and then the tokens of the path.

At every node the literal child comes first, then the variable, and last the
glob that is still open; for an attribute the exact condition comes first, then
the ones that judge in the order they were made, then the wildcard. The first
alternative with a match decides, and one without leaves nothing behind.

A glob that has taken a token stays open: it may skip any separator and take
further tokens that it accepts, until a literal or another variable takes one.
What it has taken is kept apart from the finished bindings, so that closing it
is one step and there is no slot to go wrong.

A greedy variable takes as many tokens at once as spell the text its expression
matches. The search passes over those tokens by counting them down, which keeps
it structural recursion on the tokens.

## Main definitions

* `Token`: What is matched.
* `Bound`: What a name may be bound to.
* `pieceKey?`: The child that a piece of a path leads to.
* `OpenGlob`, `closeGlob`: A glob that may still take tokens, and its end.
* `joined?`, `span?`: The text of some tokens, and the tokens that spell a text.
* `Trie.viaExact`, `Trie.viaJudged`, `Trie.viaAnything`: The ways on from a
  node over an attribute.
* `Trie.viaLiteral`, `Trie.viaBinder`, `Trie.viaOpen`: Those over a piece of a
  path.
* `Trie.search`: The search from a node.
* `Trie.find`: The search from the root.
-/

namespace PathRouting

/-- What is matched: a piece of a path, or an attribute of the request. The
    pieces of a path are texts, but whoever brings tokens of their own may
    bring others. -/
inductive Token where
  | piece (v : Value)
  | attribute (c : Condition)

/-- A text as a piece of a path. -/
def Token.ofText (s : String) : Token :=
  .piece (.text s)

/-- What a name may be bound to: one piece, or the pieces that a glob has taken. -/
inductive Bound where
  | one (v : Value)
  | many (vs : List Value)

/-- Names with what they are bound to, in the order of binding. -/
abbrev Bindings := List (String × Bound)

/-- The value that something bound is. A tuple is handed out as a list. -/
def Bound.value : Bound → Value
  | .one (.tuple items) => .list items
  | .one v => v
  | .many vs => .list vs

/-- What a piece of a path is filed under among the children of a node. A pair
    is filed where a condition of that kind and value is. -/
def pieceKey? : Value → Option EdgeKey
  | .text s => some (.text s)
  | .tuple [kind, v] => some (.condition kind.form v.form)
  | _ => none

/-- A piece of a path is a delimiter. -/
def isMark (delimiters : List String) : Value → Bool
  | .text s => Tokens.isDelimiter delimiters s
  | _ => false

/-- A glob that may still take tokens, and those it has taken. -/
structure OpenGlob where
  owner : Variable
  taken : List Value

/-- The bindings once an open glob is closed. Only then is it known how much
    the glob has taken. -/
def closeGlob (held : Bindings) : Option OpenGlob → Bindings
  | none => held
  | some g => held ++ [(g.owner.name, .many g.taken)]

/-- The text that the tokens spell together. Only texts spell anything. -/
def joined? : List Token → Option String
  | [] => some ""
  | .piece (.text s) :: rest => (joined? rest).map (s ++ ·)
  | _ :: _ => none

/-- How many tokens it takes to spell exactly so many characters. There is no
    such number if the last character falls inside of a token. -/
def span? : Nat → List Token → Option Nat
  | 0, _ => some 0
  | _ + 1, [] => none
  | n + 1, .piece (.text s) :: rest =>
    if s.length ≤ n + 1 then (span? (n + 1 - s.length) rest).map (· + 1) else none
  | _ + 1, _ :: _ => none

/-- The first of the answers that is there. -/
def firstFound {β γ : Type} (f : β → Except Fault (Option γ)) :
    List β → Except Fault (Option γ)
  | [] => .ok none
  | b :: rest =>
    match f b with
    | .ok none => firstFound f rest
    | answer => answer

/-- The second answer, if the first is that there is nothing. -/
def orElseFound {γ : Type} (first : Except Fault (Option γ))
    (second : Unit → Except Fault (Option γ)) : Except Fault (Option γ) :=
  match first with
  | .ok none => second ()
  | answer => answer

/-- The text that a greedy variable takes of the tokens, and how many of them
    it takes: what its expression matches, if that is not empty, passes a
    separate requirement, and ends where a token ends. -/
def greedyTake [Host] (v : Variable) (g : Glob) (tokens : List Token) :
    Except Fault (Option (String × Nat)) :=
  match g.regex, joined? tokens with
  | some (.regex r), some remaining =>
    match r.prefixMatch? remaining with
    | none => .ok none
    | some matched =>
      if matched.isEmpty then .ok none
      else do
        let passes ← if g.separate then v.accepts (.text matched) else .ok true
        return if passes then (span? matched.length tokens).map fun n => (matched, n) else none
  | _, none => .error (.type .notText)
  | _, some _ => .ok none

namespace Trie

variable [Host] {α : Type}

/-- How a search goes on behind a token: how many tokens it passes over, the
    node it goes on from, the finished bindings and the open glob. -/
abbrev Onward (α : Type) :=
  Nat → Trie α → Bindings → Option OpenGlob → Except Fault (Option (α × Bindings))

/-- The way on over the child for exactly this attribute. -/
def viaExact (onward : Onward α) (t : Trie α) (c : Condition) (closed : Bindings) :
    Except Fault (Option (α × Bindings)) :=
  firstFound (fun e => onward 0 e.2 closed none)
    (if c.kind.isKey && c.value.isKey then
      t.fixedChild? (.condition c.kind.form c.value.form) else none).toList

/-- The ways on over the children whose conditions judge the attribute. They are
    tried in the order they were made in, and an absent attribute is not judged. -/
def viaJudged (onward : Onward α) (t : Trie α) (c : Condition) (closed : Bindings) :
    Except Fault (Option (α × Bindings)) :=
  firstFound (fun e => do
      if ← e.1.2.accepts c.value then onward 0 e.2 closed none else return none)
    (if c.value.isNone then [] else t.judged.filter fun e => e.1.1.equal c.kind)

/-- The way on over the child that any value of the attribute will do for. -/
def viaAnything (onward : Onward α) (t : Trie α) (c : Condition) (closed : Bindings) :
    Except Fault (Option (α × Bindings)) :=
  if c.kind.isKey then
    firstFound (fun e => onward 0 e.2 closed none)
      (t.fixedChild? (.condition c.kind.form Value.wildcard.form)).toList
  else .error (.type .notAKey)

/-- The way on over the child for this very piece. A separator does not close
    the glob. -/
def viaLiteral (onward : Onward α) (t : Trie α) (s : Value) (held : Bindings)
    (glob : Option OpenGlob) : Except Fault (Option (α × Bindings)) :=
  firstFound (fun e : Segment × Trie α =>
      if e.1.isSeparator then onward 0 e.2 held glob
      else onward 0 e.2 (closeGlob held glob) none)
    ((pieceKey? s).bind t.fixedChild?).toList

/-- The way on over the variable, which no delimiter can start. A greedy
    variable goes on behind all that it takes, and any other one behind a
    single token. -/
def viaBinder (onward : Onward α) (delimiters : List String) (t : Trie α) (s : Value)
    (rest : List Token) (closed : Bindings) : Except Fault (Option (α × Bindings)) :=
  firstFound (fun e : Variable × Trie α =>
      match e.1.glob with
      | some g =>
        if g.greedy then do
          match ← greedyTake e.1 g (.piece s :: rest) with
          | some (matched, n) =>
            onward (n - 1) e.2 (closed ++ [(e.1.name, .one (.text matched))]) none
          | none => return none
        else do
          if ← e.1.accepts s then onward 0 e.2 closed (some ⟨e.1, [s]⟩) else return none
      | none => do
        if ← e.1.accepts s then onward 0 e.2 (closed ++ [(e.1.name, .one s)]) none
        else return none)
    (if isMark delimiters s then [] else t.binder.toList)

/-- The way on with the open glob, which passes over a delimiter and takes
    anything else that it accepts. -/
def viaOpen (onward : Onward α) (delimiters : List String) (t : Trie α) (s : Value)
    (held : Bindings) (glob : Option OpenGlob) : Except Fault (Option (α × Bindings)) :=
  firstFound (fun g : OpenGlob =>
      if isMark delimiters s then onward 0 t held (some g)
      else do
        if ← g.owner.accepts s then onward 0 t held (some ⟨g.owner, g.taken ++ [s]⟩)
        else return none) glob.toList

/-- The search from a node over the tokens behind the next `skip`, with the
    bindings that are finished and the glob that is still open. At each node
    the ways are tried in a fixed order, the more definite first, and the
    first that arrives decides. -/
def search (delimiters : List String) :
    Nat → Trie α → List Token → Bindings → Option OpenGlob →
      Except Fault (Option (α × Bindings))
  | _, t, [], held, glob => .ok (t.terminal.map fun path => (path, closeGlob held glob))
  | skip + 1, t, _ :: rest, held, glob => search delimiters skip t rest held glob
  | 0, t, .attribute c :: rest, held, glob =>
    let onward : Onward α := fun skip t held glob => search delimiters skip t rest held glob
    let closed := closeGlob held glob
    orElseFound (viaExact onward t c closed) fun _ =>
      orElseFound (viaJudged onward t c closed) fun _ => viaAnything onward t c closed
  | 0, t, .piece s :: rest, held, glob =>
    let onward : Onward α := fun skip t held glob => search delimiters skip t rest held glob
    if s.isKey then
      orElseFound (viaLiteral onward t s held glob) fun _ =>
        orElseFound (viaBinder onward delimiters t s rest (closeGlob held glob)) fun _ =>
          viaOpen onward delimiters t s held glob
    else .error (.type .notAKey)

/-- The path that the tokens match, with its bindings. -/
def find (delimiters : List String) (t : Trie α) (tokens : List Token) :
    Except Fault (Option (α × Bindings)) :=
  search delimiters 0 t tokens [] none

end Trie

end PathRouting
