import PathRouting.Regex.Lexeme

/-!
# Reading Regular Expressions

Lexemes put together into an expression. The reader keeps the open groups on a
stack: an opening lexeme pushes one, a bar starts its next alternative, and the
closing lexeme turns the topmost into a piece of the group around it. Each step
takes one lexeme, so reading is structural recursion.

Refused are unpaired parentheses, repetitions of nothing, of an anchor or of a
repetition, references to groups that do not exist or are still open, group
names given twice, switches anywhere but at the very start, and a third
alternative where two depend on a group. Looking behind, one may refer to groups
in front of it only.

Some defects are known early but reported last, since they concern the finished
expression: what is looked for behind a place has no fixed width, a condition
asks for a group that never comes, or something is repeated although nothing may
be. The reader remembers them and goes on, because a defect further right that
breaks the notation, and switches that clash, are reported before them.

Alternatives are simplified as they are put together: simple pieces that all of
them begin with come in front of the choice, and a choice among single
characters is a class. For that, a plain group counts as its pieces.

## Main definitions

* `Piece`: An expression with what may still be done to it.
* `Item`: A piece, or the pieces of a plain group that may yet be repeated.
* `choice`: Alternatives put together.
* `Level`: An open group.
* `Reading`: The state of the reader.
* `Reading.step?`: What one lexeme does.
* `Reading.finish?`: What is left when all lexemes are read.
* `read?`: The expression and the switches that a text spells.
-/

namespace PathRouting

namespace Regex

/-- What the reader has to know about a piece. -/
inductive PieceKind where
  /-- One character or a reference back. -/
  | unit
  | anchor
  | group
  | repetition
  deriving DecidableEq, Repr

/-- A repetition may follow. -/
def PieceKind.isRepeatable : PieceKind → Bool
  | .unit | .group => true
  | .anchor | .repetition => false

/-- The piece is simple enough to come in front of a choice. -/
def PieceKind.isSimple : PieceKind → Bool
  | .unit | .anchor => true
  | .group | .repetition => false

/-- An expression with what may still be done to it. -/
structure Piece where
  expr : Expr
  kind : PieceKind
  deriving DecidableEq, Repr

/-- What an alternative is made of while its group is open. A plain group is
    kept apart, because a repetition behind it is one of all its pieces. -/
inductive Item where
  | piece (p : Piece)
  | plain (pieces : List Piece)
  deriving Repr

/-- The pieces of an item. -/
def Item.pieces : Item → List Piece
  | .piece p => [p]
  | .plain pieces => pieces

/-- The simple pieces that all alternatives begin with, and what is left of
    the alternatives. -/
def shared : List Piece → List (List Piece) → List Piece × List (List Piece)
  | p :: first, others =>
    if p.kind.isSimple && others.all (·.head? == some p) then
      let (ps, rest) := shared first (others.map List.tail)
      (p :: ps, rest)
    else ([], (p :: first) :: others)
  | [], others => ([], [] :: others)

/-- The members that an alternative adds to a class. -/
def Piece.members? : List Piece → Option (List ClassItem)
  | [⟨.char n, _⟩] => some [.char n]
  | [⟨.oneOf false items, _⟩] => some items
  | _ => none

/-- Pieces one after another. -/
def sequence (pieces : List Piece) : Expr :=
  .sequence (pieces.map Piece.expr)

/-- Alternatives put together, the first preferred. -/
def choice : List (List Piece) → List Piece
  | [] => []
  | [pieces] => pieces
  | first :: others =>
    let (front, rest) := shared first others
    -- What is left of an alternative may be nothing, which no class can stand for.
    let branch : Piece := match rest.mapM Piece.members? with
      | some items => ⟨.oneOf false items.flatten.eraseDups, .unit⟩
      | none => ⟨.alternatives (rest.map sequence), .group⟩
    front ++ [branch]

/-- A group that is still open, its finished alternatives and the items of the
    current one, all with the latest first. -/
structure Level where
  opening : Opening
  /-- The number of the group, or of the one it depends on; zero for a group
      that neither captures nor depends on another. -/
  index : Nat
  /-- Looking behind, the last group that may be referred to. -/
  limit : Option Nat
  alternatives : List (List Item)
  items : List Item
  deriving Repr

/-- The state of the reader. -/
structure Reading where
  /-- The innermost group; the whole expression counts as one. -/
  top : Level
  /-- The groups around it, from the inside out. -/
  outer : List Level
  /-- How many groups capture so far. -/
  captures : Nat
  /-- The numbers of the groups with a name. -/
  names : List (String × Nat)
  /-- The widths of the groups that are closed, by number. -/
  closed : List (Nat × Width)
  /-- The greatest number of a group that a condition asks for. -/
  awaited : Nat
  /-- The finished expression will be refused. -/
  unfit : Bool
  modes : Modes
  /-- The categories of Unicode were asked for. -/
  unicode : Bool
  deriving Repr

/-- The reader before the first lexeme. -/
def Reading.start (modes : Modes) : Reading :=
  ⟨⟨.plain, 0, none, [], []⟩, [], 0, [], [], 0, false, modes, false⟩

/-- The alternatives of a group, with the pieces of each. -/
def Level.branches (l : Level) : List (List Piece) :=
  (l.items :: l.alternatives).reverse.map fun items => items.reverse.flatMap Item.pieces

/-- The pieces that a group comes to. -/
def Level.pieces (l : Level) : List Piece :=
  choice l.branches

/-- What a group comes to, as one expression. -/
def Level.body (l : Level) : Expr :=
  sequence l.pieces

/-- The item that a group is, once it is closed, given the widths of the
    groups closed before. -/
def Level.close (l : Level) (closed : List (Nat × Width)) : Item :=
  match l.opening with
  | .plain => .plain l.pieces
  | .capture _ => .piece ⟨.group l.index l.body, .group⟩
  | .look negated => .piece ⟨.look negated l.body, .group⟩
  | .behind negated => .piece ⟨.behind negated (l.body.width closed).least l.body, .group⟩
  | .atomic => .piece ⟨.atomic l.body, .group⟩
  | .scoped change => .piece ⟨.scoped change l.body, .group⟩
  | .ifName _ | .ifNumber _ =>
    let branches := l.branches.map sequence
    .piece ⟨.ifGroup l.index (branches.headD .empty) (branches.tail.headD .empty), .group⟩

/-- The most characters that one can look back by. -/
def lookLimit : Nat := 4294967295

/-- The group looks behind for something of no fixed width, or of one too large. -/
def Level.isUnfit (l : Level) (closed : List (Nat × Width)) : Bool :=
  match l.opening with
  | .behind _ =>
    let width := l.body.width closed
    width.least != width.most || lookLimit < width.least
  | _ => false

/-- The reader with one more item in the innermost group. -/
def Reading.add (r : Reading) (item : Item) : Reading :=
  { r with top := { r.top with items := item :: r.top.items } }

/-- The reader with one more piece in the innermost group. -/
def Reading.push (r : Reading) (e : Expr) (kind : PieceKind) : Reading :=
  r.add (.piece ⟨e, kind⟩)

/-- The reader inside a new group with the given number. Looking behind begins
    with the outermost group that does so. -/
def Reading.enter (r : Reading) (o : Opening) (index : Nat) : Reading :=
  let limit := match r.top.limit, o with
    | none, .behind _ => some r.captures
    | limit, _ => limit
  { r with top := ⟨o, index, limit, [], []⟩, outer := r.top :: r.outer }

/-- The reader inside a new group that captures. -/
def Reading.enterCapture (r : Reading) (name : Option String) : Reading :=
  { r with captures := r.captures + 1 }.enter (.capture name) (r.captures + 1)

/-- The group is closed, and no one looking behind is kept from it. -/
def Reading.mayRefer (r : Reading) (index : Nat) : Bool :=
  (r.closed.lookup index).isSome && r.top.limit.all (index ≤ ·)

/-- The reader inside two alternatives that depend on a group. Unless one
    looks behind, the group may be open still or yet to come. -/
def Reading.openCondition? (r : Reading) (o : Opening) (index : Nat) : Except Defect Reading :=
  if r.top.limit.isSome && !r.mayRefer index then .error .malformed
  else .ok ({ r with awaited := r.awaited.max index }.enter o index)

/-- The reader inside a new group. A name may be given only once. -/
def Reading.openGroup? (r : Reading) (o : Opening) : Except Defect Reading :=
  match o with
  | .capture none => .ok (r.enterCapture none)
  | .capture (some name) =>
    if (r.names.lookup name).isSome then .error .malformed
    else .ok ({ r with names := (name, r.captures + 1) :: r.names }.enterCapture (some name))
  | .ifName name =>
    match r.names.lookup name with
    | some n => r.openCondition? o n
    | none => .error .malformed
  | .ifNumber n => r.openCondition? o n
  | _ => .ok (r.enter o 0)

/-- The switches ask for the categories of ASCII and for those of Unicode. -/
def Reading.clashes (r : Reading) : Bool :=
  r.modes.ascii && r.unicode

/-- The reader after the end of the innermost group, if there is one. Where
    there is none the expression is over, and then clashing switches come first. -/
def Reading.closeGroup? (r : Reading) : Except Defect Reading :=
  match r.outer with
  | [] => .error (if r.clashes then .clashingModes else .malformed)
  | level :: outer =>
    let closed := match r.top.opening with
      | .capture _ => (r.top.index, r.top.body.width r.closed) :: r.closed
      | _ => r.closed
    .ok ({ r with
      top := level, outer := outer, closed := closed,
      unfit := r.unfit || r.top.isUnfit r.closed }.add (r.top.close r.closed))

/-- The reader at the next alternative of the innermost group. Of those that
    depend on a group there are two at most. -/
def Reading.nextBranch? (r : Reading) : Except Defect Reading :=
  let next := { r with top := { r.top with
    alternatives := r.top.items :: r.top.alternatives, items := [] } }
  match r.top.opening with
  | .ifName _ | .ifNumber _ =>
    if r.top.alternatives.isEmpty then .ok next else .error .malformed
  | _ => .ok next

/-- The expression of an item that may be repeated. -/
def Item.repeatable? : Item → Except Defect Expr
  | .piece p => if p.kind.isRepeatable then .ok p.expr else .error .malformed
  | .plain pieces => .ok (sequence pieces)

/-- The last item of the innermost group, repeated. -/
def Reading.repeatLast? (r : Reading) (least : Nat) (most : Option Nat) (greed : Greed) :
    Except Defect Reading :=
  match r.top.items with
  | item :: rest => do
    let body ← item.repeatable?
    return { r with
      top := { r.top with items := rest }, unfit := r.unfit || r.modes.template }.push
        (.loop least most greed body) .repetition
  | [] => .error .malformed

/-- A reference back to a group that is closed already. -/
def Reading.refer? (r : Reading) (index : Nat) : Except Defect Reading :=
  if r.mayRefer index then .ok (r.push (.sameAs index) .unit) else .error .malformed

/-- Nothing has been read that matters for where switches may stand. -/
def Reading.atStart (r : Reading) : Bool :=
  r.outer.isEmpty && r.top.alternatives.isEmpty && r.top.items.isEmpty

/-- What one lexeme does to the reader, if it may stand there. -/
def Reading.step? (r : Reading) : Lexeme → Except Defect Reading
  | .atom e => .ok (r.push e .unit)
  | .anchor a => .ok (r.push (.anchor a) .anchor)
  | .loop least most greed => r.repeatLast? least most greed
  | .opening o => r.openGroup? o
  | .closing => r.closeGroup?
  | .bar => r.nextBranch?
  | .sameNumber n => r.refer? n
  | .sameName name =>
    match r.names.lookup name with
    | some n => r.refer? n
    | none => .error .malformed
  | .modes change =>
    if r.atStart then
      .ok { r with modes := r.modes.or change.on, unicode := r.unicode || change.unicode }
    else .error .malformed
  | .comment => .ok r
  | .broken d => .error d

/-- The reader after all lexemes. -/
def Reading.run? (r : Reading) : List Lexeme → Except Defect Reading
  | [] => .ok r
  | l :: rest =>
    match r.step? l with
    | .ok r => r.run? rest
    | .error d => .error d

/-- The expression that was read, and its switches. What is wrong with the
    expression as a whole comes after all that is wrong with its parts. -/
def Reading.finish? (r : Reading) : Except Defect (Expr × Modes) :=
  if !r.outer.isEmpty then .error .malformed
  else if r.clashes then .error .clashingModes
  else if r.captures < r.awaited || r.unfit then .error .malformed
  else .ok (r.top.body, r.modes)

/-- The expression that a text spells, and its switches together with the given ones. -/
def read? (names : Names) (modes : Modes) (cs : List Char) : Except Defect (Expr × Modes) :=
  match (Reading.start modes).run? (lexemes names modes cs) with
  | .error d => .error d
  | .ok r => r.finish?

end Regex

end PathRouting
