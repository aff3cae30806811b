import PathRouting.Regex.Syntax
import PathRouting.Text.Blank
import PathRouting.Text.Digit
import PathRouting.Text.LetterCase
import PathRouting.Text.Word

/-!
# Matching

Matching an expression at a place in a text, by trying choices in order and
going back on them. The matcher takes what is to happen after the expression as
a function: an expression succeeds at the first of its choices after which that
function succeeds, so the order of the choices decides which match is found.

A repetition whose body may match nothing would go on for ever. As in other
backtracking matchers, a round beyond the required ones is begun only at another
place than the round before it, which leaves at most one round per place; the
fuel of `loopFrom` is that bound.

A part that is atomic, and each round of a possessive repetition, is matched
with nothing to happen after it. Its first way of matching is then the only
one that counts. The same holds of what is looked for ahead of a place or
behind it.

Where letter case is ignored, a character of its own matches in all its
spellings, and so does a class, but for one limit: the spellings of a class are
known for the basic plane only. Of the characters beyond it, a class compares
the lower-case form alone, so that a capital among its members matches nothing.

## Main definitions

* `Capture`: What a group has matched.
* `Cursor`: A place in a text, with what has become of the groups.
* `matchesChar`, `matchesItem`, `oneOfMatches`: What a character and a character
  class accept.
* `Anchor.holds`: Whether an anchor holds at a place.
* `loopFrom`: The rounds of a repetition.
* `Expr.run`: The matcher.
-/

namespace PathRouting

namespace Regex

open Text

/-- What a group has matched. -/
structure Capture where
  index : Nat
  text : List Char
  /-- How many characters were left behind the group. -/
  left : Nat
  deriving Repr

/-- A place in a text, with what has become of the groups on the way there. -/
structure Cursor where
  /-- The characters before the place, the nearest first. -/
  before : List Char
  /-- The characters behind it. -/
  rest : List Char
  /-- What the groups have matched so far, the latest first. -/
  captures : List Capture
  /-- The groups entered so far with how many characters were left there, the
      latest first. -/
  entered : List (Nat × Nat)
  deriving Repr

/-- The first place of a text. -/
def Cursor.start (cs : List Char) : Cursor :=
  ⟨[], cs, [], []⟩

/-- The small letter of an ASCII capital, as a code point. -/
def asciiLower (n : Nat) : Nat :=
  if 0x41 ≤ n ∧ n ≤ 0x5A then n + 0x20 else n

/-- The code points that stand for a character under the given switches. -/
def spellings (m : Modes) (c : Char) : List Nat :=
  if !m.ignoreCase then [c.toNat]
  else if m.ascii then
    let low := asciiLower c.toNat
    if 0x61 ≤ low ∧ low ≤ 0x7A then [low, low - 0x20] else [low]
  else caseVariants c.toNat

/-- The code point under which a character is compared with an earlier match. -/
def foldCode (m : Modes) (c : Char) : Nat :=
  if !m.ignoreCase then c.toNat
  else if m.ascii then asciiLower c.toNat
  else lowerCode c.toNat

/-- The character may stand in a word. -/
def wordChar (m : Modes) (c : Char) : Bool :=
  if m.ascii then c.isAlphanum || c == '_' else isWordChar c

/-- The character belongs to the category. -/
def Category.has (m : Modes) (c : Char) : Category → Bool
  | .digit => if m.ascii then c.isDigit else isDigit c
  | .space =>
    if m.ascii then c == ' ' || (0x09 ≤ c.toNat && c.toNat ≤ 0x0D) else isBlank c
  | .word => wordChar m c

/-- The character is spelled by the code point. -/
def matchesChar (m : Modes) (code : Nat) (c : Char) : Bool :=
  (spellings m c).contains code

/-- The last code point of the basic plane. -/
def lastBasic : Nat := 0xFFFF

/-- The code point lies in the range. -/
def between (first last n : Nat) : Bool :=
  first ≤ n && n ≤ last

/-- The character is in the range. Where letter case is ignored, the part of
    the range in the basic plane holds all spellings of its code points. Of a
    range that goes on beyond that plane, a character is a member as well when
    its lower-case form is, or the upper-case form of that. -/
def matchesRange (m : Modes) (first last : Nat) (c : Char) : Bool :=
  (spellings m c).any (between first (last.min lastBasic)) ||
    (lastBasic < last &&
      (between first last (foldCode m c) ||
        (m.ignoreCase && between first last (upperCode (foldCode m c)))))

/-- The character is a member of a class. Where letter case is ignored, a
    member beyond the basic plane is compared as it stands with the lower-case
    form of the character. -/
def matchesItem (m : Modes) (c : Char) : ClassItem → Bool
  | .char n => if n ≤ lastBasic then matchesChar m n c else foldCode m c == n
  | .range first last => matchesRange m first last c
  | .category negated k => k.has m c != negated

/-- The class accepts the character. -/
def oneOfMatches (m : Modes) (negated : Bool) (items : List ClassItem) (c : Char) : Bool :=
  items.any (matchesItem m c) != negated

/-- Whether the characters around a place make it an edge of a word. -/
def Cursor.wordEdge (m : Modes) (c : Cursor) : Bool :=
  c.before.head?.any (wordChar m) != c.rest.head?.any (wordChar m)

/-- The anchor holds at the place. In the empty text there are neither edges
    of words nor places that are no edge. -/
def Anchor.holds (m : Modes) (c : Cursor) : Anchor → Bool
  | .lineStart => c.before.isEmpty || (m.multiLine && c.before.head? == some '\n')
  | .lineEnd =>
    c.rest.isEmpty || c.rest == ['\n'] || (m.multiLine && c.rest.head? == some '\n')
  | .textStart => c.before.isEmpty
  | .textEnd => c.rest.isEmpty
  | .wordEdge => c.wordEdge m
  | .noWordEdge => !(c.before.isEmpty && c.rest.isEmpty) && !c.wordEdge m

/-- The place behind the next character, if that one is accepted. -/
def Cursor.take? (c : Cursor) (accept : Char → Bool) : Option Cursor :=
  match c.rest with
  | [] => none
  | x :: rest => if accept x then some { c with before := x :: c.before, rest := rest } else none

/-- The place behind a repetition of earlier characters, if it follows. -/
def Cursor.takeSame? (m : Modes) : Cursor → List Char → Option Cursor
  | c, [] => some c
  | c, x :: xs =>
    match c.take? fun y => foldCode m x == foldCode m y with
    | some c => takeSame? m c xs
    | none => none

/-- The characters between a place and a later one. -/
def Cursor.textTo (c later : Cursor) : List Char :=
  c.rest.take (c.rest.length - later.rest.length)

/-- The place so many characters further left, if there are as many. -/
def Cursor.back? (c : Cursor) (count : Nat) : Option Cursor :=
  if count ≤ c.before.length then
    some { c with
      before := c.before.drop count, rest := (c.before.take count).reverse ++ c.rest }
  else none

/-- The same place with what became of the groups up to another one. -/
def Cursor.withGroups (c other : Cursor) : Cursor :=
  { c with captures := other.captures, entered := other.entered }

/-- The place inside of a group. -/
def Cursor.enter (c : Cursor) (index : Nat) : Cursor :=
  { c with entered := (index, c.rest.length) :: c.entered }

/-- The place behind a group that was entered at an earlier one. -/
def Cursor.leave (c : Cursor) (index : Nat) (start : Cursor) : Cursor :=
  { c with captures := ⟨index, start.textTo c, c.rest.length⟩ :: c.captures }

/-- What the group has matched. -/
def Cursor.capture? (c : Cursor) (index : Nat) : Option Capture :=
  c.captures.find? (·.index == index)

/-- The group has matched, and has not been entered again further right. -/
def Cursor.isSet (c : Cursor) (index : Nat) : Bool :=
  match c.capture? index, c.entered.lookup index with
  | some capture, some left => capture.left ≤ left
  | _, _ => false

/-- The rounds of a repetition, from the place where `count` of them are done.
    Beyond the least number, a round is begun only at another place than
    `last`, where the round before began. -/
def loopFrom (body : Cursor → (Cursor → Option Cursor) → Option Cursor) (least : Nat)
    (most : Option Nat) (lazy : Bool) :
    Nat → Nat → Option Nat → Cursor → (Cursor → Option Cursor) → Option Cursor
  | 0, _, _, _, _ => none
  | fuel + 1, count, last, c, k =>
    if count < least then body c fun c => loopFrom body least most lazy fuel (count + 1) last c k
    else
      let here := c.rest.length
      let again := fun _ : Unit =>
        if most.all (count < ·) && last != some here then
          body c fun c => loopFrom body least most lazy fuel (count + 1) (some here) c k
        else none
      if lazy then (k c).orElse again else (again ()).orElse fun _ => k c

/-- The first way to match the expression at the place after which `k`
    succeeds, as the place that `k` ends at. -/
def Expr.run : Expr → Modes → Cursor → (Cursor → Option Cursor) → Option Cursor
  | .empty, _, c, k => k c
  | .char code, m, c, k => (c.take? (matchesChar m code)).bind k
  | .otherThan code, m, c, k => (c.take? fun x => !matchesChar m code x).bind k
  | .any, m, c, k => (c.take? fun x => m.dotAll || x != '\n').bind k
  | .oneOf negated items, m, c, k => (c.take? (oneOfMatches m negated items)).bind k
  | .anchor a, m, c, k => if a.holds m c then k c else none
  | .seq first second, m, c, k => first.run m c fun c => second.run m c k
  | .either first second, m, c, k => (first.run m c k).orElse fun _ => second.run m c k
  | .loop least most greed body, m, c, k =>
    let fuel := least + c.rest.length + 2
    match greed with
    | .greedy => loopFrom (fun c k => body.run m c k) least most false fuel 0 none c k
    | .lazy => loopFrom (fun c k => body.run m c k) least most true fuel 0 none c k
    | .possessive =>
      (loopFrom (fun c k => (body.run m c some).bind k) least most false fuel 0 none c some).bind k
  | .group index body, m, c, k =>
    body.run m (c.enter index) fun later => k (later.leave index c)
  | .sameAs index, m, c, k =>
    match c.capture? index with
    | some capture => (c.takeSame? m capture.text).bind k
    | none => none
  | .look negated body, m, c, k =>
    match body.run m c some, negated with
    | some later, false => k (c.withGroups later)
    | none, true => k c
    | _, _ => none
  | .behind negated width body, m, c, k =>
    match (c.back? width).bind fun c => body.run m c some, negated with
    | some later, false => k (c.withGroups later)
    | none, true => k c
    | _, _ => none
  | .atomic body, m, c, k => (body.run m c some).bind k
  | .scoped change body, m, c, k => body.run (m.changed change) c k
  | .ifGroup index yes no, m, c, k => if c.isSet index then yes.run m c k else no.run m c k

end Regex

end PathRouting
