/-!
# Regular Expressions

The expressions that requirements are written in: literals, character classes,
anchors, groups with references back to what they matched, greedy, lazy and
possessive repetition, alternatives, and looking ahead and behind. A part may be
matched under switches of its own, may be atomic, and may depend on whether an
earlier group has matched.

Characters are code points here. An expression may name a code point that no
character has, which then simply never matches.

The width of an expression, how many characters it takes at least and at most,
belongs to the expressions as well: one that looks behind goes back by a fixed
number of characters, so it has to be known when the expression is put together.

## Main definitions

* `Modes`: The switches that change how an expression is read.
* `Switches`: What a part of an expression does to them.
* `Category`, `ClassItem`: What a character class is made of.
* `Anchor`: The conditions that consume no character.
* `Greed`: How a repetition chooses among its counts.
* `Expr`: The expressions.
* `Width`, `Expr.width`: How many characters an expression takes.
-/

namespace PathRouting

namespace Regex

/-- The switches of an expression. Without any of them, the categories and
    letter case are those of Unicode. -/
structure Modes where
  /-- Letters match in either case. -/
  ignoreCase : Bool
  /-- The line anchors hold at every line, not only at the ends of the text. -/
  multiLine : Bool
  /-- The dot matches a line break as well. -/
  dotAll : Bool
  /-- The categories and letter case are those of ASCII. -/
  ascii : Bool
  /-- Blanks and comments between the pieces do not count. -/
  verbose : Bool
  /-- Nothing may be repeated. -/
  template : Bool
  deriving DecidableEq, Repr, Inhabited

/-- No switch is on. -/
def Modes.plain : Modes := ⟨false, false, false, false, false, false⟩

/-- The switches that are on in either. -/
def Modes.or (a b : Modes) : Modes :=
  ⟨a.ignoreCase || b.ignoreCase, a.multiLine || b.multiLine, a.dotAll || b.dotAll,
    a.ascii || b.ascii, a.verbose || b.verbose, a.template || b.template⟩

/-- The switches that some letters turn on. -/
def Modes.ofLetters (letters : String) : Modes :=
  ⟨letters.contains 'i', letters.contains 'm', letters.contains 's', letters.contains 'a',
    letters.contains 'x', letters.contains 't'⟩

/-- The letters of the switches that are on. -/
def Modes.letters (m : Modes) : String :=
  (if m.ignoreCase then "i" else "") ++ (if m.multiLine then "m" else "") ++
    (if m.dotAll then "s" else "") ++ (if m.ascii then "a" else "") ++
    (if m.verbose then "x" else "") ++ (if m.template then "t" else "")

/-- What a part of an expression does to the switches: some are turned on,
    some off. That the categories are those of Unicode is no switch of its
    own, but can be asked for, which turns those of ASCII off. -/
structure Switches where
  on : Modes
  /-- The categories and letter case are to be those of Unicode. -/
  unicode : Bool
  off : Modes
  deriving DecidableEq, Repr

/-- The switches inside of a part that changes them. -/
def Modes.changed (m : Modes) (s : Switches) : Modes where
  ignoreCase := (m.ignoreCase || s.on.ignoreCase) && !s.off.ignoreCase
  multiLine := (m.multiLine || s.on.multiLine) && !s.off.multiLine
  dotAll := (m.dotAll || s.on.dotAll) && !s.off.dotAll
  ascii := (m.ascii && !s.unicode) || s.on.ascii
  verbose := (m.verbose || s.on.verbose) && !s.off.verbose
  template := m.template

/-- The named character categories. -/
inductive Category where
  | digit
  | space
  | word
  deriving DecidableEq, Repr

/-- A member of a character class: a single code point, a range of them, or a
    category or its complement. -/
inductive ClassItem where
  | char (code : Nat)
  | range (first last : Nat)
  | category (negated : Bool) (category : Category)
  deriving DecidableEq, Repr

/-- Conditions on a place in the text. -/
inductive Anchor where
  | lineStart
  | lineEnd
  | textStart
  | textEnd
  | wordEdge
  | noWordEdge
  deriving DecidableEq, Repr

/-- How a repetition chooses its count: the greatest first, the least first,
    or the greatest without ever going back on it. -/
inductive Greed where
  | greedy
  | lazy
  | possessive
  deriving DecidableEq, Repr

/-- Regular expressions. -/
inductive Expr where
  | empty
  | char (code : Nat)
  /-- One character, but not this one. -/
  | otherThan (code : Nat)
  | any
  | oneOf (negated : Bool) (items : List ClassItem)
  | anchor (anchor : Anchor)
  | seq (first second : Expr)
  | either (first second : Expr)
  | loop (least : Nat) (most : Option Nat) (greed : Greed) (body : Expr)
  | group (index : Nat) (body : Expr)
  | sameAs (index : Nat)
  /-- What follows can be matched, or cannot. -/
  | look (negated : Bool) (body : Expr)
  /-- So many characters in front of the place can be matched, or cannot. -/
  | behind (negated : Bool) (width : Nat) (body : Expr)
  /-- Only the preferred way of matching counts. -/
  | atomic (body : Expr)
  /-- Matching goes on under other switches. -/
  | scoped (change : Switches) (body : Expr)
  /-- Which of the two is matched depends on whether the group has matched. -/
  | ifGroup (index : Nat) (yes no : Expr)
  deriving DecidableEq, Repr

/-- The expressions one after another. -/
def Expr.sequence : List Expr → Expr
  | [] => .empty
  | [e] => e
  | e :: rest => .seq e (sequence rest)

/-- The expressions as alternatives, the first preferred. -/
def Expr.alternatives : List Expr → Expr
  | [] => .empty
  | [e] => e
  | e :: rest => .either e (alternatives rest)

/-- How many characters something takes, at least and at most. -/
structure Width where
  least : Nat
  most : Nat
  deriving DecidableEq, Repr

/-- The width of what has no upper bound. Every width that is put to use is
    far below it. -/
def Width.unbounded : Nat := 1 <<< 64

/-- The widths of an expression, given those of the groups that it refers back
    to. What looks around takes no character itself. -/
def Expr.width (groups : List (Nat × Width)) : Expr → Width
  | .empty | .anchor _ | .look _ _ | .behind _ _ _ => ⟨0, 0⟩
  | .char _ | .otherThan _ | .any | .oneOf _ _ => ⟨1, 1⟩
  | .seq first second =>
    let a := first.width groups
    let b := second.width groups
    ⟨a.least + b.least, a.most + b.most⟩
  | .either first second | .ifGroup _ first second =>
    let a := first.width groups
    let b := second.width groups
    ⟨a.least.min b.least, a.most.max b.most⟩
  | .loop least most _ body =>
    let a := body.width groups
    ⟨least * a.least, match most with
      | some most => most * a.most
      | none => if a.most = 0 then 0 else Width.unbounded⟩
  | .group _ body | .atomic body | .scoped _ body => body.width groups
  | .sameAs index => (groups.lookup index).getD ⟨0, 0⟩

end Regex

end PathRouting
