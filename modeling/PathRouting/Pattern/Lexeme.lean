import PathRouting.Fault

/-!
# Lexemes of Patterns

A route pattern cut into its smallest pieces: delimiters, parentheses, bars,
brace bodies, and runs of other text. A brace body is one piece however much it
holds, since the regular expression inside may use any of these characters; it
ends at the brace that balances its opening one, and a backslash hides the
character after it.

A character that is a delimiter is one even if the pattern syntax has another
use for it.

## Main definitions

* `Lexeme`: The pieces.
* `bodyLength?`: How long the brace body at the front of a text is.
* `lexemesFrom`: The pieces of the rest of a pattern.
* `lexemes`: The pieces of a pattern.
-/

namespace PathRouting

namespace Pattern

/-- The smallest pieces of a pattern. -/
inductive Lexeme where
  | mark (delimiter : Char)
  | opening
  | closing
  | bar
  | brace (body : List Char)
  | text (run : List Char)
  deriving DecidableEq, Repr

/-- How many characters stand before the brace that balances an opening one,
    with `depth` further braces open in between. A backslash hides the
    character behind it. -/
def bodyLength? : Nat → List Char → Option Nat
  | _, [] => none
  | depth, c :: rest =>
    if c = '\\' then
      match rest with
      | [] => none
      | _ :: rest => (bodyLength? depth rest).map (· + 2)
    else if c = '\x7b' then (bodyLength? (depth + 1) rest).map (· + 1)
    else if c = '\x7d' then
      match depth with
      | 0 => some 0
      | depth + 1 => (bodyLength? depth rest).map (· + 1)
    else (bodyLength? depth rest).map (· + 1)

/-- The run of text that has been collected, as a lexeme unless it is empty.
    The run is kept with its latest character first. -/
def closeText (run : List Char) : List Lexeme :=
  if run.isEmpty then [] else [.text run.reverse]

/-- The lexemes of the rest of a pattern from a position on, with the text
    collected before it. The next `skip` characters belong to a brace body
    that has been taken already. -/
def lexemesFrom (delimiters : List String) :
    Nat → Nat → List Char → List Char → Except PatternFault (List Lexeme)
  | _, _, run, [] => .ok (closeText run)
  | skip + 1, position, run, _ :: rest => lexemesFrom delimiters skip (position + 1) run rest
  | 0, position, run, c :: rest =>
    let next := fun skip l => do
      return closeText run ++ l :: (← lexemesFrom delimiters skip (position + 1) [] rest)
    if delimiters.contains (String.singleton c) then next 0 (.mark c)
    else if c = '(' then next 0 .opening
    else if c = ')' then next 0 .closing
    else if c = '|' then next 0 .bar
    else if c = '\x7b' then
      match bodyLength? 0 rest with
      | some n => next (n + 1) (.brace (rest.take n))
      | none => .error (.openBrace position)
    else if c = '\x7d' then .error (.strayBrace position)
    else lexemesFrom delimiters 0 (position + 1) (c :: run) rest

/-- The lexemes of a pattern. -/
def lexemes (delimiters : List String) (pattern : String) : Except PatternFault (List Lexeme) :=
  lexemesFrom delimiters 0 0 [] pattern.toList

/-- The text that a lexeme was cut from. -/
def Lexeme.source : Lexeme → List Char
  | .mark c => [c]
  | .opening => ['(']
  | .closing => [')']
  | .bar => ['|']
  | .brace body => '\x7b' :: body ++ ['\x7d']
  | .text run => run

end Pattern

end PathRouting
