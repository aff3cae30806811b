import PathRouting.Number.Whole
import PathRouting.Regex.Syntax
import PathRouting.Text.Identifier

/-!
# Lexemes of Regular Expressions

The text of an expression cut into its smallest meaningful pieces. A character
class, an escape or a counted repetition is one lexeme; groups remain an opening
and a closing lexeme, to be paired afterwards.

Cutting is where most of the odd spellings are settled: a brace that forms no
repetition is an ordinary character, a closing bracket is ordinary in first
place of a class, and digits after a backslash are an octal number or a
reference back, depending on how many there are. Where blanks and comments do
not count is settled here too. That depends on the groups around a place, since
each may change it, so cutting keeps a stack of them.

Cutting never fails as a whole. Where a text cannot be cut any further, a lexeme
that says why stands in the place of the rest, so that of two defects the one
further left is met first, whichever stage finds it.

The notation is the whole one for texts. Which character has which name, as it
may be given behind `\N`, is a table of tens of thousands of entries. It is
not spelled out here: whoever cuts an expression says what is known of names,
and nothing that is proved depends on what that is.

## Main definitions

* `Defect`: Why a text spells no expression.
* `Names`: What is known of the names of characters.
* `Lexeme`: The pieces.
* `escape?`: What a backslash outside of a class stands for.
* `classItems?`: The members of a class up to its closing bracket.
* `counted?`: A counted repetition.
* `switches?`: The switches behind an opening parenthesis.
* `opening?`: What an opening parenthesis opens.
* `lexemes`: The pieces of a whole text.
-/

namespace PathRouting

namespace Regex

/-- Why a text spells no expression. -/
inductive Defect where
  /-- The text breaks a rule of the notation. -/
  | malformed
  /-- A count of repetitions exceeds what can be counted. -/
  | countTooLarge
  /-- A count of repetitions has more digits than are read. -/
  | countTooLong (digits : Nat)
  /-- The switches ask for ASCII and for Unicode at once. -/
  | clashingModes
  deriving DecidableEq, Repr

/-- What is known of the names of characters: the character that has a name,
    if there is one. -/
abbrev Names := String → Option Char

/-- What an opening parenthesis opens. -/
inductive Opening where
  | capture (name : Option String)
  | plain
  | look (negated : Bool)
  | behind (negated : Bool)
  | atomic
  | scoped (change : Switches)
  /-- Two alternatives, depending on the group with the name. -/
  | ifName (name : String)
  /-- The same with the number of a group. -/
  | ifNumber (n : Nat)
  deriving DecidableEq, Repr

/-- The smallest pieces of an expression. -/
inductive Lexeme where
  | atom (e : Expr)
  | anchor (a : Anchor)
  | loop (least : Nat) (most : Option Nat) (greed : Greed)
  | opening (o : Opening)
  | closing
  | bar
  | sameNumber (n : Nat)
  | sameName (name : String)
  /-- Switches for the whole expression. -/
  | modes (change : Switches)
  | comment
  /-- The rest of the text, which cannot be cut. -/
  | broken (d : Defect)
  deriving Repr

/-- The value of a hexadecimal digit. -/
def hexValue? (c : Char) : Option Nat :=
  if '0' ≤ c ∧ c ≤ '9' then some (c.toNat - 0x30)
  else if 'a' ≤ c ∧ c ≤ 'f' then some (c.toNat - 0x57)
  else if 'A' ≤ c ∧ c ≤ 'F' then some (c.toNat - 0x37)
  else none

/-- The value of exactly `count` hexadecimal digits, and the rest. -/
def hexNumber? : Nat → Nat → List Char → Option (Nat × List Char)
  | 0, n, cs => some (n, cs)
  | _ + 1, _, [] => none
  | count + 1, n, c :: rest =>
    match hexValue? c with
    | some d => hexNumber? count (16 * n + d) rest
    | none => none

/-- The value of an octal digit. -/
def octalValue? (c : Char) : Option Nat :=
  if '0' ≤ c ∧ c ≤ '7' then some (c.toNat - 0x30) else none

/-- The value of at most `count` octal digits, and the rest. -/
def octalNumber : Nat → Nat → List Char → Nat × List Char
  | 0, n, cs => (n, cs)
  | _ + 1, n, [] => (n, [])
  | count + 1, n, c :: rest =>
    match octalValue? c with
    | some d => octalNumber count (8 * n + d) rest
    | none => (n, c :: rest)

/-- The control character that a letter after a backslash stands for. -/
def control? : Char → Option Nat
  | 'a' => some 0x07
  | 'f' => some 0x0C
  | 'n' => some 0x0A
  | 'r' => some 0x0D
  | 't' => some 0x09
  | 'v' => some 0x0B
  | '\\' => some 0x5C
  | _ => none

/-- The category that a letter after a backslash stands for. -/
def category? : Char → Option ClassItem
  | 'd' => some (.category false .digit)
  | 'D' => some (.category true .digit)
  | 's' => some (.category false .space)
  | 'S' => some (.category true .space)
  | 'w' => some (.category false .word)
  | 'W' => some (.category true .word)
  | _ => none

/-- The anchor that a letter after a backslash stands for. -/
def anchor? : Char → Option Anchor
  | 'A' => some .textStart
  | 'Z' => some .textEnd
  | 'b' => some .wordEdge
  | 'B' => some .noWordEdge
  | _ => none

/-- What is there, or the text is malformed. -/
def orMalformed {α : Type} : Option α → Except Defect α
  | some a => .ok a
  | none => .error .malformed

/-- The text up to a closing character, which there has to be, and the rest. -/
def upTo? (close : Char) (cs : List Char) : Except Defect (List Char × List Char) :=
  match cs.dropWhile (· != close) with
  | [] => .error .malformed
  | _ :: rest => .ok (cs.takeWhile (· != close), rest)

/-- The code point of the character whose name stands in front of a closing brace. -/
def nameEscape? (names : Names) (cs : List Char) : Except Defect (Nat × List Char) := do
  let (name, rest) ← upTo? '}' cs
  if name.isEmpty then throw .malformed
  let c ← orMalformed (names (String.ofList name))
  return (c.toNat, rest)

/-- A code point given by two, four or eight hexadecimal digits or by a name,
    after the letter that says which. -/
def codeEscape? (names : Names) : Char → List Char → Option (Except Defect (Nat × List Char))
  | 'x', cs => some (orMalformed (hexNumber? 2 0 cs))
  | 'u', cs => some (orMalformed (hexNumber? 4 0 cs))
  | 'U', cs => some (orMalformed ((hexNumber? 8 0 cs).filter fun r => r.1 < 0x110000))
  | 'N', '{' :: cs => some (nameEscape? names cs)
  | _, _ => none

/-- A reference by number or an octal code, after its first digit. Three octal
    digits are a code; otherwise one or two digits are a reference. -/
def numbered? (first : Char) (cs : List Char) : Option (Lexeme × List Char) :=
  let d := first.toNat - 0x30
  match cs with
  | a :: b :: rest =>
    if a.isDigit then
      match octalValue? first, octalValue? a, octalValue? b with
      | some x, some y, some z =>
        let code := 64 * x + 8 * y + z
        if code < 0x100 then some (.atom (.char code), rest) else none
      | _, _, _ => some (.sameNumber (10 * d + (a.toNat - 0x30)), b :: rest)
    else some (.sameNumber d, cs)
  | [a] =>
    if a.isDigit then some (.sameNumber (10 * d + (a.toNat - 0x30)), [])
    else some (.sameNumber d, cs)
  | [] => some (.sameNumber d, [])

/-- What a backslash stands for outside of a class. A letter without a meaning
    is refused; any other character stands for itself. -/
def escape? (names : Names) : List Char → Except Defect (Lexeme × List Char)
  | [] => .error .malformed
  | c :: rest =>
    match anchor? c, category? c, control? c, codeEscape? names c rest with
    | some a, _, _, _ => .ok (.anchor a, rest)
    | _, some i, _, _ => .ok (.atom (.oneOf false [i]), rest)
    | _, _, some n, _ => .ok (.atom (.char n), rest)
    | _, _, _, some r => r.map fun (n, rest) => (.atom (.char n), rest)
    | none, none, none, none =>
      if c = '0' then
        let (n, rest) := octalNumber 2 0 rest
        .ok (.atom (.char n), rest)
      else if c.isDigit then orMalformed (numbered? c rest)
      else if c.isAlpha then .error .malformed
      else .ok (.atom (.char c.toNat), rest)

/-- What a backslash stands for inside a class. -/
def classEscape? (names : Names) : List Char → Except Defect (ClassItem × List Char)
  | [] => .error .malformed
  | c :: rest =>
    match category? c, control? c, codeEscape? names c rest with
    | some i, _, _ => .ok (i, rest)
    | _, some n, _ => .ok (.char n, rest)
    | _, _, some r => r.map fun (n, rest) => (.char n, rest)
    | none, none, none =>
      if c = 'b' then .ok (.char 0x08, rest)
      else if (octalValue? c).isSome then
        let (n, rest) := octalNumber 3 0 (c :: rest)
        if n < 0x100 then .ok (.char n, rest) else .error .malformed
      else if c.isAlphanum then .error .malformed
      else .ok (.char c.toNat, rest)

/-- One member of a class, which may become an end of a range. -/
def classMember? (names : Names) : List Char → Except Defect (ClassItem × List Char)
  | [] => .error .malformed
  | '\\' :: rest => classEscape? names rest
  | c :: rest => .ok (.char c.toNat, rest)

/-- The range from one member to another. Both must be single characters, in order. -/
def rangeOf? : ClassItem → ClassItem → Except Defect ClassItem
  | .char a, .char b => if a ≤ b then .ok (.range a b) else .error .malformed
  | _, _ => .error .malformed

/-- The members of a class up to its closing bracket, which is ordinary in
    first place. A hyphen before the closing bracket is ordinary as well. -/
def classItems? (names : Names) :
    Nat → Bool → List Char → Except Defect (List ClassItem × List Char)
  | 0, _, _ => .error .malformed
  | fuel + 1, first, cs =>
    if cs.head? = some ']' ∧ first = false then .ok ([], cs.tail)
    else
      match classMember? names cs with
      | .error d => .error d
      | .ok (low, '-' :: ']' :: rest) => .ok ([low, .char 0x2D], rest)
      | .ok (low, '-' :: rest) => do
        let (high, rest) ← classMember? names rest
        let item ← rangeOf? low high
        let (items, rest) ← classItems? names fuel false rest
        return (item :: items, rest)
      | .ok (item, rest) => do
        let (items, rest) ← classItems? names fuel false rest
        return (item :: items, rest)

/-- The class with the given members, none of them twice. A class of one
    character is that character. -/
def classOf (negated : Bool) (items : List ClassItem) : Expr :=
  match items.eraseDups, negated with
  | [.char n], false => .char n
  | [.char n], true => .otherThan n
  | items, _ => .oneOf negated items

/-- A class, after its opening bracket. -/
def class? (names : Names) (cs : List Char) : Except Defect (Lexeme × List Char) :=
  let negated := cs.head? == some '^'
  let cs := if negated then cs.tail else cs
  (classItems? names (cs.length + 1) true cs).map fun (items, rest) =>
    (.atom (classOf negated items), rest)

/-- The least number of repetitions that is too large to be counted. -/
def countLimit : Nat := 4294967295

/-- The number that a run of ASCII digits denotes, if it can be counted. -/
def count? (cs : List Char) : Except Defect Nat :=
  let n := cs.foldl (fun n c => 10 * n + (c.toNat - 0x30)) 0
  if Number.digitLimit < cs.length then .error (.countTooLong cs.length)
  else if countLimit ≤ n then .error .countTooLarge
  else .ok n

/-- A repetition with the greed that the mark behind it asks for. -/
def greedy (least : Nat) (most : Option Nat) : List Char → Lexeme × List Char
  | '?' :: rest => (.loop least most .lazy, rest)
  | '+' :: rest => (.loop least most .possessive, rest)
  | cs => (.loop least most .greedy, cs)

/-- The digits of the two bounds of a counted repetition, after its opening
    brace, if the text has the form of one, and the rest. -/
def bounds? (cs : List Char) : Option (List Char × List Char × List Char) :=
  let low := cs.takeWhile Char.isDigit
  match cs.dropWhile Char.isDigit with
  | '}' :: rest => if low.isEmpty then none else some (low, low, rest)
  | ',' :: rest =>
    let high := rest.takeWhile Char.isDigit
    match rest.dropWhile Char.isDigit with
    | '}' :: rest => some (low, high, rest)
    | _ => none
  | _ => none

/-- The bounds that the digits denote: no lower one is zero, and no upper one
    leaves the repetition open. They have to be in order. -/
def range? (low high : List Char) : Except Defect (Nat × Option Nat) := do
  let least ← if low.isEmpty then pure 0 else count? low
  if high.isEmpty then return (least, none)
  let most ← count? high
  if least ≤ most then return (least, some most) else throw .malformed

/-- What an opening brace starts: a counted repetition, or itself. Where
    nothing but a backslash follows, that is the defect to report. -/
def counted? (cs : List Char) : Except Defect (Lexeme × List Char) :=
  match bounds? cs with
  | none => .ok (.atom (.char '{'.toNat), cs)
  | some (low, high, rest) =>
    match range? low high with
    | .ok (least, most) => .ok (greedy least most rest)
    -- A lone backslash comes before the count: a reader looks at what follows a
    -- repetition, for its greed, before it takes the repetition in.
    | .error d => .error (if rest = ['\\'] then .malformed else d)

/-- The group name up to a closing character, and the rest. -/
def groupName? (close : Char) (cs : List Char) : Except Defect (String × List Char) := do
  let (name, rest) ← upTo? close cs
  if Text.isIdentifier name then return (String.ofList name, rest) else throw .malformed

/-- The number from which on groups cannot be counted. -/
def groupLimit : Nat := 1073741823

/-- The condition of two alternatives, up to its closing parenthesis: the name
    of a group, or its number, which is written as any whole number may be. -/
def condition? (cs : List Char) : Except Defect (Lexeme × List Char) := do
  let (name, rest) ← upTo? ')' cs
  if Text.isIdentifier name then return (.opening (.ifName (String.ofList name)), rest)
  match Number.wholeNumber? name with
  | some n =>
    if 0 < n ∧ n < groupLimit then return (.opening (.ifNumber n.toNat), rest)
    else throw .malformed
  | none => throw .malformed

/-- The rest after a comment, whose closing parenthesis may not be escaped. -/
def afterComment? : List Char → Except Defect (List Char)
  | [] => .error .malformed
  | ')' :: rest => .ok rest
  | '\\' :: _ :: rest => afterComment? rest
  | _ :: rest => afterComment? rest

/-- The letter stands for a switch. -/
def isSwitch (c : Char) : Bool :=
  "aimsxtu".contains c

/-- The letter may be turned on or off for a part of the expression, but not both. -/
def mayChange (on off : List Char) : Bool :=
  !on.contains 't' && off.all fun c => !(['a', 'u', 't'].contains c) && !on.contains c

/-- The switches behind an opening parenthesis and a question mark, up to a closing
    parenthesis, if they are meant for the whole expression, or up to a colon. Only
    one of ASCII and Unicode may be turned on, and neither of them off. -/
def switches? (cs : List Char) : Except Defect (Lexeme × List Char) :=
  let on := cs.takeWhile isSwitch
  if on.contains 'a' && on.contains 'u' then .error .malformed
  else
    let turned (off : List Char) : Switches :=
      ⟨.ofLetters (String.ofList on), on.contains 'u', .ofLetters (String.ofList off)⟩
    match cs.dropWhile isSwitch with
    | ')' :: rest => if on.isEmpty then .error .malformed else .ok (.modes (turned []), rest)
    | ':' :: rest =>
      if mayChange on [] then .ok (.opening (.scoped (turned [])), rest) else .error .malformed
    | '-' :: rest =>
      let off := rest.takeWhile isSwitch
      match rest.dropWhile isSwitch with
      | ':' :: rest =>
        if !off.isEmpty && mayChange on off then .ok (.opening (.scoped (turned off)), rest)
        else .error .malformed
      | _ => .error .malformed
    | _ => .error .malformed

/-- What an opening parenthesis starts. -/
def opening? : List Char → Except Defect (Lexeme × List Char)
  | '?' :: 'P' :: '<' :: rest =>
    (groupName? '>' rest).map fun (name, rest) => (.opening (.capture (some name)), rest)
  | '?' :: 'P' :: '=' :: rest =>
    (groupName? ')' rest).map fun (name, rest) => (.sameName name, rest)
  | '?' :: ':' :: rest => .ok (.opening .plain, rest)
  | '?' :: '=' :: rest => .ok (.opening (.look false), rest)
  | '?' :: '!' :: rest => .ok (.opening (.look true), rest)
  | '?' :: '<' :: '=' :: rest => .ok (.opening (.behind false), rest)
  | '?' :: '<' :: '!' :: rest => .ok (.opening (.behind true), rest)
  | '?' :: '>' :: rest => .ok (.opening .atomic, rest)
  | '?' :: '(' :: rest => condition? rest
  | '?' :: '#' :: rest => (afterComment? rest).map fun rest => (.comment, rest)
  | '?' :: rest => switches? rest
  | cs => .ok (.opening (.capture none), cs)

/-- The rest after a comment that ends with its line. A line break behind a
    backslash does not end it. -/
def afterLine? : List Char → Except Defect (List Char)
  | [] => .ok []
  | '\n' :: rest => .ok rest
  | ['\\'] => .error .malformed
  | '\\' :: _ :: rest => afterLine? rest
  | _ :: rest => afterLine? rest

/-- The lexeme that a character starts, and the rest behind it. Where blanks
    do not count, they and comments are no pieces. -/
def lexeme? (names : Names) (verbose : Bool) (c : Char) (cs : List Char) :
    Except Defect (Lexeme × List Char) :=
  if verbose && " \t\n\r\x0b\x0c".contains c then .ok (.comment, cs)
  else if verbose && c == '#' then (afterLine? cs).map fun rest => (.comment, rest)
  else
    match c with
    | '\\' => escape? names cs
    | '[' => class? names cs
    | '(' => opening? cs
    | ')' => .ok (.closing, cs)
    | '|' => .ok (.bar, cs)
    | '.' => .ok (.atom .any, cs)
    | '^' => .ok (.anchor .lineStart, cs)
    | '$' => .ok (.anchor .lineEnd, cs)
    | '*' => .ok (greedy 0 none cs)
    | '+' => .ok (greedy 1 none cs)
    | '?' => .ok (greedy 0 (some 1) cs)
    | '{' => counted? cs
    | c => .ok (.atom (.char c.toNat), cs)

/-- Whether blanks count behind a lexeme, for the group it is in and those around
    it. A group that is opened takes this over unless it has switches of its own. -/
def Lexeme.verbosity (l : Lexeme) (verbose : List Bool) : List Bool :=
  let top := verbose.headD false
  match l with
  | .opening (.scoped change) =>
    ((top || change.on.verbose) && !change.off.verbose) :: verbose
  | .opening _ => top :: verbose
  | .closing => verbose.tail
  | .modes change => (top || change.on.verbose) :: verbose.tail
  | _ => verbose

/-- The lexemes of a text, with what is known of the groups around it. Every
    lexeme takes at least one character, so the length of the text is fuel enough. -/
def lexemesFrom (names : Names) : Nat → List Bool → List Char → List Lexeme
  | _, _, [] => []
  | 0, _, _ :: _ => [.broken .malformed]
  | fuel + 1, verbose, c :: cs =>
    match lexeme? names (verbose.headD false) c cs with
    | .error d => [.broken d]
    | .ok (l, rest) => l :: lexemesFrom names fuel (l.verbosity verbose) rest

/-- The lexemes of a text under the given switches. -/
def lexemes (names : Names) (modes : Modes) (cs : List Char) : List Lexeme :=
  lexemesFrom names cs.length [modes.verbose] cs

end Regex

end PathRouting
