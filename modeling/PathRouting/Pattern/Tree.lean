import PathRouting.Pattern.Lexeme
import PathRouting.Segment

/-!
# Pattern Trees

A pattern as a tree: a sequence of parts, each of them a segment, an optional
sequence, or a choice among sequences. Parentheses with bars inside make a
choice, those without make an option.

The reader keeps the open parentheses on a stack and takes one lexeme at a
time, so it is structural recursion over the lexemes; where several things are
wrong with a pattern, the first one from the left is reported.

## Main definitions

* `Part`: The parts of a pattern.
* `isName`: The text is the name of a variable.
* `readText`, `readBrace`: The variable or literal that a lexeme spells.
* `Reading`, `Reading.step`: The state of the reader, and one step of it.
* `parse`: The tree of a pattern.
-/

namespace PathRouting

namespace Pattern

/-- The parts of a pattern. -/
inductive Part where
  | leaf (s : Segment)
  /-- All of the parts, or nothing. -/
  | optional (parts : List Part)
  /-- Exactly one of the sequences. -/
  | choice (branches : List (List Part))

/-- The character may start a name. -/
def startsName (c : Char) : Bool :=
  c.isAlpha || c == '_'

/-- The character may stand in a name. -/
def continuesName (c : Char) : Bool :=
  c.isAlphanum || c == '_'

/-- The text is a name: a letter or underscore, then letters, digits and
    underscores. A single line break at the very end is overlooked. -/
def isName : List Char → Bool
  | [] => false
  | c :: rest =>
    let tail := rest.dropWhile continuesName
    startsName c && (tail.isEmpty || tail == ['\n'])

/-- The name of a variable. -/
def readName (cs : List Char) : Except PatternFault String :=
  if isName cs then .ok (String.ofList cs) else .error (.malformedName (String.ofList cs))

/-- The regular expression inside a brace. -/
def readRegex [Host] (cs : List Char) : Except PatternFault Validator :=
  match Regex.compile? Host.character (String.ofList cs) .plain with
  | .ok r => .ok (.regex r)
  | .error .malformed => .error (.malformedRegex (String.ofList cs))
  | .error d => .error (.expression d)

/-- What a run of text spells: a variable if it starts with a colon or an
    asterisk, and itself otherwise. -/
def readText : List Char → Except PatternFault Segment
  | ':' :: name => do return .var (.single (← readName name) none)
  | '*' :: name => do return .var (.several (← readName name) none false none)
  | run => .ok (.literal (String.ofList run))

/-- The name and the expression inside a brace, cut at the first comma; no
    expression if there is no comma. -/
def splitBody (cs : List Char) : List Char × Option (List Char) :=
  (cs.takeWhile (· != ','), (cs.dropWhile (· != ',')).tail?)

/-- The validator inside a brace. It may be left out, but not be empty. -/
def readValidator [Host] (body : List Char) (regex : Option (List Char)) :
    Except PatternFault (Option Validator) :=
  match regex with
  | none => .ok none
  | some [] => .error (.missingRegex (String.ofList body))
  | some source => do return some (← readRegex source)

/-- The variable that a brace body spells. -/
def readBrace [Host] (body : List Char) : Except PatternFault Segment :=
  match body with
  | '!' :: inner => do
    let (name, regex) := splitBody inner
    let source := regex.getD []
    if source.isEmpty then throw (.greedyWithoutRegex (String.ofList body))
    let validator ← readRegex source
    return .var (.several (← readName name) (some validator) true none)
  | ':' :: inner => do
    let (name, regex) := splitBody inner
    let validator ← readValidator body regex
    return .var (.single (← readName name) validator)
  | '*' :: inner => do
    let (name, regex) := splitBody inner
    let validator ← readValidator body regex
    return .var (.several (← readName name) validator false none)
  | _ => .error (.notAVariable (String.ofList body))

/-- A sequence that is still open: the branches before it and its parts, both
    with the latest first. -/
structure Level where
  branches : List (List Part)
  parts : List Part

/-- The state of the reader: the innermost sequence, and those around it from
    the inside out. -/
structure Reading where
  top : Level
  outer : List Level

/-- The reader before the first lexeme. -/
def Reading.start : Reading := ⟨⟨[], []⟩, []⟩

/-- The part that a closed pair of parentheses is. -/
def Level.close (l : Level) : Part :=
  match l.branches with
  | [] => .optional l.parts.reverse
  | _ => .choice (l.parts.reverse :: l.branches).reverse

/-- The reader with one more part in the innermost sequence. -/
def Reading.push (r : Reading) (p : Part) : Reading :=
  { r with top := { r.top with parts := p :: r.top.parts } }

/-- The reader after one lexeme. It never looks ahead: whether parentheses are an
    option or a choice is settled when they are closed, by whether there was a bar. -/
def Reading.step [Host] (r : Reading) : Lexeme → Except PatternFault Reading
  | .mark c => .ok (r.push (.leaf (.separator (String.singleton c))))
  | .text run => do return r.push (.leaf (← readText run))
  | .brace body => do return r.push (.leaf (← readBrace body))
  | .opening => .ok ⟨⟨[], []⟩, r.top :: r.outer⟩
  | .bar =>
    if r.outer.isEmpty then .error .bareAlternatives
    else .ok { r with top := ⟨r.top.parts.reverse :: r.top.branches, []⟩ }
  | .closing =>
    match r.outer with
    | [] => .error .strayParenthesis
    | level :: outer => .ok (({ top := level, outer } : Reading).push r.top.close)

/-- The parts of the whole pattern, once all lexemes are read. A sequence that
    is still open by then lacks its closing parenthesis. -/
def Reading.finish (r : Reading) : Except PatternFault (List Part) :=
  if r.outer.isEmpty then .ok r.top.parts.reverse else .error .openParenthesis

/-- The reader after some lexemes. -/
def Reading.run [Host] (r : Reading) : List Lexeme → Except PatternFault Reading
  | [] => .ok r
  | l :: rest => do (← r.step l).run rest

/-- The parts of a pattern. The pattern is cut into lexemes first, so what is
    wrong with its braces is reported before anything else. -/
def parts [Host] (delimiters : List String) (pattern : String) :
    Except PatternFault (List Part) := do
  (← Reading.start.run (← lexemes delimiters pattern)).finish

/-- The tree of a pattern. -/
def parse [Host] (delimiters : List String) (pattern : String) : Except Fault (List Part) :=
  match parts delimiters pattern with
  | .ok ps => .ok ps
  | .error e => .error (.ofPattern pattern e)

mutual

/-- The written form of a part. -/
def Part.written : Part → Except Fault String
  | .leaf s => s.written
  | .optional parts => do
    return "Group('optional', [" ++ commaSeparated (← writtenParts parts) ++ "])"
  | .choice branches => do
    return "Group('one_of', [" ++ commaSeparated (← writtenBranches branches) ++ "])"

/-- The written forms of some parts. -/
def writtenParts : List Part → Except Fault (List String)
  | [] => .ok []
  | p :: rest => do return (← p.written) :: (← writtenParts rest)

/-- The written forms of some sequences. -/
def writtenBranches : List (List Part) → Except Fault (List String)
  | [] => .ok []
  | b :: rest => do
    return ("Group('all', [" ++ commaSeparated (← writtenParts b) ++ "])") ::
      (← writtenBranches rest)

end

/-- The written form of a pattern tree. -/
def written (parts : List Part) : Except Fault String := do
  return "Group('all', [" ++ commaSeparated (← writtenParts parts) ++ "])"

mutual

/-- The parts are equal. -/
def Part.equal : Part → Part → Bool
  | .leaf s, .leaf t => s.equal t
  | .optional ps, .optional qs => equalParts ps qs
  | .choice bs, .choice cs => equalBranches bs cs
  | _, _ => false

/-- The sequences are equal, part by part. -/
def equalParts : List Part → List Part → Bool
  | [], [] => true
  | p :: ps, q :: qs => p.equal q && equalParts ps qs
  | _, _ => false

/-- The choices are equal, sequence by sequence. -/
def equalBranches : List (List Part) → List (List Part) → Bool
  | [], [] => true
  | b :: bs, c :: cs => equalParts b c && equalBranches bs cs
  | _, _ => false

end

end Pattern

end PathRouting
