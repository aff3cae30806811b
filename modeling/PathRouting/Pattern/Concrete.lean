import PathRouting.Pattern.Expansion

/-!
# Concrete Paths of a Pattern

From a pattern, requirements and defaults to the concrete paths of a route.
Every expansion of the pattern is merged, so that no two literals are adjacent,
and checked, so that every variable has a name of its own and spans the whole
stretch between two separators. Then each variable learns what follows it and
receives the requirement and the default that were given under its name.

Faults are found in a fixed order: unusable requirements first, then the
pattern, then the expansions one by one, and last the names that no expansion
declares.

## Main definitions

* `mergeLiterals`: Adjacent literals made one.
* `checkVariables`: The rules for the variables of one sequence.
* `lookahead`: What follows a variable.
* `attach`: The variables of a sequence with all that is laid on them.
* `compile`: The concrete paths of a pattern.
-/

namespace PathRouting

namespace Pattern

/-- The sequence with each run of literals made one literal. Options and choices
    may put two texts side by side, which a path text would not keep apart. -/
def mergeLiterals : List Segment → List Segment
  | [] => []
  | .literal a :: rest =>
    match mergeLiterals rest with
    | .literal b :: more => .literal (a ++ b) :: more
    | more => .literal a :: more
  | s :: rest => s :: mergeLiterals rest

/-- The neighbor is a separator, or there is none. -/
def checkNeighbor (v : Variable) : Option Segment → Except PatternFault Unit
  | none => .ok ()
  | some s => if s.isSeparator then .ok () else .error (.adjacent v.text s.text)

/-- The rules for the variables of a sequence: no name twice, and nothing but
    separators next to them. `used` holds the names so far and `previous` the
    segment before the sequence. -/
def checkVariables (used : List String) (previous : Option Segment) :
    List Segment → Except PatternFault Unit
  | [] => .ok ()
  | .var v :: rest => do
    if used.contains v.name then throw (.duplicateName v.name)
    checkNeighbor v previous
    checkNeighbor v rest.head?
    checkVariables (v.name :: used) (some (.var v)) rest
  | s :: rest => checkVariables used (some s) rest

/-- The first literal of a sequence. -/
def firstLiteral? (segments : List Segment) : Option String :=
  segments.findSome? fun
    | .literal text => some text
    | _ => none

/-- The first separator of a sequence. -/
def firstSeparator? (segments : List Segment) : Option String :=
  segments.findSome? fun
    | .separator mark => some mark
    | _ => none

/-- What follows a variable: the next literal for one that takes several tokens,
    and otherwise the next separator, or the first delimiter at the end. -/
def lookahead (delimiters : List String) (v : Variable) (following : List Segment) :
    Except Fault (Option String) :=
  if v.isGlob then .ok (firstLiteral? following)
  else
    match firstSeparator? following, delimiters with
    | some mark, _ => .ok (some mark)
    | none, d :: _ => .ok (some d)
    | none, [] => .error .noFirstDelimiter

/-- The variable with the requirement and the default under its name. -/
def layOn (validators : List (String × Validator)) (defaults : Fields)
    (v : Variable) : Variable :=
  let v := match validators.lookup v.name with
    | some w => v.withValidator (some w)
    | none => v
  match defaults.lookup v.name with
  | some d => v.withDefault d
  | none => v

/-- The sequence with everything laid on its variables. What follows a
    variable is looked up in the sequence as it was, so that the order makes
    no difference. -/
def attach (delimiters : List String) (validators : List (String × Validator))
    (defaults : Fields) : List Segment → Except Fault (List Segment)
  | [] => .ok []
  | .var v :: rest => do
    let ahead ← lookahead delimiters v rest
    let done := layOn validators defaults (v.withLookahead ahead)
    return .var done :: (← attach delimiters validators defaults rest)
  | s :: rest => do return s :: (← attach delimiters validators defaults rest)

/-- One expansion of a pattern as a concrete path. -/
def concrete (delimiters : List String) (validators : List (String × Validator))
    (defaults : Fields) (pattern : String) (segments : List Segment) :
    Except Fault (List Segment) :=
  let merged := mergeLiterals segments
  match checkVariables [] none merged with
  | .error e => .error (.pattern pattern e)
  | .ok () => attach delimiters validators defaults merged

/-- The names of the variables in a sequence, in order. -/
def variableNames (segments : List Segment) : List String :=
  segments.filterMap fun s => s.var?.map Variable.name

/-- The validators that requirements stand for, by name. -/
def validatorsOf : Fields → Except Fault (List (String × Validator))
  | [] => .ok []
  | (name, v) :: rest => do
    let w ← Validator.ofValue? v
    return (name, w) :: (← validatorsOf rest)

/-- Every one of the names is declared. This is asked last, when the variables
    of all paths are known. -/
def checkDeclared (pattern : String) (declared : List String) (attachment : Attachment)
    (names : List String) : Except Fault Unit :=
  match (names.filter (!declared.contains ·)).mergeSort with
  | [] => .ok ()
  | undeclared => .error (.config (.undeclared pattern undeclared attachment))

/-- The concrete paths of a pattern, with requirements and defaults. -/
def compile [Host] (delimiters : List String) (pattern : String) (requirements defaults : Fields) :
    Except Fault (List (List Segment)) := do
  let validators ← validatorsOf requirements
  let tree ← parse delimiters pattern
  let paths ← (expand tree).mapM (concrete delimiters validators defaults pattern)
  let declared := paths.flatMap variableNames
  checkDeclared pattern declared .requirement requirements.names
  checkDeclared pattern declared .default defaults.names
  return paths

end Pattern

end PathRouting
