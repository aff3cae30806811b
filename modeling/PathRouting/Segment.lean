import PathRouting.Validator

/-!
# Segments

A concrete path is a list of segments: conditions on the request first, then
the literals, separators and variables of the path proper. Segments do not
change once they are made; laying a requirement or a default on a variable
makes another variable.

Two variables may take the same place in the tree of routes when they bind the
same name in the same way. That is their `Position`: defaults and lookahead play
no part in it, since neither influences what the variable matches.

## Main definitions

* `Condition`: What a request attribute has to be.
* `Glob`, `Variable`: Variables, and what makes one take several tokens.
* `Segment`: The segments.
* `Position`: What two variables at one place have to agree on.
* `Variable.change?`: A variable with one of its properties changed.
* `Segment.form`: What makes two segments equal.
-/

namespace PathRouting

/-- What a request attribute has to be. In a route, the value is required, a
    validator or the wildcard; among tokens, it is the attribute of the request. -/
structure Condition where
  /-- The name of the attribute. A router may be set up with other values than
      texts, which no request has as a name. -/
  kind : Value
  value : Value

/-- What makes a variable take several tokens. A greedy one has an expression,
    and may have a separate requirement as its validator. -/
structure Glob where
  /-- The variable takes what its expression matches in the remaining path,
      across separators. -/
  greedy : Bool
  /-- The expression of a greedy variable. -/
  regex : Option Validator
  /-- The validator was laid on from outside, so that a greedy match has to
      pass it as well; otherwise it is the expression itself. -/
  separate : Bool

/-- A segment that binds path tokens to a name. -/
structure Variable where
  name : String
  /-- What each candidate has to pass before it is bound. -/
  validator : Option Validator
  /-- The value for generation when none is given; only the absent value means
      that there is none. -/
  default : Value
  /-- The delimiter or literal behind the variable. Matching does not use it. -/
  lookahead : Option String
  /-- Absent for a variable that takes one token. -/
  glob : Option Glob

/-- The segments of a concrete path. -/
inductive Segment where
  /-- One token equal to the text. -/
  | literal (text : String)
  /-- One delimiter token. -/
  | separator (mark : String)
  | condition (c : Condition)
  | var (v : Variable)

namespace Condition

/-- The condition is satisfied by every value. -/
def isWildcard (c : Condition) : Bool :=
  match c.value with
  | .wildcard => true
  | _ => false

/-- The condition judges the attribute instead of comparing it. -/
def isPattern (c : Condition) : Bool :=
  match c.value with
  | .validator _ => true
  | _ => false

/-- The written form. -/
def written (c : Condition) : Except Fault String := do
  return "Condition(" ++ (← c.kind.written) ++ ", " ++ (← c.value.written) ++ ")"

end Condition

/-- What two variables at one place have to agree on. Defaults and what
    follows a variable are left out: they make no difference to a search. -/
structure Position where
  name : String
  validator : Option Form
  /-- Greed and expression of a variable that takes several tokens. -/
  glob : Option (Bool × Option Form)
  deriving DecidableEq, Repr

namespace Variable

/-- A variable for one token. -/
def single (name : String) (validator : Option Validator) : Variable :=
  ⟨name, validator, .none, none, none⟩

/-- A greedy variable without an expression of its own uses its validator. -/
def completed (v : Variable) : Variable :=
  match v.glob with
  | some ⟨true, none, _⟩ => { v with glob := some ⟨true, v.validator, false⟩ }
  | _ => v

/-- A variable for several tokens. -/
def several (name : String) (validator : Option Validator) (greedy : Bool)
    (regex : Option Validator) : Variable :=
  ({ name, validator, default := .none, lookahead := none,
     glob := some ⟨greedy, regex, true⟩ } : Variable).completed

/-- The variable takes several tokens. -/
def isGlob (v : Variable) : Bool :=
  v.glob.isSome

/-- The variable takes what its expression matches. -/
def isGreedy (v : Variable) : Bool :=
  v.glob.any Glob.greedy

/-- There is a value for generation. -/
def hasDefault (v : Variable) : Bool :=
  !v.default.isNone

/-- The token passes the validator, if there is one. -/
def accepts [Host] (v : Variable) (token : Value) : Except Fault Bool :=
  match v.validator with
  | some w => w.accepts token
  | none => .ok true

/-- What the variable has to agree on with another one at its place. -/
def position (v : Variable) : Position :=
  ⟨v.name, v.validator.map Validator.form,
    v.glob.map fun g => (g.greedy, g.regex.map Validator.form)⟩

/-- The variables may take the same place. A not-a-number that is required
    counts as itself here, as it does where one validator is compared with
    itself. Two validators that were made apart are compared by `==` instead,
    to which a not-a-number is equal to nothing: variables that each require
    one by a validator of its own are taken for the same here although they
    would be refused as ambiguous. -/
def sharesPosition (v w : Variable) : Bool :=
  v.position == w.position

/-- The variable with a lookahead. -/
def withLookahead (v : Variable) (lookahead : Option String) : Variable :=
  { v with lookahead := lookahead }

/-- The variable with a requirement laid on. -/
def withValidator (v : Variable) (w : Option Validator) : Variable :=
  { v with validator := w, glob := v.glob.map fun g => { g with separate := true } }

/-- The variable with a value for generation. -/
def withDefault (v : Variable) (default : Value) : Variable :=
  { v with default := default }

/-- The text in a pattern. -/
def text (v : Variable) : String :=
  (match v.glob with
    | none => ":"
    | some g => if g.greedy then "!" else "*") ++ v.name

/-- The kind of variable, as messages name it. -/
def kind (v : Variable) : String :=
  if v.isGlob then "GlobVariable" else "SingleVariable"

/-- The written form. -/
def written (v : Variable) : String :=
  v.kind ++ "(" ++ Text.quoted v.name ++ ")"

/-- One property of a variable with its new value. -/
inductive Change where
  | name (s : String)
  | validator (w : Option Validator)
  | default (d : Value)
  | lookahead (s : Option String)
  | greedy (b : Bool)
  | regex (w : Option Validator)
  | other (field : String)

/-- The variable with one property changed. Only a variable for several tokens
    has an expression and may be greedy. -/
def change? (v : Variable) : Change → Except Fault Variable
  | .name s => .ok { v with name := s }
  | .validator w => .ok (v.withValidator w)
  | .default d => .ok (v.withDefault d)
  | .lookahead s => .ok (v.withLookahead s)
  | .greedy b =>
    match v.glob with
    | some g => .ok { v with glob := some { g with greedy := b } }
    | none => .error (.type (.unknownField "greedy"))
  | .regex w =>
    match v.glob with
    | some g => .ok { v with glob := some { g with regex := w, separate := true } }
    | none => .error (.type (.unknownField "regex"))
  | .other field => .error (.type (.unknownField field))

/-- The variable with several properties changed at once. -/
def changes? (v : Variable) (cs : List Change) : Except Fault Variable := do
  return (← cs.foldlM change? v).completed

theorem sharesPosition_iff {v w : Variable} :
    v.sharesPosition w = true ↔ v.position = w.position := by
  simp [sharesPosition]

end Variable

/-- What makes two segments equal. -/
inductive SegmentForm where
  | literal (text : String)
  | separator (mark : String)
  | condition (kind value : Form)
  | var (position : Position) (default : Form) (lookahead : Option String)
  deriving DecidableEq, Repr

namespace Segment

/-- The variable that a segment is. -/
def var? : Segment → Option Variable
  | .var v => some v
  | _ => none

/-- The segment is a variable. -/
def isVariable (s : Segment) : Bool :=
  s.var?.isSome

/-- The segment is a separator. -/
def isSeparator : Segment → Bool
  | .separator _ => true
  | _ => false

/-- The segment as a text: its text in a pattern, or the written form of a
    condition, which is not part of a pattern. -/
def shown : Segment → Except Fault String
  | .literal text => .ok text
  | .separator mark => .ok mark
  | .condition c => c.written
  | .var v => .ok v.text

/-- The text in a pattern. A condition that cannot be written has none. -/
def text (s : Segment) : String :=
  s.shown.toOption.getD ""

@[simp] theorem text_literal (text : String) : (literal text).text = text :=
  rfl

@[simp] theorem text_separator (mark : String) : (separator mark).text = mark :=
  rfl

@[simp] theorem text_var (v : Variable) : (var v).text = v.text :=
  rfl

/-- The kind of segment, as messages name it. -/
def kind : Segment → String
  | .literal _ => "Literal"
  | .separator _ => "Separator"
  | .condition _ => "Condition"
  | .var v => v.kind

/-- The written form. -/
def written : Segment → Except Fault String
  | .literal text => .ok ("Literal(" ++ Text.quoted text ++ ")")
  | .separator mark => .ok ("Separator(" ++ Text.quoted mark ++ ")")
  | .condition c => c.written
  | .var v => .ok v.written

/-- What makes the segment equal to another. -/
def form : Segment → SegmentForm
  | .literal text => .literal text
  | .separator mark => .separator mark
  | .condition c => .condition c.kind.form c.value.form
  | .var v => .var v.position v.default.form v.lookahead

/-- The segments are equal. -/
def equal (a b : Segment) : Bool :=
  a.form == b.form

/-- Everything the segment holds may be a key, so that segments can be told
    apart in a set. -/
def isKey : Segment → Bool
  | .literal _ | .separator _ => true
  | .condition c => c.kind.isKey && c.value.isKey
  | .var v =>
    v.validator.all Validator.isKey && v.default.isKey &&
      v.glob.all fun g => g.regex.all Validator.isKey

end Segment

/-- The text of some segments. -/
def patternText (segments : List Segment) : String :=
  "".intercalate (segments.map Segment.text)

theorem patternText_cons (s : Segment) (rest : List Segment) :
    patternText (s :: rest) = s.text ++ patternText rest := by
  rw [patternText, patternText, List.map_cons]
  cases rest with
  | nil => rw [List.map_nil, String.intercalate_singleton, String.intercalate_nil,
      String.append_empty]
  | cons u more => rw [List.map_cons, String.intercalate_cons_cons, String.append_empty]

end PathRouting
