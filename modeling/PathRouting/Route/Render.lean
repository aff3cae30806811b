import PathRouting.Route
import PathRouting.Text.Percent

/-!
# Rendering

A concrete path as text, with values in the place of its variables. A value is
judged as it was given and written percent-encoded, which leaves a delimiter in
it alone if that needs no encoding. Two kinds of variables differ: a glob takes
the elements of a value that is no text, judged one by one and joined by the
first delimiter, and a greedy variable keeps all the delimiters in its text.

A value that is no text has to be written as one, which fails for a number with
too many digits. Texts are sequences of characters; a lone half of a surrogate
pair, which cannot be encoded, is not one of them.

## Main definitions

* `valueFor`: The value of a variable: the parameter, or else the default.
* `validate`: Every text passes the validator of a variable.
* `renderVariable`: A variable as text.
* `Route.render`, `Route.renderFrom`: A path as text.
-/

namespace PathRouting

/-- The value of a variable. An absent parameter counts as not given. -/
def valueFor (pattern : String) (v : Variable) (params : Fields) : Except Fault Value :=
  let fallback :=
    if v.hasDefault then .ok v.default else .error (.generation (.missing v.name pattern))
  match params.lookup v.name with
  | some x => if x.isNone then fallback else .ok x
  | none => fallback

/-- Every text passes the validator of the variable. The first one that does
    not ends it, and is the one that is complained of. -/
def validate [Host] (pattern : String) (v : Variable) : List String → Except Fault Unit
  | [] => .ok ()
  | s :: rest => do
    if ← v.accepts (.text s) then validate pattern v rest
    else throw (.generation (.rejected s v.name pattern))

/-- A single text in the place of a variable. It is judged as it is given and
    encoded afterwards, so that what is found by it later may be another text
    than the one that was judged. -/
def renderText [Host] (pattern safe : String) (v : Variable) (s : String) :
    Except Fault String := do
  validate pattern v [s]
  return Text.percentEncode safe s

/-- The elements of a value in the place of a glob. -/
def renderElements [Host] (pattern delimiter : String) (v : Variable) (x : Value) :
    Except Fault String :=
  match x.elements? with
  | none => .error (.type .notIterable)
  | some elements => do
    let texts ← elements.mapM Value.plain
    validate pattern v texts
    return delimiter.intercalate (texts.map (Text.percentEncode ""))

/-- A value in the place of a variable. `safe` holds the delimiters that a
    greedy variable keeps. -/
def renderVariable [Host] (pattern delimiter safe : String) (v : Variable) (x : Value) :
    Except Fault String :=
  match x with
  | .text s => renderText pattern (if v.isGreedy then safe else "") v s
  | x =>
    if v.isGlob then renderElements pattern delimiter v x
    else do renderText pattern "" v (← x.plain)

/-- Some segments as text. -/
def renderParts [Host] (pattern delimiter safe : String) (params : Fields) :
    List Segment → Except Fault String
  | [] => .ok ""
  | .var v :: rest => do
    let s ← renderVariable pattern delimiter safe v (← valueFor pattern v params)
    return s ++ (← renderParts pattern delimiter safe params rest)
  | s :: rest => do
    return (← s.shown) ++ (← renderParts pattern delimiter safe params rest)

/-- A path of the route as text. Delimiters are taken from the route, of which a
    greedy variable keeps all and a glob writes the first between its elements. -/
def Route.render [Host] (r : Route) (p : Path) (params : Fields) : Except Fault String :=
  match r.delimiters with
  | [] => .error .noFirstDelimiter
  | delimiter :: _ =>
    renderParts r.pattern delimiter ("".intercalate r.delimiters) params p.parts

/-- The value mentions a name, though it has no value for it. -/
def Value.mentions (v : Value) (name : String) : Bool :=
  match v with
  | .text s => s.contains name
  | .list items | .tuple items => items.any (Value.equal (.text name))
  | v => v.truthy

/-- A path of the route as text, from a value in the place of parameters. Only
    a dictionary has values by name. Anything else serves as long as no
    variable is mentioned in it, and a variable that is ends the rendering. -/
def Route.renderFrom [Host] (r : Route) (p : Path) (params : Value) : Except Fault String :=
  match params with
  | .dict fields => r.render p fields
  | v => do
    let before := p.parts.takeWhile fun s => !s.var?.any fun x => v.mentions x.name
    let done ← r.render { p with parts := before } []
    if before.length = p.parts.length then return done else throw (.type .notFields)

end PathRouting
