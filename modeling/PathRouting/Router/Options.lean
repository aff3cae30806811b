import PathRouting.Fault
import PathRouting.Text.Blank
import PathRouting.Value.Display
import PathRouting.Value.Form

/-!
# Router Options

What a router is set up with: the delimiters at which patterns and paths are
cut, and the request attributes that routes may impose conditions on. Both are
fixed once a router exists, since every route depends on them.

A delimiter is a single character that neither the pattern syntax uses nor
counts as blank. The attributes are matched in the order they are given.

## Main definitions

* `defaultDelimiters`, `defaultMethods`: The options when none are given.
* `Options`, `Options.make?`: The options, and whether values make good ones.
-/

namespace PathRouting

/-- The delimiters when none are given. -/
def defaultDelimiters : List String := ["/", "."]

/-- The request attributes when none are given. -/
def defaultMethods : List String :=
  ["protocol", "domain", "port", "query_string", "remote_ip", "user_agent", "referer",
    "method", "subdomains"]

/-- The characters that the pattern syntax uses. -/
def isReserved (c : Char) : Bool :=
  ['(', ')', '\x7b', '\x7d', '|', ':', '*', '!'].contains c

/-- What a router is set up with. -/
structure Options where
  delimiters : List String
  /-- The request attributes. Only a text can be the name of one. -/
  methods : List Value

/-- The delimiter that a value is. A value that is none is shown in the fault. -/
def delimiter? (v : Value) : Except Fault String :=
  match v with
  | .text s =>
    match s.toList with
    | [c] =>
      if isReserved c || Text.isBlank c then .error (.option (.reservedCharacter s)) else .ok s
    | _ => .error (.option (.notACharacter (Text.quoted s)))
  | v => do throw (.option (.notACharacter (← v.written)))

/-- No two of the elements are equal. -/
def allDistinct {β : Type} [BEq β] : List β → Bool
  | [] => true
  | b :: rest => !rest.contains b && allDistinct rest

/-- The elements of an option, or the ones that are meant when none are given. -/
def optionElements (given : Value) (otherwise : List String) : Except Fault (List Value) :=
  if given.isNone then .ok (otherwise.map .text)
  else
    match given.elements? with
    | some vs => .ok vs
    | none => .error (.type .notIterable)

/-- The delimiters that values are. -/
def delimiters? (vs : List Value) : Except Fault (List String) := do
  if vs.isEmpty then throw (.option .noDelimiters)
  let ds ← vs.mapM delimiter?
  if allDistinct ds then return ds else throw (.option .duplicateDelimiters)

/-- The request attributes that values are. -/
def methods? (vs : List Value) : Except Fault (List Value) :=
  if !areKeys vs then .error (.type .notAKey)
  else if allDistinct (vs.map Value.form) then .ok vs
  else .error (.option .duplicateMethods)

/-- The options that values make. -/
def Options.make? (delimiters methods : Value) : Except Fault Options := do
  let ds ← delimiters? (← optionElements delimiters defaultDelimiters)
  let ms ← methods? (← optionElements methods defaultMethods)
  return ⟨ds, ms⟩

end PathRouting
