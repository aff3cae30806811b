import PathRouting.Router.State
import PathRouting.Trie.Search

/-!
# Recognition

Finding the route for a request. The path of the request is cut into tokens, and
the attributes that routes may impose conditions on are put in front of them in
the order of the options. An attribute the request lacks is absent, which only a
route without a condition on it accepts. Where there is no request at all, every
attribute is absent but for those that come with the nature of things.

## Main definitions

* `Match`: The path that matched, and what its variables are bound to.
* `attributeOf`: An attribute of a request.
* `attributeTokens`: The attributes of a request as tokens.
* `Router.matchTokens`: The match for some tokens.
* `Router.recognize`: The match for a request.
* `Router.params`: The bindings of a match over the defaults of its route.
-/

namespace PathRouting

/-- The path that matched, and what its variables are bound to. -/
structure Match where
  path : PathId
  bindings : Bindings

/-- An attribute of a request. -/
def attributeOf [Host] (request : Option Fields) (name : String) : Value :=
  match request with
  | some fields => (fields.lookup name).getD .none
  | none => Host.inherent name

/-- The attributes of a request as tokens. A list is fixed as a tuple, as it is
    in the conditions of a route. Only a text can be the name of an attribute. -/
def attributeTokens [Host] (kinds : List Value) (request : Option Fields) :
    Except Fault (List Token) :=
  kinds.mapM fun
    | .text name =>
      .ok (.attribute ⟨.text name, match attributeOf request name with
        | .list items => .tuple items
        | v => v⟩)
    | _ => .error (.type .notText)

/-- The tokens start with an attribute, and so bring their own. -/
def bringAttributes : List Token → Bool
  | .attribute _ :: _ => true
  | _ => false

/-- The written form of something bound. -/
def Bound.written (b : Bound) : Except Fault String :=
  b.value.written

/-- The written form of bindings. -/
def writtenBindings (bindings : Bindings) : Except Fault String := do
  let pairs ← bindings.mapM fun b => do
    return "(" ++ Text.quoted b.1 ++ ", " ++ (← b.2.written) ++ ")"
  return "[" ++ commaSeparated pairs ++ "]"

namespace Router

variable [Host]

/-- The match for some tokens. The attributes of the request are put in front
    unless the tokens bring their own. -/
def matchTokens (r : Router) (tokens : List Token) (request : Option Fields) :
    Except Fault (Option Match) := do
  let attributes ←
    if bringAttributes tokens then pure [] else attributeTokens r.options.methods request
  let found ← r.table.trie.find r.options.delimiters (attributes ++ tokens)
  return found.map fun (path, bindings) => ⟨path, bindings⟩

/-- The match for a path text. -/
def matchPath (r : Router) (path : String) (request : Option Fields) :
    Except Fault (Option Match) :=
  r.matchTokens ((Tokens.tokens r.options.delimiters path).map .ofText) request

/-- The match for a request. Unless a path is given, it is the one of the
    request. A request that is not there has the attributes that everything has. -/
def recognize (r : Router) (request : Option Fields) (path : Option String) :
    Except Fault (Option Match) :=
  match path with
  | some path => r.matchPath path request
  | none =>
    match request.bind fun fields => fields.lookup "path" with
    | none => .error (.missingAttribute "path")
    | some (.text path) => r.matchPath path request
    | some _ => .error (.type .notText)

omit [Host]

/-- The bindings of a match, and the defaults of its route for all other names. -/
def params (r : Router) (m : Match) : Fields :=
  let defaults := (r.route? m.path.route).elim [] Route.defaults
  Fields.update defaults (m.bindings.map fun b => (b.1, b.2.value))

/-- The written form of a match. -/
def writtenMatch (r : Router) (m : Match) : Except Fault String := do
  let path := (r.route? m.path.route).bind fun x => x.paths[m.path.position]?
  return "<Match " ++ path.elim "" Path.written ++ " " ++ (← writtenBindings m.bindings) ++ ">"

end Router

end PathRouting
