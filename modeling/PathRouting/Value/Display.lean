import PathRouting.Fault
import PathRouting.Number.Shortest
import PathRouting.Value

/-!
# Values in Messages

The written form of a value, which messages and reports show, and its plain
text, which is what a URL is rendered from. The two agree but for texts, which
are quoted in the written form only.

Not every value can be written. A number with more than `Number.digitLimit`
digits takes too long to be turned into a text and is refused, so that a value
with such a number anywhere in it has no written form and no plain text either.

## Main definitions

* `Value.written`: The written form.
* `Value.plain`: The plain text.

## Theorems

* `mapM_plain_text`: Texts are written as they are.
* `Value.written_eq_error`, `Value.plain_eq_error`: Only a number stands in
  the way.
-/

namespace PathRouting

/-- The names of the switches that are on, as messages show them. -/
def Regex.Modes.written (m : Regex.Modes) : List String :=
  (if m.template then ["re.TEMPLATE"] else []) ++
    (if m.ignoreCase then ["re.IGNORECASE"] else []) ++
    (if m.multiLine then ["re.MULTILINE"] else []) ++
    (if m.dotAll then ["re.DOTALL"] else []) ++
    (if m.verbose then ["re.VERBOSE"] else []) ++
    (if m.ascii then ["re.ASCII"] else [])

/-- The written form of a compiled expression; a very long source is cut off. -/
def Regex.written (r : Regex) : String :=
  let source := String.ofList ((Text.quoted r.source).toList.take 200)
  match r.modes.written with
  | [] => "re.compile(" ++ source ++ ")"
  | names => "re.compile(" ++ source ++ ", " ++ "|".intercalate names ++ ")"

/-- An integer in decimal digits, unless there are too many. -/
def writtenInt (n : Int) : Except Fault String :=
  if (toString n.natAbs).length ≤ Number.digitLimit then .ok (toString n)
  else .error .tooManyDigits

mutual

/-- The written form of a value. -/
def Value.written : Value → Except Fault String
  | .none => .ok "None"
  | .bool b => .ok (if b then "True" else "False")
  | .int n => writtenInt n
  | .float x => .ok x.text
  | .text s => .ok (Text.quoted s)
  | .list items => do return "[" ++ commaSeparated (← writtenItems items) ++ "]"
  | .tuple [item] => do return "(" ++ (← item.written) ++ ",)"
  | .tuple items => do return "(" ++ commaSeparated (← writtenItems items) ++ ")"
  | .dict fields => do return "\x7b" ++ commaSeparated (← writtenFields fields) ++ "\x7d"
  | .wildcard => .ok "ANY"
  | .regex r => .ok r.written
  | .callable f => .ok f.written
  | .validator v => v.written

/-- The written form of a validator. -/
def Validator.written : Validator → Except Fault String
  | .equality expected => do return "EqualityValidator(" ++ (← expected.written) ++ ")"
  | .regex r => .ok ("RegexValidator(" ++ Text.quoted r.source ++ ")")
  | .predicate f => .ok ("PredicateValidator(" ++ f.written ++ ")")
  | .integer _ _ _ => .ok "IntValidator"
  | .decimal _ _ _ => .ok "FloatValidator"
  | .uuid => .ok "UUIDValidator"
  | .custom tag => .ok tag

/-- The written forms of some values. -/
def writtenItems : List Value → Except Fault (List String)
  | [] => .ok []
  | v :: rest => do return (← v.written) :: (← writtenItems rest)

/-- The written forms of some fields. -/
def writtenFields : List (String × Value) → Except Fault (List String)
  | [] => .ok []
  | (name, v) :: rest => do
    return (Text.quoted name ++ ": " ++ (← v.written)) :: (← writtenFields rest)

end

/-- The plain text of a value. -/
def Value.plain : Value → Except Fault String
  | .text s => .ok s
  | v => v.written

/-- The plain texts of texts are the texts themselves. -/
theorem mapM_plain_text (texts : List String) :
    (texts.map Value.text).mapM Value.plain = .ok texts := by
  induction texts with
  | nil => rfl
  | cons s rest ih =>
      rw [List.map_cons, List.mapM_cons, ih]
      rfl

mutual

/-- A value cannot be written only because of a number with too many digits. -/
theorem Value.written_eq_error {v : Value} {e : Fault} (h : v.written = .error e) :
    e = .tooManyDigits := by
  -- On the value. What is inside a container is written first, and the container adds nothing that
  -- could fail.
  cases v with
  | none | bool | float | text | wildcard | regex | callable => cases h
  | int n =>
      rw [Value.written, writtenInt] at h
      split at h
      · cases h
      · exact (Except.error.inj h).symm
  | list items =>
      rcases bind_eq_error.1 h with h | ⟨_, _, h⟩
      · exact writtenItems_eq_error h
      · cases h
  | tuple items =>
      match items, h with
      | [item], h =>
        rcases bind_eq_error.1 h with h | ⟨_, _, h⟩
        · exact Value.written_eq_error h
        · cases h
      | [], h => cases h
      | first :: second :: rest, h =>
        rcases bind_eq_error.1 h with h | ⟨_, _, h⟩
        · exact writtenItems_eq_error h
        · cases h
  | dict fields =>
      rcases bind_eq_error.1 h with h | ⟨_, _, h⟩
      · exact writtenFields_eq_error h
      · cases h
  | validator w =>
      cases w with
      | equality expected =>
          rcases bind_eq_error.1 h with h | ⟨_, _, h⟩
          · exact Value.written_eq_error h
          · cases h
      | _ => cases h

theorem writtenItems_eq_error {items : List Value} {e : Fault}
    (h : writtenItems items = .error e) : e = .tooManyDigits := by
  cases items with
  | nil => cases h
  | cons v rest =>
      rcases bind_eq_error.1 h with h | ⟨_, _, h⟩
      · exact Value.written_eq_error h
      · rcases bind_eq_error.1 h with h | ⟨_, _, h⟩
        · exact writtenItems_eq_error h
        · cases h

theorem writtenFields_eq_error {fields : List (String × Value)} {e : Fault}
    (h : writtenFields fields = .error e) : e = .tooManyDigits := by
  match fields, h with
  | (name, v) :: rest, h =>
    rcases bind_eq_error.1 h with h | ⟨_, _, h⟩
    · exact Value.written_eq_error h
    · rcases bind_eq_error.1 h with h | ⟨_, _, h⟩
      · exact writtenFields_eq_error h
      · cases h

end

/-- So it is with its plain text. -/
theorem Value.plain_eq_error {v : Value} {e : Fault} (h : v.plain = .error e) :
    e = .tooManyDigits := by
  cases v with
  | text s => cases h
  | _ => exact Value.written_eq_error h

end PathRouting
