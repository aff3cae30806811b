import PathRouting.Value

/-!
# When Values Are the Same

The form of a value is what remains when everything that equality ignores is
taken away: whether a number was written as a truth value, an integer or a
fraction, the sign of a zero, and the order of a dictionary. Two values are the
same when their forms are equal, so sameness is an equivalence for free, and
the tables of the router are keyed by forms.

Lists and dictionaries may change under their owner and therefore may not be
keys, nor may anything that holds one.

The equality that an equality validator tests differs in a single point: a
not-a-number is the same as itself, but equal to nothing.

## Main definitions

* `Form`: The forms.
* `Value.form`, `Validator.form`: The form of a value.
* `Value.same`: The values have the same form.
* `Value.equal`: The values are equal.
* `Value.isKey`: The value may be a key.

## Theorems

* `same_iff_form_eq`: Sameness is equality of forms.
-/

namespace PathRouting

/-- What remains of a value when everything that equality ignores is taken
    away. The last three constructors are the spines of the containers. -/
inductive Form where
  | none
  | number (x : Binary64)
  | text (s : String)
  | list (items : Form)
  | tuple (items : Form)
  | dict (fields : Form)
  | wildcard
  | regex (r : Regex)
  | callable (f : Callable)
  | equality (expected : Form)
  | matching (r : Regex)
  | predicate (f : Callable)
  | integer (digits least most : Form)
  | decimal (least most finite : Form)
  | uuid
  | custom (tag : String)
  | last
  | item (head rest : Form)
  | field (name : String) (value rest : Form)
  deriving DecidableEq, Repr

namespace Form

/-- A number without the sign of its zero. -/
def ofNumber : Binary64 → Form
  | .finite _ 0 => .number (.finite false 0)
  | x => .number x

/-- A named form put into its place among others that ascend by name. -/
def insertField (name : String) (value : Form) : List (String × Form) → List (String × Form)
  | [] => [(name, value)]
  | (n, v) :: rest =>
    if name < n then (name, value) :: (n, v) :: rest else (n, v) :: insertField name value rest

/-- The spine of named forms. -/
def ofFields : List (String × Form) → Form
  | [] => .last
  | (n, v) :: rest => .field n v (ofFields rest)

end Form

mutual

/-- The form of a value. -/
def Value.form : Value → Form
  | .none => .none
  | .bool b => .ofNumber (.ofInt (if b then 1 else 0))
  | .int n => .ofNumber (.ofInt n)
  | .float x => .ofNumber x
  | .text s => .text s
  | .list items => .list (formItems items)
  | .tuple items => .tuple (formItems items)
  | .dict fields => .dict (.ofFields (formFields fields))
  | .wildcard => .wildcard
  | .regex r => .regex r
  | .callable f => .callable f
  | .validator v => v.form

/-- The form of a validator. -/
def Validator.form : Validator → Form
  | .equality expected => .equality expected.form
  | .regex r => .matching r
  | .predicate f => .predicate f
  | .integer digits least most => .integer digits.form least.form most.form
  | .decimal least most finite => .decimal least.form most.form finite.form
  | .uuid => .uuid
  | .custom tag => .custom tag

/-- The spine of the forms of some items. -/
def formItems : List Value → Form
  | [] => .last
  | v :: rest => .item v.form (formItems rest)

/-- The forms of some fields, ascending by name. -/
def formFields : List (String × Value) → List (String × Form)
  | [] => []
  | (name, v) :: rest => Form.insertField name v.form (formFields rest)

end

mutual

/-- The value may be a key: neither it nor anything inside it is a list or a
    dictionary. This is the one way in which a look-up can fail here. A view on
    memory that may be written to fails in another way when it is looked up,
    which is not taken for an answer; no such value is among those of `Value`. -/
def Value.isKey : Value → Bool
  | .list _ | .dict _ => false
  | .tuple items => areKeys items
  | .validator v => v.isKey
  | _ => true

/-- The validator may be a key: what it compares with may. -/
def Validator.isKey : Validator → Bool
  | .equality expected => expected.isKey
  | .integer digits least most => digits.isKey && least.isKey && most.isKey
  | .decimal least most finite => least.isKey && most.isKey && finite.isKey
  | _ => true

/-- All values may be keys. -/
def areKeys : List Value → Bool
  | [] => true
  | v :: rest => v.isKey && areKeys rest

end

mutual

/-- The value is equal to itself: it is neither a not-a-number nor a validator
    that expects one. -/
def Value.selfEqual : Value → Bool
  | .float (.notANumber _) => false
  | .validator v => v.selfEqual
  | _ => true

/-- The validator is equal to itself. -/
def Validator.selfEqual : Validator → Bool
  | .equality expected => expected.selfEqual
  | _ => true

end

namespace Value

/-- The values are the same one as far as any table is concerned. -/
def same (a b : Value) : Bool :=
  a.form == b.form

/-- The values are equal. -/
def equal (a b : Value) : Bool :=
  a.selfEqual && a.same b

/-- Sameness is equality of forms. -/
theorem same_iff_form_eq {a b : Value} : a.same b = true ↔ a.form = b.form := by
  simp [same]

end Value

namespace Validator

/-- The validators are the same one as far as any table is concerned. -/
def same (a b : Validator) : Bool :=
  a.form == b.form

/-- The validators are equal. -/
def equal (a b : Validator) : Bool :=
  a.selfEqual && a.same b

end Validator

end PathRouting
