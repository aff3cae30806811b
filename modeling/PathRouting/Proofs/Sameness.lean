import PathRouting.Validator

/-!
# Values of One Form

Tables are keyed by forms, so two values of one form take the same place even
where they were written differently. That is harmless only if nothing that looks
at the value can tell them apart. This file shows it for what the router does
with a value: whether it may be a key, whether it is equal to another, whether a
validator with it as its bound or its expectation accepts something.

The form of a value is a normal form, and each of these questions has an answer
that can be read off the form. The lemmas say so, one question each, and the
congruences follow. Numbers are the only place where a form forgets something
that a computation could see, the sign of a zero, and no comparison sees it.

## Main definitions

* `Form.isKey`, `Form.selfEqual`: The questions asked of a form.
* `Form.isNumber`, `Form.truthy`: What a form says about number and truth.

## Theorems

* `isKey_form`: Whether a value may be a key is a matter of its form.
* `selfEqual_form`: So is whether it is equal to itself.
* `lt_ofNumber`, `ofNumber_lt`: The order of numbers does not see the sign of a
  zero.
* `form_eq_wildcard`: The wildcard has a form of its own.
* `withinBounds_congr`: Bounds of one form restrict alike.
* `accepts_congr`: Validators of one form accept the same values.
-/

namespace PathRouting

/-- An integer is one of the zeros only if it is zero. -/
theorem Binary64.isZero_ofInt (n : Int) : (Binary64.ofInt n).isZero = (n == 0) := by
  have hpos := unitsPerOne_pos
  unfold ofInt
  rcases Nat.eq_zero_or_pos n.natAbs with h | h
  · rw [h, Nat.zero_mul, Int.natAbs_eq_zero.1 h]
    rfl
  · have hne : n ≠ 0 := by omega
    have hunits : 0 < n.natAbs * unitsPerOne := Nat.mul_pos h hpos
    rcases hu : n.natAbs * unitsPerOne with _ | units
    · omega
    · simp [isZero, hne]

namespace Form

/-- What has the form may be a key. -/
def isKey : Form → Bool
  | .list _ | .dict _ => false
  | .tuple items => items.isKey
  | .item head rest => head.isKey && rest.isKey
  | .equality expected => expected.isKey
  | .integer digits least most => digits.isKey && least.isKey && most.isKey
  | .decimal least most finite => least.isKey && most.isKey && finite.isKey
  | _ => true

/-- What has the form is equal to itself. -/
def selfEqual : Form → Bool
  | .number (.notANumber _) => false
  | .equality expected => expected.selfEqual
  | _ => true

/-- What has the form is a number. -/
def isNumber : Form → Bool
  | .number _ => true
  | _ => false

/-- What has the form counts as true. -/
def truthy : Form → Bool
  | .none => false
  | .number x => !x.isZero
  | .text s => !s.isEmpty
  | .list items | .tuple items | .dict items => items != .last
  | _ => true

/-- A number is there under its form, but for the sign of a zero. -/
theorem ofNumber_cases (x : Binary64) :
    ofNumber x = .number x ∨
      ∃ negative, x = .finite negative 0 ∧ ofNumber x = .number (.finite false 0) := by
  rcases x with _ | _ | ⟨negative, _ | units⟩
  · exact Or.inl rfl
  · exact Or.inl rfl
  · exact Or.inr ⟨negative, rfl, rfl⟩
  · exact Or.inl rfl

@[simp] theorem isKey_ofNumber (x : Binary64) : (ofNumber x).isKey = true := by
  rcases ofNumber_cases x with h | ⟨_, _, h⟩ <;> rw [h] <;> rfl

@[simp] theorem isNumber_ofNumber (x : Binary64) : (ofNumber x).isNumber = true := by
  rcases ofNumber_cases x with h | ⟨_, _, h⟩ <;> rw [h] <;> rfl

@[simp] theorem truthy_ofNumber (x : Binary64) : (ofNumber x).truthy = !x.isZero := by
  rcases ofNumber_cases x with h | ⟨_, rfl, h⟩ <;> rw [h] <;> rfl

theorem selfEqual_ofInt (n : Int) : (ofNumber (.ofInt n)).selfEqual = true := by
  rcases ofNumber_cases (.ofInt n) with h | ⟨_, _, h⟩ <;> rw [h] <;> rfl

theorem insertField_ne_nil (name : String) (v : Form) (fields : List (String × Form)) :
    insertField name v fields ≠ [] := by
  rcases fields with _ | ⟨⟨n, w⟩, rest⟩
  · simp [insertField]
  · unfold insertField
    split <;> simp

/-- The order of numbers does not see the sign of a zero on its right. -/
theorem lt_ofNumber (x : Binary64) {b c : Binary64} (h : ofNumber b = ofNumber c) :
    x.lt b = x.lt c := by
  rcases ofNumber_cases b with hb | ⟨m, rfl, hb⟩ <;>
    rcases ofNumber_cases c with hc | ⟨n, rfl, hc⟩ <;> rw [hb, hc] at h
  · cases h
    rfl
  · cases h
    rcases x with _ | _ | ⟨a, k⟩ <;> cases n <;> rfl
  · cases h
    rcases x with _ | _ | ⟨a, k⟩ <;> cases m <;> rfl
  · rcases x with _ | _ | ⟨a, k⟩ <;> cases m <;> cases n <;> rfl

/-- The order of numbers does not see the sign of a zero on its left. -/
theorem ofNumber_lt (x : Binary64) {b c : Binary64} (h : ofNumber b = ofNumber c) :
    b.lt x = c.lt x := by
  rcases ofNumber_cases b with hb | ⟨m, rfl, hb⟩ <;>
    rcases ofNumber_cases c with hc | ⟨n, rfl, hc⟩ <;> rw [hb, hc] at h
  · cases h
    rfl
  · cases h
    rcases x with _ | _ | ⟨a, k⟩ <;> cases n <;> rfl
  · cases h
    rcases x with _ | _ | ⟨a, k⟩ <;> cases m <;> rfl
  · rcases x with _ | _ | ⟨a, k⟩ <;> cases m <;> cases n <;> rfl

end Form

mutual

/-- Whether a value may be a key is a matter of its form. -/
theorem Value.isKey_form : (v : Value) → v.form.isKey = v.isKey
  | .none | .text _ | .list _ | .dict _ | .wildcard | .regex _ | .callable _ => rfl
  | .bool _ | .int _ | .float _ => by
      simp only [Value.form, Value.isKey, Form.isKey_ofNumber]
  | .tuple items => isKey_formItems items
  | .validator v => v.isKey_form

theorem Validator.isKey_form : (v : Validator) → v.form.isKey = v.isKey
  | .regex _ | .predicate _ | .uuid | .custom _ => rfl
  | .equality expected => expected.isKey_form
  | .integer digits least most => by
      simp only [Validator.form, Form.isKey, Validator.isKey]
      rw [digits.isKey_form, least.isKey_form, most.isKey_form]
  | .decimal least most finite => by
      simp only [Validator.form, Form.isKey, Validator.isKey]
      rw [least.isKey_form, most.isKey_form, finite.isKey_form]

theorem isKey_formItems : (items : List Value) → (formItems items).isKey = areKeys items
  | [] => rfl
  | v :: rest => by
      simp only [formItems, Form.isKey, areKeys]
      rw [v.isKey_form, isKey_formItems rest]

end

mutual

/-- Whether a value is equal to itself is a matter of its form. -/
theorem Value.selfEqual_form : (v : Value) → v.form.selfEqual = v.selfEqual
  | .none | .text _ | .list _ | .tuple _ | .dict _ | .wildcard | .regex _ | .callable _ => rfl
  | .bool _ | .int _ => by
      simp only [Value.form, Value.selfEqual, Form.selfEqual_ofInt]
  | .float x => by
      rcases x with _ | _ | ⟨negative, _ | units⟩ <;> rfl
  | .validator v => v.selfEqual_form

theorem Validator.selfEqual_form : (v : Validator) → v.form.selfEqual = v.selfEqual
  | .regex _ | .predicate _ | .integer _ _ _ | .decimal _ _ _ | .uuid | .custom _ => rfl
  | .equality expected => expected.selfEqual_form

end

namespace Value

/-- A value whose form is the wildcard is the wildcard. -/
theorem form_eq_wildcard {v : Value} : v.form = .wildcard ↔ v = .wildcard := by
  constructor
  · intro h
    cases v with
    | wildcard => rfl
    | bool b | int n | float x =>
        simp only [form] at h
        rcases Form.ofNumber_cases _ with hx | ⟨_, _, hx⟩ <;> rw [hx] at h <;> cases h
    | validator w => cases w <;> simp [form, Validator.form] at h
    | _ => simp [form] at h
  · intro h
    rw [h, form]

/-- A value is absent if its form is. -/
theorem form_eq_none {v : Value} : v.form = .none ↔ v.isNone = true := by
  cases v with
  | none => simp [form, isNone]
  | bool b | int n | float x =>
      simp only [form, isNone, Bool.false_eq_true, iff_false]
      rcases Form.ofNumber_cases _ with hx | ⟨_, _, hx⟩ <;> rw [hx] <;> simp
  | validator w => cases w <;> simp [form, isNone, Validator.form]
  | _ => simp [form, isNone]

theorem isNone_congr {v w : Value} (h : v.form = w.form) : v.isNone = w.isNone := by
  rw [Bool.eq_iff_iff, ← form_eq_none, ← form_eq_none, h]

theorem isKey_congr {v w : Value} (h : v.form = w.form) : v.isKey = w.isKey := by
  rw [← v.isKey_form, ← w.isKey_form, h]

/-- Equality sees no more of its left side than the form. Forms are what
    dictionaries tell keys apart by, so a value that is looked up under a key
    may stand in for the key wherever the two are compared. -/
theorem equal_congr_left {v w : Value} (h : v.form = w.form) (x : Value) :
    v.equal x = w.equal x := by
  simp only [equal, same, ← v.selfEqual_form, ← w.selfEqual_form, h]

/-- Equality sees no more of its right side than the form. -/
theorem equal_congr_right {v w : Value} (h : v.form = w.form) (x : Value) :
    x.equal v = x.equal w := by
  simp only [equal, same, h]

/-- The form of the number that a value is, if it is one, is the form of the value. -/
theorem map_number? (v : Value) :
    v.number?.map Form.ofNumber = if v.form.isNumber then some v.form else Option.none := by
  have hnum : ∀ x : Binary64, some (Form.ofNumber x)
      = if (Form.ofNumber x).isNumber then some (Form.ofNumber x) else Option.none := by
    intro x
    rw [Form.isNumber_ofNumber, if_pos rfl]
  cases v with
  | bool b | int n | float x => exact hnum _
  | validator w => cases w <;> rfl
  | _ => rfl

/-- Values of one form are the same number or none. -/
theorem number?_congr {v w : Value} (h : v.form = w.form) :
    (v.number? = Option.none ∧ w.number? = Option.none) ∨
      ∃ x y, v.number? = some x ∧ w.number? = some y ∧ Form.ofNumber x = Form.ofNumber y := by
  have hmap : v.number?.map Form.ofNumber = w.number?.map Form.ofNumber := by
    rw [map_number?, map_number?, h]
  rcases hv : v.number? with _ | x <;> rcases hw : w.number? with _ | y <;>
    simp only [hv, hw, Option.map_none, Option.map_some, reduceCtorEq] at hmap
  · exact Or.inl ⟨rfl, rfl⟩
  · exact Or.inr ⟨x, y, rfl, rfl, Option.some.inj hmap⟩

/-- Whether a value counts as true is a matter of its form. -/
theorem truthy_form (v : Value) : v.form.truthy = v.truthy := by
  cases v with
  | bool b =>
      simp only [form, Form.truthy_ofNumber, truthy]
      cases b
      · simp [Binary64.isZero_ofInt]
      · simp [Binary64.isZero_ofInt]
  | int n =>
      simp only [form, Form.truthy_ofNumber, truthy, Binary64.isZero_ofInt]
      rfl
  | float x => simp only [form, Form.truthy_ofNumber, truthy]
  | list items | tuple items => cases items <;> rfl
  | dict fields =>
      rcases fields with _ | ⟨⟨name, v⟩, rest⟩
      · rfl
      · simp only [form, Form.truthy, truthy, formFields]
        -- A dictionary with a field has a form with one, wherever it is put in order.
        cases hins : Form.insertField name v.form (formFields rest) with
        | nil => exact absurd hins (Form.insertField_ne_nil _ _ _)
        | cons f fs => rfl
  | validator w => cases w <;> rfl
  | _ => rfl

theorem truthy_congr {v w : Value} (h : v.form = w.form) : v.truthy = w.truthy := by
  rw [← v.truthy_form, ← w.truthy_form, h]

end Value

theorem belowBound_congr {v w : Value} (h : v.form = w.form) (x : Binary64) :
    belowBound x v = belowBound x w := by
  unfold belowBound
  rcases Value.number?_congr h with ⟨hv, hw⟩ | ⟨b, c, hv, hw, hbc⟩
  · rw [hv, hw]
  · rw [hv, hw]
    exact congrArg Except.ok (Form.lt_ofNumber x hbc)

theorem aboveBound_congr {v w : Value} (h : v.form = w.form) (x : Binary64) :
    aboveBound x v = aboveBound x w := by
  unfold aboveBound
  rcases Value.number?_congr h with ⟨hv, hw⟩ | ⟨b, c, hv, hw, hbc⟩
  · rw [hv, hw]
  · rw [hv, hw]
    exact congrArg Except.ok (Form.ofNumber_lt x hbc)

/-- Bounds of one form restrict alike. -/
theorem withinBounds_congr {least least' most most' : Value} (hl : least.form = least'.form)
    (hm : most.form = most'.form) (x : Binary64) :
    withinBounds least most x = withinBounds least' most' x := by
  unfold withinBounds
  rw [Value.isNone_congr hl, Value.isNone_congr hm, belowBound_congr hl, aboveBound_congr hm]

namespace Validator

variable [Host]

/-- Validators of one form accept the same values. Two expressions that are
    equal are one; everything else that a validator holds is compared by form
    or is only its own identity. A tree keeps one of several validators of one
    form, so which one it keeps cannot be noticed. -/
theorem accepts_congr {v w : Validator} (h : v.form = w.form) (x : Value) :
    v.accepts x = w.accepts x := by
  cases v <;> cases w <;> simp only [form, reduceCtorEq] at h
  case equality a b =>
      injection h with h
      simp only [accepts, Value.equal_congr_right h]
  case regex a b =>
      injection h with h
      rw [h]
  case predicate f g =>
      injection h with h
      rw [h]
  case integer digits least most digits' least' most' =>
      injection h with hd hl hm
      simp only [accepts, acceptsInteger, Value.isNone_congr hd, Value.equal_congr_right hd,
        withinBounds_congr hl hm]
  case decimal least most finite least' most' finite' =>
      injection h with hl hm hf
      simp only [accepts, acceptsDecimal, Value.truthy_congr hf, withinBounds_congr hl hm]
  case uuid => rfl
  case custom tag tag' =>
      injection h with h
      rw [h]

end Validator

end PathRouting
