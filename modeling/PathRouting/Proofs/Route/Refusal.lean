import PathRouting.Proofs.Route.Rendered

/-!
# When a Path Cannot Be Rendered

The variables of a path are rendered from left to right, and the first one
that fails decides what the rendering fails with. A variable fails without a
value, and when its validator refuses one of the texts it would be written as:
of these two a caller is told. A validator may also fail by itself.

There are two more ways to fail. A glob is written as the elements of its
value, and a number, a truth value or anything else that has no elements ends
the rendering with a fault of another kind. Nothing asks beforehand whether a
value has elements, neither when it is given nor when it is laid down as a
default. And a number with more digits than are written cannot be turned into
a text, be it the value itself or somewhere in it.

## Main definitions

* `Variable.valueIn?`: The value that a variable is rendered from.
* `Variable.texts?`: The texts that a value is judged by and written as.
* `Variable.Fails`: The ways in which a variable fails.
* `Variable.Lacks`, `Variable.Refuses`, `Variable.Unlisted`,
  `Variable.Unwritable`: What is wrong with its value.

## Theorems

* `Value.written_int_eq_ok_iff`: Which numbers can be written.
* `validate_eq_error_iff`: The first text that is not accepted decides.
* `renderVariable_eq_error_iff`: When a variable fails.
* `renderParts_eq_error_iff`: The first variable that fails decides.
* `Route.render_fails_iff`: A rendering fails for want of a value that is
  acceptable, for a glob whose value has no elements, or for a number that
  cannot be written.
-/

namespace PathRouting

/-- The value that a variable is rendered from: the parameter, unless that is
    the absent value, or else the default. -/
def Variable.valueIn? (v : Variable) (params : Fields) : Option Value :=
  ((params.lookup v.name).filter (!·.isNone)).or (if v.hasDefault then some v.default else none)

/-- The texts that a value is judged by and written as. A text stands for
    itself, whatever the variable is; a glob otherwise takes the elements, if
    the value has any. What is no text is written as one. -/
def Variable.texts? (v : Variable) : Value → Except Fault (List String)
  | .text s => .ok [s]
  | x =>
    if v.isGlob then x.elements?.elim (.error (.type .notIterable)) (·.mapM Value.plain)
    else do return [← x.plain]

/-- There is no value for the variable. -/
def Variable.Lacks (v : Variable) (params : Fields) : Prop :=
  v.valueIn? params = none

/-- The variable is a glob, and its value has no elements, as a number or a
    truth value has none. -/
def Variable.Unlisted (v : Variable) (params : Fields) : Prop :=
  ∃ x, v.valueIn? params = some x ∧ v.isGlob = true ∧ x.elements? = none

/-- To write the value of the variable, a number with too many digits would
    have to be written. -/
def Variable.Unwritable (v : Variable) (params : Fields) : Prop :=
  ∃ x, v.valueIn? params = some x ∧ v.texts? x = .error .tooManyDigits

/-- Which numbers can be written: those below a certain power of ten, on
    either side of zero. -/
theorem Value.written_int_eq_ok_iff {n : Int} {s : String} :
    (Value.int n).written = .ok s ↔ n.natAbs < 10 ^ Number.digitLimit ∧ s = toString n := by
  have hlength : (toString n.natAbs).length ≤ Number.digitLimit ↔
      n.natAbs < 10 ^ Number.digitLimit := Nat.length_repr_le_iff (by decide)
  rw [Value.written, writtenInt]
  by_cases h : (toString n.natAbs).length ≤ Number.digitLimit
  · rw [if_pos h, Except.ok.injEq, ← hlength]
    exact ⟨fun hs => ⟨h, hs.symm⟩, fun hs => hs.2.symm⟩
  · rw [if_neg h, ← hlength]
    exact iff_of_false nofun fun hs => h hs.1

/-- Nothing else keeps a value from being written. -/
theorem Variable.texts?_eq_error {v : Variable} {x : Value} {e : Fault}
    (h : v.texts? x = .error e) :
    (e = .type .notIterable ∧ v.isGlob = true ∧ x.elements? = none) ∨ e = .tooManyDigits := by
  unfold Variable.texts? at h
  split at h
  · cases h
  · split at h
    · next hglob =>
      cases helements : x.elements? with
      | none =>
          rw [helements] at h
          exact Or.inl ⟨(Except.error.inj h).symm, hglob, rfl⟩
      | some elements =>
          rw [helements] at h
          rcases mem_of_mapM_error h with ⟨y, _, hy⟩
          exact Or.inr (Value.plain_eq_error hy)
    · rcases bind_eq_error.1 h with h | ⟨_, _, h⟩
      · exact Or.inr (Value.plain_eq_error h)
      · cases h

variable [Host]

/-- The validator of the variable refuses one of the texts that its value
    would be written as. -/
def Variable.Refuses (v : Variable) (params : Fields) : Prop :=
  ∃ x texts, v.valueIn? params = some x ∧ v.texts? x = .ok texts ∧
    ∃ s ∈ texts, v.accepts (.text s) = .ok false

/-- Some element has the second property, and all before it have the first.
    With "it is rendered" and "it fails with this" for the two, it says which
    of several failures is the one that is seen. -/
def FirstWith {β : Type} (passes stops : β → Prop) (l : List β) : Prop :=
  ∃ front b back, l = front ++ b :: back ∧ (∀ c ∈ front, passes c) ∧ stops b

omit [Host] in
theorem firstWith_cons {β : Type} {passes stops : β → Prop} {b : β} {l : List β} :
    FirstWith passes stops (b :: l) ↔ stops b ∨ passes b ∧ FirstWith passes stops l := by
  constructor
  · rintro ⟨front, c, back, heq, hpasses, hstops⟩
    cases front with
    | nil =>
        cases heq
        exact Or.inl hstops
    | cons d front =>
        cases heq
        rcases List.forall_mem_cons.1 hpasses with ⟨hd, hfront⟩
        exact Or.inr ⟨hd, front, c, back, rfl, hfront, hstops⟩
  · rintro (hstops | ⟨hpasses, front, c, back, rfl, hfront, hstops⟩)
    · exact ⟨[], b, l, rfl, by simp, hstops⟩
    · exact ⟨b :: front, c, back, rfl, List.forall_mem_cons.2 ⟨hpasses, hfront⟩, hstops⟩

omit [Host] in
theorem not_firstWith_nil {β : Type} {passes stops : β → Prop} :
    ¬FirstWith passes stops [] := by
  rintro ⟨front, b, back, heq, _⟩
  cases front <;> cases heq

omit [Host] in
/-- Where an element passes unless it stops, one that stops is found behind
    those that pass. Checks and renderings both go through a list until
    something fails, so the same lemma says of each what it fails with. -/
theorem exists_firstWith_iff {β ε : Type} {passes : β → Prop} {stops : ε → β → Prop}
    (hpasses : ∀ b, passes b ↔ ∀ e, ¬stops e b) {l : List β} :
    (∃ e, FirstWith passes (stops e) l) ↔ ∃ b ∈ l, ∃ e, stops e b := by
  constructor
  · rintro ⟨e, front, b, back, rfl, _, hstops⟩
    exact ⟨b, List.mem_append_right front List.mem_cons_self, e, hstops⟩
  · rintro ⟨b, hb, e, hstops⟩
    induction l with
    | nil => exact absurd hb List.not_mem_nil
    | cons c rest ih =>
        by_cases hc : passes c
        · rcases List.mem_cons.1 hb with rfl | hb
          · exact absurd hstops ((hpasses b).1 hc e)
          · rcases ih hb with ⟨d, hfirst⟩
            exact ⟨d, firstWith_cons.2 (Or.inr ⟨hc, hfirst⟩)⟩
        · rw [hpasses, not_forall_not] at hc
          rcases hc with ⟨d, hd⟩
          exact ⟨d, firstWith_cons.2 (Or.inl hd)⟩

/-- What a check of the text fails with. -/
inductive Variable.Stops (pattern : String) (v : Variable) (s : String) : Fault → Prop
  | rejected (refuses : v.accepts (.text s) = .ok false) :
      Stops pattern v s (.generation (.rejected s v.name pattern))
  | faulty {e : Fault} (fault : v.accepts (.text s) = .error e) : Stops pattern v s e

/-- What a variable fails with when it is rendered: there is no value, the
    value has no texts to be written as, or one of its texts is not accepted,
    of which the first decides. -/
def Variable.Fails (pattern : String) (params : Fields) (v : Variable) (e : Fault) : Prop :=
  match v.valueIn? params with
  | none => e = .generation (.missing v.name pattern)
  | some x =>
    match v.texts? x with
    | .error d => e = d
    | .ok texts =>
      FirstWith (fun s => v.accepts (.text s) = .ok true) (fun s => v.Stops pattern s e) texts

section Rendering

variable {pattern delimiter safe : String} {params : Fields} {v : Variable} {e : Fault}

/-- The first text that is not accepted decides what a check fails with. -/
theorem validate_eq_error_iff {texts : List String} :
    validate pattern v texts = .error e ↔
      FirstWith (fun s => v.accepts (.text s) = .ok true) (fun s => v.Stops pattern s e) texts := by
  induction texts with
  | nil => exact iff_of_false (fun h => by cases h) not_firstWith_nil
  | cons s rest ih =>
      rw [firstWith_cons, ← ih, validate, bind_eq_error]
      constructor
      · rintro (hfault | ⟨verdict, haccepts, hrest⟩)
        · exact Or.inl (.faulty hfault)
        -- A text that is refused ends the check; one that is accepted hands it to the rest.
        · cases verdict with
          | true => exact Or.inr ⟨haccepts, hrest⟩
          | false =>
              cases hrest
              exact Or.inl (.rejected haccepts)
      · rintro (hstops | ⟨haccepts, hrest⟩)
        · cases hstops with
          | rejected hrefuses => exact Or.inr ⟨false, hrefuses, rfl⟩
          | faulty hfault => exact Or.inl hfault
        · exact Or.inr ⟨true, haccepts, hrest⟩

omit [Host] in
/-- The value of a variable is found, or there is none. -/
theorem valueFor_eq (pattern : String) (v : Variable) (params : Fields) :
    valueFor pattern v params =
      (v.valueIn? params).elim (.error (.generation (.missing v.name pattern))) .ok := by
  unfold valueFor Variable.valueIn?
  cases params.lookup v.name with
  | none => cases v.hasDefault <;> rfl
  | some x => cases hx : x.isNone <;> cases v.hasDefault <;> simp [Option.filter, hx]

/-- A value is written once its texts are there and all of them are accepted.
    Of the kinds of variables and values, each takes a way of its own from
    here on, but none of these ways fails. -/
theorem exists_renderVariable_eq (x : Value) :
    ∃ write : List String → String, renderVariable pattern delimiter safe v x = do
      let texts ← v.texts? x
      validate pattern v texts
      return write texts := by
  unfold renderVariable
  split
  · next s => exact ⟨fun _ => Text.percentEncode (if v.isGreedy then safe else "") s, rfl⟩
  · next hother =>
    rw [Variable.texts?]
    · split
      · refine ⟨fun texts => delimiter.intercalate (texts.map (Text.percentEncode "")), ?_⟩
        unfold renderElements
        cases x.elements? <;> rfl
      · refine ⟨fun texts => Text.percentEncode "" (texts.headD ""), ?_⟩
        cases x.plain <;> rfl
    · exact hother

/-- When a variable cannot be rendered. The reasons come in a fixed order: it has
    no value, its value has no texts, or one of the texts does not pass the check. -/
theorem renderVariable_eq_error_iff :
    valueFor pattern v params >>= renderVariable pattern delimiter safe v = .error e ↔
      v.Fails pattern params e := by
  rw [valueFor_eq]
  unfold Variable.Fails
  cases v.valueIn? params with
  | none => exact ⟨fun h => by cases h; rfl, fun h => congrArg Except.error h.symm⟩
  | some x =>
      change renderVariable pattern delimiter safe v x = .error e ↔ _
      dsimp only
      rcases exists_renderVariable_eq x with ⟨write, hrender⟩
      rw [hrender]
      cases v.texts? x with
      | error d => exact ⟨fun h => by cases h; rfl, fun h => congrArg Except.error h.symm⟩
      | ok texts =>
          change (do validate pattern v texts; return write texts) = .error e ↔ _
          rw [bind_eq_error, validate_eq_error_iff]
          exact or_iff_left (by rintro ⟨_, _, h⟩; cases h)

/-- The first variable that fails decides what a path fails with. -/
theorem renderParts_eq_error_iff {parts : List Segment}
    (hparts : ∀ c, Segment.condition c ∉ parts) :
    renderParts pattern delimiter safe params parts = .error e ↔
      FirstWith (fun v => ∀ d, ¬v.Fails pattern params d) (fun v => v.Fails pattern params e)
        (parts.filterMap Segment.var?) := by
  induction parts with
  | nil => exact iff_of_false (fun h => by cases h) not_firstWith_nil
  | cons s rest ih =>
      replace ih := ih fun c hc => hparts c (List.mem_cons_of_mem _ hc)
      cases s with
      | condition c => exact absurd List.mem_cons_self (hparts c)
      | literal text | separator mark =>
          rw [renderParts_cons_text rfl rfl, List.filterMap_cons_none rfl, ← ih, bind_eq_error]
          exact or_iff_left (by rintro ⟨_, _, h⟩; cases h)
      | var v =>
          -- A variable fails for its own reasons, or it was rendered and the rest fails. To be
          -- rendered is to have no reason to fail.
          have hstep : renderParts pattern delimiter safe params (.var v :: rest) =
              (valueFor pattern v params >>= renderVariable pattern delimiter safe v) >>=
                fun front =>
                  (do return front ++ (← renderParts pattern delimiter safe params rest)) := by
            rw [renderParts, bind_assoc]
          have hbinders : (Segment.var v :: rest).filterMap Segment.var? =
              v :: rest.filterMap Segment.var? := rfl
          rw [hstep, bind_eq_error, renderVariable_eq_error_iff, hbinders, firstWith_cons, ← ih]
          refine or_congr Iff.rfl ⟨?_, ?_⟩
          · rintro ⟨front, hfront, hrest⟩
            refine ⟨fun d hd => ?_, ?_⟩
            · rw [renderVariable_eq_error_iff.2 hd] at hfront
              cases hfront
            · rcases bind_eq_error.1 hrest with hrest | ⟨_, _, h⟩
              · exact hrest
              · cases h
          · rintro ⟨hpasses, hrest⟩
            cases hfront : valueFor pattern v params >>=
                renderVariable pattern delimiter safe v with
            | error d => exact absurd (renderVariable_eq_error_iff.1 hfront) (hpasses d)
            | ok front => exact ⟨front, rfl, bind_eq_error.2 (Or.inl hrest)⟩

end Rendering

section Causes

variable {pattern : String} {params : Fields} {v : Variable} {e : Fault}

/-- A text is accepted, or a check of it fails. -/
theorem Variable.accepts_iff_not_stops (s : String) :
    v.accepts (.text s) = .ok true ↔ ∀ e, ¬v.Stops pattern s e := by
  constructor
  · intro haccepts e hstops
    cases hstops with
    | rejected h | faulty h =>
        rw [haccepts] at h
        cases h
  · intro hstops
    cases haccepts : v.accepts (.text s) with
    | error e => exact absurd (.faulty haccepts) (hstops e)
    | ok verdict =>
        cases verdict with
        | true => rfl
        | false => exact absurd (.rejected haccepts) (hstops _)

/-- A variable fails with what is wrong with its value, if the validator comes
    to a verdict on every text. -/
theorem Variable.Fails.cases (htotal : ∀ s, ∃ verdict, v.accepts (.text s) = .ok verdict)
    (h : v.Fails pattern params e) :
    (∃ cause, e = .generation cause) ∧ (v.Lacks params ∨ v.Refuses params) ∨
      e = .type .notIterable ∧ v.Unlisted params ∨ e = .tooManyDigits ∧ v.Unwritable params := by
  unfold Variable.Fails at h
  split at h
  · next hvalue => exact Or.inl ⟨⟨_, h⟩, Or.inl hvalue⟩
  · next x hvalue =>
    split at h
    · next d htexts =>
      subst h
      rcases texts?_eq_error htexts with ⟨rfl, hunlisted⟩ | rfl
      · exact Or.inr (Or.inl ⟨rfl, x, hvalue, hunlisted⟩)
      · exact Or.inr (Or.inr ⟨rfl, x, hvalue, htexts⟩)
    · next texts htexts =>
      rcases h with ⟨front, s, back, rfl, _, hstops⟩
      cases hstops with
      | rejected hrefuses =>
          exact Or.inl ⟨⟨_, rfl⟩, Or.inr ⟨x, _, hvalue, htexts, s, by simp, hrefuses⟩⟩
      | faulty hfault =>
          -- A validator that comes to a verdict does not fail by itself.
          rcases htotal s with ⟨verdict, hverdict⟩
          rw [hfault] at hverdict
          cases hverdict

/-- Without a value, or with one that is refused, a variable fails. -/
theorem Variable.exists_fails (h : v.Lacks params ∨ v.Refuses params) :
    ∃ e, v.Fails pattern params e := by
  unfold Variable.Fails
  rcases h with hvalue | ⟨x, texts, hvalue, htexts, s, hs, hrefuses⟩
  · rw [Variable.Lacks] at hvalue
    rw [hvalue]
    exact ⟨_, rfl⟩
  · rw [hvalue]
    dsimp only
    rw [htexts]
    exact (exists_firstWith_iff accepts_iff_not_stops).2 ⟨s, hs, _, .rejected hrefuses⟩

end Causes

section Path

variable {r : Route} (hsome : r.delimiters ≠ []) {p : Path}
  (hparts : ∀ c, Segment.condition c ∉ p.parts) {params : Fields} {e : Fault}

include hsome hparts

/-- The first variable that fails decides what the rendering of a path fails
    with. That there is a delimiter to write with is assumed here: without
    one, this is found out before any variable is looked at. -/
theorem Route.render_eq_error_iff :
    r.render p params = .error e ↔
      FirstWith (fun v => ∀ d, ¬v.Fails r.pattern params d) (fun v => v.Fails r.pattern params e)
        p.binders := by
  rcases r.exists_render hsome with ⟨delimiter, _, safe, hrenders⟩
  rw [hrenders, renderParts_eq_error_iff hparts]
  rfl

/-- A rendering fails with what is wrong with the value of one of the variables. -/
theorem Route.cases_of_render_eq_error
    (htotal : ∀ v ∈ p.binders, ∀ s, ∃ verdict, v.accepts (.text s) = .ok verdict)
    (he : r.render p params = .error e) :
    ∃ v ∈ p.binders, (∃ cause, e = .generation cause) ∧ (v.Lacks params ∨ v.Refuses params) ∨
      e = .type .notIterable ∧ v.Unlisted params ∨ e = .tooManyDigits ∧ v.Unwritable params := by
  rcases (render_eq_error_iff hsome hparts).1 he with ⟨front, v, back, hbinders, _, hfails⟩
  have hv : v ∈ p.binders := by
    rw [hbinders]
    exact List.mem_append_right front List.mem_cons_self
  exact ⟨v, hv, hfails.cases (htotal v hv)⟩

/-- Where one of the variables has no value or one that is refused, the
    rendering fails. -/
theorem Route.exists_render_error {v : Variable} (hv : v ∈ p.binders)
    (h : v.Lacks params ∨ v.Refuses params) : ∃ e, r.render p params = .error e := by
  have hfails : ∃ u ∈ p.binders, ∃ e, u.Fails r.pattern params e :=
    ⟨v, hv, Variable.exists_fails h⟩
  rcases (exists_firstWith_iff fun _ => Iff.rfl).2 hfails with ⟨e, hfirst⟩
  exact ⟨e, (render_eq_error_iff hsome hparts).2 hfirst⟩

end Path

/-- A path cannot be rendered if one of its variables has no value, or one
    whose texts are not all accepted, and a caller is told of it. That is the
    only reason, as long as every glob has a value with elements and every
    number can be written: then a text is returned otherwise. In any case a
    rendering fails for nothing but this, a glob whose value has no elements,
    a number with too many digits, and the want of a delimiter to write with. -/
theorem Route.render_fails_iff (r : Route) (p : Path) (params : Fields)
    (hparts : ∀ c, Segment.condition c ∉ p.parts)
    (htotal : ∀ v ∈ p.binders, ∀ s, ∃ verdict, v.accepts (.text s) = .ok verdict) :
    (r.delimiters ≠ [] → (∀ v ∈ p.binders, ¬v.Unlisted params ∧ ¬v.Unwritable params) →
      ((∃ cause, r.render p params = .error (.generation cause)) ↔
        ∃ v ∈ p.binders, v.Lacks params ∨ v.Refuses params) ∧
      ((∀ v ∈ p.binders, ¬(v.Lacks params ∨ v.Refuses params)) →
        ∃ text, r.render p params = .ok text)) ∧
    (∀ e, r.render p params = .error e →
      (∃ cause, e = .generation cause) ∨
        (e = .type .notIterable ∧ ∃ v ∈ p.binders, v.Unlisted params) ∨
        (e = .tooManyDigits ∧ ∃ v ∈ p.binders, v.Unwritable params) ∨
        (e = .noFirstDelimiter ∧ r.delimiters = [])) := by
  constructor
  · intro hsome hwritable
    -- Every fault is one that a caller is told of.
    have htold : ∀ e, r.render p params = .error e →
        (∃ cause, e = .generation cause) ∧ ∃ v ∈ p.binders, v.Lacks params ∨ v.Refuses params := by
      intro e he
      rcases cases_of_render_eq_error hsome hparts htotal he with
        ⟨v, hv, ⟨hcause, hvalue⟩ | ⟨_, hunlisted⟩ | ⟨_, hunwritable⟩⟩
      · exact ⟨hcause, v, hv, hvalue⟩
      · exact absurd hunlisted (hwritable v hv).1
      · exact absurd hunwritable (hwritable v hv).2
    refine ⟨⟨fun ⟨cause, he⟩ => (htold _ he).2, fun ⟨v, hv, hvalue⟩ => ?_⟩, fun hall => ?_⟩
    · rcases exists_render_error hsome hparts hv hvalue with ⟨e, he⟩
      rcases (htold e he).1 with ⟨cause, rfl⟩
      exact ⟨cause, he⟩
    · cases hrender : r.render p params with
      | ok text => exact ⟨text, rfl⟩
      | error e =>
          rcases (htold e hrender).2 with ⟨v, hv, hvalue⟩
          exact absurd hvalue (hall v hv)
  · intro e he
    by_cases hnone : r.delimiters = []
    · rw [render, hnone] at he
      cases he
      exact Or.inr (Or.inr (Or.inr ⟨rfl, hnone⟩))
    · rcases cases_of_render_eq_error hnone hparts htotal he with
        ⟨v, hv, ⟨hcause, _⟩ | ⟨htype, hunlisted⟩ | ⟨hdigits, hunwritable⟩⟩
      · exact Or.inl hcause
      · exact Or.inr (Or.inl ⟨htype, v, hv, hunlisted⟩)
      · exact Or.inr (Or.inr (Or.inl ⟨hdigits, v, hv, hunwritable⟩))

omit [Host] in
/-- The second element of a list is refused, although nothing is wrong with
    the first one. -/
theorem Route.render_fails_iff_of_refused :
    let g : Variable :=
      ⟨"g", some (.equality (.text "a")), .none, some "/", some ⟨false, none, true⟩⟩
    let p : Path := ⟨[], [.separator "/", .var g]⟩
    let route := Route.make "/*g" [p.parts] [] [] [] [] .none none ["/", "."] false
    (∃ cause, @Route.render Host.idle route p [("g", .list [.text "a", .int 5])] =
      .error (.generation cause)) ∧
    ∃ text, @Route.render Host.idle route p [("g", .list [.text "a", .text "a"])] = .ok text := by
  intro g p route
  have hbinders : p.binders = [g] := rfl
  have htotal : ∀ v ∈ p.binders, ∀ s, ∃ verdict,
      @Variable.accepts Host.idle v (.text s) = .ok verdict := by
    intro v hv s
    rw [hbinders, List.mem_singleton] at hv
    exact ⟨_, by rw [hv]; rfl⟩
  have hparts : ∀ c, Segment.condition c ∉ p.parts := by
    intro c hc
    simp [p] at hc
  -- All that is to be written are small numbers and texts.
  have hwritable : ∀ items texts, items.mapM Value.plain = .ok texts → ∀ v ∈ p.binders,
      ¬v.Unlisted [("g", .list items)] ∧ ¬v.Unwritable [("g", .list items)] := by
    intro items texts htexts v hv
    rw [hbinders, List.mem_singleton] at hv
    subst hv
    constructor
    · rintro ⟨x, hvalue, _, hunlisted⟩
      cases hvalue
      cases hunlisted
    · rintro ⟨x, hvalue, hunwritable⟩
      cases hvalue
      cases hunwritable.symm.trans htexts
  have hrefused := ((@Route.render_fails_iff Host.idle route p
    [("g", .list [.text "a", .int 5])] hparts htotal).1 (by decide)
    (hwritable _ ["a", "5"] (by cbv))).1
  have hgiven := ((@Route.render_fails_iff Host.idle route p
    [("g", .list [.text "a", .text "a"])] hparts htotal).1 (by decide)
    (hwritable _ ["a", "a"] (by cbv))).2
  refine ⟨hrefused.2 ⟨g, List.mem_singleton_self g, Or.inr ?_⟩, hgiven fun v hv hvalue => ?_⟩
  · exact ⟨_, ["a", "5"], rfl, by cbv, "5", by decide, by cbv⟩
  · rw [hbinders, List.mem_singleton] at hv
    rw [hv] at hvalue
    rcases hvalue with hlacks | ⟨x, texts, hx, htexts, s, hs, hrefuses⟩
    · cases hlacks
    · cases hx
      have hsame : g.texts? (.list [.text "a", .text "a"]) = .ok ["a", "a"] := by cbv
      cases hsame.symm.trans htexts
      have haccepts : @Variable.accepts Host.idle g (.text "a") = .ok true := by cbv
      rcases List.mem_pair.1 hs with rfl | rfl <;> cases haccepts.symm.trans hrefuses

/-- A number is no list, so that a glob it is given for ends the rendering. -/
example : @Route.render Host.idle
    (Route.make "/*g" [] [] [] [] [] .none none ["/", "."] false)
    ⟨[], [.separator "/", .var (.several "g" none false none)]⟩ [("g", .int 5)] =
    .error (.type .notIterable) := by cbv

end PathRouting
