import PathRouting.Proofs.Number.Numeral
import PathRouting.Proofs.Trie.Refinement
import PathRouting.Proofs.Validator.Bounds

/-!
# Validators of Numbers

Which texts the two validators of numbers accept. A validator of integers
accepts the numerals of the integers within its bounds, and a text with a
blank anywhere is no numeral. Where it has a digit count, it counts
characters: an underscore and a sign count like a digit, so a text that it
accepts has that many digits only if it has nothing else.

A validator of decimal numbers looks where the number stands on the line. It
accepts the points within its bounds, and the ends of the line only if it does
not ask for finite numbers. A not-a-number has no place on the line, so no
bound refuses it; it is accepted, whatever the bounds, exactly if finite
numbers are not asked for.

## Theorems

* `exists_acceptsInteger`, `exists_acceptsDecimal`: What is said of a text.
* `Validator.accepts_integer_iff`: A validator of integers accepts the
  numerals of integers within its bounds that have as many characters as it
  counts.
* `Validator.accepts_decimal_iff`: A validator of decimal numbers accepts the
  points within its bounds, and what is no point unless it asks for finite
  numbers.
* `Validator.accepts_notANumber_outside`: A not-a-number is accepted that is
  not within bounds.
-/

namespace PathRouting

/-- An integer keeps its sign when that of a zero is taken away, since it has
    none then. -/
theorem Form.ofNumber_ofInt (n : Int) : Form.ofNumber (.ofInt n) = .number (.ofInt n) := by
  rcases ofNumber_cases (.ofInt n) with h | ⟨negative, hzero, h⟩
  · exact h
  · have hn : n = 0 := by
      have hiszero := congrArg Binary64.isZero hzero
      rw [Binary64.isZero_ofInt] at hiszero
      simpa [Binary64.isZero] using hiszero
    rw [hn, Binary64.ofInt, Int.natAbs_zero, Nat.zero_mul]
    rfl

/-- An integer is equal to a value that is an integer if the two are one. -/
theorem Value.equal_whole_iff {v : Value} {n : Int} (h : v.whole? = some n) (k : Int) :
    (Value.int k).equal v = true ↔ k = n := by
  have hform : v.form = .number (.ofInt n) := by
    cases v with
    | bool b | int m =>
        rw [← Option.some.inj h, form, Form.ofNumber_ofInt]
    | _ => cases h
  have hself : (Value.int k).selfEqual = true := rfl
  rw [equal, hself, Bool.true_and, same_iff_form_eq, hform, form, Form.ofNumber_ofInt]
  constructor
  · intro heq
    rw [← Binary64.eqv_ofInt, Form.number.inj heq]
    exact (Binary64.eqv_ofInt n n).2 rfl
  · intro heq
    rw [heq]

/-- A digit count that is given has to be the length of the text. It is compared
    with all characters of the text and not with the digits among them. -/
theorem other_count_eq_false_iff {digits : Value} (h : digits.WholeIfGiven) (length : Nat) :
    (!digits.isNone && !(Value.int length).equal digits) = false ↔
      ∀ n, digits.whole? = some n → (length : Int) = n := by
  rcases h with hnone | hsome
  · rw [Value.eq_none_of_isNone hnone]
    simp [Value.isNone, Value.whole?]
  · rcases Option.isSome_iff_exists.1 hsome with ⟨n, hn⟩
    have hgiven : digits.isNone = false := by
      cases digits <;> first | rfl | cases hn
    rw [hgiven, hn]
    simp [← Value.equal_whole_iff hn]

theorem hasOuterBlanks_eq_false_iff {cs : List Char} :
    hasOuterBlanks cs = false ↔ Text.trim cs = cs := by
  simp [hasOuterBlanks]

section Accepts

variable {digits least most : Value} (cs : List Char)

/-- A text is accepted as an integer if it is a numeral of one within the
    bounds, and as long as the digit count says. -/
theorem exists_acceptsInteger (hdigits : digits.WholeIfGiven) (hleast : least.WholeIfGiven)
    (hmost : most.WholeIfGiven) :
    ∃ verdict, acceptsInteger digits least most cs = .ok verdict ∧
      (verdict = true ↔
        (∃ x, Number.Denotes cs x ∧ (∀ m, least.whole? = some m → m ≤ x) ∧
          ∀ m, most.whole? = some m → x ≤ m) ∧
        ∀ n, digits.whole? = some n → (cs.length : Int) = n) := by
  unfold acceptsInteger
  by_cases hcount : ∀ n, digits.whole? = some n → (cs.length : Int) = n
  · rw [(other_count_eq_false_iff hdigits cs.length).2 hcount]
    by_cases hclean : Text.trim cs = cs
    -- What is read of a text with clean ends is the integer that it denotes.
    · rw [hasOuterBlanks_eq_false_iff.2 hclean]
      have hread : ∀ x, Number.Denotes cs x ↔ Number.wholeNumber? cs = some x := fun x =>
        (Number.wholeNumber?_eq_some_iff (Text.trimBy_isPadding_of_trim hclean)).symm
      simp only [hread, and_iff_left hcount]
      cases Number.wholeNumber? cs with
      | none => exact ⟨false, rfl, by simp⟩
      | some n =>
          rcases exists_withinBounds hleast.pointIfGiven hmost.pointIfGiven (.ofInt n) with
            ⟨verdict, hverdict, hiff⟩
          rw [within_ofInt_iff hleast hmost] at hiff
          exact ⟨verdict, hverdict, by simpa using hiff⟩
    -- A numeral has clean ends.
    · have hblanks : hasOuterBlanks cs = true := by
        rwa [← Bool.not_eq_false, hasOuterBlanks_eq_false_iff]
      have hnone : ∀ x, ¬Number.Denotes cs x := fun x hx => hclean hx.trim_eq
      rw [hblanks]
      exact ⟨false, rfl, by simp [hnone]⟩
  · have hother : (!digits.isNone && !(Value.int cs.length).equal digits) = true := by
      rwa [← Bool.not_eq_false, other_count_eq_false_iff hdigits]
    rw [hother]
    exact ⟨false, rfl, by simp [hcount]⟩

/-- A text is accepted as a decimal number if it denotes one that has a place
    on the line and is within the bounds there, or if it denotes one without a
    place. In either case the number is finite if that is asked for. The two
    ways are kept apart because bounds have nothing to say about the second. -/
theorem exists_acceptsDecimal (hleast : least.PointIfGiven) (hmost : most.PointIfGiven)
    (finite : Value) :
    ∃ verdict, acceptsDecimal least most finite cs = .ok verdict ∧
      (verdict = true ↔ Text.trim cs = cs ∧ ∃ x, Number.binary64? cs = some x ∧
        (finite.truthy = true → x.isFinite = true) ∧
        ∀ p ∈ x.point?, (∀ b ∈ least.point?, b ≤ p) ∧ ∀ b ∈ most.point?, p ≤ b) := by
  unfold acceptsDecimal
  by_cases hclean : Text.trim cs = cs
  · rw [hasOuterBlanks_eq_false_iff.2 hclean]
    cases Number.binary64? cs with
    | none => exact ⟨false, rfl, by simp⟩
    | some x =>
        rcases exists_withinBounds hleast hmost x with ⟨verdict, hverdict, hiff⟩
        -- A number that is not finite is refused before the bounds are looked at, if finite ones
        -- are asked for.
        cases hfinite : finite.truthy && !x.isFinite with
        | true =>
            rw [Bool.and_eq_true, Bool.not_eq_true'] at hfinite
            exact ⟨false, by simp [hfinite], by simp [hfinite]⟩
        | false =>
            have hallowed : finite.truthy = true → x.isFinite = true := by
              intro htruthy
              simpa [htruthy] using hfinite
            refine ⟨verdict, by simp [hfinite, hverdict], hiff.trans ?_⟩
            simp only [hclean, true_and, Option.some.injEq, exists_eq_left']
            exact (and_iff_right hallowed).symm
  · have hblanks : hasOuterBlanks cs = true := by
      rwa [← Bool.not_eq_false, hasOuterBlanks_eq_false_iff]
    rw [hblanks]
    exact ⟨false, rfl, by simp [hclean]⟩

end Accepts

namespace Validator

section Host

variable [Host]

/-- A validator of integers judges the text of a value, and fails only if the
    value cannot be written as one; a text always can. It accepts a text exactly
    if that is a numeral of an integer within the bounds and has as many
    characters as the digit count says. So there is no blank in it, and its
    decimal digits, its underscores and its sign make up the count together. -/
theorem accepts_integer_iff {digits least most : Value} (hdigits : digits.WholeIfGiven)
    (hleast : least.WholeIfGiven) (hmost : most.WholeIfGiven) (v : Value) :
    let answer := (Validator.integer digits least most).accepts v
    (∀ e, v.plain = .error e → answer = .error e) ∧ ∀ s, v.plain = .ok s →
      let text := s.toList
      (answer = .ok true ∨ answer = .ok false) ∧
        (answer = .ok true ↔
          (∃ x, Number.Denotes text x ∧ (∀ m, least.whole? = some m → m ≤ x) ∧
            ∀ m, most.whole? = some m → x ≤ m) ∧
          ∀ n, digits.whole? = some n → (text.length : Int) = n) ∧
        (answer = .ok true → (∀ c ∈ text, Text.isBlank c = false) ∧
          ∀ n, digits.whole? = some n →
            (text.countP Text.isDigit : Int) + text.countP Number.isMark = n) := by
  intro answer
  refine ⟨fun e he => bind_eq_error.2 (Or.inl he), fun s hs => ?_⟩
  intro text
  -- The verdict on the text is what the validator answers, once the value is written.
  rcases exists_acceptsInteger text hdigits hleast hmost with ⟨verdict, hverdict, hiff⟩
  have hanswer : answer = .ok verdict := bind_eq_ok.2 ⟨s, hs, hverdict⟩
  have hok : answer = .ok true ↔ verdict = true := by rw [hanswer, Except.ok.injEq]
  refine ⟨?_, hok.trans hiff, fun haccepted => ?_⟩
  · rw [hanswer]
    cases verdict
    · exact Or.inr rfl
    · exact Or.inl rfl
  · rcases hiff.1 (hok.1 haccepted) with ⟨⟨x, hx, _⟩, hcount⟩
    refine ⟨hx.not_isBlank, fun n hn => ?_⟩
    rw [← hcount n hn, ← hx.countP_isDigit_add]
    exact (Nat.cast_add _ _).symm

/-- A validator of decimal numbers judges the text of a value, and fails only
    if the value cannot be written as one. It accepts a text exactly if that
    has clean ends and denotes a number that is either a point of the line
    within the bounds, and between the ends of the line if finite numbers are
    asked for, or no point at all where they are not asked for. -/
theorem accepts_decimal_iff {least most : Value} (hleast : least.PointIfGiven)
    (hmost : most.PointIfGiven) (finite v : Value) :
    let answer := (Validator.decimal least most finite).accepts v
    (∀ e, v.plain = .error e → answer = .error e) ∧ ∀ s, v.plain = .ok s →
      let text := s.toList
      (answer = .ok true ∨ answer = .ok false) ∧
        (answer = .ok true ↔ Text.trim text = text ∧ ∃ x, Number.binary64? text = some x ∧
          ((x.point? = none ∧ finite.truthy = false) ∨
            ∃ p, x.point? = some p ∧ (finite.truthy = true → ⊥ < p ∧ p < ⊤) ∧
              (∀ b ∈ least.point?, b ≤ p) ∧ ∀ b ∈ most.point?, p ≤ b)) := by
  intro answer
  refine ⟨fun e he => bind_eq_error.2 (Or.inl he), fun s hs => ?_⟩
  intro text
  rcases exists_acceptsDecimal text hleast hmost finite with ⟨verdict, hverdict, hiff⟩
  have hanswer : answer = .ok verdict := bind_eq_ok.2 ⟨s, hs, hverdict⟩
  have hok : answer = .ok true ↔ verdict = true := by rw [hanswer, Except.ok.injEq]
  refine ⟨?_, (hok.trans hiff).trans ?_⟩
  · rw [hanswer]
    cases verdict
    · exact Or.inr rfl
    · exact Or.inl rfl
  · refine and_congr_right fun _ => exists_congr fun x => and_congr_right fun _ => ?_
    rw [Binary64.isFinite_iff]
    -- A number has no place on the line, or it has one.
    cases x.point? with
    | none => simp
    | some p => simp

end Host

/-- A text that is as long as the count says and has one digit less, since a
    sign counts. -/
theorem accepts_integer_iff_of_sign :
    let text := "-5".toList
    @accepts Host.idle (.integer (.int 2) (.int (-9)) .none) (.text "-5") = .ok true ∧
      (text.countP Text.isDigit : Int) + text.countP Number.isMark = 2 ∧
      text.countP Text.isDigit = 1 := by
  intro text
  have htext : text = ['-', '5'] := by decide
  have hfive : Number.Digits ['5'] [5] := .last (by decide)
  have hdenotes : Number.Denotes text (-5) := by
    rw [htext]
    exact .minus hfive (by decide)
  rcases @accepts_integer_iff Host.idle (.int 2) (.int (-9)) .none (Or.inr rfl) (Or.inr rfl)
    (Or.inl rfl) (.text "-5") with ⟨_, htexts⟩
  rcases htexts "-5" rfl with ⟨_, hiff, hcounts⟩
  have haccepted := hiff.2 ⟨⟨-5, hdenotes, by simp [Value.whole?], by simp [Value.whole?]⟩,
    by simp [Value.whole?]⟩
  exact ⟨haccepted, (hcounts haccepted).2 2 rfl, by rw [htext]; decide⟩

/-- A text at the upper end of the line, with a bound and without asking for
    finite numbers. -/
theorem accepts_decimal_iff_of_infinity :
    @accepts Host.idle (.decimal (.int 0) .none (.bool false)) (.text "inf") = .ok true := by
  have hread : Number.binary64? "inf".toList = some (.infinity false) := by decide
  have hzero : (Value.int 0).point? = some (Line.between (0 : Int)) := Binary64.point?_ofInt 0
  refine ((@accepts_decimal_iff Host.idle (.int 0) .none (Or.inr (by rw [hzero]; rfl))
    (Or.inl rfl) (.bool false) (.text "inf")).2 "inf" rfl).2.2
    ⟨by decide, _, hread, Or.inr ⟨⊤, rfl, ?_, ?_, ?_⟩⟩
  · intro hfinite
    cases hfinite
  · simp
  · intro b hb
    cases hb

/-- A not-a-number is accepted between bounds, though it is not above the lower one. -/
theorem accepts_notANumber_outside :
    @accepts Host.idle (.decimal (.int 0) (.int 9) (.bool false)) (.text "nan") = .ok true ∧
      ∃ x, Number.binary64? "nan".toList = some x ∧
        ¬∃ p ∈ x.point?, ∃ b ∈ (Value.int 0).point?, b ≤ p := by
  refine ⟨rfl, .notANumber 0, by decide, ?_⟩
  rintro ⟨p, hp, _⟩
  cases hp

end Validator

end PathRouting
