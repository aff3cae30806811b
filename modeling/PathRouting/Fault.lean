import PathRouting.Regex.Lexeme
import PathRouting.Text.Quoted

/-!
# Faults

Everything that can go wrong, by cause. A path that matches no route is not
among them: that is an answer. The wording of each fault is one function of its
cause, so the layers that detect a fault only say what they found.

A fault that shows a value of the application holds the written form of it. To
write a value may fail by itself, on a number with too many digits, and then
that is the fault, whatever else was found.

## Main definitions

* `PatternFault`: A pattern is malformed.
* `ConfigFault`: A requirement, default or condition does not fit.
* `GenerationFault`: A path cannot be generated from the parameters.
* `OptionFault`: An option has an unacceptable value.
* `TypeFault`: A value is of a kind that an operation cannot work with.
* `HostFault`: A function of the application failed.
* `Fault`: All of them.
* `Fault.message`: The wording.

## Theorems

* `bind_eq_ok`: A chain of two steps comes out well exactly if both do.
* `bind_eq_error`: It fails if one of them does.
* `mem_of_mapM_ok`: Where every element is worked on, each result comes from
  one of them.
-/

namespace PathRouting

/-- Why a pattern is malformed. -/
inductive PatternFault where
  | strayBrace (position : Nat)
  | openBrace (position : Nat)
  | strayParenthesis
  | openParenthesis
  | bareAlternatives
  | greedyWithoutRegex (body : String)
  | notAVariable (body : String)
  | missingRegex (body : String)
  | malformedRegex (source : String)
  | malformedName (name : String)
  | duplicateName (name : String)
  /-- A variable stands next to something other than a separator. -/
  | adjacent (binder neighbor : String)
  /-- An expression asks for more repetitions than can be counted. -/
  | expression (defect : Regex.Defect)
  deriving DecidableEq, Repr

/-- What undeclared names were meant to receive. -/
inductive Attachment where
  | requirement
  | default
  deriving DecidableEq, Repr

/-- Why requirements, defaults or conditions do not fit. -/
inductive ConfigFault where
  | absentRequirement
  | malformedRegex (source : String)
  | undeclared (pattern : String) (names : List String) (attachment : Attachment)
  | unknownConditions (unknown expected : List String)
  | absentCondition (kind : String)

/-- Why a path cannot be generated. -/
inductive GenerationFault where
  | unnamed (name : String)
  | unmatched (names : List String)
  | missing (name pattern : String)
  | rejected (value name pattern : String)

/-- Why the value of an option is not acceptable. -/
inductive OptionFault where
  | noDelimiters
  | notACharacter (delimiter : String)
  | reservedCharacter (delimiter : String)
  | duplicateDelimiters
  | duplicateMethods
  | tooFewDigits

/-- Why an operation cannot work with a kind of value. -/
inductive TypeFault where
  | notAKey
  | notIterable
  | notComparable
  | notText
  | notFields
  | unknownField (name : String)
  deriving DecidableEq, Repr

/-- How a function of the application failed. -/
inductive HostFault where
  | missingKey (key : String)
  | badValue (message : String)
  | wrongType
  | overflow

/-- A chain of two steps comes out well exactly if both do, whatever a fault is. -/
theorem bind_eq_ok {ε β γ : Type} {x : Except ε β} {f : β → Except ε γ} {c : γ} :
    x >>= f = .ok c ↔ ∃ b, x = .ok b ∧ f b = .ok c := by
  constructor
  · intro h
    cases x with
    | error e => cases h
    | ok b => exact ⟨b, rfl, h⟩
  · intro hsteps
    rcases hsteps with ⟨b, rfl, h⟩
    exact h

/-- A chain of two steps fails if one of them does, with its fault. -/
theorem bind_eq_error {ε β γ : Type} {x : Except ε β} {f : β → Except ε γ} {e : ε} :
    x >>= f = .error e ↔ x = .error e ∨ ∃ b, x = .ok b ∧ f b = .error e := by
  cases x with
  | error d =>
      constructor
      · intro h
        cases h
        exact Or.inl rfl
      · rintro (h | ⟨_, h, _⟩)
        · cases h
          rfl
        · cases h
  | ok b =>
      constructor
      · intro h
        exact Or.inr ⟨b, rfl, h⟩
      · rintro (h | ⟨_, h, hf⟩)
        · cases h
        · cases h
          exact hf

/-- Where every element of a list is worked on, each result comes from one of them. -/
theorem mem_of_mapM_ok {ε β γ : Type} {f : β → Except ε γ} {l : List β} {done : List γ}
    (h : l.mapM f = .ok done) {c : γ} (hc : c ∈ done) : ∃ b ∈ l, f b = .ok c := by
  induction l generalizing done with
  | nil =>
    cases h
    exact absurd hc List.not_mem_nil
  | cons b rest ih =>
    rw [List.mapM_cons] at h
    obtain ⟨first, hfirst, h⟩ := bind_eq_ok.1 h
    obtain ⟨more, hmore, h⟩ := bind_eq_ok.1 h
    cases h
    rcases List.mem_cons.1 hc with rfl | hc
    · exact ⟨b, List.mem_cons_self, hfirst⟩
    · obtain ⟨a, ha, hf⟩ := ih hmore hc
      exact ⟨a, List.mem_cons_of_mem _ ha, hf⟩

/-- Where some element of a list cannot be worked on, it is the one whose
    fault comes out. -/
theorem mem_of_mapM_error {ε β γ : Type} {f : β → Except ε γ} {l : List β} {e : ε}
    (h : l.mapM f = .error e) : ∃ b ∈ l, f b = .error e := by
  induction l with
  | nil => cases h
  | cons b rest ih =>
    rw [List.mapM_cons] at h
    rcases bind_eq_error.1 h with h | ⟨_, _, h⟩
    · exact ⟨b, List.mem_cons_self, h⟩
    · rcases bind_eq_error.1 h with h | ⟨_, _, h⟩
      · obtain ⟨a, ha, hf⟩ := ih h
        exact ⟨a, List.mem_cons_of_mem _ ha, hf⟩
      · cases h

/-- Everything that can go wrong. -/
inductive Fault where
  | pattern (source : String) (cause : PatternFault)
  | config (cause : ConfigFault)
  /-- A variable cannot share its place with the one already there. -/
  | ambiguous (added held : String)
  | generation (cause : GenerationFault)
  | option (cause : OptionFault)
  | type (cause : TypeFault)
  | host (cause : HostFault)
  /-- An element that should be a name and a value has so many elements. -/
  | notAPair (position length : Nat)
  /-- An expression cannot be compiled. -/
  | expression (defect : Regex.Defect)
  /-- A number has more digits than are written. -/
  | tooManyDigits
  /-- There is no first delimiter to fall back on. -/
  | noFirstDelimiter
  /-- The request does not have the attribute. -/
  | missingAttribute (name : String)
  /-- A segment does not change once it is made. -/
  | immutable (kind : String)
  /-- A visitor does not know how to describe this. -/
  | undescribed (subject : String)

/-- The wording of what is wrong with an expression. -/
def Regex.Defect.message : Regex.Defect → String
  | .malformed => "The expression is malformed"
  | .countTooLarge => "the repetition number is too large"
  | .countTooLong digits => Number.tooLongMessage digits
  | .clashingModes => "ASCII and UNICODE flags are incompatible"

/-- The wording of what is wrong with a pattern, which every message quotes. -/
def PatternFault.message (pattern : String) : PatternFault → String
  | .strayBrace position =>
    "Unbalanced \"\x7d\" at position " ++ toString position ++ " of " ++ Text.quoted pattern
  | .openBrace position =>
    "Unbalanced \"\x7b\" at position " ++ toString position ++ " of " ++ Text.quoted pattern
  | .strayParenthesis => "Unbalanced \")\" in " ++ Text.quoted pattern
  | .openParenthesis => "Unbalanced \"(\" in " ++ Text.quoted pattern
  | .bareAlternatives =>
    "Alternatives (\"|\") must be enclosed in parentheses in " ++ Text.quoted pattern
  | .greedyWithoutRegex body =>
    "A greedy variable requires a regular expression: \x7b" ++ body ++ "\x7d in " ++
      Text.quoted pattern
  | .notAVariable body =>
    "Expected a variable (\":\", \"*\" or \"!\") inside \x7b" ++ body ++ "\x7d in " ++
      Text.quoted pattern
  | .missingRegex body =>
    "Expected a regular expression after \",\" in \x7b" ++ body ++ "\x7d in " ++
      Text.quoted pattern
  | .malformedRegex source =>
    "Invalid regular expression " ++ Text.quoted source ++ " in " ++ Text.quoted pattern
  | .malformedName name =>
    "Variable names must be valid identifiers (\"" ++ name ++ "\" is not valid) in " ++
      Text.quoted pattern
  | .duplicateName name =>
    "Variable names may not be duplicated (\"" ++ name ++ "\" was used more than once) in " ++
      Text.quoted pattern
  | .adjacent binder neighbor =>
    "A variable must span an entire path segment (\"" ++ binder ++ "\" is adjacent to \"" ++
      neighbor ++ "\") in " ++ Text.quoted pattern
  | .expression defect => defect.message

/-- The word for what names were meant to receive. -/
def Attachment.word : Attachment → String
  | .requirement => "requirement"
  | .default => "default"

/-- The wording of what does not fit. -/
def ConfigFault.message : ConfigFault → String
  | .absentRequirement => "A requirement may not be None"
  | .malformedRegex source => "Invalid regular expression: " ++ Text.quoted source
  | .undeclared pattern names attachment =>
    "The pattern " ++ Text.quoted pattern ++ " has no variable named " ++
      commaSeparated (names.map Text.quoted) ++ " to attach a " ++ attachment.word ++ " to"
  | .unknownConditions unknown expected =>
    "Unknown condition(s) " ++ commaSeparated (unknown.map Text.quoted) ++
      "; expected one of " ++ commaSeparated expected
  | .absentCondition kind => "The condition on " ++ kind ++ " may not be None"

/-- The wording of why there is no path. -/
def GenerationFault.message : GenerationFault → String
  | .unnamed name => "No route is named " ++ name
  | .unmatched names => "No route can be generated from " ++ writtenList names
  | .missing name pattern =>
    "No value given for \"" ++ name ++ "\" in " ++ Text.quoted pattern
  | .rejected value name pattern =>
    "The value " ++ Text.quoted value ++ " does not satisfy the requirement for \"" ++ name ++
      "\" in " ++ Text.quoted pattern

/-- The wording of what is not acceptable. -/
def OptionFault.message : OptionFault → String
  | .noDelimiters => "At least one delimiter is required"
  | .notACharacter delimiter =>
    "Delimiters must be single characters (" ++ delimiter ++ " is not valid)"
  | .reservedCharacter delimiter =>
    "The character " ++ Text.quoted delimiter ++
      " is reserved by the pattern syntax and may not be used as a delimiter"
  | .duplicateDelimiters => "Delimiters may not be duplicated"
  | .duplicateMethods => "Request methods may not be duplicated"
  | .tooFewDigits => "num_digits must be at least 1"

/-- The wording of what kind of value was met. -/
def TypeFault.message : TypeFault → String
  | .notAKey => "The value may not be used as a key"
  | .notIterable => "The value has no elements"
  | .notComparable => "The values cannot be compared"
  | .notText => "A text was expected"
  | .notFields => "Values by name were expected"
  | .unknownField name => "Unknown field " ++ Text.quoted name

/-- The wording of how the application failed. -/
def HostFault.message : HostFault → String
  | .missingKey key => key
  | .badValue message => message
  | .wrongType => "The function does not take this kind of value"
  | .overflow => "The value is too large"

/-- The fault that a malformed pattern is. A count that is too large has
    nothing to do with the pattern, so the fault does not mention it. -/
def Fault.ofPattern (source : String) : PatternFault → Fault
  | .expression defect => .expression defect
  | cause => .pattern source cause

/-- The wording of a fault. -/
def Fault.message : Fault → String
  | .pattern source cause => cause.message source
  | .config cause => cause.message
  | .ambiguous added held =>
    "The variable " ++ added ++ " conflicts with the variable " ++ held ++
      " already routed at the same position. Variables sharing a position must have the same " ++
      "name, kind, and requirement."
  | .generation cause => cause.message
  | .option cause => cause.message
  | .type cause => cause.message
  | .host cause => cause.message
  | .notAPair position length =>
    "dictionary update sequence element #" ++ toString position ++ " has length " ++
      toString length ++ "; 2 is required"
  | .expression defect => defect.message
  | .tooManyDigits => Number.tooLongToWrite
  | .noFirstDelimiter => "There is no delimiter"
  | .missingAttribute name => "The request has no attribute " ++ Text.quoted name
  | .immutable kind => kind ++ " is immutable"
  | .undescribed subject => "This visitor does not support " ++ subject

end PathRouting
