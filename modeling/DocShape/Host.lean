import DocShape.Failure

/-!
# What the program takes from its surroundings

A `Host` stands for the interpreter and the libraries that the program relies on, with what it takes
from each of them: how deep the interpreter lets its codec and its pattern compiler recurse, the
names of characters, the lenient readers of the typed models and how deep they nest, the loader of
YAML, and the account of the calls that led to a failure. Nothing else is said of it here.
-/

namespace DocShape

/-- The interpreter and the libraries that the program relies on. -/
class Host where
  /-- How many brackets the codec lets stand inside each other. The calls inside of them that a number
  with a fraction takes, or the message of an error, are not counted. -/
  nesting : Nat
  /-- The characters that have a name. -/
  characterName : Text → Option CodePoint
  /-- The words of the interpreter where compiling a pattern exhausts its stack. -/
  exhaustion : Text → Option Text
  /-- How many typed blocks, object forms of bounds and lengths included, may stand inside each
  other. -/
  guard : Nat
  /-- The truth value that a property spells. -/
  flag : Value → Except TypeProblem Bool
  /-- The number that a property spells. -/
  number : Value → Except TypeProblem Number
  /-- The text that a property spells. -/
  text : Value → Except TypeProblem Text
  /-- The value that a YAML text holds. -/
  yaml : Text → Except Yaml.Fault Value
  /-- The account of the calls that led to a failure. -/
  traceback : Failure → Text

end DocShape
