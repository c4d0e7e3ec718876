import DocShape.Host
import DocShape.Schema.Coercion
import DocShape.Yaml.Reader

/-!
# The host that the program runs on

The interpreter with a stack of a thousand calls, the typed models with their lenient readers, and
the loader of YAML as this library has them. How much of the stack is left to the codec and to the
pattern compiler depends on their caller; what stands here is what is left when decoding or encoding is
called from the outermost level. No names of characters beyond a few are kept, and no account of the calls
before a failure.
-/

namespace DocShape

namespace Reference

/-- Some characters by their names. -/
def namedCharacters : List (Text × CodePoint) :=
  [("SPACE", .ofChar ' '), ("DIGIT ZERO", .ofChar '0'), ("DIGIT ONE", .ofChar '1'),
    ("LATIN SMALL LETTER A", .ofChar 'a'), ("LATIN CAPITAL LETTER A", .ofChar 'A'),
    ("FULL STOP", .ofChar '.'), ("HYPHEN-MINUS", .ofChar '-'), ("LOW LINE", .ofChar '_'),
    ("NO-BREAK SPACE", .ofNat 0xA0), ("LATIN SMALL LETTER E WITH ACUTE", .ofNat 0xE9),
    ("EURO SIGN", .ofNat 0x20AC), ("SNOWMAN", .ofNat 0x2603)]

/-- The character with a name, in letters of either case. -/
def characterName (name : Text) : Option CodePoint :=
  let upper := name.map fun c : CodePoint =>
    if decide ('a'.toNat ≤ c.val) && decide (c.val ≤ 'z'.toNat) then CodePoint.ofNat (c.val - 32)
    else c
  (namedCharacters.find? fun entry => entry.1 = upper).map (·.2)

/-- How deep groups open in a pattern, behind so many that are open. What is escaped or stands in
brackets opens none. -/
def groupDepth (inSet : Bool) (level : Nat) : Text → Nat
  | [] => 0
  | c :: rest =>
    if c = '\\' then
      match rest with
      | [] => 0
      | _ :: rest => groupDepth inSet level rest
    else if inSet then groupDepth (c ≠ ']') level rest
    else if c = '[' then groupDepth true level rest
    else if c = '(' then max (level + 1) (groupDepth false (level + 1) rest)
    else if c = ')' then groupDepth false (level - 1) rest
    else groupDepth false level rest

/-- The words where the groups of a pattern stand too deep inside each other. -/
def exhaustion (pattern : Text) : Option Text :=
  if groupDepth false 0 pattern ≤ 492 then none
  else some "maximum recursion depth exceeded while calling a Python object"

/-- The host that the program runs on. -/
scoped instance host : Host where
  nesting := 993
  characterName := Reference.characterName
  exhaustion := Reference.exhaustion
  guard := 254
  flag := Coercion.flag
  number := Coercion.number
  text := Coercion.text
  yaml := Yaml.read
  traceback _ := "<traceback>\n"

end Reference

end DocShape
