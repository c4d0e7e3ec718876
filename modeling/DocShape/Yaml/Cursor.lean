import DocShape.Text
import DocShape.Yaml.Fault

/-!
# A place in a YAML text

A `Cursor` is the text that is left together with where it begins: the layout of a YAML text gives
it its structure, so lines and columns count. `Scan` is reading from a cursor. Its readers consume
what they read; the classes of this module look at the text that is left, where its end counts as
the end of a line.
-/

namespace DocShape.Yaml

/-! ## Characters -/

/-- Line feed, carriage return, next line, line separator and paragraph separator. -/
def isBreak (c : CodePoint) : Bool :=
  c.val == 0x0A || c.val == 0x0D || c.val == 0x85 || c.val == 0x2028 || c.val == 0x2029

/-- Space and tab. -/
def isGap (c : CodePoint) : Bool := c.val == 0x20 || c.val == 0x09

/-- Characters that a YAML text may hold: no controls but tab and breaks, no surrogates and no
noncharacters of the basic plane's end. -/
def isAllowed (c : CodePoint) : Bool :=
  c.val == 0x09 || c.val == 0x0A || c.val == 0x0D || (0x20 ≤ c.val && c.val ≤ 0x7E) ||
    c.val == 0x85 || (0xA0 ≤ c.val && c.val ≤ 0xD7FF) || (0xE000 ≤ c.val && c.val ≤ 0xFFFD) ||
    0x10000 ≤ c.val

/-- Whether a text is empty or begins with a character of a class. -/
def atEndOr (isMember : CodePoint → Bool) : Text → Bool
  | [] => true
  | c :: _ => isMember c

/-- At the end of a line. -/
def atLineEnd : Text → Bool := atEndOr isBreak

/-- At a space or the end of a line. -/
def atSpace : Text → Bool := atEndOr fun c => c.val == 0x20 || isBreak c

/-- At a space, a tab or the end of a line. -/
def atBlank : Text → Bool := atEndOr fun c => isGap c || isBreak c

/-- Whether a text begins with a character. -/
def startsWith (c : CodePoint) (t : Text) : Bool := t.head? == some c

/-- Whether a text begins with a character of a list. -/
def startsWithAny (cs : Text) (t : Text) : Bool := t.head?.any cs.contains

/-- At `---` or `...` on its own. -/
def atDocumentMark (t : Text) : Bool :=
  (t.take 3 == "---" || t.take 3 == "...") && atBlank (t.drop 3)

/-! ## Cursors -/

/-- The text that is left and where it begins, counted from zero. -/
structure Cursor where
  rest : Text
  index : Nat
  line : Nat
  column : Nat

namespace Cursor

/-- The cursor behind the next character. A byte order mark has no width. -/
def next (c : Cursor) : Cursor :=
  match c.rest with
  | [] => c
  | x :: rest =>
    if isBreak x && !(x == '\r' && startsWith '\n' rest) then ⟨rest, c.index + 1, c.line + 1, 0⟩
    else if x == .byteOrderMark then ⟨rest, c.index + 1, c.line, c.column⟩
    else ⟨rest, c.index + 1, c.line, c.column + 1⟩

/-- The cursor behind the next `n` characters. -/
def drop : Nat → Cursor → Cursor
  | 0, c => c
  | n + 1, c => drop n c.next

end Cursor

/-- Reading from a cursor. -/
abbrev Scan := StateT Cursor (Except Fault)

namespace Scan

/-- The text is no YAML. -/
def refuse {α : Type} : Scan α := throw .unstructured

/-- The text that is left. -/
def rest : Scan Text := do return (← get).rest

/-- How many characters are left, and one. -/
def fuel : Scan Nat := do return (← rest).length + 1

/-- Consumes some characters. -/
def skip (n : Nat) : Scan Unit := modify (Cursor.drop n)

/-- Consumes some characters and gives them. -/
def take (n : Nat) : Scan Text := do
  let t ← rest
  skip n
  return t.take n

/-- Consumes the characters of a class at the front and gives them. -/
def takeWhile (isMember : CodePoint → Bool) : Scan Text := do
  take ((← rest).takeWhile isMember).length

/-- Consumes spaces. -/
def skipSpaces : Scan Unit := do
  discard <| takeWhile (· == ' ')

/-- The text that is left must satisfy a test. -/
def expect (test : Text → Bool) : Scan Unit := do
  if test (← rest) then return () else refuse

/-- Consumes a line break, if there is one, and gives what it stands for. -/
def lineBreak : Scan Text := do
  match ← rest with
  | [] => return []
  | c :: t =>
    if !isBreak c then return []
    else if c == '\r' && startsWith '\n' t then
      skip 2
      return "\n"
    else
      skip 1
      return (if c.val == 0x2028 || c.val == 0x2029 then [c] else "\n")

/-- Consumes a comment. -/
def comment : Scan Unit := do
  if startsWith '#' (← rest) then
    discard <| takeWhile (!isBreak ·)

/-- Consumes the end of a line, which may hold a comment. -/
def restOfLine : Scan Unit := do
  skipSpaces
  comment
  expect atLineEnd
  discard lineBreak

end Scan

end DocShape.Yaml
