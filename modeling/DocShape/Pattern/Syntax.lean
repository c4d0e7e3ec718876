import DocShape.Text.Classes

/-!
# The syntax of patterns

A `Node` is a pattern as a tree, with the flags already applied to each part of it. `Node.width`
bounds how many code points a node can match; a look-behind needs both bounds to agree.
-/

namespace DocShape.Pattern

/-- The flags in force at a place of a pattern. -/
structure Flags where
  ignoreCase : Bool
  multiline : Bool
  dotAll : Bool
  spaced : Bool
  ascii : Bool
  unicode : Bool
  template : Bool
deriving DecidableEq

namespace Flags

/-- No flag. -/
def none : Flags := ⟨false, false, false, false, false, false, false⟩

/-- The flag that a letter stands for; `L` is no flag for texts. -/
def ofLetter? (c : CodePoint) : Option Flags :=
  if c = 'i' then some { none with ignoreCase := true }
  else if c = 'm' then some { none with multiline := true }
  else if c = 's' then some { none with dotAll := true }
  else if c = 'x' then some { none with spaced := true }
  else if c = 'a' then some { none with ascii := true }
  else if c = 'u' then some { none with unicode := true }
  else if c = 't' then some { none with template := true }
  else Option.none

/-- The flags of either. -/
def union (f g : Flags) : Flags :=
  ⟨f.ignoreCase || g.ignoreCase, f.multiline || g.multiline, f.dotAll || g.dotAll,
    f.spaced || g.spaced, f.ascii || g.ascii, f.unicode || g.unicode, f.template || g.template⟩

/-- The flags of the first that the second lacks. -/
def without (f g : Flags) : Flags :=
  ⟨f.ignoreCase && !g.ignoreCase, f.multiline && !g.multiline, f.dotAll && !g.dotAll,
    f.spaced && !g.spaced, f.ascii && !g.ascii, f.unicode && !g.unicode, f.template && !g.template⟩

/-- The flags of both. -/
def inter (f g : Flags) : Flags := f.without (f.without g)

/-- The flags inside a group that turns some on and some off; choosing a character set by `a` or
`u` replaces the choice made outside. -/
def within (f on off : Flags) : Flags :=
  let f := if on.ascii || on.unicode then { f with ascii := false, unicode := false } else f
  (f.union on).without off

end Flags

/-- Classes of characters that have an escape of their own. -/
inductive Category where
  | digit
  | space
  | word
deriving DecidableEq

/-- One entry of a character set. -/
inductive SetItem where
  | char (c : CodePoint)
  | range (low high : CodePoint)
  | category (c : Category) (negated : Bool)
deriving DecidableEq

/-- A set of characters, as it stands in brackets or alone. -/
structure CharSet where
  items : List SetItem
  negated : Bool
  ignoreCase : Bool
  ascii : Bool
deriving DecidableEq

/-- Places in a text that a pattern can ask for. -/
inductive Anchor where
  | textStart
  | lineStart
  | textEnd
  | finalLineEnd
  | lineEnd
  | wordBoundary (ascii : Bool)
  | noWordBoundary (ascii : Bool)
deriving DecidableEq

/-- How a repeat chooses its count: as many as possible, as few as possible, or as many as possible
without giving any back. -/
inductive Greed where
  | greedy
  | lazy
  | possessive
deriving DecidableEq

/-- A pattern as a tree. -/
inductive Node where
  | empty
  | anyChar (newline : Bool)
  | oneOf (set : CharSet)
  | anchor (a : Anchor)
  | seq (first second : Node)
  | alt (first second : Node)
  | repeated (greed : Greed) (least : Nat) (most : Option Nat) (body : Node)
  | group (index : Nat) (body : Node)
  | atomic (body : Node)
  | look (behind negated : Bool) (body : Node)
  | backref (group : Nat) (ignoreCase ascii : Bool) (least most : Nat)
  | ifGroup (group : Nat) (yes no : Node)
deriving DecidableEq

namespace Node

/-- The nodes one after the other. -/
def ofList : List Node → Node
  | [] => empty
  | [n] => n
  | n :: ns => seq n (ofList ns)

/-- The nodes as alternatives, earlier ones preferred. -/
def ofAlternatives : List Node → Node
  | [] => empty
  | [n] => n
  | n :: ns => alt n (ofAlternatives ns)

/-- Widths are not counted beyond this. -/
def widthLimit : Nat := Nat.pow 2 64

/-- The fewest and the most code points that a node matches. -/
def width : Node → Nat × Nat
  | empty | anchor _ | look _ _ _ => (0, 0)
  | anyChar _ | oneOf _ => (1, 1)
  | seq a b => (min widthLimit (a.width.1 + b.width.1), min widthLimit (a.width.2 + b.width.2))
  | alt a b => (min a.width.1 b.width.1, max a.width.2 b.width.2)
  | repeated _ least most body =>
    (min widthLimit (body.width.1 * least),
      match most with
      | some n => min widthLimit (body.width.2 * n)
      | none => if body.width.2 = 0 then 0 else widthLimit)
  | group _ body | atomic body => body.width
  | backref _ _ _ least most => (least, most)
  | ifGroup _ yes no => (min yes.width.1 no.width.1, max yes.width.2 no.width.2)

end Node

end DocShape.Pattern
