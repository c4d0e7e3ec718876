import DocShape.Pattern.Syntax

/-!
# Matching by search with backtracking

A node is run at a cursor, with the rest of the pattern given as a continuation: it tries its own
possibilities in order of preference and stops at the first for which the continuation succeeds.
Running is by recursion on the node. A repeat takes its further rounds only where the cursor has
moved since the round before, so the code points that are left bound their number.
-/

namespace DocShape.Pattern

/-- A place in a text: what lies before it, in reverse, and what lies after it. -/
structure Cursor where
  before : Text
  after : Text
  position : Nat

namespace Cursor

/-- The start of a text. -/
def start (t : Text) : Cursor := ⟨[], t, 0⟩

/-- The cursor moved back by some code points, if there are so many. -/
def back? : Nat → Cursor → Option Cursor
  | 0, c => some c
  | n + 1, ⟨x :: before, after, position⟩ => back? n ⟨before, x :: after, position - 1⟩
  | _ + 1, ⟨[], _, _⟩ => none

end Cursor

/-- A cursor and the text that each group matched last. -/
structure State where
  cursor : Cursor
  groups : List (Nat × Text)

/-- What remains to be matched. -/
abbrev Next := State → Option State

/-- Whether a code point is of a category. Under the ASCII flag only ASCII characters are. -/
def Category.holds (category : Category) (ascii : Bool) (c : CodePoint) : Bool :=
  (!ascii || c.val < 128) && match category with
  | .digit => c.isDecimalDigit
  | .space => c.isBlank && !(ascii && 0x1C ≤ c.val && c.val ≤ 0x1F)
  | .word => c.isWordChar

/-- The small letter, by the ASCII letters alone if asked so. -/
def fold (ascii : Bool) (c : CodePoint) : CodePoint := if ascii then c.toLowerAscii else c.toLower

namespace CharSet

/-- Whether an entry has the code point. -/
def itemHas (ascii : Bool) (c : CodePoint) : SetItem → Bool
  | .char d => c = d
  | .range low high => low ≤ c && c ≤ high
  | .category k negated => k.holds ascii c != negated

/-- The code points that equal a small letter when case is ignored. -/
def variants (ascii : Bool) (c : CodePoint) : List CodePoint :=
  if ascii then
    if 0x61 ≤ c.val && c.val ≤ 0x7A then [c, CodePoint.ofNat (c.val - 0x20)] else [c]
  else c.withLower ++ c.casePartners.flatMap CodePoint.withLower

/-- Whether an entry has the code point when case is ignored: one of its variants is meant. -/
def itemHasFolded (ascii : Bool) (c : CodePoint) : SetItem → Bool
  | .category k negated => k.holds ascii c != negated
  | item => (variants ascii c).any (itemHas ascii · item)

/-- Whether the set has the code point. -/
def has (set : CharSet) (c : CodePoint) : Bool :=
  let found :=
    if set.ignoreCase then set.items.any (itemHasFolded set.ascii (fold set.ascii c))
    else set.items.any (itemHas set.ascii c)
  found != set.negated

end CharSet

namespace Anchor

/-- Whether the cursor stands between a word character and something else. -/
def atBoundary (ascii : Bool) (c : Cursor) : Bool :=
  let isWord (t : Text) : Bool := match t with
    | [] => false
    | x :: _ => Category.word.holds ascii x
  isWord c.before != isWord c.after

/-- Whether the text is empty, where no place is between its characters. -/
def inEmptyText (c : Cursor) : Bool := c.before.isEmpty && c.after.isEmpty

/-- Whether the cursor is at such a place. -/
def holds (c : Cursor) : Anchor → Bool
  | textStart => c.before.isEmpty
  | lineStart => c.before.isEmpty || c.before.head? == some '\n'
  | textEnd => c.after.isEmpty
  | finalLineEnd => c.after.isEmpty || c.after == [CodePoint.ofChar '\n']
  | lineEnd => c.after.isEmpty || c.after.head? == some '\n'
  | wordBoundary ascii => atBoundary ascii c
  | noWordBoundary ascii => !inEmptyText c && !atBoundary ascii c

end Anchor

/-- Takes one code point that satisfies a test. -/
def takeOne (test : CodePoint → Bool) (next : Next) (s : State) : Option State :=
  match s.cursor with
  | ⟨_, [], _⟩ => none
  | ⟨before, c :: after, position⟩ =>
    if test c then next { s with cursor := ⟨c :: before, after, position + 1⟩ } else none

/-- Takes a text again, code point by code point. -/
def takeText (same : CodePoint → CodePoint → Bool) : Text → Next → Next
  | [], next => next
  | c :: rest, next => takeOne (same c) (takeText same rest next)

/-- Runs a body a fixed number of times. -/
def times (body : Next → Next) : Nat → Next → Next
  | 0, next => next
  | n + 1, next => fun s => body (times body n next) s

/-- Further rounds of a body, at most `most` if there is a bound, and none from the place where the
last one began. The fuel is at least the number of places that are left. -/
def rounds (body : Next → Next) (eager : Bool) (next : Next) :
    (fuel : Nat) → (most : Option Nat) → (last : Option Nat) → State → Option State
  | 0, _, _, s => next s
  | fuel + 1, most, last, s =>
    let again : Unit → Option State := fun _ =>
      if most = some 0 ∨ last = some s.cursor.position then none
      else body (rounds body eager next fuel (most.map (· - 1)) (some s.cursor.position)) s
    if eager then
      match again () with
      | some r => some r
      | none => next s
    else
      match next s with
      | some r => some r
      | none => again ()

/-- Runs a body and never returns into it. -/
def once (body : Next → Next) (next : Next) (s : State) : Option State :=
  match body some s with
  | some s => next s
  | none => none

/-- A body between its least and its most number of times. -/
def repeating (body : Next → Next) (eager : Bool) (least : Nat) (most : Option Nat) (next : Next) :
    Next :=
  times body least fun s =>
    rounds body eager next (s.cursor.after.length + 2) (most.map (· - least)) none s

/-- The text that a group matched last. -/
def State.group? (s : State) (index : Nat) : Option Text :=
  (s.groups.find? (·.1 == index)).map (·.2)

/-- Runs a node. -/
def Node.run : Node → Next → Next
  | empty, next, s => next s
  | anyChar newline, next, s => takeOne (fun c => newline || c ≠ '\n') next s
  | oneOf set, next, s => takeOne set.has next s
  | anchor a, next, s => if a.holds s.cursor then next s else none
  | seq a b, next, s => a.run (b.run next) s
  | alt a b, next, s =>
    match a.run next s with
    | some r => some r
    | none => b.run next s
  | repeated .greedy least most body, next, s => repeating body.run true least most next s
  | repeated .lazy least most body, next, s => repeating body.run false least most next s
  | repeated .possessive least most body, next, s =>
    once (repeating (once body.run) true least most) next s
  | group index body, next, s =>
    body.run (fun t =>
      let matched := (t.cursor.before.take (t.cursor.position - s.cursor.position)).reverse
      next { t with groups := (index, matched) :: t.groups.filter (·.1 != index) }) s
  | atomic body, next, s => once body.run next s
  | look behind negated body, next, s =>
    let from? := if behind then s.cursor.back? body.width.1 else some s.cursor
    let found := match from? with
      | none => none
      | some cursor => body.run some { s with cursor := cursor }
    match found, negated with
    | some t, false => next { s with groups := t.groups }
    | none, true => next s
    | _, _ => none
  | backref index ignoreCase ascii _ _, next, s =>
    match s.group? index with
    | none => none
    | some t =>
      let same (a b : CodePoint) : Bool :=
        if ignoreCase then fold ascii a == fold ascii b else a == b
      takeText same t next s
  | ifGroup index yes no, next, s =>
    if (s.group? index).isSome then yes.run next s else no.run next s

/-- Whether the node matches at the cursor or at some later place of its text. -/
def Node.findsFrom (n : Node) (before : Text) (position : Nat) : Text → Bool
  | [] => (n.run some ⟨⟨before, [], position⟩, []⟩).isSome
  | c :: after =>
    (n.run some ⟨⟨before, c :: after, position⟩, []⟩).isSome ||
      n.findsFrom (c :: before) (position + 1) after

/-- Whether the node matches somewhere in a text. -/
def Node.finds (n : Node) (t : Text) : Bool := n.findsFrom [] 0 t

end DocShape.Pattern
