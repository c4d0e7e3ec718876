import DocShape.Text
import DocShape.Text.ClassTable

/-!
# Character classes

Membership in the classes of `ClassTable`, and letters compared without regard to case. A class is
looked up by the number of boundaries at or below the code point: an odd number means inside.
-/

namespace DocShape

/-- How many of the sorted boundaries from `low` to below `high` are at most `n`, plus `low`. -/
def boundariesUpTo (boundaries : Array Nat) (n : Nat) : (fuel low high : Nat) → Nat
  | 0, low, _ => low
  | fuel + 1, low, high =>
    if low < high then
      let mid := (low + high) / 2
      if boundaries.getD mid 0 ≤ n then boundariesUpTo boundaries n fuel (mid + 1) high
      else boundariesUpTo boundaries n fuel low mid
    else low

/-- Membership in the class with these boundaries. -/
def inClass (boundaries : Array Nat) (c : CodePoint) : Bool :=
  boundariesUpTo boundaries c.val 32 0 boundaries.size % 2 == 1

namespace CodePoint

/-- A letter, digit or other numeric character of any script. -/
def isAlphanumeric (c : CodePoint) : Bool := inClass ClassTable.alphanumeric c

/-- A letter of any script. -/
def isAlphabetic (c : CodePoint) : Bool := inClass ClassTable.alphabetic c

/-- A letter, digit or numeric character of any script, or `_`. -/
def isWordChar (c : CodePoint) : Bool := c.val == 0x5F || c.isAlphanumeric

/-- A decimal digit of any script. -/
def isDecimalDigit (c : CodePoint) : Bool := inClass ClassTable.decimalDigit c

/-- The value of a decimal digit of any script: the ten digits of a script follow one another. -/
def decimalValue? (c : CodePoint) : Option Nat :=
  let table := ClassTable.decimalDigit
  let i := boundariesUpTo table c.val 32 0 table.size
  if i % 2 == 1 then some ((c.val - table.getD (i - 1) 0) % 10) else none

/-- White space of any kind. -/
def isBlank (c : CodePoint) : Bool := inClass ClassTable.blank c

/-- Shown as itself. -/
def isPrintable (c : CodePoint) : Bool := inClass ClassTable.printable c

/-- The small letter of a capital; other code points stay. -/
def toLower (c : CodePoint) : CodePoint :=
  match ClassTable.caseRuns.find? (fun r =>
      r.first ≤ c.val && c.val ≤ r.last && (c.val - r.first) % r.step == 0) with
  | some r => ofNat ((c.val : Int) + r.shift).toNat
  | none => c

/-- The further code points that equal a small letter when case is ignored. -/
def casePartners (c : CodePoint) : List CodePoint :=
  match ClassTable.casePartners.find? (fun p => p.1 == c.val) with
  | some p => p.2.map ofNat
  | none => []

/-- The code points whose small letter is `c`, `c` itself included. -/
def withLower (c : CodePoint) : List CodePoint :=
  c :: ClassTable.caseRuns.filterMap fun r =>
    let n := ((c.val : Int) - r.shift).toNat
    if r.first ≤ n && n ≤ r.last && (n - r.first) % r.step == 0 then some (ofNat n) else none

end CodePoint

namespace Text

/-- A letter or `_`, then letters, digits and marks, of any script. -/
def isIdentifier : Text → Bool
  | [] => false
  | c :: rest =>
    inClass ClassTable.identifierStart c && rest.all (inClass ClassTable.identifierPart)

end Text

end DocShape
