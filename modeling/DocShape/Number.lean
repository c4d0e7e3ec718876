import DocShape.Number.Shortest
import DocShape.Number.Numeral

/-!
# Numbers: integers of any size and doubles

A `Number` is judged by its exact value: an integer and a double are compared as points of one
line, where `NaN` has no place and compares with nothing.
-/

namespace DocShape

/-- A numeric value as it is written in a schema: `5` and `5.0` are different spellings. -/
inductive Number where
  | int (value : Int)
  | float (value : Binary64)
deriving DecidableEq

/-- A place on the number line, in the units of a double. -/
inductive Place where
  | belowAll
  | point (units : Int)
  | aboveAll
deriving DecidableEq

namespace Place

/-- The order of the line. -/
def le : Place → Place → Bool
  | belowAll, _ => true
  | _, aboveAll => true
  | point a, point b => a ≤ b
  | _, _ => false

end Place

namespace Number

instance : Inhabited Number := ⟨.int 0⟩

/-- The exact place of a number, none for NaN. -/
def place? : Number → Option Place
  | int n => some (.point (n * Magnitude.unitsPerOne))
  | float .nan => none
  | float (.infinite true) => some .belowAll
  | float (.infinite false) => some .aboveAll
  | float (.finite false m) => some (.point m.units)
  | float (.finite true m) => some (.point (-(m.units : Int)))

/-- Not above, by exact value. Two integers need no units. -/
def le : Number → Number → Bool
  | int a, int b => a ≤ b
  | a, b => match a.place?, b.place? with
    | some p, some q => p.le q
    | _, _ => false

/-- Strictly below, by exact value. -/
def lt (a b : Number) : Bool := a.le b && !b.le a

/-- The same place on the line. -/
def equals (a b : Number) : Bool := a.le b && b.le a

/-- Integers and finite doubles. -/
def isFinite : Number → Bool
  | int _ => true
  | float x => x.isFinite

/-- An integer, or a double without a fraction. -/
def isIntegral : Number → Bool
  | int _ => true
  | float x => x.isIntegral

end Number

end DocShape
