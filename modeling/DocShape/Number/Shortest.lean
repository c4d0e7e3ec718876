import DocShape.Number.Binary64
import DocShape.Text

/-!
# The shortest decimal numeral of a double

`Magnitude.shortest` gives the fewest digits that read back as the same double, and of those the
numeral nearest to it. Reading back rounds to nearest with ties to even, so the test for each
number of digits is `Magnitude.ofDecimal?` itself. A double has a finite decimal expansion
(`units * 5^1074` over `10^1074`), which is the answer if no shorter one were to read back.
-/

namespace DocShape

namespace Magnitude

/-- The whole decimal expansion, which is exact. -/
def expansion (m : Magnitude) : Decimal := ⟨m.units * Nat.pow 5 1074, -1074⟩

/-- The two numerals beside a value on the grid that keeps all but `dropped` digits, the nearer
one first; halfway between them, the even one first. -/
def neighbours (digits dropped : Nat) : List Decimal :=
  let grid := Nat.pow 10 dropped
  let low := digits / grid
  let rest := digits % grid
  let exponent : Int := dropped - 1074
  let below : Decimal := ⟨low, exponent⟩
  let above : Decimal := ⟨low + 1, exponent⟩
  if 2 * rest < grid then [below, above]
  else if grid < 2 * rest then [above, below]
  else if low % 2 = 0 then [below, above] else [above, below]

/-- The first of `count` grids, from coarse to fine, that has a numeral reading back as `m`. -/
def firstReadingBack (m : Magnitude) (digits : Nat) : (dropped count : Nat) → Option Decimal
  | _, 0 => none
  | dropped, count + 1 =>
    match (neighbours digits dropped).find? (fun d => ofDecimal? d == some m) with
    | some d => some d
    | none => firstReadingBack m digits (dropped - 1) count

/-- A numeral without zeros at its end, which stands for the same number. -/
def stripZeros (d : Decimal) : (fuel : Nat) → Decimal
  | 0 => d
  | fuel + 1 =>
    if d.digits ≠ 0 ∧ d.digits % 10 = 0 then stripZeros ⟨d.digits / 10, d.exponent + 1⟩ fuel else d

/-- The fewest digits that read back as this double, and of those numerals the nearest. -/
def shortest (m : Magnitude) : Decimal :=
  if m.units = 0 then ⟨0, 0⟩
  else
    let digits := m.expansion.digits
    let width := (Nat.toDigits 10 digits).length
    match firstReadingBack m digits (width - 1) 17 with
    | some d => stripZeros d 20
    | none => m.expansion

end Magnitude

namespace Binary64

/-- An exponent has a sign and at least two digits. -/
def exponentText (e : Int) : Text :=
  (if e < 0 then Text.ofString "-" else Text.ofString "+") ++ Text.padLeft 2 (Text.ofNat e.natAbs)

/-- A numeral as text. Numbers from `0.0001` up to `10^16` are written positionally, with `.0` for
a missing fraction; all others with one digit before the point and an exponent. -/
def numeralText (d : Decimal) : Text :=
  let digits := Text.ofNat d.digits
  let point : Int := digits.length + d.exponent
  if d.digits = 0 then "0.0"
  else if -4 < point ∧ point ≤ 16 then
    if point ≤ 0 then "0." ++ List.replicate point.natAbs (CodePoint.ofChar '0') ++ digits
    else if d.exponent < 0 then digits.take point.toNat ++ "." ++ digits.drop point.toNat
    else digits ++ List.replicate d.exponent.toNat (CodePoint.ofChar '0') ++ ".0"
  else
    let fraction : Text := if digits.length = 1 then [] else "." ++ digits.drop 1
    digits.take 1 ++ fraction ++ "e" ++ exponentText (point - 1)

/-- A double as text: `nan`, `inf`, or its shortest numeral with its sign. -/
def text : Binary64 → Text
  | nan => "nan"
  | infinite false => "inf"
  | infinite true => "-inf"
  | finite false m => numeralText m.shortest
  | finite true m => "-" ++ numeralText m.shortest

end Binary64

end DocShape
