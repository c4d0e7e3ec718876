import DocShape.Number.Binary64
import DocShape.Text

/-!
# Reading decimal numerals

An unsigned numeral is digits with an optional point somewhere among them and an optional
exponent; at least one digit stands before the exponent. `Binary64.ofText?` adds a sign and the
words for infinity and NaN, in letters of any case.
-/

namespace DocShape

namespace Decimal

/-- The digits before and after the point, and the exponent, as one number. -/
def ofParts (whole fraction : Text) (exponent : Int) : Decimal :=
  ⟨Text.toNat (whole ++ fraction), exponent - fraction.length⟩

/-- An exponent's digits with an optional sign. -/
def exponent? : Text → Option Int
  | [] => none
  | c :: rest =>
    let digits := if c = '+' ∨ c = '-' then rest else c :: rest
    if digits.isEmpty || !digits.all CodePoint.isDigit then none
    else if c = '-' then some (-(Text.toNat digits : Int))
    else some (Text.toNat digits)

/-- The numeral that a text without a sign spells. -/
def ofText? (t : Text) : Option Decimal :=
  let whole := t.takeWhile CodePoint.isDigit
  let afterWhole := t.dropWhile CodePoint.isDigit
  let (fraction, afterFraction) := match afterWhole with
    | c :: rest =>
      if c = '.' then (rest.takeWhile CodePoint.isDigit, rest.dropWhile CodePoint.isDigit)
      else ([], afterWhole)
    | [] => ([], [])
  if whole.isEmpty && fraction.isEmpty then none
  else match afterFraction with
    | [] => some (ofParts whole fraction 0)
    | c :: rest =>
      if c = 'e' ∨ c = 'E' then (exponent? rest).map (ofParts whole fraction) else none

end Decimal

namespace Binary64

/-- Splits off a sign; the first part tells whether it is `-`. -/
def splitSign : Text → Bool × Text
  | [] => (false, [])
  | c :: rest =>
    if c = '-' then (true, rest) else if c = '+' then (false, rest) else (false, c :: rest)

/-- The double that a text spells: a numeral, `inf`, `infinity` or `nan`, with an optional sign. -/
def ofText? (t : Text) : Option Binary64 :=
  let (negative, body) := splitSign t
  let word := body.map CodePoint.toLowerAscii
  if word = "inf" ∨ word = "infinity" then some (infinite negative)
  else if word = "nan" then some nan
  else (Decimal.ofText? body).map (ofDecimal negative)

end Binary64

end DocShape
