import DocShape.Number.Numeral
import DocShape.Text.Classes
import DocShape.Text.Encoding
import DocShape.Yaml.Tag
import DocShape.Yaml.Fault

/-!
# The values of scalars

`Scalar.value?` reads the text of a scalar as its tag asks. Underscores may stand anywhere in a
number; integers may be written in several bases, and a `:` separates places of base sixty, so that
`1:30` is ninety.
-/

namespace DocShape.Yaml

namespace Scalar

/-! ## Integers -/

/-- The value of a digit of a base; letters continue the decimal digits. -/
def digit? (base : Nat) (c : CodePoint) : Option Nat :=
  ((c.decimalValue?).or c.hexValue?).filter (· < base)

/-- The letter that may stand behind a zero to announce a base. -/
def baseLetter? : Nat → Option CodePoint
  | 2 => some 'b'
  | 8 => some 'o'
  | 16 => some 'x'
  | _ => none

/-- A text without the announcement of its base. -/
def withoutBase (base : Nat) (t : Text) : Text :=
  match t with
  | z :: l :: rest => if z = '0' ∧ some l.toLowerAscii = baseLetter? base then rest else t
  | _ => t

/-- The integer of a base that a text spells, with a sign and blanks around it. Only decimal
integers have a limit to their digits. -/
def integerInBase (base : Nat) (t : Text) : Except ScalarProblem Int :=
  let signed := t.dropWhile CodePoint.isBlank
  let body := withoutBase base (Form.unsigned signed)
  let digits := body.map (digit? base) |>.takeWhile Option.isSome |>.filterMap id
  let n : Nat := digits.foldl (fun n d => n * base + d) 0
  if base = 10 ∧ digitLimit < digits.length then .error (.tooManyDigits digits.length)
  else if digits.isEmpty || !(body.drop digits.length).all CodePoint.isBlank then
    .error (.notAnInteger base t)
  else .ok (if signed.head? = some (CodePoint.ofChar '-') then -(n : Int) else n)

/-- The number whose places in base sixty are given, the highest first. -/
def inSixties (places : List Int) : Int := places.foldl (fun n d => n * 60 + d) 0

/-- The text without underscores. -/
def withoutUnderscores (t : Text) : Text := t.filter fun c => !(c == '_')

/-- An integer. -/
def integer (t : Text) : Except ScalarProblem Int := do
  let t := withoutUnderscores t
  let body := Form.unsigned t
  match body with
  | [] => throw .emptyInteger
  | c :: rest =>
    let magnitude ←
      if c = '0' then
        match rest with
        | [] => pure 0
        | d :: digits =>
          if d = 'b' then integerInBase 2 digits
          else if d = 'x' then integerInBase 16 digits
          else integerInBase 8 body
      else do pure (inSixties (← (Text.splitOn ':' body).mapM (integerInBase 10)))
    return if t.head? = some (CodePoint.ofChar '-') then -magnitude else magnitude

/-! ## Floats -/

/-- A code point, or the ASCII digit of the same value. -/
def asciiDigit (c : CodePoint) : CodePoint :=
  match c.decimalValue? with
  | some d => CodePoint.ofNat (0x30 + d)
  | none => c

/-- The double that a text spells, with blanks around it. -/
def double (t : Text) : Except ScalarProblem Binary64 :=
  match Binary64.ofText? ((Text.trim CodePoint.isBlank t).map asciiDigit) with
  | some x => .ok x
  | none => .error (.notAFloat t)

/-- The sum of places in base sixty, the lowest first; `unit` is what the first place counts. -/
def sumOfSixties (unit : Nat) (sum : Binary64) : List Binary64 → Binary64
  | [] => sum
  | x :: rest => sumOfSixties (unit * 60) (sum.add (x.scale unit)) rest

/-- A float. -/
def float (t : Text) : Except ScalarProblem Binary64 := do
  let t := (withoutUnderscores t).map CodePoint.toLower
  if t.isEmpty then throw .emptyFloat
  else
    let body := Form.unsigned t
    let magnitude ←
      if body = ".inf" then pure (.infinite false)
      else if body = ".nan" then pure .nan
      else if body.contains ':' then do
        let places ← (Text.splitOn ':' body).mapM double
        pure (sumOfSixties 1 (.finite false .zero) places.reverse)
      else double body
    return if t.head? = some (CodePoint.ofChar '-') then magnitude.neg else magnitude

/-! ## Truth values -/

/-- A truth value in letters of any case. -/
def flag (t : Text) : Except ScalarProblem Bool :=
  let word := t.map CodePoint.toLower
  if word = "yes" ∨ word = "true" ∨ word = "on" then .ok true
  else if word = "no" ∨ word = "false" ∨ word = "off" then .ok false
  else .error (.notABool word)

/-! ## Times -/

/-- Whether a year has a 29 February. -/
def isLeapYear (year : Nat) : Bool := year % 4 == 0 && (year % 100 != 0 || year % 400 == 0)

/-- How many days a month has. -/
def daysInMonth (year month : Nat) : Nat :=
  if month = 2 then (if isLeapYear year then 29 else 28)
  else if month = 4 ∨ month = 6 ∨ month = 9 ∨ month = 11 then 30 else 31

/-- A day of the calendar. -/
def date (year month day : Nat) : Except ScalarProblem Date :=
  if year = 0 then .error .year
  else if month = 0 ∨ 12 < month then .error .month
  else if day = 0 ∨ daysInMonth year month < day then .error .day
  else .ok ⟨year, month, day⟩

/-- The microseconds of the digits of a fraction; further digits are dropped. -/
def microseconds (fraction : Text) : Nat :=
  let digits := fraction.take 6
  Text.toNat digits * Nat.pow 10 (6 - digits.length)

/-- A time on a day. -/
def moment (stamp : Timestamp) (clock : Clock) : Except ScalarProblem Moment := do
  match clock.zone with
  | some minutes => if 1440 ≤ minutes.natAbs then throw (.zone minutes)
  | none => pure ()
  let date ← date stamp.year stamp.month stamp.day
  if 24 ≤ clock.hour then throw .hour
  else if 60 ≤ clock.minute then throw .minute
  else if 60 ≤ clock.second then throw .second
  else
    return ⟨date, clock.hour, clock.minute, clock.second, microseconds clock.fraction, clock.zone⟩

/-- A day or a time. -/
def time (t : Text) : Except ScalarProblem Value :=
  match Timestamp.ofText? t with
  | none => .error .notATime
  | some stamp =>
    match stamp.clock with
    | none => (date stamp.year stamp.month stamp.day).map .date
    | some clock => (moment stamp clock).map .moment

/-! ## Bytes -/

/-- The value of a digit of base sixty-four. -/
def sixBits? (c : CodePoint) : Option Nat :=
  if 0x41 ≤ c.val ∧ c.val ≤ 0x5A then some (c.val - 0x41)
  else if 0x61 ≤ c.val ∧ c.val ≤ 0x7A then some (c.val - 0x61 + 26)
  else if c.isDigit then some (c.digitValue + 52)
  else if c = '+' then some 62
  else if c = '/' then some 63
  else none

/-- The digits up to the padding, which completes a group of four; other characters are skipped. The
first argument counts the digits of the current group, the second the padding behind them. -/
def sixBitDigits : (place pads : Nat) → Text → Option (List Nat)
  | place, _, [] => if place = 0 then some [] else none
  | place, pads, c :: rest =>
    if c = '=' then
      if 2 ≤ place ∧ 4 ≤ place + pads + 1 then some [] else
        sixBitDigits place (if 2 ≤ place then pads + 1 else pads) rest
    else match sixBits? c with
      | none => sixBitDigits place pads rest
      | some d => (sixBitDigits ((place + 1) % 4) 0 rest).map (d :: ·)

/-- The bytes of groups of four digits, the last of which may lack one or two. -/
def bytesOfDigits : List Nat → List UInt8
  | a :: b :: c :: d :: rest =>
    (a * 4 + b / 16).toUInt8 :: (b % 16 * 16 + c / 4).toUInt8 :: (c % 4 * 64 + d).toUInt8 ::
      bytesOfDigits rest
  | [a, b, c] => [(a * 4 + b / 16).toUInt8, (b % 16 * 16 + c / 4).toUInt8]
  | [a, b] => [(a * 4 + b / 16).toUInt8]
  | _ => []

/-- Bytes in base sixty-four. -/
def binary? (t : Text) : Option (List UInt8) :=
  if t.all (·.val < 0x80) then (sixBitDigits 0 0 t).map bytesOfDigits else none

/-- The value of a text with a tag, where scalars may have that tag. -/
def value (tag : Tag) (t : Text) : Except Fault Value :=
  match tag with
  | .null => .ok .null
  | .bool => ((flag t).map Value.bool).mapError .scalar
  | .int => ((integer t).map Value.int).mapError .scalar
  | .float => ((float t).map Value.float).mapError .scalar
  | .timestamp => (time t).mapError .scalar
  | .binary => match binary? t with
    | some b => .ok (.bytes b)
    | none => .error .unstructured
  | .str => .ok (.str t)
  | _ => .error .unstructured

end Scalar

end DocShape.Yaml
