import DocShape.Value
import DocShape.Text.Classes

/-!
# Values as literals

Messages quote the offending value. A text stands there as it is (`Value.display?`); every other
value, and every text inside a container, is written as a literal (`Value.literal?`): texts in
quotes with escapes, `None`, `True` and `False`, and the brackets of each container. An integer of
more than `digitLimit` digits has no decimal text at all, hence the options.
-/

namespace DocShape

/-- Integers with more digits than this are neither written nor read in decimal. -/
def digitLimit : Nat := 4300

/-- An integer in decimal digits, none above the digit limit. -/
def Text.ofIntLimited? (n : Int) : Option Text :=
  let digits := Text.ofNat n.natAbs
  if digits.length ≤ digitLimit then some (if n < 0 then CodePoint.ofChar '-' :: digits else digits)
  else none

namespace Literal

/-- The quote around a text: double only where the text has single quotes and no double ones. -/
def quoteFor (t : Text) : CodePoint :=
  if t.contains '\'' && !t.contains '"' then '"' else '\''

/-- A code point as it stands inside quotes. -/
def escape (quote c : CodePoint) : Text :=
  if c = quote ∨ c = '\\' then ['\\', c]
  else if c = '\n' then "\\n"
  else if c = '\r' then "\\r"
  else if c = '\t' then "\\t"
  else if c.isPrintable then [c]
  else if c.val < 0x100 then "\\x" ++ Text.hex2 c.val
  else if c.val < 0x10000 then "\\u" ++ Text.hex4 c.val
  else "\\U" ++ Text.hex8 c.val

/-- A text in quotes. -/
def quoted (t : Text) : Text :=
  let quote := quoteFor t
  [quote] ++ t.flatMap (escape quote) ++ [quote]

/-- A byte as it stands inside quotes. -/
def escapeByte (quote : CodePoint) (b : UInt8) : Text :=
  let c := CodePoint.ofNat b.toNat
  if c = quote ∨ c = '\\' then ['\\', c]
  else if c = '\n' then "\\n"
  else if c = '\r' then "\\r"
  else if c = '\t' then "\\t"
  else if b < 0x20 || 0x7F ≤ b then "\\x" ++ Text.hex2 b.toNat
  else [c]

/-- A byte sequence in quotes, with `b` in front. -/
def quotedBytes (bs : List UInt8) : Text :=
  let quote := quoteFor (bs.map fun b => CodePoint.ofNat b.toNat)
  "b" ++ [quote] ++ bs.flatMap (escapeByte quote) ++ [quote]

/-- `YYYY-MM-DD`. -/
def isoDate (d : Date) : Text :=
  Text.padLeft 4 (Text.ofNat d.year) ++ "-" ++ Text.padLeft 2 (Text.ofNat d.month) ++ "-" ++
    Text.padLeft 2 (Text.ofNat d.day)

/-- `+HH:MM`. -/
def isoOffset (minutes : Int) : Text :=
  (if minutes < 0 then Text.ofString "-" else Text.ofString "+") ++
    Text.padLeft 2 (Text.ofNat (minutes.natAbs / 60)) ++ ":" ++
    Text.padLeft 2 (Text.ofNat (minutes.natAbs % 60))

/-- `YYYY-MM-DD HH:MM:SS`, then the microseconds and the offset where there are any. -/
def isoMoment (m : Moment) : Text :=
  let two (n : Nat) : Text := Text.padLeft 2 (Text.ofNat n)
  let fraction : Text := if m.microsecond = 0 then [] else
    "." ++ Text.padLeft 6 (Text.ofNat m.microsecond)
  let offset : Text := match m.offset with
    | none => []
    | some minutes => isoOffset minutes
  isoDate m.date ++ " " ++ two m.hour ++ ":" ++ two m.minute ++ ":" ++ two m.second ++ fraction ++
    offset

/-- A day as a call with its parts. -/
def date (d : Date) : Text :=
  "datetime.date(" ++ Text.join ", " ([d.year, d.month, d.day].map Text.ofNat) ++ ")"

/-- An offset as a call with its parts. -/
def offset (minutes : Int) : Text :=
  if minutes = 0 then "datetime.timezone.utc"
  else
    let seconds := minutes * 60
    let span : Text :=
      if seconds < 0 then "days=-1, seconds=" ++ Text.ofInt (seconds + 86400)
      else "seconds=" ++ Text.ofInt seconds
    "datetime.timezone(datetime.timedelta(" ++ span ++ "))"

/-- A time as a call with its parts; zero seconds and microseconds at the end are left out. -/
def moment (m : Moment) : Text :=
  let parts := [m.date.year, m.date.month, m.date.day, m.hour, m.minute]
  let parts := if m.microsecond ≠ 0 then parts ++ [m.second, m.microsecond]
    else if m.second ≠ 0 then parts ++ [m.second] else parts
  let zone : Text := match m.offset with
    | none => []
    | some minutes => ", tzinfo=" ++ offset minutes
  "datetime.datetime(" ++ Text.join ", " (parts.map Text.ofNat) ++ zone ++ ")"

end Literal

namespace Value

mutual

/-- A value as a literal; none if it holds an integer above the digit limit. -/
def literal? : Value → Option Text
  | null => some "None"
  | bool true => some "True"
  | bool false => some "False"
  | int n => Text.ofIntLimited? n
  | float x => some x.text
  | str t => some (Literal.quoted t)
  | bytes b => some (Literal.quotedBytes b)
  | date d => some (Literal.date d)
  | moment m => some (Literal.moment m)
  | list xs => do return "[" ++ Text.join ", " (← literals? xs) ++ "]"
  | tuple [] => some "()"
  | tuple [x] => do return "(" ++ (← literal? x) ++ ",)"
  | tuple xs => do return "(" ++ Text.join ", " (← literals? xs) ++ ")"
  | set [] => some "set()"
  | set xs => do return "\x7b" ++ Text.join ", " (← literals? xs) ++ "\x7d"
  | dict es => do return "\x7b" ++ Text.join ", " (← entryLiterals? es) ++ "\x7d"
termination_by structural v => v

/-- The literals of the items. -/
def literals? : List Value → Option (List Text)
  | [] => some []
  | x :: xs => do return (← literal? x) :: (← literals? xs)
termination_by structural v => v

/-- The literals of the entries, each as `key: value`. -/
def entryLiterals? : List (Value × Value) → Option (List Text)
  | [] => some []
  | (k, v) :: rest => do
    return ((← literal? k) ++ ": " ++ (← literal? v)) :: (← entryLiterals? rest)
termination_by structural v => v

end

/-- A value as it stands in a message: a text as it is, a day or time in its usual form, all else
as a literal. -/
def display? : Value → Option Text
  | str t => some t
  | date d => some (Literal.isoDate d)
  | moment m => some (Literal.isoMoment m)
  | v => v.literal?

/-- The name of a value's type, as messages give it. -/
def typeName : Value → Text
  | null => "NoneType"
  | bool _ => "bool"
  | int _ => "int"
  | float _ => "float"
  | str _ => "str"
  | bytes _ => "bytes"
  | date _ => "date"
  | moment _ => "datetime"
  | list _ => "list"
  | tuple _ => "tuple"
  | set _ => "set"
  | dict _ => "dict"

end Value

end DocShape
