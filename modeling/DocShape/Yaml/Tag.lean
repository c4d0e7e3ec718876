import DocShape.Text

/-!
# Tags: the types of YAML nodes

The tag of a node says how its content is to be read. A plain scalar without a tag gets the one
whose form its text has (`Tag.ofPlain`); any other node without a tag is a text, a list or a
dictionary.
-/

namespace DocShape.Yaml

/-- The type of a node. -/
inductive Tag where
  | null
  | bool
  | int
  | float
  | binary
  | timestamp
  | orderedMap
  | pairs
  | set
  | str
  | seq
  | map
  | merge
  | value
  | other (name : Text)
deriving DecidableEq, Repr

namespace Tag

/-- What the names of the standard tags begin with. -/
def standard : Text := "tag:yaml.org,2002:"

/-- The standard tags by their short names. -/
def table : List (String × Tag) :=
  [("null", null), ("bool", bool), ("int", int), ("float", float), ("binary", binary),
    ("timestamp", timestamp), ("omap", orderedMap), ("pairs", pairs), ("set", set), ("str", str),
    ("seq", seq), ("map", map), ("merge", merge), ("value", value)]

/-- The tag of a full name. -/
def ofName (name : Text) : Tag :=
  match table.find? fun e => name == standard ++ Text.ofString e.1 with
  | some e => e.2
  | none => other name

end Tag

/-! ## Forms of plain scalars -/

namespace Form

/-- The text without a sign at its front. -/
def unsigned (t : Text) : Text :=
  if t.head?.any (fun c : CodePoint => c = '+' ∨ c = '-') then t.drop 1 else t

/-- A digit or an underscore. -/
def isDigitOrUnderscore (c : CodePoint) : Bool := c.isDigit || c == '_'

/-- A digit, then digits and underscores. -/
def isDigits : Text → Bool
  | [] => false
  | c :: rest => c.isDigit && rest.all isDigitOrUnderscore

/-- A minute or second: one digit, or two up to 59. -/
def isSixtieth : Text → Bool
  | [d] => d.isDigit
  | [c, d] => c.isDigit && c.digitValue ≤ 5 && d.isDigit
  | _ => false

/-- Nothing, or an exponent with a sign. -/
def isExponent : Text → Bool
  | [] => true
  | e :: s :: digits => (e == 'e' || e == 'E') && (s == '+' || s == '-') && !digits.isEmpty &&
      digits.all CodePoint.isDigit
  | _ => false

/-- The part before a character, and what follows it. -/
def cut (c : CodePoint) (t : Text) : Text × Option Text :=
  let before := t.takeWhile (· ≠ c)
  match t.drop before.length with
  | [] => (before, none)
  | _ :: after => (before, some after)

/-- Truth values. -/
def isBool (t : Text) : Bool :=
  ["yes", "Yes", "YES", "no", "No", "NO", "true", "True", "TRUE", "false", "False", "FALSE", "on",
    "On", "ON", "off", "Off", "OFF"].any fun word => t == Text.ofString word

/-- Nothing at all. -/
def isNull (t : Text) : Bool :=
  ["", "~", "null", "Null", "NULL"].any fun word => t == Text.ofString word

/-- Floats: digits with a point, in base sixty or with an exponent; infinity and NaN. -/
def isFloat (t : Text) : Bool :=
  let body := unsigned t
  let infinity := [".inf", ".Inf", ".INF"].any fun word => body == Text.ofString word
  let nan := [".nan", ".NaN", ".NAN"].any fun word => t == Text.ofString word
  let point := match cut '.' body with
    | (whole, some rest) =>
      let fraction := rest.takeWhile isDigitOrUnderscore
      let exponent := rest.drop fraction.length
      (isDigits whole && isExponent exponent) ||
        (whole.isEmpty && body.length = t.length && isDigits fraction && isExponent exponent) ||
        (match Text.splitOn ':' whole with
          | first :: second :: more =>
            isDigits first && (second :: more).all isSixtieth && exponent.isEmpty
          | _ => false)
    | (_, none) => false
  infinity || nan || point

/-- Integers: binary, octal, decimal, hexadecimal or in base sixty. -/
def isInt (t : Text) : Bool :=
  let body := unsigned t
  let digitsOf (isMember : CodePoint → Bool) (digits : Text) : Bool :=
    !digits.isEmpty && digits.all fun c => isMember c || c == '_'
  match body with
  | [] => false
  | c :: rest =>
    if c = '0' then
      rest.isEmpty || digitsOf CodePoint.isOctalDigit rest ||
        (match rest with
          | d :: digits =>
            (d == 'b' && digitsOf (fun e => e == '0' || e == '1') digits) ||
              (d == 'x' && digitsOf CodePoint.isHexDigit digits)
          | [] => false)
    else
      match Text.splitOn ':' body with
      | first :: more => isDigits first && more.all isSixtieth
      | [] => false

end Form

/-! ## Times -/

/-- The parts of a time as they are written. A zone is ahead of UTC by so many minutes. -/
structure Clock where
  hour : Nat
  minute : Nat
  second : Nat
  fraction : Text
  zone : Option Int
deriving DecidableEq, Repr

/-- A day as it is written, and the time on it. -/
structure Timestamp where
  year : Nat
  month : Nat
  day : Nat
  clock : Option Clock
deriving DecidableEq, Repr

namespace Timestamp

/-- The number of at least `least` and at most `most` digits at the front of a text. -/
def number? (least most : Nat) (t : Text) : Option (Nat × Text) :=
  let digits := (t.take most).takeWhile CodePoint.isDigit
  if digits.length < least then none else some (Text.toNat digits, t.drop digits.length)

/-- The text behind a character at its front. -/
def after? (c : CodePoint) (t : Text) : Option Text :=
  if t.head? = some c then some (t.drop 1) else none

/-- A zone: nothing, `Z`, or hours and perhaps minutes with a sign; blanks may stand before it. -/
def zone? (t : Text) : Option (Option Int) :=
  match t.dropWhile fun c : CodePoint => c == ' ' || c == '\t' with
  | [] => if t.isEmpty then some none else none
  | c :: rest =>
    if c = 'Z' then (if rest.isEmpty then some (some 0) else none)
    else if c = '+' ∨ c = '-' then do
      let (hours, rest) ← number? 1 2 rest
      let minutes ← if rest.isEmpty then some 0 else do
        let (minutes, rest) ← number? 2 2 (← after? ':' rest)
        if rest.isEmpty then some minutes else none
      let ahead : Int := hours * 60 + minutes
      some (some (if c = '-' then -ahead else ahead))
    else none

/-- A time of day: hours, minutes, seconds, perhaps a fraction and a zone. -/
def clock? (t : Text) : Option Clock := do
  let (hour, t) ← number? 1 2 t
  let (minute, t) ← number? 2 2 (← after? ':' t)
  let (second, t) ← number? 2 2 (← after? ':' t)
  let (fraction, t) := match after? '.' t with
    | some rest => (rest.takeWhile CodePoint.isDigit, rest.dropWhile CodePoint.isDigit)
    | none => ([], t)
  some ⟨hour, minute, second, fraction, ← zone? t⟩

/-- A day, and after `T` or blanks a time on it. -/
def ofText? (t : Text) : Option Timestamp := do
  let (year, t) ← number? 4 4 t
  let (month, t) ← number? 1 2 (← after? '-' t)
  let (day, t) ← number? 1 2 (← after? '-' t)
  match t with
  | [] => some ⟨year, month, day, none⟩
  | c :: rest =>
    let blank := fun d : CodePoint => d == ' ' || d == '\t'
    let time ← if c = 'T' ∨ c = 't' then some rest
      else if blank c then some (rest.dropWhile blank) else none
    some ⟨year, month, day, some (← clock? time)⟩

/-- Without a tag, a day alone needs two digits for month and day. -/
def isPlainForm (t : Text) : Bool :=
  match ofText? t with
  | some stamp => stamp.clock.isSome || t.length = 10
  | none => false

end Timestamp

/-- The tag of a plain scalar without one. -/
def Tag.ofPlain (t : Text) : Tag :=
  if Form.isBool t then bool
  else if Form.isFloat t then float
  else if Form.isInt t then int
  else if t = "<<" then merge
  else if Form.isNull t then null
  else if Timestamp.isPlainForm t then timestamp
  else if t = "=" then value
  else str

end DocShape.Yaml
