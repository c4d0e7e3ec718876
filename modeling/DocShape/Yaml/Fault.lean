import DocShape.Json.Fault

/-!
# Why a YAML text is refused

Either its structure is no YAML (`malformed`), of which the loader gives a detailed account, or the
loader raises something else: a scalar that resolves to a number, a truth value or a time does not
spell one, or an escape names no code point.
-/

namespace DocShape.Yaml

/-- What is wrong with a scalar of a given type. -/
inductive ScalarProblem where
  | notAnInteger (base : Nat) (shown : Text)
  | emptyInteger
  | tooManyDigits (count : Nat)
  | notAFloat (shown : Text)
  | emptyFloat
  | notABool (shown : Text)
  | notATime
  | year
  | month
  | day
  | hour
  | minute
  | second
  | zone (minutes : Int)
  | noCodePoint (n : Nat)
deriving DecidableEq, Repr

/-- The wording of an offset of a day or more. -/
def spanLiteral (minutes : Int) : Text :=
  let days := minutes / 1440
  let seconds := minutes % 1440 * 60
  let parts := (if days ≠ 0 then ["days=" ++ Text.ofInt days] else []) ++
    (if seconds ≠ 0 then ["seconds=" ++ Text.ofInt seconds] else [])
  "datetime.timedelta(" ++ Text.join ", " parts ++ ")"

/-- From here on a number is not even tried as a code point. -/
def wordLimit : Nat := 2147483648

/-- The wording of a problem. -/
def ScalarProblem.text : ScalarProblem → Text
  | notAnInteger base shown =>
    "invalid literal for int() with base " ++ Text.ofNat base ++ ": " ++ Literal.quoted shown
  | emptyInteger | emptyFloat => "string index out of range"
  | tooManyDigits count => Json.digitLimitText count
  | notAFloat shown => "could not convert string to float: " ++ Literal.quoted shown
  | notABool shown => Literal.quoted shown
  | notATime => "'NoneType' object has no attribute 'groupdict'"
  | year => "year 0 is out of range"
  | month => "month must be in 1..12"
  | day => "day is out of range for month"
  | hour => "hour must be in 0..23"
  | minute => "minute must be in 0..59"
  | second => "second must be in 0..59"
  | zone minutes =>
    "offset must be a timedelta strictly between -timedelta(hours=24) and timedelta(hours=24), " ++
      "not " ++ spanLiteral minutes ++ "."
  | noCodePoint n =>
    if n < wordLimit then "chr() arg not in range(0x110000)"
    else "Python int too large to convert to C int"

/-- The class of a problem. -/
def ScalarProblem.className : ScalarProblem → String
  | emptyInteger | emptyFloat => "IndexError"
  | notABool _ => "KeyError"
  | notATime => "AttributeError"
  | noCodePoint n => if n < wordLimit then "ValueError" else "OverflowError"
  | _ => "ValueError"

/-- Why a YAML text is refused. -/
inductive Fault where
  /-- The structure is no YAML, in the words of the loader. -/
  | malformed (detail : Text)
  /-- Something else that the loader raises, with its class. -/
  | raised (className : String) (message : Text)
deriving DecidableEq

/-- A structure that is no YAML, without an account of where. -/
def Fault.unstructured : Fault := malformed "malformed"

/-- A scalar that does not spell what it resolves to. -/
def Fault.scalar (problem : ScalarProblem) : Fault := raised problem.className problem.text

end DocShape.Yaml
