import DocShape.Value.Literal

/-!
# Writing documents

`Json.write` writes a value as JSON text in one of three styles: on one line without blanks, which
is the form of documents and may nest only so deep, or indented by two, with other than ASCII
characters as they are or escaped. Integers and doubles are written as their shortest numerals, and a
dictionary key that is a number, a truth value or null becomes the name that spells it.
-/

namespace DocShape.Json

/-- How a document is laid out. -/
structure Style where
  indented : Bool
  asciiOnly : Bool
  /-- Infinite numbers and NaN are refused. -/
  finiteOnly : Bool
  /-- How many brackets may stand inside each other, if that is limited. -/
  nesting : Option Nat
deriving DecidableEq, Repr

/-- The form of documents: one line, no blanks, finite numbers. -/
def Style.compact (nesting : Nat) : Style := ⟨false, false, true, some nesting⟩

/-- Indented by two, characters as they are. -/
def Style.readable : Style := ⟨true, false, false, none⟩

/-- Indented by two, in ASCII characters. -/
def Style.ascii : Style := ⟨true, true, false, none⟩

/-- Why a value has no text. -/
inductive Unwritable where
  | notFinite
  | noForm (typeName : Text)
  | noName (typeName : Text)
  | tooManyDigits
  /-- Brackets open at a depth that the stack does not allow. -/
  | tooDeep
deriving DecidableEq

/-- The wording of a refusal. -/
def Unwritable.text : Unwritable → Text
  | notFinite => "Out of range float values are not JSON compliant"
  | noForm typeName => "Object of type " ++ typeName ++ " is not JSON serializable"
  | noName typeName => "keys must be str, int, float, bool or None, not " ++ typeName
  | tooManyDigits =>
    "Exceeds the limit (" ++ Text.ofNat digitLimit ++
      " digits) for integer string conversion; " ++
      "use sys.set_int_max_str_digits() to increase the limit"
  | tooDeep => "maximum recursion depth exceeded while encoding a JSON object"

/-- An escape by four hexadecimal digits. -/
def codeUnit (n : Nat) : Text := "\\u" ++ Text.hex4 n

/-- A character as it stands in a string. -/
def escape (asciiOnly : Bool) (c : CodePoint) : Text :=
  if c = '"' ∨ c = '\\' then ['\\', c]
  else if c = '\n' then "\\n"
  else if c = '\r' then "\\r"
  else if c = '\t' then "\\t"
  else if c.val = 8 then "\\b"
  else if c.val = 12 then "\\f"
  else if c.val < 0x20 then codeUnit c.val
  else if asciiOnly && decide (0x7E < c.val) then
    if c.val < 0x10000 then codeUnit c.val
    else
      let n := c.val - 0x10000
      codeUnit (0xD800 + n / 0x400) ++ codeUnit (0xDC00 + n % 0x400)
  else [c]

/-- A string with its quotes. -/
def quote (asciiOnly : Bool) (t : Text) : Text := "\"" ++ t.flatMap (escape asciiOnly) ++ "\""

/-- A double as a number; outside JSON there are words for the others. -/
def floatText (style : Style) : Binary64 → Except Unwritable Text
  | .nan => if style.finiteOnly then .error .notFinite else .ok "NaN"
  | .infinite negative =>
    if style.finiteOnly then .error .notFinite
    else .ok (if negative then "-Infinity" else "Infinity")
  | x => .ok x.text

/-- An integer as a number. -/
def intText (n : Int) : Except Unwritable Text :=
  match Text.ofIntLimited? n with
  | some t => .ok t
  | none => .error .tooManyDigits

/-- The name that a dictionary key becomes. -/
def nameOfKey (style : Style) : Value → Except Unwritable Text
  | .str t => .ok t
  | .int n => intText n
  | .float x => floatText style x
  | .bool true => .ok "true"
  | .bool false => .ok "false"
  | .null => .ok "null"
  | v => .error (.noName v.typeName)

/-- The start of a line at a depth. -/
def newline (depth : Nat) : Text := CodePoint.ofChar '\n' :: List.replicate (2 * depth) ' '

/-- Parts in brackets, one to a line if the style asks for it. -/
def bracketed (style : Style) (depth : Nat) (opening closing : CodePoint) (parts : List Text) :
    Text :=
  if parts.isEmpty then [opening, closing]
  else if style.indented then
    [opening] ++ newline (depth + 1) ++ Text.join ("," ++ newline (depth + 1)) parts ++
      newline depth ++ [closing]
  else [opening] ++ Text.join "," parts ++ [closing]

/-- Brackets may open inside so many others. -/
def Style.checkDepth (style : Style) (depth : Nat) : Except Unwritable Unit :=
  if style.nesting.any (· ≤ depth) then .error .tooDeep else .ok ()

mutual

/-- A value as text, inside so many brackets. -/
def text (style : Style) (depth : Nat) : Value → Except Unwritable Text
  | .null => .ok "null"
  | .bool true => .ok "true"
  | .bool false => .ok "false"
  | .int n => intText n
  | .float x => floatText style x
  | .str t => .ok (quote style.asciiOnly t)
  | .list xs => do
    style.checkDepth depth
    return bracketed style depth '[' ']' (← itemTexts style (depth + 1) xs)
  | .tuple xs => do
    style.checkDepth depth
    return bracketed style depth '[' ']' (← itemTexts style (depth + 1) xs)
  | .dict es => do
    style.checkDepth depth
    return bracketed style depth '{' '}' (← memberTexts style (depth + 1) es)
  | v => .error (.noForm v.typeName)
termination_by structural v => v

/-- The texts of items. -/
def itemTexts (style : Style) (depth : Nat) : List Value → Except Unwritable (List Text)
  | [] => .ok []
  | x :: xs => do
    let first ← text style depth x
    return first :: (← itemTexts style depth xs)
termination_by structural v => v

/-- The texts of members, name and value. -/
def memberTexts (style : Style) (depth : Nat) :
    List (Value × Value) → Except Unwritable (List Text)
  | [] => .ok []
  | (k, v) :: rest => do
    let name ← nameOfKey style k
    let shown ← text style depth v
    let colon : Text := if style.indented then ": " else ":"
    return (quote style.asciiOnly name ++ colon ++ shown) :: (← memberTexts style depth rest)
termination_by structural v => v

end

/-- A value as a document in a style. -/
def write (style : Style) (v : Value) : Except Unwritable Text := text style 0 v

end DocShape.Json
