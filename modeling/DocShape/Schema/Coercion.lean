import DocShape.Schema.Block
import DocShape.Text.Encoding
import DocShape.Value.Literal

/-!
# Reading property values leniently

A raw schema may spell the value of a property in more than one way: a truth value as a number or a
word, a number as a truth value or as text, a text as UTF-8 bytes. These readers give the value that
is meant, or the problem. They are what the program runs with.
-/

namespace DocShape.Coercion

/-! ## Texts -/

/-- A text, or bytes that spell one in UTF-8. -/
def text : Value → Except TypeProblem Text
  | .str t => .ok t
  | .bytes b => match Encoding.utf8Text? b with
    | some t => .ok t
    | none => .error .notUnicode
  | _ => .error .notText

/-- The text that a text or bytes spell; none for other values. Bytes that are no text are `bad`. -/
def spelled? (bad : TypeProblem) : Value → Except TypeProblem (Option Text)
  | .str t => do return some (← t.unicode)
  | .bytes b => match Encoding.utf8Text? b with
    | some t => .ok (some t)
    | none => .error bad
  | _ => .ok none

/-! ## Truth values -/

/-- The words for true. -/
def trueWords : List Text := ["1", "on", "t", "true", "y", "yes"]

/-- The words for false. -/
def falseWords : List Text := ["0", "off", "f", "false", "n", "no"]

/-- Integers of at least this size are not taken for truth values at all. -/
def flagLimit : Int := 9223372036854775808

/-- The truth value of a number: one or zero. -/
def flagOfInt (n : Int) : Except TypeProblem Bool :=
  if n = 1 then .ok true
  else if n = 0 then .ok false
  else if -flagLimit ≤ n ∧ n < flagLimit then .error .unclearFlag
  else .error .notFlag

/-- A truth value, a number that is one or zero, or a word in letters of any case. -/
def flag (v : Value) : Except TypeProblem Bool := do
  match v with
  | .bool b => return b
  | .int n => flagOfInt n
  | .float x =>
    match x.truncate? with
    | some n => if x.isIntegral then flagOfInt n else .error .notFlag
    | none => .error .notFlag
  | v =>
    match ← spelled? .unclearFlag v with
    | none => .error .notFlag
    | some t =>
      let word := t.map CodePoint.toLowerAscii
      if trueWords.contains word then return true
      else if falseWords.contains word then return false
      else .error .unclearFlag

/-! ## Numbers -/

/-- White space around a number. -/
def isSpacing (c : CodePoint) : Bool := c.isBlank && !(0x1C ≤ c.val && c.val ≤ 0x1F)

/-- An integer without blanks: an optional minus, then a zero or digits that begin with none. -/
def plainInteger? (t : Text) : Option Int :=
  let (negative, digits) := match t with
    | c :: rest => if c = '-' then (true, rest) else (false, t)
    | [] => (false, t)
  let startsWell := match digits with
    | [] => false
    | [_] => true
    | c :: _ => c ≠ '0'
  if startsWell && digits.all CodePoint.isDigit && decide (digits.length ≤ digitLimit) then
    let n : Int := Text.toNat digits
    some (if negative then -n else n)
  else none

/-- Digits without the zeros and underscores at their front; a zero stays before a point or at the
end, and behind zeros there may still be a minus. None if they do not begin like an integer. -/
def withoutLeadingZeros? : Text → Option Text
  | [] => none
  | c :: rest =>
    if c = '-' ∨ (c.isDigit ∧ c ≠ '0') then some (c :: rest)
    else if c = '0' then
      let skipped := rest.takeWhile (fun d : CodePoint => d = '0' ∨ d = '_')
      match rest.drop skipped.length with
      | [] => some [(c :: skipped).getLastD c]
      | d :: more =>
        if d.isDigit ∨ d = '-' then some (d :: more)
        else if d = '.' then some ((c :: skipped).getLastD c :: d :: more)
        else none
    else none

/-- The text before a point that only zeros follow; otherwise the whole text. -/
def withoutZeroFraction (t : Text) : Text :=
  let whole := t.takeWhile (fun c : CodePoint => c ≠ '.')
  match t.drop whole.length with
  | _ :: d :: zeros => if (d :: zeros).all (fun c : CodePoint => c = '0') then whole else t
  | _ => t

/-- The text without underscores, if each stands between two other characters. -/
def withoutUnderscores? (t : Text) : Option Text :=
  let parts := Text.splitOn '_' t
  if parts.any List.isEmpty then none else some parts.flatten

/-- The integer that a text spells: blanks around it, a plus, zeros in front, a fraction of zeros
and underscores between digits are allowed. -/
def integerOfText? (t : Text) : Option Int :=
  match plainInteger? t with
  | some n => some n
  | none =>
    let body := Text.trim isSpacing t
    let unsigned? := match body with
      | c :: d :: rest =>
        if c = '+' then (if d = '-' then none else some (d :: rest)) else some body
      | [c] => if c = '+' then none else some body
      | [] => none
    do
      let (sign, digits) := match ← unsigned? with
        | c :: rest => if c = '-' then ([c], rest) else ([], c :: rest)
        | [] => ([], [])
      let stripped := withoutZeroFraction (sign ++ (← withoutLeadingZeros? digits))
      plainInteger? ((withoutUnderscores? stripped).getD stripped)

/-- The double that a text spells, with blanks around it or with underscores between digits. -/
def floatOfText? (t : Text) : Option Binary64 :=
  match Binary64.ofText? (Text.trim isSpacing t) with
  | some x => some x
  | none => do Binary64.ofText? (← withoutUnderscores? t)

/-- A number, a truth value, or a text that spells a number. An integer is preferred to a double. -/
def number (v : Value) : Except TypeProblem Number := do
  match v with
  | .int n => return .int n
  | .float x => return .float x
  | .bool b => return .int (if b then 1 else 0)
  | v =>
    match ← spelled? .unreadableInteger v with
    | none => .error .notInteger
    | some t =>
      match integerOfText? t with
      | some n => return .int n
      | none =>
        match floatOfText? t with
        | some x => return .float x
        | none => .error .unreadableInteger

end DocShape.Coercion
