import DocShape.Json.Fault
import DocShape.Value

/-!
# Reading documents

`Json.read` reads one value from a text, with white space around it and nothing else. In the strict
dialect, which documents are in, every number must be finite; the relaxed dialect, which schema
files are in, knows `NaN` and `Infinity` and lets large numbers overflow. An object with a repeated
name keeps the first place and the last value.

Each reader takes the input that is left and gives what it read together with the rest. Brackets may
nest only so deep (`room`), and the first that opens beyond is a fault. The readers end by fuel, of
which twice the length of the text is enough, since every value takes at least one code point.
-/

namespace DocShape.Json

/-- Which numbers are accepted. -/
inductive Dialect where
  | strict
  | relaxed
deriving DecidableEq, Repr

/-- The input that is left, and how many code points came before it. -/
structure Input where
  rest : Text
  offset : Nat

/-- A fault before its place in lines and columns is known. -/
inductive RawFault where
  | malformed (problem : Problem) (offset : Nat)
  | constant (word : Text)
  | outOfRange (numeral : Text)
  | tooManyDigits (count : Nat)
  | tooDeep (container : Container)

namespace Input

/-- The input after its first `n` code points. -/
def drop (i : Input) (n : Nat) : Input := ⟨i.rest.drop n, i.offset + n⟩

/-- A problem at the front of the input. -/
def fail {α : Type} (i : Input) (problem : Problem) : Except RawFault α :=
  .error (.malformed problem i.offset)

/-- Space, tab, newline and carriage return. -/
def isSpace (c : CodePoint) : Bool := c.val == 0x20 || c.val == 9 || c.val == 10 || c.val == 13

/-- The input without white space at its front. -/
def skipSpace (i : Input) : Input := i.drop (i.rest.takeWhile isSpace).length

/-- The input after a character, if that is at its front. -/
def after? (i : Input) (c : CodePoint) : Option Input :=
  match i.rest with
  | d :: _ => if d = c then some (i.drop 1) else none
  | [] => none

end Input

/-! ## Strings -/

/-- The character of a short escape. -/
def shortEscape? (c : CodePoint) : Option CodePoint :=
  if c = '"' ∨ c = '\\' ∨ c = '/' then some c
  else if c = 'b' then some '\x08'
  else if c = 'f' then some '\x0c'
  else if c = 'n' then some '\n'
  else if c = 'r' then some '\r'
  else if c = 't' then some '\t'
  else none

/-- The code point of four hexadecimal digits at the front of a text. -/
def hex4? (t : Text) : Option CodePoint :=
  if t.length < 4 then none
  else (Text.toNatBase? 16 (t.take 4)).map CodePoint.ofNat

/-- What follows `\u`: a code point and how many code points spell it, or how far from the first
digit the escape is at fault. A low surrogate right after a high one joins it. -/
def codeEscape (t : Text) : Except Int (CodePoint × Nat) :=
  if t.length ≤ 4 then .error (-1)
  else match hex4? t with
    | none => .error (-1)
    | some c =>
      let more := t.drop 4
      if c.isHighSurrogate && decide (6 < more.length) && more.take 2 == "\\u" then
        match hex4? (more.drop 2) with
        | none => .error 5
        | some d =>
          if d.isLowSurrogate then .ok (Encoding.joinSurrogates c d, 10) else .ok (c, 4)
      else .ok (c, 4)

/-- The characters of a string up to its closing quote, which is taken too. The opening quote stood
at `start`. -/
def stringRest (start : Nat) : (fuel : Nat) → Input → Except RawFault (Text × Input)
  | 0, _ => .error (.malformed .unterminatedString start)
  | fuel + 1, i =>
    match i.rest with
    | [] => .error (.malformed .unterminatedString start)
    | c :: rest =>
      if c = '"' then .ok ([], i.drop 1)
      else if c.val < 0x20 then i.fail .controlCharacter
      else if c = '\\' then
        match rest with
        | [] => .error (.malformed .unterminatedString start)
        | e :: more =>
          if e = 'u' then
            match codeEscape more with
            | .error back => .error (.malformed .badCodeEscape (i.offset + 2 + back).toNat)
            | .ok (d, n) => do
              let (ds, i) ← stringRest start fuel (i.drop (n + 2))
              return (d :: ds, i)
          else match shortEscape? e with
            | none => i.fail .badEscape
            | some d => do
              let (ds, i) ← stringRest start fuel (i.drop 2)
              return (d :: ds, i)
      else do
        let (ds, i) ← stringRest start fuel (i.drop 1)
        return (c :: ds, i)

/-- A string; its opening quote has been taken. -/
def string (i : Input) : Except RawFault (Text × Input) :=
  stringRest (i.offset - 1) (i.rest.length + 1) i

/-! ## Numbers -/

/-- The parts of a number: whether it is negative, the digits before and after the point, and the
exponent as it is written. -/
structure NumberParts where
  negative : Bool
  whole : Text
  fraction : Text
  exponent : Text

/-- The number as it is written. -/
def NumberParts.text (p : NumberParts) : Text :=
  (if p.negative then [CodePoint.ofChar '-'] else []) ++ p.whole ++ p.fraction ++ p.exponent

/-- The digits before the point: a single zero, or digits that begin with none. -/
def wholeDigits : Text → Text
  | [] => []
  | c :: rest =>
    if c = '0' then [c]
    else if c.isDigit then c :: rest.takeWhile CodePoint.isDigit
    else []

/-- A point with at least one digit after it. -/
def fractionDigits : Text → Text
  | p :: d :: rest =>
    if p = '.' ∧ d.isDigit then p :: d :: rest.takeWhile CodePoint.isDigit else []
  | _ => []

/-- An exponent with at least one digit. -/
def exponentDigits : Text → Text
  | e :: rest =>
    if e = 'e' ∨ e = 'E' then
      let sign := match rest with
        | s :: _ => if s = '+' ∨ s = '-' then [s] else []
        | [] => []
      let digits := (rest.drop sign.length).takeWhile CodePoint.isDigit
      if digits.isEmpty then [] else e :: sign ++ digits
    else []
  | [] => []

/-- The number at the front of a text, if there is one. -/
def numberParts? (t : Text) : Option NumberParts :=
  let (negative, unsigned) := match t with
    | c :: rest => if c = '-' then (true, rest) else (false, t)
    | [] => (false, t)
  let whole := wholeDigits unsigned
  if whole.isEmpty then none
  else
    let afterWhole := unsigned.drop whole.length
    let fraction := fractionDigits afterWhole
    let exponent := exponentDigits (afterWhole.drop fraction.length)
    some ⟨negative, whole, fraction, exponent⟩

/-- The value of a number: an integer of at most so many digits, or a double. -/
def NumberParts.value (dialect : Dialect) (p : NumberParts) : Except RawFault Value :=
  if p.fraction.isEmpty && p.exponent.isEmpty then
    if p.whole.length ≤ digitLimit then
      let n : Int := Text.toNat p.whole
      .ok (.int (if p.negative then -n else n))
    else .error (.tooManyDigits p.whole.length)
  else
    match Binary64.ofText? p.text with
    | none => .error (.outOfRange p.text)
    | some x =>
      if dialect = .strict ∧ !x.isFinite then .error (.outOfRange p.text) else .ok (.float x)

/-! ## Values -/

/-- The words for values, the non-finite numbers last. -/
def words : List (Text × Value) :=
  [("null", .null), ("true", .bool true), ("false", .bool false), ("NaN", .float .nan),
    ("Infinity", .float (.infinite false)), ("-Infinity", .float (.infinite true))]

/-- A number or a word. -/
def scalar (dialect : Dialect) (i : Input) : Except RawFault (Value × Input) :=
  match words.find? (fun w => w.1.isPrefixOf i.rest) with
  | some (word, v) =>
    if dialect = .strict ∧ v.number?.isSome then .error (.constant word)
    else .ok (v, i.drop word.length)
  | none =>
    match numberParts? i.rest with
    | none => i.fail .expectingValue
    | some p => do return (← p.value dialect, i.drop p.text.length)

mutual

/-- A value; white space before it has been skipped. -/
def value (dialect : Dialect) (room : Nat) : (fuel : Nat) → Input → Except RawFault (Value × Input)
  | 0, i => i.fail .expectingValue
  | fuel + 1, i =>
    match i.rest with
    | [] => i.fail .expectingValue
    | c :: _ =>
      if c = '"' then do
        let (t, i) ← string (i.drop 1)
        return (.str t, i)
      else if c = '[' then
        match room with
        | 0 => .error (.tooDeep .array)
        | room + 1 =>
          let i := (i.drop 1).skipSpace
          match i.after? ']' with
          | some i => .ok (.list [], i)
          | none => do
            let (items, i) ← items dialect room fuel i
            return (.list items, i)
      else if c = '{' then
        match room with
        | 0 => .error (.tooDeep .object)
        | room + 1 =>
          let i := (i.drop 1).skipSpace
          match i.after? '}' with
          | some i => .ok (.dict [], i)
          | none => do
            let (members, i) ← members dialect room fuel i
            return (.dict (Entries.ofList members), i)
      else scalar dialect i
termination_by structural fuel => fuel

/-- The items of an array from one of them on, with the closing bracket. -/
def items (dialect : Dialect) (room : Nat) :
    (fuel : Nat) → Input → Except RawFault (List Value × Input)
  | 0, i => i.fail .expectingValue
  | fuel + 1, i => do
    let (v, i) ← value dialect room fuel i
    let i := i.skipSpace
    match i.after? ']' with
    | some i => return ([v], i)
    | none =>
      match i.after? ',' with
      | none => i.fail .expectingComma
      | some i => do
        let (vs, i) ← items dialect room fuel i.skipSpace
        return (v :: vs, i)
termination_by structural fuel => fuel

/-- The members of an object from one of them on, with the closing brace. -/
def members (dialect : Dialect) (room : Nat) :
    (fuel : Nat) → Input → Except RawFault (List (Value × Value) × Input)
  | 0, i => i.fail .expectingName
  | fuel + 1, i =>
    match i.after? '"' with
    | none => i.fail .expectingName
    | some i => do
      let (name, i) ← string i
      let i := i.skipSpace
      match i.after? ':' with
      | none => i.fail .expectingColon
      | some i =>
        let (v, i) ← value dialect room fuel i.skipSpace
        let i := i.skipSpace
        match i.after? '}' with
        | some i => return ([(.str name, v)], i)
        | none =>
          match i.after? ',' with
          | none => i.fail .expectingComma
          | some i => do
            let (rest, i) ← members dialect room fuel i.skipSpace
            return ((.str name, v) :: rest, i)
termination_by structural fuel => fuel

end

/-- One value with white space around it and nothing else, with so many brackets inside each other
at most. -/
def whole (dialect : Dialect) (nesting : Nat) (t : Text) : Except RawFault Value := do
  let (v, i) ← value dialect nesting (2 * t.length + 1) (Input.skipSpace ⟨t, 0⟩)
  let i := i.skipSpace
  if i.rest.isEmpty then return v else i.fail .extraData

/-- The fault with its place in a document. -/
def RawFault.locate (document : Text) : RawFault → Fault
  | malformed problem offset => .malformed problem (Place.at document offset)
  | constant word => .constant word
  | outOfRange numeral => .outOfRange numeral
  | tooManyDigits count => .tooManyDigits count
  | tooDeep container => .tooDeep container

/-- Reads a document. A byte order mark is no part of a text. -/
def read (dialect : Dialect) (nesting : Nat) (document : Text) : Except Fault Value :=
  if document.head? = some .byteOrderMark then .error (.malformed .byteOrderMark (Place.at document 0))
  else (whole dialect nesting document).mapError (RawFault.locate document)

/-- Reads a document given as bytes. -/
def readBytes (dialect : Dialect) (nesting : Nat) (document : List UInt8) : Except Fault Value :=
  match Encoding.decode document with
  | .error fault => .error (.undecodable fault)
  | .ok text => (whole dialect nesting text).mapError (RawFault.locate text)

end DocShape.Json
