import DocShape.Text.Encoding
import DocShape.Value.Literal

/-!
# Why a document is refused

A fault of the syntax says what the reader expected and where, by line, column and offset, counted
in code points. The other faults are about a single number or word, about the bytes of the document,
or about brackets that nest too deep for the stack of the interpreter.
-/

namespace DocShape.Json

/-- What is wrong with the syntax of a document. -/
inductive Problem where
  | expectingValue
  | expectingName
  | expectingColon
  | expectingComma
  | extraData
  | controlCharacter
  | badEscape
  | badCodeEscape
  | unterminatedString
  | byteOrderMark
deriving DecidableEq, Repr

/-- The wording of a problem. -/
def Problem.text : Problem → Text
  | expectingValue => "Expecting value"
  | expectingName => "Expecting property name enclosed in double quotes"
  | expectingColon => "Expecting ':' delimiter"
  | expectingComma => "Expecting ',' delimiter"
  | extraData => "Extra data"
  | controlCharacter => "Invalid control character at"
  | badEscape => "Invalid \\escape"
  | badCodeEscape => "Invalid \\uXXXX escape"
  | unterminatedString => "Unterminated string starting at"
  | byteOrderMark => "Unexpected UTF-8 BOM (decode using utf-8-sig)"

/-- A place in a document: lines and columns count from one, the offset from zero. -/
structure Place where
  line : Nat
  column : Nat
  offset : Nat
deriving DecidableEq, Repr

/-- The place at an offset of a document. A line ends after each newline. -/
def Place.at (document : Text) (offset : Nat) : Place :=
  let before := document.take offset
  let newline := CodePoint.ofChar '\n'
  ⟨before.count newline + 1, (before.reverse.takeWhile (· ≠ newline)).length + 1, offset⟩

/-- The wording of a place. -/
def Place.text (p : Place) : Text :=
  "line " ++ Text.ofNat p.line ++ " column " ++ Text.ofNat p.column ++ " (char " ++
    Text.ofNat p.offset ++ ")"

/-- What stands in brackets. -/
inductive Container where
  | array
  | object
deriving DecidableEq, Repr

/-- The name of a container. -/
def Container.name : Container → Text
  | array => "array"
  | object => "object"

/-- Why a document is refused. -/
inductive Fault where
  | malformed (problem : Problem) (place : Place)
  | constant (word : Text)
  | outOfRange (numeral : Text)
  | tooManyDigits (count : Nat)
  | undecodable (fault : Encoding.Fault)
  /-- A container opens at a depth that the stack does not allow. -/
  | tooDeep (container : Container)
deriving DecidableEq

/-- The wording of the digit limit for a text with so many digits. -/
def digitLimitText (count : Nat) : Text :=
  "Exceeds the limit (" ++ Text.ofNat digitLimit ++
    " digits) for integer string conversion: value has " ++ Text.ofNat count ++
    " digits; use sys.set_int_max_str_digits() to increase the limit"

/-- The wording of a fault. -/
def Fault.text : Fault → Text
  | malformed problem place => problem.text ++ ": " ++ place.text
  | constant word => word ++ " is not valid JSON"
  | outOfRange numeral => "number " ++ numeral ++ " is out of range"
  | tooManyDigits count => digitLimitText count
  | undecodable fault => fault.text
  | tooDeep container =>
    "maximum recursion depth exceeded while decoding a JSON " ++ container.name ++
      " from a unicode string"

/-- The place of a fault of the syntax. -/
def Fault.place? : Fault → Option Place
  | malformed _ place => some place
  | _ => none

end DocShape.Json
