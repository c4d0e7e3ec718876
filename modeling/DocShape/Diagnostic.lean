import DocShape.Pattern.Fault
import DocShape.Schema.TypeFault

/-!
# Diagnostics

Walking a schema or a value yields diagnostics. Each has a path, the segments that lead from the
root to the offending node, and a cause: a `Mismatch` between a value and its block, a `Violation`
of the grammar of schemas, or an `Advice` on a schema that is valid all the same. The wording
belongs to the cause.
-/

namespace DocShape

/-! ## Paths -/

/-- One step from a node to a part of it. -/
inductive Segment where
  /-- The block of an array's items. -/
  | items
  /-- The block of an object's values. -/
  | values
  /-- The block or the item at a position of a tuple. -/
  | position (index : Nat)
  /-- The block or the value of a map's field. -/
  | field (name : Text)
  /-- An item of an array. -/
  | item (index : Nat)
  /-- The value under a key of an object. -/
  | entry (key : Text)
  /-- A property, by its plain name. -/
  | property (name : Text)
deriving DecidableEq

/-- A segment as it is written. -/
def Segment.text : Segment → Text
  | items => "[]"
  | values => "\x7b\x7d"
  | position index => "<" ++ Text.ofNat index ++ ">"
  | field name => "$" ++ name
  | item index => "[" ++ Text.ofNat index ++ "]"
  | entry key => "\x7b" ++ key ++ "\x7d"
  | property name => name

/-- The segments from the root to a node. -/
abbrev Path := List Segment

/-- The path as one text: its segments with points between them, `<root>` for the root. -/
def Path.location (path : Path) : Text :=
  if path.isEmpty then "<root>" else Text.join "." (path.map Segment.text)

/-! ## Causes -/

/-- The two ways of converting: from document text to native values and back. -/
inductive Direction where
  | decoding
  | encoding
deriving DecidableEq, Repr

/-- What a node must be to fit its block. -/
inductive Shape where
  | boolean
  | number
  | string
  | array
  | object
deriving DecidableEq, Repr

/-- The name of a shape. -/
def Shape.name : Shape → Text
  | boolean => "boolean"
  | number => "number"
  | string => "string"
  | array => "array"
  | object => "object"

/-- A shape with its article: a decoder expects JSON, an encoder native values. -/
def Shape.expected (shape : Shape) : Direction → Text
  | .decoding => "a JSON " ++ shape.name
  | .encoding => match shape with
    | array | object => "an " ++ shape.name
    | _ => "a " ++ shape.name

/-- What the keys of an object are. -/
inductive KeyKind where
  | integer
  | string
deriving DecidableEq, Repr

/-- The name of a kind of keys. -/
def KeyKind.name : KeyKind → Text
  | integer => "integer"
  | string => "string"

/-- How a value must stand to a bound. -/
inductive Relation where
  | above
  | atLeast
  | below
  | atMost
deriving DecidableEq, Repr

/-- The wording of a relation. -/
def Relation.text : Relation → Text
  | above => "strictly greater than"
  | atLeast => "equal or greater than"
  | below => "strictly lower than"
  | atMost => "equal or lower than"

/-- Why a value does not conform to its block. -/
inductive Mismatch where
  | expected (shape : Shape) (direction : Direction)
  | fractional
  | outOfBounds (relation : Relation) (limit : Text)
  | lengthNot (length : Text)
  | lengthOutOfBounds (relation : Relation) (limit : Text)
  | patternUnmatched
  | badKey (index : Nat) (kind : KeyKind)
  | tupleLength (length : Nat)
  | unexpectedField (name : Text)
  | missingField (name : Text)
  | notInEnum
  /-- Words of the caller's own. -/
  | stated (message : Text)
deriving DecidableEq

/-- The wording of a mismatch. -/
def Mismatch.text : Mismatch → Text
  | expected shape direction => "was expecting " ++ shape.expected direction
  | fractional => "was expecting non-decimal number"
  | outOfBounds relation limit => "value must be " ++ relation.text ++ " " ++ limit
  | lengthNot length => "length must be equal to " ++ length
  | lengthOutOfBounds relation limit => "length must be " ++ relation.text ++ " " ++ limit
  | patternUnmatched => "value did not match the pattern"
  | badKey index kind =>
    "key at index " ++ Text.ofNat index ++ " is invalid; expected " ++
      match kind with
      | .integer => Text.ofString "it to be an integer"
      | .string => Text.ofString "to match the pattern"
  | tupleLength length => "length of the array must be " ++ Text.ofNat length
  | unexpectedField name => "'" ++ name ++ "' field was unexpected"
  | missingField name => "'" ++ name ++ "' field was missing"
  | notInEnum => "enum value is invalid"
  | stated message => message

/-- What the value of a property has to be. -/
inductive Requirement where
  | object
  | array
  | string
  | bool
  | number
  | numberOrObject
deriving DecidableEq, Repr

/-- The wording of a requirement. -/
def Requirement.text : Requirement → Text
  | object => "an object"
  | array => "an array"
  | string => "a string"
  | bool => "a bool"
  | number => "a number"
  | numberOrObject => "either a number or an object"

/-- How a raw schema violates the grammar of schemas. -/
inductive Violation where
  | mustBe (requirement : Requirement)
  | missingProperty (name : Text)
  | unknownKind
  | unexpectedProperty (shown : Text)
  | boundsCrossed
  | negativeLength
  | badKeyKind
  | noItems
  | noFields
  | badFieldName (shown : Text)
  | badEnumValue (shown : Text)
  | duplicateEnumValue (shown : Text)
  /-- The typed form does not exist. -/
  | untyped (fault : TypeFault)
  /-- The pattern of a block cannot be used. -/
  | badPattern (fault : Pattern.Fault)
  /-- Words of the caller's own. -/
  | stated (message : Text)
deriving DecidableEq

/-- The wording of a violation. -/
def Violation.text : Violation → Text
  | mustBe requirement => "value must be " ++ requirement.text
  | missingProperty name => "'" ++ name ++ "' property is missing"
  | unknownKind => "value of 'type' is incorrect"
  | unexpectedProperty shown => "'" ++ shown ++ "' property is unexpected"
  | boundsCrossed => "minimum must be lower than maximum"
  | negativeLength => "must be greater or equal to zero"
  | badKeyKind => "value of 'key' must be either 'integer' or 'string'"
  | noItems => "must contain at least one value"
  | noFields => "must contain at least one field"
  | badFieldName shown => "'" ++ shown ++ "' is an incorrect key name"
  | badEnumValue shown => "'" ++ shown ++ "' is an incorrect value"
  | duplicateEnumValue shown => "'" ++ shown ++ "' value is duplicated"
  | untyped fault => fault.text
  | badPattern fault => "pattern is invalid: " ++ fault.text
  | stated message => message

/-- What a schema is advised of although it is valid. -/
inductive Advice where
  | fractionalLength
  /-- Words of the caller's own. -/
  | stated (message : Text)
deriving DecidableEq

/-- The wording of an advice. -/
def Advice.text : Advice → Text
  | fractionalLength => "should be an integer (got decimal)"
  | stated message => message

/-! ## Diagnostics -/

/-- An error: a value that does not conform, or a schema that is no schema. -/
inductive Complaint where
  | mismatch (path : Path) (cause : Mismatch)
  | violation (path : Path) (cause : Violation)
deriving DecidableEq

namespace Complaint

/-- Where the error is. -/
def path : Complaint → Path
  | mismatch path _ | violation path _ => path

/-- What the error says. -/
def message : Complaint → Text
  | mismatch _ cause => cause.text
  | violation _ cause => cause.text

/-- The class of the error. -/
def className : Complaint → String
  | mismatch _ _ => "ValidationError"
  | violation _ _ => "SchemaError"

end Complaint

/-- A warning, which is never raised. -/
structure Warning where
  path : Path
  cause : Advice
deriving DecidableEq

/-- What the warning says. -/
def Warning.message (w : Warning) : Text := w.cause.text

/-- A diagnostic written out for a developer: its class, path and message. -/
def diagnosticLiteral (className : String) (path : Path) (message : Text) : Text :=
  Text.ofString className ++ "(path=[" ++
    Text.join ", " (path.map fun s => Literal.quoted s.text) ++ "], message=" ++
    Literal.quoted message ++ ")"

end DocShape
