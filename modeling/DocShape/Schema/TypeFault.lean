import DocShape.Text

/-!
# Why a raw schema has no typed form

A `TypeFault` names the place in the raw schema by property names, indices and the kinds that were
chosen on the way, and says what was expected there.
-/

namespace DocShape

/-- What is wrong at a place of a raw schema. -/
inductive TypeProblem where
  | notABlock
  | kindMissing
  | kindUnknown (shown : Text)
  | extraProperty
  | keyNotText
  | missingProperty
  | notText
  | notUnicode
  | notFlag
  | unclearFlag
  | notInteger
  | unreadableInteger
  | notKeyKind
  | notAList
  | emptyList
  | notADictionary
  | emptyDictionary
  /-- Blocks stand inside each other deeper than the typed models allow. -/
  | tooDeep
  /-- Words of the library's own. -/
  | stated (message : Text)
deriving DecidableEq

/-- The wording of a problem. -/
def TypeProblem.text : TypeProblem → Text
  | notABlock => "Input should be a valid dictionary or object to extract fields from"
  | kindMissing => "Unable to extract tag using discriminator 'type'"
  | kindUnknown shown =>
    "Input tag '" ++ shown ++ "' found using 'type' does not match any of the expected tags: " ++
      "'flag', 'number', 'string', 'array', 'object', 'tuple', 'map', 'enum'"
  | extraProperty => "Extra inputs are not permitted"
  | keyNotText => "Keys should be strings"
  | missingProperty => "Field required"
  | notText => "Input should be a valid string"
  | notUnicode => "Input should be a valid string, unable to parse raw data as a unicode string"
  | notFlag => "Input should be a valid boolean"
  | unclearFlag => "Input should be a valid boolean, unable to interpret input"
  | notInteger => "Input should be a valid integer"
  | unreadableInteger => "Input should be a valid integer, unable to parse string as an integer"
  | notKeyKind => "Input should be 'integer' or 'string'"
  | notAList => "Input should be a valid list"
  | emptyList => "List should have at least 1 item after validation, not 0"
  | notADictionary => "Input should be a valid dictionary"
  | emptyDictionary => "Dictionary should have at least 1 item after validation, not 0"
  | tooDeep => "Recursion error - cyclic reference detected"
  | stated message => message

/-- A text without surrogates. -/
def Text.unicode (t : Text) : Except TypeProblem Text :=
  if t.any CodePoint.isSurrogate then .error .notUnicode else .ok t

/-- A problem and its place. -/
structure TypeFault where
  location : List Text
  problem : TypeProblem
deriving DecidableEq

/-- The fault seen from one level further out. -/
def TypeFault.under (part : Text) (f : TypeFault) : TypeFault :=
  { f with location := part :: f.location }

/-- The wording of a fault. -/
def TypeFault.text (f : TypeFault) : Text :=
  let place := Text.join "." f.location
  "schema is invalid at " ++ (if place.isEmpty then Text.ofString "schema" else place) ++ ": " ++
    f.problem.text

end DocShape
