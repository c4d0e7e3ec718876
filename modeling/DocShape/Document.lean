import DocShape.Conversion
import DocShape.Json.Reader
import DocShape.Schema.Grammar
import DocShape.Schema.Typing

/-!
# Checking schemas, decoding and encoding documents

The three operations of the library. Each takes a mode and gives an `Outcome`: a value with the
errors and warnings found on the way, or a `Failure` where there is no result at all. In fail-fast
mode an error leaves no value; in collect-all mode decoding and encoding give the part of the value
that could be converted.

A `Validator` holds a schema that has been checked once.
-/

namespace DocShape

section

variable [Host]

/-- Checks a raw schema against the grammar; a schema without errors gets its typed form. -/
def checkSchema (raw : Value) (mode : Mode) : Except Failure (Outcome (Option Block)) := do
  let o ← (Check.block [] raw).run mode
  if o.isOk then return ⟨some (← parseSchema raw), o.errors, o.warnings⟩
  else return ⟨none, o.errors, o.warnings⟩

/-- Reads a document, which is a text or bytes. -/
def parseDocument : Value → Except Failure Value
  | .str t => (Json.read .strict Host.nesting t).mapError .unreadable
  | .bytes b => (Json.readBytes .strict Host.nesting b).mapError .unreadable
  | v => .error (.notADocument v.typeName)

/-- Writes a value as a document. -/
def serializeDocument (v : Value) : Except Failure Text :=
  (Json.write (.compact Host.nesting) v).mapError .unwritable

/-- Converts a value along a schema. A conversion that is cut short leaves null. -/
def Block.conversion (schema : Block) (d : Direction) (mode : Mode) (v : Value) :
    Except Failure (Outcome Value) := do
  let o ← (Convert.block d [] schema v).run mode
  return o.map (·.getD .null)

/-- Reads a document and converts it along a schema. -/
def decodeDocument (document : Value) (schema : Block) (mode : Mode) :
    Except Failure (Outcome Value) := do
  schema.conversion .decoding mode (← parseDocument document)

/-- Converts a value along a schema and writes it. With errors in fail-fast mode there is no
text. -/
def encodeDocument (v : Value) (schema : Block) (mode : Mode) :
    Except Failure (Outcome (Option Text)) := do
  let o ← schema.conversion .encoding mode v
  if o.isOk ∨ mode = .collectAll then
    return ⟨some (← serializeDocument o.value), o.errors, o.warnings⟩
  else return ⟨none, o.errors, o.warnings⟩

/-- A schema that has been checked, for repeated use. -/
structure Validator where
  schema : Block

namespace Validator

/-- Checks a raw schema up to its first error. -/
def ofRaw (raw : Value) : Except Failure Validator := do
  let o ← checkSchema raw .failFast
  match ← o.orFirstError with
  | some block => return ⟨block⟩
  | none => return ⟨.flag ⟨.absent, .absent, none⟩⟩

/-- Decodes a document, or gives the first error. -/
def decode (validator : Validator) (document : Value) : Except Failure Value := do
  (← decodeDocument document validator.schema .failFast).orFirstError

/-- Encodes a value, or gives the first error. -/
def encode (validator : Validator) (v : Value) : Except Failure (Option Text) := do
  (← encodeDocument v validator.schema .failFast).orFirstError

/-- Decodes a document with all its errors. -/
def validateDocument (validator : Validator) (document : Value) : Except Failure (Outcome Value) :=
  decodeDocument document validator.schema .collectAll

/-- Encodes a value with all its errors. -/
def validateObject (validator : Validator) (v : Value) : Except Failure (Outcome (Option Text)) :=
  encodeDocument v validator.schema .collectAll

/-- The schema in its raw form. -/
def schemaDict (validator : Validator) : Value := validator.schema.dump

/-- Checks the schema again from its raw form: the outcome, and whether the typed form is the
same. -/
def recheck (validator : Validator) : Except Failure (Outcome (Option Block) × Bool) := do
  let o ← checkSchema validator.schema.dump .failFast
  let same := match o.value with
    | some block => block.equals validator.schema
    | none => false
  return (o, same)

end Validator

end

end DocShape
