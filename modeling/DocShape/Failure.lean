import DocShape.Diagnostic
import DocShape.Json.Writer
import DocShape.Yaml.Fault

/-!
# Failures

A `Failure` is why an operation gives no result at all: an error that is raised, a document or a
schema file that cannot be read, a value that cannot be written, or an operation that is used
wrongly. Its message and its class are what a caller is told.
-/

namespace DocShape

/-- The two collections that a caller may pass. -/
inductive Collection where
  | errors
  | warnings
deriving DecidableEq, Repr

/-- The name of a collection. -/
def Collection.name : Collection → Text
  | errors => "errors"
  | warnings => "warnings"

/-- Why an operation gives no result. -/
inductive Failure where
  | complaint (c : Complaint)
  /-- The document is no JSON. -/
  | unreadable (fault : Json.Fault)
  /-- The document is no text. -/
  | notADocument (typeName : Text)
  /-- The value has no JSON text. -/
  | unwritable (reason : Json.Unwritable)
  /-- An integer key has too many digits. -/
  | longKey (count : Nat)
  /-- A length constraint is NaN. -/
  | lengthNaN
  /-- A length constraint is infinite. -/
  | lengthInfinite
  /-- A repeat count of a pattern is beyond what is possible. -/
  | repeatTooLarge
  /-- A repeat count of a pattern has too many digits. -/
  | longRepeat (count : Nat)
  /-- The groups of a pattern nest deeper than the stack allows. -/
  | exhausted (message : Text)
  /-- Two global flags of a pattern exclude each other. -/
  | exclusiveFlags
  /-- A collection that was passed is no empty list. -/
  | misuse (collection : Collection)
  /-- A kind of block that does not exist. -/
  | noSuchKind (name : Text)
  | noSuchFile (path : Text)
  /-- A file was asked for where there is a directory. -/
  | isDirectory (path : Text)
  /-- A file is no text. -/
  | undecodable (fault : Encoding.Fault)
  | unknownExtension (suffix : Text)
  | unknownFormat (format : Text)
  /-- A schema file is no JSON. -/
  | badJson (fault : Json.Fault)
  /-- A schema file is no YAML. -/
  | badYaml (fault : Yaml.Fault)
  /-- An output holds surrogates, which no encoding of the terminal has. -/
  | unprintable (output : Text)
deriving DecidableEq

namespace Failure

/-- Where the first run of surrogates stands in a text, and how many they are. -/
def surrogateRun (t : Text) : Nat × Nat :=
  let before := t.takeWhile (fun c => !c.isSurrogate)
  (before.length, ((t.drop before.length).takeWhile CodePoint.isSurrogate).length)

/-- The wording for a text with surrogates. -/
def unprintableText (t : Text) : Text :=
  let (start, count) := surrogateRun t
  let place : Text :=
    if count = 1 then
      "character '\\u" ++ Text.hex4 (((t.drop start).headD .replacement).val) ++ "' in position " ++
        Text.ofNat start
    else
      "characters in position " ++ Text.ofNat start ++ "-" ++ Text.ofNat (start + count - 1)
  "'utf-8' codec can't encode " ++ place ++ ": surrogates not allowed"

/-- What a caller is told. -/
def message : Failure → Text
  | complaint c => c.message
  | unreadable (.tooDeep container) => (Json.Fault.tooDeep container).text
  | unreadable fault => "Failed to parse document: " ++ fault.text
  | notADocument typeName =>
    "the JSON object must be str, bytes or bytearray, not " ++ typeName
  | unwritable reason => reason.text
  | longKey count | longRepeat count => Json.digitLimitText count
  | lengthNaN => "cannot convert float NaN to integer"
  | lengthInfinite => "cannot convert float infinity to integer"
  | repeatTooLarge => "the repetition number is too large"
  | exclusiveFlags => "ASCII and UNICODE flags are incompatible"
  | exhausted message => message
  | misuse collection =>
    "if the " ++ collection.name ++ " parameter is set, it must be an empty list"
  | noSuchKind name => Literal.quoted name
  | noSuchFile path => "Schema file not found: " ++ path
  | isDirectory path => "[Errno 21] Is a directory: " ++ Literal.quoted path
  | undecodable fault => fault.text
  | unknownExtension suffix =>
    "Unsupported file extension: " ++ suffix ++ ". Use .yaml, .yml, or .json"
  | unknownFormat format => "Unsupported format: " ++ format ++ ". Use 'yaml' or 'json'"
  | badJson (.malformed problem place) =>
    "Failed to parse JSON: " ++ (Json.Fault.malformed problem place).text
  | badJson fault => fault.text
  | badYaml (.malformed detail) => "Failed to parse YAML: " ++ detail
  | badYaml (.raised _ message) => message
  | unprintable output => unprintableText output

/-- The class of a failure. -/
def className : Failure → String
  | complaint c => c.className
  | unreadable (.tooDeep _) | badJson (.tooDeep _) | unwritable .tooDeep | exhausted _ =>
    "RecursionError"
  | unreadable _ => "ParseError"
  | misuse _ => "PreconditionError"
  | notADocument _ => "TypeError"
  | unwritable (.noForm _) | unwritable (.noName _) => "TypeError"
  | lengthInfinite | repeatTooLarge => "OverflowError"
  | noSuchKind _ => "KeyError"
  | noSuchFile _ => "FileNotFoundError"
  | isDirectory _ => "IsADirectoryError"
  | undecodable _ => "UnicodeDecodeError"
  | badYaml (.raised className _) => className
  | unprintable _ => "UnicodeEncodeError"
  | _ => "ValueError"

end Failure

end DocShape
