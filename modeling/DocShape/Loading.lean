import DocShape.Files
import DocShape.Host
import DocShape.Json.Reader

/-!
# Loading schema files

A schema file is YAML or JSON, by the suffix of its name. Its bytes are UTF-8, and every kind of
line end in it counts as a newline. What it holds is not checked here.
-/

namespace DocShape

/-- How the content of a file is written. -/
inductive Format where
  | yaml
  | json
deriving DecidableEq, Repr

namespace Format

/-- The name of a format. -/
def name : Format → Text
  | yaml => "yaml"
  | json => "json"

/-- The format with a name. -/
def ofName (name : Text) : Except Failure Format :=
  if name = "yaml" then .ok yaml
  else if name = "json" then .ok json
  else .error (.unknownFormat name)

/-- The format that the suffix of a file name tells. -/
def ofPath (path : Text) : Except Failure Format :=
  let suffix := (FileName.suffix path).map CodePoint.toLower
  if suffix = ".yaml" ∨ suffix = ".yml" then .ok yaml
  else if suffix = ".json" then .ok json
  else .error (.unknownExtension suffix)

/-- The value that a content in the format holds. -/
def load [Host] (content : Text) : Format → Except Failure Value
  | yaml => (Host.yaml content).mapError .badYaml
  | json => (Json.read .relaxed Host.nesting content).mapError .badJson

end Format

/-- The value that a content holds in the format with a name. -/
def loadSchema [Host] (content formatName : Text) : Except Failure Value := do
  (← Format.ofName formatName).load content

/-- A text with a newline for every line end. -/
def Text.withNewlines : Text → Text
  | [] => []
  | c :: rest =>
    if c = '\r' then
      match rest with
      | d :: more =>
        if d = '\n' then CodePoint.ofChar '\n' :: withNewlines more
        else CodePoint.ofChar '\n' :: withNewlines (d :: more)
      | [] => "\n"
    else c :: withNewlines rest

/-- The text of a file's bytes. -/
def textOfFile (content : List UInt8) : Except Failure Text :=
  ((Encoding.utf8Text content).map Text.withNewlines).mapError .undecodable

/-- A schema file that is there and has a known format. -/
structure SchemaFile where
  path : Text
  format : Format
  located : Located

namespace SchemaFile

/-- The schema file with a name. -/
def locate (files : Files) (path : Text) : Except Failure SchemaFile :=
  let normal := FileName.normal path
  match files.lookup path with
  | .missing => .error (.noSuchFile normal)
  | located => do return ⟨normal, ← Format.ofPath path, located⟩

/-- The raw schema that a file holds. -/
def load [Host] (file : SchemaFile) : Except Failure Value :=
  match file.located with
  | .file content => do file.format.load (← textOfFile content)
  | _ => .error (.isDirectory file.path)

end SchemaFile

/-- The raw schema in the file with a name. -/
def loadSchemaFile [Host] (files : Files) (path : Text) : Except Failure Value := do
  (← SchemaFile.locate files path).load

end DocShape
