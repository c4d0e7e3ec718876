import DocShape.Loading
import DocShape.Proofs.Host
import DocShape.Proofs.Keyed

/-!
# What is loaded

Whatever is loaded, from JSON or from YAML, has no dictionary with a key twice (`Format.keyed_load`,
`keyed_loadSchemaFile`).
-/

namespace DocShape

variable [Host]

/-- What is loaded has no dictionary with a key twice. -/
theorem Format.keyed_load [LawfulHost] (content : Text) (format : Format) :
    Yields Value.Keyed (format.load content) := by
  cases format with
  | yaml => exact Yields.mapError _ fun _ loaded => LawfulHost.keyed_yaml loaded
  | json => exact (Json.keyed_read Host.nesting content).mapError _

theorem keyed_loadSchemaFile [LawfulHost] (files : Files) (path : Text) :
    Yields Value.Keyed (loadSchemaFile files path) := by
  refine (Yields.anything _).bind fun file _ => ?_
  unfold SchemaFile.load
  split
  · exact (Yields.anything _).bind fun content _ => file.format.keyed_load content
  · exact .error _

theorem loadSchemaFile_of_file {files : Files} {path t : Text} {content : List UInt8} {format : Format}
    {raw : Value} (hfile : files.lookup path = .file content)
    (hformat : Format.ofPath path = .ok format) (htext : textOfFile content = .ok t)
    (hload : format.load t = .ok raw) : loadSchemaFile files path = .ok raw := by
  have hlocate : SchemaFile.locate files path =
      .ok ⟨FileName.normal path, format, .file content⟩ := by
    rw [SchemaFile.locate, hfile, hformat]
    rfl
  rw [loadSchemaFile, hlocate]
  show textOfFile content >>= _ = _
  rw [htext]
  exact hload

end DocShape
