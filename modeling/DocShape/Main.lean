import DocShape.Command
import DocShape.Reference

/-!
# The program

Reads what a command line needs from the system, runs it, and prints the report.
-/

namespace DocShape

/-- The files together with what a name leads to in the file system, if it leads anywhere. -/
def Files.read (files : Files) (path : Text) : IO Files := do
  match Text.toString? path with
  | none => return files
  | some name =>
    try
      let content ← IO.FS.readBinFile (if name.isEmpty then "." else name)
      return { files with entries := (path, content.toList) :: files.entries }
    catch
      | .inappropriateType .. => return { files with directories := path :: files.directories }
      | _ => return files

/-- What surrounds an invocation in the system. Standard input is read only where it is the
source. -/
def Invocation.surroundings (i : Invocation) : IO Surroundings := do
  let files ← Files.read ⟨[], []⟩ i.schema
  let fromStdin := i.command.source?.isSome && i.source == "-"
  let files ← if i.command.source?.isNone || fromStdin then pure files else files.read i.source
  let stdin ← if fromStdin then do
      let bytes ← (← IO.getStdin).readBinToEnd
      pure bytes.toList
    else pure []
  let setting (name : String) : IO (Option Text) := do
    return (← IO.getEnv name).map Text.ofString
  return ⟨files, stdin, ← setting "DOCSPEC_LAZY", ← setting "DOCSPEC_DEBUG"⟩

/-- Writes a text to a stream in UTF-8. -/
def writeText (stream : IO.FS.Stream) (t : Text) : IO Unit := do
  stream.write ⟨(t.flatMap Encoding.utf8Bytes).toArray⟩
  stream.flush

/-- Prints a report. A failure that escaped is named on standard error. -/
def Report.print (report : Report) : IO UInt32 := do
  writeText (← IO.getStdout) report.stdout
  let escaped : Text := match report.escaped with
    | some f => line (Text.ofString f.className ++ ": " ++ f.message)
    | none => []
  writeText (← IO.getStderr) (report.stderr ++ escapeSurrogates escaped)
  return report.exitCode.toUInt32

open Reference

/-- Runs a command line. -/
def runArguments (arguments : List String) : IO UInt32 := do
  let request := Request.ofArguments (arguments.map Text.ofString)
  let around ← match request with
    | .invoke i => i.surroundings
    | _ => pure ⟨⟨[], []⟩, [], none, none⟩
  (request.run around).print

end DocShape

/-- The entry point. -/
def main (arguments : List String) : IO UInt32 := DocShape.runArguments arguments
