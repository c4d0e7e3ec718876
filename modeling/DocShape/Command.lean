import DocShape.Command.Arguments
import DocShape.Document
import DocShape.Loading

/-!
# Running commands

`Invocation.run` performs a command on the files and the standard input that it is given, and tells
what is printed and how the program ends (`Report`). A command either produces something, or finds
that its input does not conform, or cannot be performed (`Ending`); in the last two cases it is
aborted. With JSON output the ending is one JSON object on standard output; otherwise the product
alone goes there, and errors and warnings go to standard error.
-/

namespace DocShape

/-- What surrounds a command: files, standard input and two variables of the environment. -/
structure Surroundings where
  files : Files
  stdin : List UInt8
  lazyVariable : Option Text
  debugVariable : Option Text

/-- What a command printed and how it ended. A failure that no output can hold escapes. -/
structure Report where
  exitCode : Nat
  stdout : Text
  stderr : Text
  escaped : Option Failure
deriving DecidableEq

/-- What a command makes: its image in JSON output, and the text that is printed otherwise, with the
warnings before it. -/
structure Product where
  image : Value
  plain : Except Failure Text
  warnings : List Warning

/-- How a command ends. -/
inductive Ending where
  | product (p : Product)
  | nonconforming (errors : List Complaint) (warnings : List Warning)
  | failure (f : Failure)

/-! ## Performing a command -/

/-- Work that logs what it does, also where it fails. -/
abbrev Attempt := ExceptT Failure (StateM (List Text))

namespace Attempt

/-- Adds a line to the log. -/
def log (source : String) (message : Text) : Attempt Unit :=
  modify (· ++ ["DEBUG:docspec." ++ Text.ofString source ++ ":" ++ message])

/-- Loads the schema file with a name. -/
def load [Host] (files : Files) (path : Text) : Attempt Value := do
  let file ← SchemaFile.locate files path
  log "validator.loaders" ("Loading schema from: " ++ file.path)
  file.load

/-- Logs what an operation found. -/
def logFindings {α : Type} (what : Text) (mode : Mode) (countWarnings : Bool) (o : Outcome α) :
    Attempt Unit :=
  log "validator.core" (what ++ " (mode=" ++ mode.name ++ ", errors=" ++
    Text.ofNat o.errors.length ++
    (if countWarnings then ", warnings=" ++ Text.ofNat o.warnings.length else []) ++ ")")

/-- Checks a raw schema. -/
def check [Host] (raw : Value) (mode : Mode) : Attempt (Outcome (Option Block)) := do
  let o ← checkSchema raw mode
  logFindings "Schema validation finished" mode true o
  return o

/-- Loads the schema that a conversion needs, and checks it up to its first error. -/
def schema [Host] (files : Files) (path : Text) : Attempt Block := do
  let o ← check (← load files path) .failFast
  match ← o.orFirstError with
  | some block => return block
  | none => return .flag ⟨.absent, .absent, none⟩

end Attempt

namespace Invocation

/-- The mode of a command, by its option or else by the environment. -/
def mode (i : Invocation) (around : Surroundings) : Mode :=
  if i.options.lazy || environmentFlag around.lazyVariable false then .collectAll else .failFast

/-- The text of the source. -/
def sourceText (i : Invocation) (around : Surroundings) : Except Failure Text :=
  if i.source = "-" then textOfFile around.stdin
  else match around.files.lookup i.source with
    | .file content => textOfFile content
    | _ => .error (.noSuchFile i.source)

/-- The format of a value in the source; standard input and unknown suffixes mean YAML. -/
def sourceFormat (i : Invocation) : Format :=
  match Format.ofPath i.source with
  | .ok format => format
  | .error _ => .yaml

/-- A diagnostic as JSON. -/
def diagnosticImage (path : Path) (message : Text) : Value :=
  .dict [(.str "path", .list (path.map fun s => .str s.text)),
    (.str "location", .str path.location), (.str "message", .str message)]

/-- Errors and warnings as members of a JSON object. -/
def diagnosticsImage (errors : List Complaint) (warnings : List Warning) : Entries :=
  [(.str "errors", .list (errors.map fun c => diagnosticImage c.path c.message)),
    (.str "warnings", .list (warnings.map fun w => diagnosticImage w.path w.message))]

/-- How a command ends that found something; a product is made where it found no errors. -/
def conclude {α : Type} (source : String) (complaint : Text) (o : Outcome α)
    (product : α → Product) : Attempt Ending := do
  if o.isOk then return .product (product o.value)
  else
    Attempt.log source complaint
    return .nonconforming o.errors o.warnings

/-- Checks a schema. -/
def validate [Host] (i : Invocation) (around : Surroundings) : Attempt Ending := do
  let o ← Attempt.check (← Attempt.load around.files i.schema) (i.mode around)
  let complaint := "Schema " ++ i.schema ++ " has " ++ Text.ofNat o.errors.length ++ " error(s)"
  conclude "cli.validate" complaint o fun _ =>
    ⟨.dict ((.str "valid", .bool true) :: diagnosticsImage o.errors o.warnings),
      .ok ("Schema is valid: " ++ i.schema), o.warnings⟩

/-- Decodes a document. -/
def decode [Host] (i : Invocation) (around : Surroundings) : Attempt Ending := do
  let block ← Attempt.schema around.files i.schema
  let document ← i.sourceText around
  let o ← decodeDocument (.str document) block (i.mode around)
  Attempt.logFindings "Document decoded" (i.mode around) false o
  conclude "cli.convert" ("Document does not match " ++ i.schema) o fun v =>
    ⟨.dict [(.str "value", v)], (Json.write .readable v).mapError .unwritable, []⟩

/-- Encodes a value. -/
def encode [Host] (i : Invocation) (around : Surroundings) : Attempt Ending := do
  let block ← Attempt.schema around.files i.schema
  let v ← i.sourceFormat.load (← i.sourceText around)
  let o ← encodeDocument v block (i.mode around)
  Attempt.logFindings "Object encoded" (i.mode around) false o
  conclude "cli.convert" ("Value does not match " ++ i.schema) o fun document =>
    let document := document.getD []
    ⟨.dict [(.str "document", .str document)], .ok document, []⟩

/-- Performs a command: how it ends and what it logs. -/
def perform [Host] (i : Invocation) (around : Surroundings) : Ending × List Text :=
  let attempt := match i.command with
    | .validate => i.validate around
    | .decode => i.decode around
    | .encode => i.encode around
  let (result, log) := attempt.run.run []
  match result with
  | .ok ending => (ending, log)
  | .error f => (.failure f, log)

end Invocation

/-! ## Printing -/

/-- A line of output. -/
def line (t : Text) : Text := t ++ "\n"

/-- How long the styling of a terminal is that a text begins with: an escape character, `[`,
parameters and a letter. -/
def stylingLength? : Text → Option Nat
  | escape :: bracket :: rest =>
    if escape = '\x1b' ∧ bracket = '[' then
      let parameters := rest.takeWhile fun c : CodePoint => c.isDigit || c == ';' || c == '?'
      if (rest.drop parameters.length).head?.any CodePoint.isLetter then some (parameters.length + 3)
      else none
    else none
  | _ => none

/-- The text behind its first `skip` code points without styling. -/
def unstyledFrom : (skip : Nat) → Text → Text
  | _, [] => []
  | skip + 1, _ :: rest => unstyledFrom skip rest
  | 0, c :: rest =>
    match stylingLength? (c :: rest) with
    | some n => unstyledFrom (n - 1) rest
    | none => c :: unstyledFrom 0 rest

/-- A text without the styling that only a terminal would show. -/
def unstyled (t : Text) : Text := unstyledFrom 0 t

/-- A text for standard error, where surrogates are escaped. -/
def escapeSurrogates (t : Text) : Text :=
  t.flatMap fun c => if c.isSurrogate then "\\u" ++ Text.hex4 c.val else [c]

/-- A warning on standard error. -/
def warningLine (w : Warning) : Text :=
  line ("Warning: " ++ w.path.location ++ ": " ++ w.message)

/-- An error on standard error. -/
def errorLine (c : Complaint) : Text := line ("Error: " ++ c.path.location ++ ": " ++ c.message)

/-- The report of a command that printed a result, if its text can be printed. -/
def Report.success (stdout : Except Failure Text) (stderr : Text) : Report :=
  match stdout with
  | .error f => ⟨1, [], stderr, some f⟩
  | .ok t =>
    if t.any CodePoint.isSurrogate then ⟨1, [], stderr, some (.unprintable t)⟩
    else ⟨0, t, stderr, none⟩

/-- The report of a command that was aborted. -/
def Report.aborted (stdout : Except Failure Text) (stderr : Text) : Report :=
  match stdout with
  | .error f => ⟨1, [], stderr, some f⟩
  | .ok t => ⟨1, t, stderr ++ line "Aborted!", none⟩

namespace Ending

/-- The JSON object of an ending. -/
def image [Host] (debug : Bool) : Ending → Value
  | product p => .dict [(.str "status", .str "ok"), (.str "result", p.image)]
  | nonconforming errors warnings =>
    .dict ((.str "status", .str "failed") :: Invocation.diagnosticsImage errors warnings)
  | failure f =>
    .dict ([(.str "status", .str "error"), (.str "error", .str f.message)] ++
      if debug then [(.str "traceback", .str (Host.traceback f)), (.str "type", .str f.className)] else [])

/-- The text of an ending on standard error. -/
def messages [Host] (debug : Bool) : Ending → Text
  | product p => p.warnings.flatMap warningLine
  | nonconforming errors warnings => warnings.flatMap warningLine ++ errors.flatMap errorLine
  | failure f =>
    line ("Error: " ++ f.message) ++
      if debug then line "\nTraceback:" ++ line (Host.traceback f) else []

/-- What is printed at an ending, behind the log. -/
def report [Host] (ending : Ending) (options : Options) (log : Text) : Report :=
  if options.jsonOutput then
    let stdout :=
      ((Json.write .ascii (ending.image options.debug)).map line).mapError Failure.unwritable
    match ending with
    | product _ => Report.success stdout log
    | _ => Report.aborted stdout log
  else
    let stderr := log ++ escapeSurrogates (unstyled (ending.messages options.debug))
    match ending with
    | product p => Report.success (p.plain.map fun t => unstyled (line t)) stderr
    | _ => Report.aborted (.ok []) stderr

end Ending

/-- Runs a command. What it does is logged if the option or the environment asks for it. -/
def Invocation.run [Host] (i : Invocation) (around : Surroundings) : Report :=
  let (ending, log) := i.perform around
  let logged := i.options.debug || environmentFlag around.debugVariable false
  ending.report i.options (if logged then escapeSurrogates (log.flatMap line) else [])

/-- The report of a command line that cannot be run. -/
def UsageProblem.report (problem : UsageProblem) (command : Option Command) : Report :=
  let name : Text := match command with
    | some command => "docspec " ++ command.name
    | none => "docspec"
  ⟨2, [], line (usage command) ++ line ("Try '" ++ name ++ " --help' for help.") ++ line [] ++
    unstyled (line ("Error: " ++ problem.text)), none⟩

/-- Runs a command line. -/
def Request.run [Host] (request : Request) (around : Surroundings) : Report :=
  match request with
  | help command => ⟨0, line (usage command), [], none⟩
  | refuse command problem => problem.report command
  | invoke i =>
    match i.problem? around.files with
    | some problem => problem.report (some i.command)
    | none => i.run around

end DocShape
