import DocShape.Files
import DocShape.Text.Classes
import DocShape.Value.Literal

/-!
# Command line arguments

A command line names a command, a schema file and, for the commands that convert, a source: a file
or `-`, which is standard input and the default. Options may stand anywhere behind the command;
behind `--` everything is an argument. `Request.ofArguments` reads a command line, and
`Invocation.problem?` tells what is wrong with the files that it names.
-/

namespace DocShape

/-- What can be done at the command line. -/
inductive Command where
  | validate
  | decode
  | encode
deriving DecidableEq, Repr

namespace Command

/-- The word for a command. -/
def name : Command → Text
  | validate => "validate"
  | decode => "decode"
  | encode => "encode"

/-- The command with a name. -/
def ofName? (t : Text) : Option Command := [validate, decode, encode].find? (·.name = t)

/-- What the source of a command is called; a schema is checked without one. -/
def source? : Command → Option Text
  | validate => none
  | decode => some "[DOCUMENT]"
  | encode => some "[VALUE]"

end Command

/-- The options of an invocation. -/
structure Options where
  lazy : Bool
  jsonOutput : Bool
  debug : Bool
deriving DecidableEq, Repr

/-- A complete command line. -/
structure Invocation where
  command : Command
  schema : Text
  source : Text
  options : Options
deriving DecidableEq, Repr

/-- Why a command line cannot be run. -/
inductive UsageProblem where
  | noSuchCommand (name : Text)
  | noSuchOption (name : Text)
  | valueForFlag (name : Text)
  | missingSchema
  | extraArguments (arguments : List Text)
  | schemaIsDirectory (path : Text)
  | noSource (source path : Text)
  | sourceIsDirectory (source path : Text)
deriving DecidableEq, Repr

/-- The wording of a problem. -/
def UsageProblem.text : UsageProblem → Text
  | noSuchCommand name => "No such command " ++ Literal.quoted name ++ "."
  | noSuchOption name => "No such option: " ++ name
  | valueForFlag name => "Option " ++ Literal.quoted name ++ " does not take a value."
  | missingSchema => "Missing argument 'SCHEMA'."
  | extraArguments arguments =>
    "Got unexpected extra argument" ++ (if arguments.length = 1 then "" else "s") ++ " (" ++
      Text.join " " arguments ++ ")"
  | schemaIsDirectory path =>
    "Invalid value for 'SCHEMA': File " ++ Literal.quoted path ++ " is a directory."
  | noSource source path =>
    "Invalid value for '" ++ source ++ "': " ++ Literal.quoted path ++ ": No such file or directory"
  | sourceIsDirectory source path =>
    "Invalid value for '" ++ source ++ "': " ++ Literal.quoted path ++ ": Is a directory"

/-- How a command, or the program without one, is used. -/
def usage : Option Command → Text
  | none => "Usage: docspec [OPTIONS] COMMAND [ARGS]..."
  | some command =>
    "Usage: docspec " ++ command.name ++ " [OPTIONS] SCHEMA" ++
      match command.source? with
      | some source => CodePoint.ofChar ' ' :: source
      | none => []

/-- What a command line asks for. -/
inductive Request where
  | invoke (invocation : Invocation)
  | help (command : Option Command)
  | refuse (command : Option Command) (problem : UsageProblem)
deriving DecidableEq, Repr

/-! ## Reading the words -/

/-- The options and arguments among the words behind a command. -/
structure Words where
  options : Options
  help : Bool
  arguments : List Text

/-- Sorts the words behind a command. -/
def Words.ofList : List Text → Except UsageProblem Words
  | [] => .ok ⟨⟨false, false, false⟩, false, []⟩
  | word :: rest =>
    if word = "--" then .ok ⟨⟨false, false, false⟩, false, rest⟩
    else if word.head? ≠ some (CodePoint.ofChar '-') ∨ word.length ≤ 1 then do
      let words ← ofList rest
      return { words with arguments := word :: words.arguments }
    else
      let name := word.takeWhile (· ≠ CodePoint.ofChar '=')
      let known := ["--lazy", "--json-output", "--debug", "--help"].map Text.ofString
      if !known.contains name then
        .error (.noSuchOption (if word.take 2 = "--" then name else word.take 2))
      else if name ≠ word then .error (.valueForFlag name)
      else do
        let words ← ofList rest
        if name = "--lazy" then return { words with options := { words.options with lazy := true } }
        else if name = "--json-output" then
          return { words with options := { words.options with jsonOutput := true } }
        else if name = "--debug" then
          return { words with options := { words.options with debug := true } }
        else return { words with help := true }

/-- What the words behind a command ask for. -/
def Request.ofWords (command : Command) (words : Words) : Request :=
  if words.help then .help (some command)
  else
    match words.arguments with
    | [] => .refuse (some command) .missingSchema
    | schema :: rest =>
      let (source, extra) :=
        if command.source?.isSome then (rest.head?, rest.drop 1) else (none, rest)
      if extra.isEmpty then .invoke ⟨command, schema, source.getD "-", words.options⟩
      else .refuse (some command) (.extraArguments extra)

/-- What a command line asks for. -/
def Request.ofArguments : List Text → Request
  | [] => .help none
  | word :: rest =>
    if word = "--help" then .help none
    else if word.head? = some (CodePoint.ofChar '-') ∧ 1 < word.length ∧ word ≠ "--" then
      .refuse none (.noSuchOption (if word.take 2 = "--" then word else word.take 2))
    else
      match Command.ofName? word with
      | none => .refuse none (.noSuchCommand word)
      | some command =>
        match Words.ofList rest with
        | .error problem => .refuse (some command) problem
        | .ok words => Request.ofWords command words

/-- What is wrong with the files that an invocation names. A schema file that is missing is the
command's own concern. -/
def Invocation.problem? (i : Invocation) (files : Files) : Option UsageProblem :=
  if files.lookup i.schema = .directory then some (.schemaIsDirectory i.schema)
  else do
    let source ← i.command.source?
    if i.source = "-" then none
    else match files.lookup i.source with
      | .file _ => none
      | .directory => some (.sourceIsDirectory source i.source)
      | .missing => some (.noSource source i.source)

/-- The truth value of an environment variable: `1`, `true` and `yes` in letters of any case are
true; one that is not set or empty has a default. -/
def environmentFlag (value : Option Text) (default : Bool) : Bool :=
  match value with
  | none | some [] => default
  | some t =>
    let word := t.map CodePoint.toLower
    word = "1" ∨ word = "true" ∨ word = "yes"

end DocShape
