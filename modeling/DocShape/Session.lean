import DocShape.Document

/-!
# Calls with collections

A caller may pass a collection for errors and one for warnings. Without a collection for errors the
first error is raised; with one, all errors are appended to it and none is raised. A collection
that is passed must be an empty list. A `Session` holds the collections of a caller by name, so that
what one call leaves in them is what the next one sees.
-/

namespace DocShape

/-- What a collection holds. -/
inductive Note where
  | error (c : Complaint)
  | warning (w : Warning)
deriving DecidableEq

/-- What a caller passes for a collection. -/
inductive Parameter where
  | absent
  | named (name : Text)
  | literal (v : Value)

/-- The collections of a caller, in the order in which they were first used. -/
structure Session where
  collections : List (Text × List Note)

namespace Session

/-- No collection yet. -/
def empty : Session := ⟨[]⟩

/-- What a collection holds; a new one is empty. -/
def get (s : Session) (name : Text) : List Note :=
  ((s.collections.find? (·.1 = name)).map (·.2)).getD []

/-- Replaces what a collection holds. -/
def set (s : Session) (name : Text) (notes : List Note) : Session :=
  if s.collections.any (·.1 = name) then
    ⟨s.collections.map fun c => if c.1 = name then (name, notes) else c⟩
  else ⟨s.collections ++ [(name, notes)]⟩

/-- Makes the collection that a parameter names, unless it is there. -/
def touch (s : Session) : Parameter → Session
  | .named name => s.set name (s.get name)
  | _ => s

/-- Appends to the collection that a parameter names. -/
def append (s : Session) (p : Parameter) (notes : List Note) : Session :=
  match p with
  | .named name => s.set name (s.get name ++ notes)
  | _ => s

/-- Empties a collection. -/
def clear (s : Session) (name : Text) : Session := s.set name []

/-- Whether a parameter is left out or an empty list. -/
def isFit (s : Session) : Parameter → Bool
  | .absent | .literal .null | .literal (.list []) => true
  | .named name => (s.get name).isEmpty
  | .literal _ => false

/-- Whether a parameter is left out. -/
def isAbsent : Parameter → Bool
  | .absent | .literal .null => true
  | _ => false

/-- The mode that the parameters ask for. -/
def selectMode (s : Session) (errors warnings : Parameter) : Except Failure Mode :=
  if !s.isFit errors then .error (.misuse .errors)
  else if !s.isFit warnings then .error (.misuse .warnings)
  else .ok (if isAbsent errors then .failFast else .collectAll)

/-- Runs an operation with collections: warnings are delivered first, then errors are raised or
delivered. -/
def call {α : Type} (s : Session) (errors warnings : Parameter)
    (operation : Mode → Except Failure (Outcome α)) : Session × Except Failure α :=
  let s := (s.touch errors).touch warnings
  match (do operation (← s.selectMode errors warnings)) with
  | .error f => (s, .error f)
  | .ok o =>
    let s := s.append warnings (o.warnings.map .warning)
    if isAbsent errors then (s, o.orFirstError)
    else (s.append errors (o.errors.map .error), .ok o.value)

section

variable [Host]

/-- Checks a raw schema. -/
def validateSchema (s : Session) (errors warnings : Parameter) (raw : Value) :
    Session × Except Failure Unit :=
  let (s, r) := s.call errors warnings fun mode => checkSchema raw mode
  (s, r.map fun _ => ())

/-- Decodes a document along a raw schema, which is taken to be checked. -/
def documentToObject (s : Session) (errors warnings : Parameter) (document raw : Value) :
    Session × Except Failure Value :=
  s.call errors warnings fun mode => do decodeDocument document (← parseSchema raw) mode

/-- Encodes a value along a raw schema, which is taken to be checked. -/
def objectToDocument (s : Session) (errors warnings : Parameter) (v raw : Value) :
    Session × Except Failure (Option Text) :=
  s.call errors warnings fun mode => do encodeDocument v (← parseSchema raw) mode

end

end Session

end DocShape
