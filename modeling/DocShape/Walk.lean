import DocShape.Failure

/-!
# Walks

A walk over a schema or a value reports what it comes upon to a `Record`. In fail-fast mode the
first error that it reports also unwinds it, from whatever depth; in collect-all mode it goes on.
Any other failure unwinds it in both modes. `Walk.run` starts a walk on an empty record and packages
what it came to: being unwound by an error that the record holds is an end like any other, and every
other failure is passed on.
-/

namespace DocShape

/-- How a walk takes the first error: as its end, or as one of many. -/
inductive Mode where
  | failFast
  | collectAll
deriving DecidableEq, Repr

/-- The name of a mode. -/
def Mode.name : Mode → Text
  | failFast => "fail_fast"
  | collectAll => "collect_all"

/-- What walks have reported so far. It is only appended to. -/
structure Record where
  errors : List Complaint
  warnings : List Warning
deriving DecidableEq

/-- Nothing reported yet. -/
def Record.empty : Record := ⟨[], []⟩

/-- What an operation found, and the value that it produced. -/
structure Outcome (α : Type) where
  value : α
  errors : List Complaint
  warnings : List Warning

namespace Outcome

/-- No errors. -/
def isOk {α : Type} (o : Outcome α) : Bool := o.errors.isEmpty

/-- The value, or the first error as a failure. -/
def orFirstError {α : Type} (o : Outcome α) : Except Failure α :=
  match o.errors with
  | [] => .ok o.value
  | c :: _ => .error (.complaint c)

/-- The outcome with another value. -/
def map {α β : Type} (f : α → β) (o : Outcome α) : Outcome β := ⟨f o.value, o.errors, o.warnings⟩

end Outcome

/-- Work that reports to a record in a mode, and comes to a value or is unwound by a failure. What
was reported before that stays in the record. -/
abbrev Walk := ReaderT Mode (ExceptT Failure (StateM Record))

namespace Walk

/-- Reports an error, which in fail-fast mode unwinds the walk. -/
def error (c : Complaint) : Walk Unit := do
  modify fun record => { record with errors := record.errors ++ [c] }
  if (← read) = .failFast then throw (.complaint c)

/-- Reports that a value does not conform. -/
def mismatch (path : Path) (cause : Mismatch) : Walk Unit := error (.mismatch path cause)

/-- Reports that a schema breaks the grammar. -/
def violation (path : Path) (cause : Violation) : Walk Unit := error (.violation path cause)

/-- Reports a warning. -/
def warning (w : Warning) : Walk Unit :=
  modify fun record => { record with warnings := record.warnings ++ [w] }

/-- The value of some work that may fail; its failure is not reported. -/
def ofExcept {α : Type} : Except Failure α → Walk α
  | .ok a => pure a
  | .error f => throw f

/-- A value as messages show it. An integer of too many digits has no text. -/
def shown (v : Value) : Walk Text :=
  match v.display? with
  | some t => pure t
  | none => throw (.unwritable .tooManyDigits)

/-- An integer as messages show it. -/
def shownInt (n : Int) : Walk Text :=
  match Text.ofIntLimited? n with
  | some t => pure t
  | none => throw (.unwritable .tooManyDigits)

/-- Runs a walk in a mode on a record: what it comes to, and the record after it. -/
def on {α : Type} (walk : Walk α) (mode : Mode) (record : Record) : Except Failure α × Record :=
  walk mode record

/-- Runs a walk and packages what it came to. Being unwound by a reported error leaves no value. -/
def run {α : Type} (walk : Walk α) (mode : Mode) : Except Failure (Outcome (Option α)) :=
  match walk.on mode .empty with
  | (.ok a, record) => .ok ⟨some a, record.errors, record.warnings⟩
  | (.error (.complaint c), record) =>
    if c ∈ record.errors then .ok ⟨none, record.errors, record.warnings⟩
    else .error (.complaint c)
  | (.error f, _) => .error f

end Walk

end DocShape
