import DocShape.Conversion.Rule
import DocShape.Schema.Grammar

/-!
# Several walks into one record

Walks may share a `Record`, which is never cleared. Each of them tells what it came to, and leaves
the record with what it reported.
-/

namespace DocShape

namespace Record

/-- Checks a raw schema that stands at a path: the record after it, and the failure that unwound the
walk, if one did. -/
def checkBlock (record : Record) (mode : Mode) (path : Path) (raw : Value) :
    Record × Option Failure :=
  match (Check.block path raw).on mode record with
  | (.ok _, record) => (record, none)
  | (.error f, record) => (record, some f)

/-- Checks a raw schema. -/
def checkSchema (record : Record) (mode : Mode) (raw : Value) : Record × Option Failure :=
  record.checkBlock mode [] raw

/-- Checks several raw schemas, and gives the record after each of them. -/
def checkSchemas (mode : Mode) : Record → List Value → List (Record × Option Failure)
  | _, [] => []
  | record, raw :: rest =>
    let step := record.checkSchema mode raw
    step :: checkSchemas mode step.1 rest

/-- Checks a length, and tells whether the constraint holds. -/
def checkLength (record : Record) (mode : Mode) (path : Path) (rule : LengthRule) (size : Nat) :
    Record × Except Failure Bool :=
  ((Convert.lengthRule path size rule).on mode record).swap

/-- Checks several lengths: the record after all of them, and the answer to each. -/
def checkLengths (mode : Mode) (path : Path) (rule : LengthRule) :
    Record → List Nat → Record × List (Except Failure Bool)
  | record, [] => (record, [])
  | record, size :: rest =>
    let step := record.checkLength mode path rule size
    let (record, answers) := checkLengths mode path rule step.1 rest
    (record, step.2 :: answers)

end Record

end DocShape
