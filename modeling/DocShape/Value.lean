import DocShape.Number

/-!
# Native values

A `Value` is what a schema file, a document or a caller hands over: scalars, sequences, sets and
dictionaries whose keys are values again. Dictionaries keep the order in which keys were first
given. `Value.equals` is equality as dictionaries use it for their keys: numbers are equal by value
whatever their spelling, and truth values count as 0 and 1.
-/

namespace DocShape

/-- A calendar day. -/
structure Date where
  year : Nat
  month : Nat
  day : Nat
deriving DecidableEq, Repr

/-- A time on a day, with the minutes by which its zone is ahead of UTC, if it names one. -/
structure Moment where
  date : Date
  hour : Nat
  minute : Nat
  second : Nat
  microsecond : Nat
  offset : Option Int
deriving DecidableEq, Repr

/-- A native value. -/
inductive Value where
  | null
  | bool (b : Bool)
  | int (n : Int)
  | float (x : Binary64)
  | str (t : Text)
  | bytes (b : List UInt8)
  | date (d : Date)
  | moment (m : Moment)
  | list (items : List Value)
  | tuple (items : List Value)
  | set (items : List Value)
  | dict (entries : List (Value × Value))

namespace Value

instance : Inhabited Value := ⟨.null⟩

/-- The number that a value is; truth values are none. -/
def number? : Value → Option Number
  | int n => some (.int n)
  | float x => some (.float x)
  | _ => none

/-- The finite number that a value is, as schemas and documents may hold it. -/
def finiteNumber? (v : Value) : Option Number := v.number?.filter Number.isFinite

/-- The number that counts when values are compared: truth values are 0 and 1. -/
def counted? : Value → Option Number
  | bool b => some (.int (if b then 1 else 0))
  | v => v.number?

/-- The text that a value is. -/
def text? : Value → Option Text
  | str t => some t
  | _ => none

/-- The value that is a number. -/
def ofNumber : Number → Value
  | .int n => int n
  | .float x => float x

/-- A text is a name; no other value is. -/
def isName : Value → Bool
  | str t => t.isName
  | _ => false

mutual

/-- Equality as dictionaries use it: numbers by value, dictionaries and sets in any order. -/
def equals : Value → Value → Bool
  | null, null => true
  | str a, str b => a == b
  | bytes a, bytes b => a == b
  | date a, date b => a == b
  | moment a, moment b => a == b
  | list xs, list ys => equalItems xs ys
  | tuple xs, tuple ys => equalItems xs ys
  | set xs, set ys => xs.length == ys.length && itemsAmong xs ys
  | dict xs, dict ys => xs.length == ys.length && entriesAmong xs ys
  | a, b => match a.counted?, b.counted? with
    | some x, some y => x.equals y
    | _, _ => false
termination_by structural v => v

/-- The same items in the same order. -/
def equalItems : List Value → List Value → Bool
  | [], [] => true
  | x :: xs, y :: ys => equals x y && equalItems xs ys
  | _, _ => false
termination_by structural v => v

/-- Each item of the first list equals one of the second. -/
def itemsAmong : List Value → List Value → Bool
  | [], _ => true
  | x :: xs, ys => ys.any (fun y => equals x y) && itemsAmong xs ys
termination_by structural v => v

/-- Each entry of the first dictionary equals one of the second, key and value. -/
def entriesAmong : List (Value × Value) → List (Value × Value) → Bool
  | [], _ => true
  | (k, v) :: rest, ys => ys.any (fun e => equals k e.1 && equals v e.2) && entriesAmong rest ys
termination_by structural v => v

end

end Value

/-- The entries of a dictionary in the order in which their keys were first given. -/
abbrev Entries := List (Value × Value)

namespace Entries

/-- The value under a text key. -/
def get? (name : Text) : Entries → Option Value
  | [] => none
  | (.str t, v) :: rest => if t = name then some v else get? name rest
  | _ :: rest => get? name rest

/-- A text is among the keys. -/
def has (entries : Entries) (name : Text) : Bool := (get? name entries).isSome

/-- Sets the value of a key: an equal key keeps its place, a new one goes to the end. -/
def put (key value : Value) : Entries → Entries
  | [] => [(key, value)]
  | (k, v) :: rest => if k.equals key then (k, value) :: rest else (k, v) :: put key value rest

/-- The dictionary in which later values of a key replace earlier ones. -/
def ofList (pairs : List (Value × Value)) : Entries :=
  pairs.foldl (fun entries p => put p.1 p.2 entries) []

end Entries

end DocShape
