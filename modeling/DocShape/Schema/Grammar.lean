import DocShape.Schema.Block
import DocShape.Walk

/-!
# The grammar of schemas

`Check.block` walks a raw schema and reports every violation of the grammar with the path of the
offending block or property. For each block, in this order: it must be a dictionary with a known
kind, else the walk does not enter it; each property that its kind does not have is reported; the
properties of its kind are checked, nested blocks included; last come the common properties.
-/

namespace DocShape

namespace Grammar

/-- Whether a value is a truth value. -/
def isBool : Value → Bool
  | .bool _ => true
  | _ => false

/-- Whether a key is none of some names. -/
def isExtra (legal : List Text) : Value → Bool
  | .str t => !legal.contains t
  | _ => true

/-- The items of a list or a tuple. -/
def sequence? : Value → Option (List Value)
  | .list xs | .tuple xs => some xs
  | _ => none

end Grammar

namespace Check

open Grammar

/-- The value of a property must be of some form. -/
def require (path : Path) (requirement : Requirement) (holds : Bool) : Walk Unit :=
  if holds then pure () else Walk.violation path (.mustBe requirement)

/-- An optional property whose value must be of some form. -/
def optional (path : Path) (name : Text) (requirement : Requirement) (test : Value → Bool)
    (entries : Entries) : Walk Unit :=
  match Entries.get? name entries with
  | none => pure ()
  | some v => require (path ++ [.property name]) requirement (test v)

/-- The properties that are none of the legal ones. -/
def unexpected (path : Path) (legal : List Text) : Entries → Walk Unit
  | [] => pure ()
  | (k, _) :: rest => do
    if isExtra legal k then Walk.violation path (.unexpectedProperty (← Walk.shown k))
    unexpected path legal rest

/-- The common properties, the kind apart. -/
def common (path : Path) (entries : Entries) : Walk Unit := do
  optional path "name" .string (fun v => v.text?.isSome) entries
  optional path "description" .string (fun v => v.text?.isSome) entries
  optional path "option" .bool isBool entries

/-! ## Bounds -/

/-- The object form of a bound, and its number if that can be used. -/
def boundObject (path : Path) (entries : Entries) : Walk (Option Number) := do
  if entries.any fun e => isExtra ["exclusive", "value"] e.1 then
    unexpected path ["exclusive", "value"] entries
    return none
  else
    optional path "exclusive" .bool isBool entries
    match Entries.get? "value" entries with
    | none =>
      Walk.violation path (.missingProperty "value")
      return none
    | some v =>
      match v.finiteNumber? with
      | some n => return some n
      | none =>
        Walk.violation (path ++ [.property "value"]) (.mustBe .number)
        return none

/-- A bound, and its number if that can be used. -/
def bound (path : Path) (v : Value) : Walk (Option Number) := do
  match v.finiteNumber? with
  | some n => return some n
  | none =>
    match v with
    | .dict entries => boundObject path entries
    | _ =>
      Walk.violation path (.mustBe .numberOrObject)
      return none

/-- A bound that may be left out. -/
def optionalBound (path : Path) (name : Text) (entries : Entries) : Walk (Option Number) :=
  match Entries.get? name entries with
  | none => pure none
  | some v => bound (path ++ [.property name]) v

/-- Two bounds that are both usable must not cross. -/
def crossing (path : Path) : Option Number → Option Number → Walk Unit
  | some low, some high => if high.lt low then Walk.violation path .boundsCrossed else pure ()
  | _, _ => pure ()

/-- The properties of a number block. -/
def number (path : Path) (entries : Entries) : Walk Unit := do
  optional path "decimal" .bool isBool entries
  let minimum ← optionalBound path "minimum" entries
  let maximum ← optionalBound path "maximum" entries
  crossing path minimum maximum

/-! ## Lengths -/

/-- A number as a length: a fraction is advised against, a negative one is wrong. -/
def lengthNumber (path : Path) (n : Number) : Walk Unit := do
  if !n.isIntegral then Walk.warning ⟨path, .fractionalLength⟩
  if n.lt (.int 0) then Walk.violation path .negativeLength

/-- A bound of a length, and its number if it is one. -/
def lengthBound (path : Path) (name : Text) (entries : Entries) : Walk (Option Number) :=
  match Entries.get? name entries with
  | none => pure none
  | some v => do
    let path := path ++ [.property name]
    match v.finiteNumber? with
    | some n =>
      lengthNumber path n
      return some n
    | none =>
      Walk.violation path (.mustBe .number)
      return none

/-- The object form of a length constraint. -/
def lengthObject (path : Path) (entries : Entries) : Walk Unit := do
  if entries.any fun e => isExtra ["minimum", "maximum"] e.1 then
    unexpected path ["minimum", "maximum"] entries
  else
    let minimum ← lengthBound path "minimum" entries
    let maximum ← lengthBound path "maximum" entries
    crossing path minimum maximum

/-- A length constraint that may be left out. -/
def length (path : Path) (entries : Entries) : Walk Unit :=
  let path := path ++ [.property "length"]
  match Entries.get? "length" entries with
  | none => pure ()
  | some v =>
    match v.finiteNumber? with
    | some n => lengthNumber path n
    | none =>
      match v with
      | .dict object => lengthObject path object
      | _ => Walk.violation path (.mustBe .numberOrObject)

/-! ## Keys and enumerations -/

/-- The kind of keys of an object. -/
def keyKind (path : Path) (entries : Entries) : Walk Unit :=
  match Entries.get? "key" entries with
  | none => Walk.violation path (.missingProperty "key")
  | some v =>
    match v.text? with
    | some t =>
      if t = KeyKind.integer.name ∨ t = KeyKind.string.name then pure ()
      else Walk.violation path .badKeyKind
    | none => Walk.violation path .badKeyKind

/-- The values of an enumeration after some that were seen before: names, each given once. -/
def enumValues (path : Path) (seen : List Text) : List Value → Walk Unit
  | [] => pure ()
  | v :: vs =>
    match v.text?.filter Text.isName with
    | none => do
      Walk.violation path (.badEnumValue (← Walk.shown v))
      enumValues path seen vs
    | some t =>
      if seen.contains t then do
        Walk.violation path (.duplicateEnumValue t)
        enumValues path seen vs
      else enumValues path (seen ++ [t]) vs

/-- The values of an enumeration. -/
def enumeration (path : Path) (entries : Entries) : Walk Unit :=
  match Entries.get? "values" entries with
  | none => Walk.violation path (.missingProperty "values")
  | some v =>
    let path := path ++ [.property "values"]
    match sequence? v with
    | none => Walk.violation path (.mustBe .array)
    | some [] => Walk.violation path .noItems
    | some xs => enumValues path [] xs

/-- The kind that the entries name, if they name one. -/
def kind (path : Path) (entries : Entries) : Walk (Option Kind) :=
  match Entries.get? "type" entries with
  | none => do
    Walk.violation path (.missingProperty "type")
    return none
  | some v =>
    match v.text?.bind Kind.ofName? with
    | some k => return some k
    | none => do
      Walk.violation path .unknownKind
      return none

/-! ## Blocks -/

mutual

/-- Checks a block and everything in it. -/
def block (path : Path) : Value → Walk Unit
  | .dict entries => do
    match ← kind path entries with
    | none => pure ()
    | some k =>
      unexpected path k.legalProperties entries
      let body := match k with
        | .flag => pure ()
        | .number => number path entries
        | .string => do
          length path entries
          optional path "pattern" .string (fun v => v.text?.isSome) entries
        | .array =>
          if Entries.has entries "value" then do
            value (path ++ [.items]) entries
            length path entries
          else Walk.violation path (.missingProperty "value")
        | .object => do
          if Entries.has entries "value" then value (path ++ [.values]) entries
          else Walk.violation path (.missingProperty "value")
          keyKind path entries
          length path entries
        | .tuple => items path entries
        | .map => fields path entries
        | .enum => enumeration path entries
      body
      common path entries
  | _ => Walk.violation path (.mustBe .object)
termination_by structural v => v

/-- The block under `value`, which is at a path of its own. -/
def value (path : Path) : List (Value × Value) → Walk Unit
  | [] => pure ()
  | (.str name, v) :: rest => if name = "value" then block path v else value path rest
  | _ :: rest => value path rest
termination_by structural v => v

/-- The blocks under `items`. -/
def items (path : Path) : List (Value × Value) → Walk Unit
  | [] => Walk.violation path (.missingProperty "items")
  | (.str name, v) :: rest => if name = "items" then itemList path v else items path rest
  | _ :: rest => items path rest
termination_by structural v => v

/-- The blocks in a sequence, of which there must be one. -/
def itemList (path : Path) : Value → Walk Unit
  | .list [] | .tuple [] => Walk.violation (path ++ [.property "items"]) .noItems
  | .list xs | .tuple xs => blocks path 0 xs
  | _ => Walk.violation (path ++ [.property "items"]) (.mustBe .array)
termination_by structural v => v

/-- Blocks, each at its position. -/
def blocks (path : Path) (index : Nat) : List Value → Walk Unit
  | [] => pure ()
  | v :: vs => do
    block (path ++ [.position index]) v
    blocks path (index + 1) vs
termination_by structural v => v

/-- The fields under `fields`. -/
def fields (path : Path) : List (Value × Value) → Walk Unit
  | [] => Walk.violation path (.missingProperty "fields")
  | (.str name, v) :: rest => if name = "fields" then fieldDict path v else fields path rest
  | _ :: rest => fields path rest
termination_by structural v => v

/-- The fields of a dictionary, of which there must be one. -/
def fieldDict (path : Path) : Value → Walk Unit
  | .dict [] => Walk.violation (path ++ [.property "fields"]) .noFields
  | .dict entries => fieldBlocks path entries
  | _ => Walk.violation (path ++ [.property "fields"]) (.mustBe .object)
termination_by structural v => v

/-- Fields, each under its name. -/
def fieldBlocks (path : Path) : List (Value × Value) → Walk Unit
  | [] => pure ()
  | (k, v) :: rest => do
    match k.text?.filter Text.isName with
    | some name => block (path ++ [.field name]) v
    | none =>
      Walk.violation (path ++ [.property "fields"]) (.badFieldName (← Walk.shown k))
    fieldBlocks path rest
termination_by structural v => v

end

end Check

end DocShape
