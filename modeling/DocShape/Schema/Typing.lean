import DocShape.Host
import DocShape.Schema.Block

/-!
# The typed form of a raw schema

`Block.ofRaw` turns a raw schema into a `Block`. It reads the properties in the order in which the
kinds declare them, and reports the first that does not fit; properties that a kind does not have
are looked at last. It checks less than the grammar: names, bounds against each other and signs are
not its concern. Numbers, truth values and texts are read as leniently as the host does.

Blocks, and the object forms of bounds and lengths, may stand inside each other only so deep, and
`room` is how many more may. A block without room is refused once its kind is known.
-/

namespace DocShape

namespace Block

variable [Host]

/-- A problem at a property. -/
def atProperty {α : Type} (name : Text) : Except TypeProblem α → Except TypeFault α
  | .ok a => .ok a
  | .error problem => .error ⟨[name], problem⟩

/-- A fault seen from a part of a block. -/
def inside {α : Type} (part : Text) : Except TypeFault α → Except TypeFault α
  | .ok a => .ok a
  | .error fault => .error (fault.under part)

/-- An optional property that may be null. -/
def readSetting {α : Type} (name : Text) (read : Value → Except TypeFault α) (entries : Entries) :
    Except TypeFault (Setting α) :=
  match Entries.get? name entries with
  | none => .ok .absent
  | some .null => .ok .null
  | some v => do return .given (← read v)

/-- An optional truth value. -/
def readFlag (name : Text) (entries : Entries) : Except TypeFault (Option Bool) :=
  match Entries.get? name entries with
  | none => .ok none
  | some v => do return some (← atProperty name (Host.flag v))

/-- An optional text that may be null. -/
def readText (name : Text) : Entries → Except TypeFault (Setting Text) :=
  readSetting name fun v => atProperty name (Host.text v)

/-- The common properties. -/
def readHeader (entries : Entries) : Except TypeFault Header := do
  let name ← readText "name" entries
  let description ← readText "description" entries
  let option ← readFlag "option" entries
  return ⟨name, description, option⟩

/-- What stands for a value that cannot be written out. -/
def unprintable (v : Value) : Text := "<unprintable " ++ v.typeName ++ " object>"

/-- A key as it stands in the place of a fault. -/
def keyText : Value → Text
  | .str t => Encoding.lenient t
  | .bool b => if b then "1" else "0"
  | v => v.literal?.getD (unprintable v)

/-- Property names must be free of surrogates; where one is not, nothing else is reported. -/
def checkNames : Entries → Except TypeFault Unit
  | [] => .ok ()
  | (k, _) :: rest =>
    match k.text?.map Text.unicode with
    | some (.error problem) => .error ⟨[], problem⟩
    | _ => checkNames rest

/-- Refuses properties beside the given ones. -/
def checkExtras (legal : List Text) : Entries → Except TypeFault Unit
  | [] => .ok ()
  | (k, _) :: rest =>
    match k with
    | .str t =>
      if legal.contains t then checkExtras legal rest else .error ⟨[t], .extraProperty⟩
    | k => .error ⟨[keyText k], .keyNotText⟩

/-- The object form of a bound, if the entries are one. -/
def boundOf? (entries : Entries) : Option Bound := do
  let value ← (Host.number (← Entries.get? "value" entries)).toOption
  let exclusive ← match Entries.get? "exclusive" entries with
    | none => some none
    | some v => (Host.flag v).toOption.map some
  (checkExtras ["value", "exclusive"] entries).toOption
  return ⟨value, exclusive⟩

/-- A bound of a length, if the property is one or missing. -/
def lengthBoundOf? (name : Text) (entries : Entries) : Option (Setting Number) :=
  match Entries.get? name entries with
  | none => some .absent
  | some .null => some .null
  | some v => (Host.number v).toOption.map .given

/-- The object form of a length constraint, if the entries are one. -/
def lengthRangeOf? (entries : Entries) : Option LengthRange := do
  let minimum ← lengthBoundOf? "minimum" entries
  let maximum ← lengthBoundOf? "maximum" entries
  (checkExtras ["minimum", "maximum"] entries).toOption
  return ⟨minimum, maximum⟩

/-- A number, or an object of another form. Where neither fits, a number was expected. -/
def numberOr {α : Type} (name : Text) (bare : Number → α) (object : Entries → Option α) :
    Value → Except TypeFault α
  | .dict entries =>
    match object entries with
    | some a => .ok a
    | none => .error ⟨[name, "int"], .notInteger⟩
  | v =>
    match Host.number v with
    | .ok n => .ok (bare n)
    | .error problem => .error ⟨[name, "int"], problem⟩

/-- A bound on numbers. Without room it can only be a number. -/
def readLimit (room : Nat) (name : Text) : Entries → Except TypeFault (Setting Limit) :=
  readSetting name <| numberOr name .bare fun entries =>
    if room = 0 then none else (boundOf? entries).map .bound

/-- A length constraint. Without room it can only be a number. -/
def readLength (room : Nat) : Entries → Except TypeFault (Setting LengthRule) :=
  readSetting "length" <| numberOr "length" .exactly fun entries =>
    if room = 0 then none else (lengthRangeOf? entries).map .range

/-- The kind of keys of an object. -/
def readKeyKind (entries : Entries) : Except TypeFault KeyKind :=
  match Entries.get? "key" entries with
  | none => .error ⟨["key"], .missingProperty⟩
  | some (.str t) => do
    let t ← atProperty "key" (Text.unicode t)
    if t = KeyKind.integer.name then .ok .integer
    else if t = KeyKind.string.name then .ok .string
    else .error ⟨["key"], .notKeyKind⟩
  | some _ => .error ⟨["key"], .notKeyKind⟩

/-- The items of a list, a tuple or a set. -/
def itemsOf? : Value → Option (List Value)
  | .list xs | .tuple xs | .set xs => some xs
  | _ => none

/-- Texts, each at its index. -/
def textsOf (index : Nat) : List Value → Except TypeFault (List Text)
  | [] => .ok []
  | v :: vs => do
    let first ← atProperty (Text.ofNat index) (Host.text v)
    return first :: (← textsOf (index + 1) vs)

/-- The values of an enumeration. -/
def readValues (entries : Entries) : Except TypeFault (List Text) :=
  match Entries.get? "values" entries with
  | none => .error ⟨["values"], .missingProperty⟩
  | some v =>
    match itemsOf? v with
    | none => .error ⟨["values"], .notAList⟩
    | some [] => .error ⟨["values"], .emptyList⟩
    | some xs => inside "values" (textsOf 0 xs)

/-- The kind that the entries name. -/
def readKind (entries : Entries) : Except TypeFault Kind :=
  match Entries.get? "type" entries with
  | none => .error ⟨[], .kindMissing⟩
  | some v =>
    match v.text?.bind Kind.ofName? with
    | some kind => .ok kind
    | none => .error ⟨[], .kindUnknown (Encoding.lenient (v.display?.getD (unprintable v)))⟩

/-- Sets the block of a field: a field that is there already keeps its place. -/
def putField (name : Text) (b : Block) : List (Text × Block) → List (Text × Block)
  | [] => [(name, b)]
  | (n, c) :: rest => if n = name then (n, b) :: rest else (n, c) :: putField name b rest

mutual

/-- The typed form of a raw schema. -/
def ofRaw (room : Nat) : Value → Except TypeFault Block
  | .dict entries => do
    let kind ← readKind entries
    inside kind.name <| match room with
      | 0 => .error ⟨[], .tooDeep⟩
      | room + 1 => do
        checkNames entries
        let header ← readHeader entries
        let block ← match kind with
          | .flag => pure (Block.flag header)
          | .number => do
            let decimal ← readFlag "decimal" entries
            let minimum ← readLimit room "minimum" entries
            let maximum ← readLimit room "maximum" entries
            pure (Block.number header decimal minimum maximum)
          | .string => do
            let length ← readLength room entries
            let pattern ← readText "pattern" entries
            pure (Block.string header length pattern)
          | .array => do
            let value ← valueOf room entries
            let length ← readLength room entries
            pure (Block.array header value length)
          | .object => do
            let key ← readKeyKind entries
            let value ← valueOf room entries
            let length ← readLength room entries
            pure (Block.object header key value length)
          | .tuple => do
            let items ← itemsOf room entries
            pure (Block.tuple header items)
          | .map => do
            let fields ← fieldsOf room entries
            pure (Block.map header fields)
          | .enum => do
            let values ← readValues entries
            pure (Block.enum header values)
        checkExtras kind.legalProperties entries
        return block
  | _ => .error ⟨[], .notABlock⟩
termination_by structural v => v

/-- The block under `value`. -/
def valueOf (room : Nat) : List (Value × Value) → Except TypeFault Block
  | [] => .error ⟨["value"], .missingProperty⟩
  | (.str name, v) :: rest =>
    if name = "value" then inside "value" (ofRaw room v) else valueOf room rest
  | _ :: rest => valueOf room rest
termination_by structural v => v

/-- The blocks under `items`. -/
def itemsOf (room : Nat) : List (Value × Value) → Except TypeFault (List Block)
  | [] => .error ⟨["items"], .missingProperty⟩
  | (.str name, v) :: rest =>
    if name = "items" then inside "items" (blockList room v) else itemsOf room rest
  | _ :: rest => itemsOf room rest
termination_by structural v => v

/-- The blocks in a sequence, of which there must be one. -/
def blockList (room : Nat) : Value → Except TypeFault (List Block)
  | .list [] | .tuple [] | .set [] => .error ⟨[], .emptyList⟩
  | .list xs | .tuple xs | .set xs => blocksOf room 0 xs
  | _ => .error ⟨[], .notAList⟩
termination_by structural v => v

/-- Blocks, each at its index. -/
def blocksOf (room index : Nat) : List Value → Except TypeFault (List Block)
  | [] => .ok []
  | v :: vs => do
    let first ← inside (Text.ofNat index) (ofRaw room v)
    return first :: (← blocksOf room (index + 1) vs)
termination_by structural v => v

/-- The fields under `fields`. -/
def fieldsOf (room : Nat) : List (Value × Value) → Except TypeFault (List (Text × Block))
  | [] => .error ⟨["fields"], .missingProperty⟩
  | (.str name, v) :: rest =>
    if name = "fields" then inside "fields" (fieldDict room v) else fieldsOf room rest
  | _ :: rest => fieldsOf room rest
termination_by structural v => v

/-- The fields of a dictionary, of which there must be one. -/
def fieldDict (room : Nat) : Value → Except TypeFault (List (Text × Block))
  | .dict [] => .error ⟨[], .emptyDictionary⟩
  | .dict entries => fieldBlocks room [] entries
  | _ => .error ⟨[], .notADictionary⟩
termination_by structural v => v

/-- Fields, each with its name, after those read before. -/
def fieldBlocks (room : Nat) (before : List (Text × Block)) :
    List (Value × Value) → Except TypeFault (List (Text × Block))
  | [] => .ok before
  | (k, v) :: rest => do
    let name ← inside (keyText k) (atProperty "[key]" (Host.text k))
    let block ← inside (keyText k) (ofRaw room v)
    fieldBlocks room (putField name block before) rest
termination_by structural v => v

end

end Block

/-- The typed form of a raw schema, or the violation that it is none. -/
def parseSchema [Host] (raw : Value) : Except Failure Block :=
  match Block.ofRaw Host.guard raw with
  | .ok block => .ok block
  | .error fault => .error (.complaint (.violation [] (.untyped fault)))

end DocShape
