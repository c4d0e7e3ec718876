import DocShape.Conversion.Rule
import DocShape.Value

/-!
# Converting values along a schema

`Convert.block` walks a value in lock-step with a block, in one of two directions. It reports every
mismatch and builds the adjusted value: a missing optional field of a map becomes null, integer keys
of an object become integers, and everything else stays. A node that fails its own checks becomes
null; containers keep the parts that could be converted.

The directions differ in three things: the words for what was expected, whether tuples count as
arrays, and how an integer key is spelled. `Direction` gives all three.
-/

namespace DocShape

namespace Direction

/-- The items of an array. -/
def items? : Direction → Value → Option (List Value)
  | _, .list xs => some xs
  | encoding, .tuple xs => some xs
  | _, _ => none

/-- The one spelling of an integer as a key: digits without a plus or leading zeros, and no minus
before zero. -/
def isCanonicalInteger (t : Text) : Bool :=
  let digits := if t.head? = some (CodePoint.ofChar '-') then t.drop 1 else t
  match digits with
  | [] => false
  | c :: rest =>
    digits.all CodePoint.isDigit &&
      (if c = '0' then rest.isEmpty && decide (digits.length = t.length) else true)

/-- The integer that digits with an optional minus spell. -/
def readInteger (t : Text) : Int :=
  match t with
  | c :: digits => if c = '-' then -(Text.toNat digits : Int) else Text.toNat t
  | [] => 0

/-- An integer key with the text that names it in paths; none if the key is no integer. -/
def integerKey? : Direction → Value → Option (Except Failure (Value × Text))
  | decoding, .str t =>
    if isCanonicalInteger t then
      let count := (t.filter CodePoint.isDigit).length
      some (if count ≤ digitLimit then .ok (.int (readInteger t), t) else .error (.longKey count))
    else none
  | encoding, .int n =>
    match Text.ofIntLimited? n with
    | some t => some (.ok (.int n, t))
    | none => some (.error (.unwritable .tooManyDigits))
  | _, _ => none

/-- A key of an object with the text that names it in paths; none if it is of another kind. -/
def key? (d : Direction) : KeyKind → Value → Option (Except Failure (Value × Text))
  | .integer, v => d.integerKey? v
  | .string, .str t => if t.isName then some (.ok (.str t, t)) else none
  | .string, _ => none

end Direction

/-- Null stands for a value that may be missing. -/
def Header.excuses (h : Header) : Value → Bool
  | .null => h.option.getD false
  | _ => false

namespace Convert

/-- Reports a mismatch of a node, of which nothing can be made. -/
def refuse (path : Path) (cause : Mismatch) : Walk Value := do
  Walk.mismatch path cause
  return .null

/-- A number against its block. -/
def number (d : Direction) (path : Path) (decimal : Bool) (minimum maximum : Setting Limit)
    (v : Value) : Walk Value :=
  match v.finiteNumber? with
  | none => refuse path (.expected .number d)
  | some n =>
    if !decimal && !n.isIntegral then refuse path .fractional
    else do
      let high ← optionalLimit (above path n) minimum
      let low ← optionalLimit (below path n) maximum
      return if high && low then v else .null

/-- A string against its block. -/
def string [Host] (d : Direction) (path : Path) (length : Setting LengthRule)
    (pattern : Setting Text) (v : Value) : Walk Value :=
  match v with
  | .str t => do
    let fits ← Convert.length path t.length length
    let found ← Convert.pattern path t pattern
    return if fits && found then v else .null
  | _ => refuse path (.expected .string d)

/-- A value of an enumeration. -/
def enumValue (d : Direction) (path : Path) (values : List Text) (v : Value) : Walk Value :=
  match v with
  | .str t => if values.contains t then pure v else refuse path .notInEnum
  | _ => refuse path (.expected .string d)

/-- The items of an array, each converted at its index. -/
def items (convert : Nat → Value → Walk Value) (index : Nat) : List Value → Walk (List Value)
  | [] => pure []
  | v :: vs => do
    let u ← convert index v
    let us ← items convert (index + 1) vs
    return u :: us

/-- The entries of an object, each converted under its key; a key of another kind drops out. -/
def entries (d : Direction) (path : Path) (kind : KeyKind) (convert : Path → Value → Walk Value)
    (index : Nat) : Entries → Walk (List (Value × Value))
  | [] => pure []
  | (k, v) :: rest =>
    match d.key? kind k with
    | none => do
      Walk.mismatch path (.badKey index kind)
      entries d path kind convert (index + 1) rest
    | some key => do
      let (key, shown) ← Walk.ofExcept key
      let u ← convert (path ++ [.entry shown]) v
      let others ← entries d path kind convert (index + 1) rest
      return (key, u) :: others

/-- The entries of a dictionary along the fields of a map. -/
def presentFields (path : Path) (field? : Text → Option (Value → Walk Value)) :
    Entries → Walk (List (Value × Value))
  | [] => pure []
  | (k, v) :: rest =>
    match k.text?.bind field? with
    | some convert => do
      let u ← convert v
      let others ← presentFields path field? rest
      return (k, u) :: others
    | none => do
      Walk.mismatch path (.unexpectedField (← Walk.shown k))
      presentFields path field? rest

/-- The fields of a map that a dictionary lacks: optional ones become null. -/
def missingFields (path : Path) (node : Entries) : List (Text × Block) → Walk (List (Value × Value))
  | [] => pure []
  | (name, b) :: rest =>
    if Entries.has node name then missingFields path node rest
    else if b.isOptional then do
      let others ← missingFields path node rest
      return (.str name, .null) :: others
    else do
      Walk.mismatch path (.missingField name)
      missingFields path node rest

section

variable [Host]

mutual

/-- Checks a value against a block and adjusts it. -/
def block (d : Direction) (path : Path) (b : Block) (v : Value) : Walk Value :=
  if b.header.excuses v then pure .null
  else match b with
    | .flag _ =>
      match v with
      | .bool _ => pure v
      | _ => refuse path (.expected .boolean d)
    | .number _ decimal minimum maximum => number d path (decimal.getD true) minimum maximum v
    | .string _ length pattern => string d path length pattern v
    | .array _ value length =>
      match d.items? v with
      | none => refuse path (.expected .array d)
      | some xs => do
        let _ ← Convert.length path xs.length length
        let us ← items (fun i x => block d (path ++ [.item i]) value x) 0 xs
        return .list us
    | .object _ key value length =>
      match v with
      | .dict es => do
        let _ ← Convert.length path es.length length
        let us ← entries d path key (fun p x => block d p value x) 0 es
        return .dict us
      | _ => refuse path (.expected .object d)
    | .tuple _ blocks =>
      match d.items? v with
      | none => refuse path (.expected .array d)
      | some xs =>
        if xs.length = blocks.length then do
          let us ← positions d path 0 blocks xs
          return .list us
        else refuse path (.tupleLength blocks.length)
    | .map _ fields =>
      match v with
      | .dict es => do
        let present ← presentFields path (fun name => field d path name fields) es
        let missing ← missingFields path es fields
        return .dict (present ++ missing)
      | _ => refuse path (.expected .object d)
    | .enum _ values => enumValue d path values v
termination_by structural b

/-- Items against the blocks at their positions. -/
def positions (d : Direction) (path : Path) (index : Nat) :
    List Block → List Value → Walk (List Value)
  | b :: bs, v :: vs => do
    let u ← block d (path ++ [.position index]) b v
    let us ← positions d path (index + 1) bs vs
    return u :: us
  | _, _ => pure []
termination_by structural b => b

/-- How the value of a field is converted, if the map has that field. -/
def field (d : Direction) (path : Path) (name : Text) :
    List (Text × Block) → Option (Value → Walk Value)
  | [] => none
  | (n, b) :: rest =>
    if n = name then some (fun v => block d (path ++ [.field name]) b v)
    else field d path name rest
termination_by structural b => b

end

end

end Convert

end DocShape
