import DocShape.Diagnostic
import DocShape.Value

/-!
# Schema blocks

A schema is a tree of blocks of eight kinds. A `Block` remembers which properties were given, so
that `Block.dump` writes exactly those, in the order in which the kinds declare them;
`Block.full` writes all properties, defaults included.
-/

namespace DocShape

/-- The kinds of blocks. -/
inductive Kind where
  | flag
  | number
  | string
  | array
  | object
  | tuple
  | map
  | enum
deriving DecidableEq, Repr

namespace Kind

/-- All kinds. -/
def all : List Kind := [flag, number, string, array, object, tuple, map, enum]

/-- The name of a kind, as the `type` of a block gives it. -/
def name : Kind → Text
  | flag => "flag"
  | number => "number"
  | string => "string"
  | array => "array"
  | object => "object"
  | tuple => "tuple"
  | map => "map"
  | enum => "enum"

/-- The kind with a name. -/
def ofName? (t : Text) : Option Kind := all.find? (·.name == t)

/-- The properties that a kind has beside the common ones, in the order of their declaration. -/
def properties : Kind → List Text
  | flag => []
  | number => ["decimal", "minimum", "maximum"]
  | string => ["length", "pattern"]
  | array => ["value", "length"]
  | object => ["key", "value", "length"]
  | tuple => ["items"]
  | map => ["fields"]
  | enum => ["values"]

/-- The properties of every block. -/
def commonProperties : List Text := ["type", "name", "description", "option"]

/-- The properties that a block of this kind may have. -/
def legalProperties (k : Kind) : List Text := commonProperties ++ k.properties

end Kind

/-- A property that may be left out and may be null. -/
inductive Setting (α : Type) where
  | absent
  | null
  | given (value : α)
deriving DecidableEq

namespace Setting

/-- The value of a property that is there and not null. -/
def value? {α : Type} : Setting α → Option α
  | given a => some a
  | _ => none

end Setting

/-- The object form of a bound on numbers. -/
structure Bound where
  value : Number
  /-- Whether the bound itself is excluded; left out, it is not. -/
  exclusive : Option Bool
deriving DecidableEq

/-- A bound on numbers: a number alone is an inclusive bound. -/
inductive Limit where
  | bare (value : Number)
  | bound (b : Bound)
deriving DecidableEq

/-- The number of a limit. -/
def Limit.value : Limit → Number
  | bare n => n
  | bound b => b.value

/-- Whether the number itself is excluded. -/
def Limit.isExclusive : Limit → Bool
  | bare _ => false
  | bound b => b.exclusive.getD false

/-- The object form of a length constraint. -/
structure LengthRange where
  minimum : Setting Number
  maximum : Setting Number
deriving DecidableEq

/-- A constraint on a length. -/
inductive LengthRule where
  | exactly (length : Number)
  | range (r : LengthRange)
deriving DecidableEq

/-- The common properties of a block, its kind apart. -/
structure Header where
  name : Setting Text
  description : Setting Text
  /-- Whether null is accepted, and a map's field may be missing; left out, it is not. -/
  option : Option Bool
deriving DecidableEq

/-- A block of a schema. -/
inductive Block where
  | flag (header : Header)
  | number (header : Header) (decimal : Option Bool) (minimum maximum : Setting Limit)
  | string (header : Header) (length : Setting LengthRule) (pattern : Setting Text)
  | array (header : Header) (value : Block) (length : Setting LengthRule)
  | object (header : Header) (key : KeyKind) (value : Block) (length : Setting LengthRule)
  | tuple (header : Header) (items : List Block)
  | map (header : Header) (fields : List (Text × Block))
  | enum (header : Header) (values : List Text)

namespace Block

/-- The kind of a block. -/
def kind : Block → Kind
  | flag .. => .flag
  | number .. => .number
  | string .. => .string
  | array .. => .array
  | object .. => .object
  | tuple .. => .tuple
  | map .. => .map
  | enum .. => .enum

/-- The common properties of a block. -/
def header : Block → Header
  | flag h | number h _ _ _ | string h _ _ | array h _ _ | object h _ _ _ | tuple h _ | map h _
  | enum h _ => h

/-- Null is accepted, and a map's field may be missing. -/
def isOptional (b : Block) : Bool := b.header.option.getD false

end Block

/-! ## Raw forms -/

/-- Which properties a raw form has: those that were given, or all with their defaults. -/
inductive Extent where
  | given
  | full
deriving DecidableEq, Repr

namespace Extent

/-- An entry for a property that may be null. -/
def setting {α : Type} (extent : Extent) (name : Text) (raw : α → Value) :
    Setting α → List (Value × Value)
  | .given a => [(.str name, raw a)]
  | .null => [(.str name, .null)]
  | .absent => if extent = full then [(.str name, .null)] else []

/-- An entry for a truth value with a default. -/
def truth (extent : Extent) (name : Text) (default : Bool) : Option Bool → List (Value × Value)
  | some b => [(.str name, .bool b)]
  | none => if extent = full then [(.str name, .bool default)] else []

end Extent

/-- The raw form of a bound. -/
def Bound.raw (extent : Extent) (b : Bound) : Value :=
  .dict ([(.str "value", .ofNumber b.value)] ++ extent.truth "exclusive" false b.exclusive)

/-- The raw form of a limit. -/
def Limit.raw (extent : Extent) : Limit → Value
  | bare n => .ofNumber n
  | bound b => b.raw extent

/-- The raw form of a length constraint. -/
def LengthRule.raw (extent : Extent) : LengthRule → Value
  | exactly n => .ofNumber n
  | range r =>
    .dict (extent.setting "minimum" .ofNumber r.minimum ++
      extent.setting "maximum" .ofNumber r.maximum)

/-- The entries of the common properties. -/
def Header.raw (extent : Extent) (kind : Kind) (h : Header) : List (Value × Value) :=
  [(.str "type", .str kind.name)] ++ extent.setting "name" .str h.name ++
    extent.setting "description" .str h.description ++ extent.truth "option" false h.option

namespace Block

mutual

/-- The raw form of a block. -/
def raw (extent : Extent) : Block → Value
  | flag h => .dict (h.raw extent .flag)
  | number h decimal minimum maximum =>
    .dict (h.raw extent .number ++ extent.truth "decimal" true decimal ++
      extent.setting "minimum" (Limit.raw extent) minimum ++
      extent.setting "maximum" (Limit.raw extent) maximum)
  | string h length pattern =>
    .dict (h.raw extent .string ++ extent.setting "length" (LengthRule.raw extent) length ++
      extent.setting "pattern" .str pattern)
  | array h value length =>
    .dict (h.raw extent .array ++ [(.str "value", raw extent value)] ++
      extent.setting "length" (LengthRule.raw extent) length)
  | object h key value length =>
    .dict (h.raw extent .object ++
      [(.str "key", .str key.name), (.str "value", raw extent value)] ++
      extent.setting "length" (LengthRule.raw extent) length)
  | tuple h items => .dict (h.raw extent .tuple ++ [(.str "items", .list (rawItems extent items))])
  | map h fields => .dict (h.raw extent .map ++ [(.str "fields", .dict (rawFields extent fields))])
  | enum h values => .dict (h.raw extent .enum ++ [(.str "values", .list (values.map .str))])
termination_by structural b => b

/-- The raw forms of blocks. -/
def rawItems (extent : Extent) : List Block → List Value
  | [] => []
  | b :: bs => raw extent b :: rawItems extent bs
termination_by structural b => b

/-- The raw forms of fields. -/
def rawFields (extent : Extent) : List (Text × Block) → List (Value × Value)
  | [] => []
  | (name, b) :: rest => (.str name, raw extent b) :: rawFields extent rest
termination_by structural b => b

end

/-- The raw form with the properties that were given. -/
def dump (b : Block) : Value := b.raw .given

/-- The raw form with all properties. -/
def full (b : Block) : Value := b.raw .full

/-- Blocks are equal when all their properties are, defaults included. -/
def equals (a b : Block) : Bool := a.full.equals b.full

end Block

end DocShape
