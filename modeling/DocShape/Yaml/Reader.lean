import DocShape.Yaml.Node
import DocShape.Yaml.Scalar

/-!
# Reading YAML

`Yaml.read` gives the value of the one document of a text; a text without a document is null. The
value of a node is what its tag asks for. An entry of a mapping under `<<` stands for the entries of
the mappings that are its value, which come first, so that the mapping's own entries win.

The contents of collections are read level by level: of two faults the one that is less deep is
reported, of two on a level the first. A fault therefore carries its depth (`Deep`).
-/

namespace DocShape.Yaml

/-- A result, or a fault with its depth below the node. -/
abbrev Deep (α : Type) := Except (Nat × Fault) α

namespace Deep

/-- A fault at the node itself. -/
def here {α : Type} (fault : Fault) : Deep α := .error (0, fault)

/-- A result of a node's content, seen from the node. -/
def below {α : Type} : Deep α → Deep α
  | .ok a => .ok a
  | .error (depth, fault) => .error (depth + 1, fault)

/-- Two results, or the fault that is reported. -/
def both {α β : Type} : Deep α → Deep β → Deep (α × β)
  | .ok a, .ok b => .ok (a, b)
  | .ok _, .error f => .error f
  | .error f, .ok _ => .error f
  | .error f, .error g => .error (if g.1 < f.1 then g else f)

/-- All results, or the fault that is reported. -/
def all {α : Type} : List (Deep α) → Deep (List α)
  | [] => .ok []
  | r :: rest => (both r (all rest)).map fun p => p.1 :: p.2

end Deep

/-- The key and the value of an entry. -/
abbrev Entry := Deep Value × Deep Value

/-- What reading a node gives: its value, and what a node around it may make of it. -/
structure Reading where
  value : Deep Value
  /-- The text of a scalar; that of a mapping is the one under `=`. -/
  text : Option Text
  /-- The entries of a mapping, merged. -/
  entries : Option (Except Fault (List Entry))
  /-- The entries under `<<`. -/
  merged : Except Fault (List Entry)
  /-- The entry of a mapping that has only one. -/
  single : Option Entry

namespace Reading

/-- Keys of dictionaries may not be collections. -/
def isKey : Value → Bool
  | .list _ | .set _ | .dict _ => false
  | _ => true

/-- A key. Whether it is a collection shows before its content is read. -/
def key : Deep Value → Deep Value
  | .ok v => if isKey v then .ok v else Deep.here .unstructured
  | .error (0, fault) => Deep.here fault
  | .error _ => Deep.here .unstructured

/-- Equality of keys. There is one NaN, which equals itself. -/
def sameKey : Value → Value → Bool
  | .float .nan, .float .nan => true
  | a, b => a.equals b

/-- Sets the value of a key. -/
def put (k v : Value) : Entries → Entries
  | [] => [(k, v)]
  | (k', v') :: rest => if sameKey k' k then (k', v) :: rest else (k', v') :: put k v rest

/-- The dictionary of some entries. -/
def dictionary (entries : List Entry) : Deep Entries :=
  (Deep.all (entries.map fun e => (key e.1).both e.2)).map fun pairs =>
    pairs.foldl (fun dict p => put p.1 p.2 dict) []

/-- The pair of an item of a list of pairs. -/
def pair (item : Reading) : Deep Value :=
  match item.single with
  | some (k, v) => (k.both v).map fun p => .tuple [p.1, p.2]
  | none => Deep.here .unstructured

/-- The value of a text with a tag. Tags of collections are found wrong with the content. -/
def ofText (tag : Tag) (text : Option Text) : Deep Value :=
  match tag, text with
  | .seq, _ | .map, _ | .set, _ | .orderedMap, _ | .pairs, _ => .error (1, .unstructured)
  | tag, some t => (Scalar.value tag t).mapError fun fault => (0, fault)
  | _, none => Deep.here .unstructured

/-- What a scalar gives. -/
def scalar (tag : Tag) (t : Text) : Reading :=
  ⟨ofText tag (some t), some t, none, .error .unstructured, none⟩

/-- What a sequence gives. Of mappings that are merged together the first wins. -/
def sequence (tag : Tag) (items : List Reading) : Reading :=
  let value := match tag with
    | .seq => Deep.below ((Deep.all (items.map Reading.value)).map Value.list)
    | .orderedMap | .pairs => Deep.below ((Deep.all (items.map pair)).map Value.list)
    | tag => ofText tag none
  let merged := (items.mapM fun r : Reading => r.entries.getD (.error .unstructured)).map fun lists =>
    lists.reverse.flatten
  ⟨value, none, none, merged, none⟩

/-- The entries of a mapping after merging. The key `=` is a text there. -/
def merge (entries : List (Tag × Reading × Reading)) : Except Fault (List Entry) := do
  let merged ← (entries.filter (·.1 = .merge)).mapM fun e => e.2.2.merged
  let own := (entries.filter (·.1 ≠ .merge)).map fun e =>
    (if e.1 = .value then ofText .str e.2.1.text else e.2.1.value, e.2.2.value)
  return merged.flatten ++ own

/-- What a mapping gives. -/
def mapping (tag : Tag) (entries : List (Tag × Reading × Reading)) : Reading :=
  let merged := merge entries
  let text := (entries.find? (·.1 = .value)).bind fun e => e.2.2.text
  let dict : Deep Entries := (merged.mapError fun fault => (0, fault)).bind dictionary
  let value := match tag with
    | .map => Deep.below (dict.map Value.dict)
    | .set => Deep.below (dict.map fun es => Value.set (es.map Prod.fst))
    | tag => ofText tag text
  let single := match entries with
    | [e] => some (e.2.1.value, e.2.2.value)
    | _ => none
  ⟨value, text, some merged, merged, single⟩

end Reading

namespace Node

/-- The tag of a node. -/
def tagOf : Node → Tag
  | .scalar tag _ => tag
  | .sequence tag _ => tag
  | .mapping tag _ => tag

mutual

/-- What a node gives. -/
def reading : Node → Reading
  | .scalar tag t => Reading.scalar tag t
  | .sequence tag items => Reading.sequence tag (readings items)
  | .mapping tag entries => Reading.mapping tag (entryReadings entries)
termination_by structural node => node

/-- What the items of a sequence give. -/
def readings : List Node → List Reading
  | [] => []
  | node :: rest => reading node :: readings rest
termination_by structural nodes => nodes

/-- What the entries of a mapping give, with the tags of their keys. -/
def entryReadings : List (Node × Node) → List (Tag × Reading × Reading)
  | [] => []
  | (k, v) :: rest => (k.tagOf, reading k, reading v) :: entryReadings rest
termination_by structural entries => entries

end

end Node

/-- Reads the one document of a text. -/
def read (t : Text) : Except Fault Value := do
  match ← Node.ofTokens? (← Token.scan t) with
  | none => return .null
  | some node => node.reading.value.mapError Prod.snd

end DocShape.Yaml
