import DocShape.Yaml.Tag
import DocShape.Yaml.Token.Lexer

/-!
# Nodes of a YAML document

`Node.ofTokens` reads the one document of a text: scalars, sequences and mappings with their tags,
aliases replaced by the nodes that they name. A node may not contain itself.

Nesting is bounded by fuel. Every reader that calls another consumes a token at least at every
other call, so three times the number of tokens is enough.
-/

namespace DocShape.Yaml

/-- A node with its tag. -/
inductive Node where
  | scalar (tag : Tag) (text : Text)
  | sequence (tag : Tag) (items : List Node)
  | mapping (tag : Tag) (entries : List (Node × Node))

namespace Node

instance : Inhabited Node := ⟨.scalar .null []⟩

/-- The node where none is written. -/
def empty : Node := .scalar (Tag.ofPlain []) []

/-- What is known while a document is read: the tokens that are left, the nodes with an anchor
(none while such a node is being read), and what tag handles stand for. -/
structure Context where
  tokens : List Token
  anchors : List (Text × Option Node)
  handles : List (Text × Text)

/-- Reading from tokens. -/
abbrev Compose := StateT Context (Except Fault)

namespace Compose

/-- The text is no YAML. -/
def refuse {α : Type} : Compose α := throw .unstructured

/-- The next token. -/
def peek : Compose (Option Token) := do return (← get).tokens.head?

/-- Consumes a token. -/
def advance : Compose Unit := modify fun c => { c with tokens := c.tokens.drop 1 }

/-- Consumes a token that must be next. -/
def expect (t : Token) : Compose Unit := do
  if (← peek) = some t then advance else refuse

/-- Whether one of some tokens is next. -/
def isAt (ts : List Token) : Compose Bool := do return (← peek).any ts.contains

/-- The node with an anchor. -/
def named (name : Text) : Compose Node := do
  match (← get).anchors.lookup name with
  | some (some node) => return node
  | _ => refuse

/-- Gives the node of an anchor. -/
def setAnchor (anchor : Option Text) (node : Option Node) : Compose Unit :=
  match anchor with
  | none => return ()
  | some name => modify fun c => { c with anchors := (name, node) :: c.anchors }

/-- An anchor is declared only once. -/
def declare (anchor : Option Text) : Compose Unit := do
  let anchors := (← get).anchors
  if anchor.any fun name => (anchors.lookup name).isSome then refuse
  else return ()

/-- The anchor in front of a node, if there is one next. -/
def anchor? : Compose (Option Text) := do
  match ← peek with
  | some (.anchor name) => do
    advance
    return some name
  | _ => return none

/-- The full name of the tag in front of a node, if there is one next. -/
def tag? : Compose (Option Text) := do
  match ← peek with
  | some (.tag handle suffix) => do
    advance
    match handle with
    | none => return some suffix
    | some handle =>
      match (← get).handles.lookup handle with
      | some lead => return some (lead ++ suffix)
      | none => refuse
  | _ => return none

/-- The anchor and the tag in front of a node, in any order. -/
def properties : Compose (Option Text × Option Text) := do
  match ← anchor? with
  | some name => return (some name, ← tag?)
  | none =>
    let tag ← tag?
    if tag.isSome then return (← anchor?, tag) else return (none, none)

end Compose

open Compose

/-- A tag of its own; `!` is none. -/
def isImplied (tag : Option Text) : Bool := tag.all fun name : Text => name == "!"

/-- The tag of a collection. -/
def collectionTag (tag : Option Text) (implied : Tag) : Tag :=
  if isImplied tag then implied else Tag.ofName (tag.getD [])

/-- The tag of a scalar. -/
def scalarTag (tag : Option Text) (plain : Bool) (text : Text) : Tag :=
  match tag with
  | none => if plain then Tag.ofPlain text else .str
  | some name => if name = "!" then Tag.ofPlain text else Tag.ofName name

mutual

/-- A node. Block collections are read where `block` is set; a sequence without an indentation of
its own, as the value of a mapping, where `indentless` is set too. -/
def node (block indentless : Bool) : (fuel : Nat) → Compose Node
  | 0 => refuse
  | fuel + 1 => do
    match ← peek with
    | some (.alias name) =>
      advance
      named name
    | _ =>
      let (anchor, tag) ← properties
      declare anchor
      let collection (m : Compose Node) : Compose Node := do
        setAnchor anchor none
        let node ← m
        setAnchor anchor (some node)
        return node
      let sequence (m : Compose (List Node)) : Compose Node :=
        collection do return .sequence (collectionTag tag .seq) (← m)
      let mapping (m : Compose (List (Node × Node))) : Compose Node :=
        collection do return .mapping (collectionTag tag .map) (← m)
      let next ← peek
      if indentless && next == some .blockEntry then
        sequence (indentlessItems fuel)
      else match next with
        | some (.scalar text plain) =>
          advance
          let node := Node.scalar (scalarTag tag plain text) text
          setAnchor anchor (some node)
          return node
        | some .flowSequenceStart =>
          advance
          sequence (flowItems true fuel)
        | some .flowMappingStart =>
          advance
          mapping (flowEntries true fuel)
        | _ =>
          if block && next == some .blockSequenceStart then
            advance
            sequence (blockItems fuel)
          else if block && next == some .blockMappingStart then
            advance
            mapping (blockEntries fuel)
          else if anchor.isSome || tag.isSome then
            let node := Node.scalar (scalarTag tag true []) []
            setAnchor anchor (some node)
            return node
          else refuse
termination_by structural fuel => fuel

/-- The node before one of some tokens, which is empty if nothing stands before it. -/
def nodeBefore (ends : List Token) (block indentless : Bool) : (fuel : Nat) → Compose Node
  | 0 => refuse
  | fuel + 1 => do
    if ← isAt ends then return empty else node block indentless fuel
termination_by structural fuel => fuel

/-- The value behind a key, before one of some tokens. -/
def valueBefore (ends : List Token) (block indentless : Bool) : (fuel : Nat) → Compose Node
  | 0 => refuse
  | fuel + 1 => do
    if ← isAt [.value] then
      advance
      nodeBefore ends block indentless fuel
    else return empty
termination_by structural fuel => fuel

/-- The items of a block sequence and its end. -/
def blockItems : (fuel : Nat) → Compose (List Node)
  | 0 => refuse
  | fuel + 1 => do
    if ← isAt [.blockEntry] then
      advance
      let item ← nodeBefore [.blockEntry, .blockEnd] true false fuel
      return item :: (← blockItems fuel)
    else
      expect .blockEnd
      return []
termination_by structural fuel => fuel

/-- The items of a sequence that ends with its last item. -/
def indentlessItems : (fuel : Nat) → Compose (List Node)
  | 0 => refuse
  | fuel + 1 => do
    if ← isAt [.blockEntry] then
      advance
      let item ← nodeBefore [.blockEntry, .key, .value, .blockEnd] true false fuel
      return item :: (← indentlessItems fuel)
    else return []
termination_by structural fuel => fuel

/-- The entries of a block mapping and its end. -/
def blockEntries : (fuel : Nat) → Compose (List (Node × Node))
  | 0 => refuse
  | fuel + 1 => do
    if ← isAt [.key] then
      advance
      let ends := [Token.key, .value, .blockEnd]
      let key ← nodeBefore ends true true fuel
      let value ← valueBefore ends true true fuel
      return (key, value) :: (← blockEntries fuel)
    else
      expect .blockEnd
      return []
termination_by structural fuel => fuel

/-- The items of a flow sequence and its end. A single entry with a key is a mapping. -/
def flowItems (first : Bool) : (fuel : Nat) → Compose (List Node)
  | 0 => refuse
  | fuel + 1 => do
    if ← isAt [.flowSequenceEnd] then
      advance
      return []
    else
      if !first then expect .flowEntry
      if ← isAt [.key] then
        advance
        let ends := [Token.flowEntry, .flowSequenceEnd]
        let key ← nodeBefore (.value :: ends) false false fuel
        let value ← valueBefore ends false false fuel
        return .mapping .map [(key, value)] :: (← flowItems false fuel)
      else if ← isAt [.flowSequenceEnd] then
        advance
        return []
      else
        let item ← node false false fuel
        return item :: (← flowItems false fuel)
termination_by structural fuel => fuel

/-- The entries of a flow mapping and its end. A node without a key indicator is a key without a
value. -/
def flowEntries (first : Bool) : (fuel : Nat) → Compose (List (Node × Node))
  | 0 => refuse
  | fuel + 1 => do
    if ← isAt [.flowMappingEnd] then
      advance
      return []
    else
      if !first then expect .flowEntry
      if ← isAt [.key] then
        advance
        let ends := [Token.flowEntry, .flowMappingEnd]
        let key ← nodeBefore (.value :: ends) false false fuel
        let value ← valueBefore ends false false fuel
        return (key, value) :: (← flowEntries false fuel)
      else if ← isAt [.flowMappingEnd] then
        advance
        return []
      else
        let key ← node false false fuel
        return (key, empty) :: (← flowEntries false fuel)
termination_by structural fuel => fuel

end

/-! ## Documents -/

/-- What the tag handles stand for unless a directive says otherwise. -/
def standardHandles : List (Text × Text) := [("!", "!"), ("!!", Tag.standard)]

/-- The directives of a document: at most one version, which must be 1, and each handle once. -/
def directives (seenVersion : Bool) (handles : List (Text × Text)) :
    List Token → Except Fault (List (Text × Text) × List Token)
  | .directive (.version major) :: rest =>
    if seenVersion || major ≠ 1 then .error .unstructured else directives true handles rest
  | .directive (.tag handle lead) :: rest =>
    if (handles.lookup handle).isSome then .error .unstructured
    else directives seenVersion ((handle, lead) :: handles) rest
  | .directive .reserved :: rest => directives seenVersion handles rest
  | rest => .ok (handles, rest)

/-- The one document of a text, if it has any. -/
def document? : Compose (Option Node) := do
  let fuel := 3 * (← get).tokens.length + 5
  match ← peek with
  | none => return none
  | some first =>
    let explicit := first matches .directive _ | .documentStart
    let content ←
      if explicit then do
        let (handles, rest) ← directives false [] (← get).tokens
        modify fun c => { c with tokens := rest, handles := handles ++ standardHandles }
        expect .documentStart
        match ← peek with
        | none | some (.directive _) | some .documentStart | some .documentEnd => pure empty
        | _ => node true false fuel
      else node true false fuel
    let rest := (← get).tokens.dropWhile (· == .documentEnd)
    if rest.isEmpty then return some content else refuse

/-- The one document that some tokens spell, if they spell any. -/
def ofTokens? (tokens : List Token) : Except Fault (Option Node) := do
  return (← document?.run ⟨tokens, [], standardHandles⟩).1

end Node

end DocShape.Yaml
