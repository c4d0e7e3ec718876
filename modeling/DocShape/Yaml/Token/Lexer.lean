import DocShape.Text.Encoding
import DocShape.Yaml.Token
import DocShape.Yaml.Token.Scalar

/-!
# From text to tokens

`Token.scan` reads the tokens of a YAML text. Its state (`Lexer`) holds the columns at which the
open block collections are indented and, for every open flow collection and the block outside them,
the token that may turn out to be a key: a key is known by the `:` behind it, which must stand on
the same line and within `keyReach` characters. Its `key` token, and the start of a block mapping
that begins with it, are then put in front of it.
-/

namespace DocShape.Yaml

/-- A token that may turn out to be a key. -/
structure Candidate where
  /-- How many tokens precede it. -/
  position : Nat
  /-- It begins a line at the indentation of a block, where only a key can stand. -/
  required : Bool
  index : Nat
  line : Nat
  column : Nat

/-- A candidate and its `:` are at most so many characters apart. -/
def keyReach : Nat := 1024

/-- A candidate is out of reach on another line or too far away. -/
def Candidate.outOfReach (k : Candidate) (c : Cursor) : Bool :=
  k.line != c.line || decide (keyReach < c.index - k.index)

/-- The state of reading tokens. -/
structure Lexer where
  /-- The tokens so far, the last one first, and their number. -/
  tokens : List Token
  count : Nat
  /-- The columns of the open block collections, the innermost first. -/
  indents : List Nat
  /-- Whether a key without an indicator may begin here. -/
  keyAllowed : Bool
  /-- The candidate of the current collection, and those of the collections around it. -/
  candidate : Option Candidate
  outer : List (Option Candidate)

namespace Lexer

/-- Inside a flow collection. -/
def inFlow (s : Lexer) : Bool := !s.outer.isEmpty

/-- The column at which a text must begin at least, to belong to the innermost block. -/
def leastColumn (s : Lexer) : Nat :=
  match s.indents with
  | [] => 0
  | column :: _ => column + 1

/-- The state with one more token. -/
def push (t : Token) (s : Lexer) : Lexer := { s with tokens := t :: s.tokens, count := s.count + 1 }

/-- The state with a token put in at a position. -/
def insert (position : Nat) (t : Token) (s : Lexer) : Lexer :=
  { s with tokens := s.tokens.insertIdx (s.count - position) t, count := s.count + 1 }

/-- Ends the block collections that are indented deeper than a column. -/
def endBlocksAt (column : Nat) : (indents : List Nat) → Lexer → Lexer
  | [], s => { s with indents := [] }
  | i :: outer, s =>
    if column < i then endBlocksAt column outer (s.push .blockEnd)
    else { s with indents := i :: outer }

/-- Ends all block collections. -/
def endBlocks (s : Lexer) : Lexer :=
  s.indents.foldl (fun s _ => s.push .blockEnd) { s with indents := [] }

/-- Starts a block collection at a column, unless one at least as deep is open. -/
def startBlock (start : Token) (position column : Nat) (s : Lexer) : Lexer :=
  if s.leastColumn ≤ column then
    { s.insert position start with indents := column :: s.indents }
  else s

end Lexer

/-- Reading tokens: a cursor and the state. -/
abbrev Lex := StateT Lexer Scan

namespace Lex

/-- The text is no YAML. -/
def refuse {α : Type} : Lex α := StateT.lift Scan.refuse

/-- Reads from the cursor. -/
def scan {α : Type} (m : Scan α) : Lex α := StateT.lift m

/-- Where the cursor is. -/
def cursor : Lex Cursor := scan get

/-! ## Candidates for keys -/

/-- Gives up the candidate of the current collection, which must not be a required one. -/
def dropCandidate : Lex Unit := do
  if (← get).candidate.any Candidate.required then refuse
  else modify fun s => { s with candidate := none }

/-- The candidate, unless it is out of reach, which a required one must not be. -/
def inReach (c : Cursor) : Option Candidate → Lex (Option Candidate)
  | none => return none
  | some k => if k.outOfReach c then (if k.required then refuse else return none) else return some k

/-- Gives up all candidates that are out of reach. -/
def dropOutOfReach : Lex Unit := do
  let c ← cursor
  let s ← get
  let candidate ← inReach c s.candidate
  let outer ← s.outer.mapM (inReach c)
  modify fun s => { s with candidate, outer }

/-- The next token may be a key, if one may begin here. -/
def saveCandidate : Lex Unit := do
  let s ← get
  if s.keyAllowed then
    dropCandidate
    let c ← cursor
    let required := !s.inFlow && s.indents.head? == some c.column
    modify fun s => { s with candidate := some ⟨s.count, required, c.index, c.line, c.column⟩ }

/-- Whether a key may begin behind the next token. -/
def setKeyAllowed (allowed : Bool) : Lex Unit := modify fun s => { s with keyAllowed := allowed }

/-- One more token. -/
def push (t : Token) : Lex Unit := modify (Lexer.push t)

/-! ## Directives, properties and aliases -/

/-- A name of letters, digits, `_` and `-`. -/
def name : Scan Text := do
  let t ← Scan.takeWhile CodePoint.isNameChar
  if t.isEmpty then Scan.refuse else return t

/-- The bytes of an escape sequence such as `%C3%A9`. -/
def escapedBytes : (fuel : Nat) → Scan (List UInt8)
  | 0 => return []
  | fuel + 1 => do
    if startsWith '%' (← Scan.rest) then
      Scan.skip 1
      let digits ← Scan.take 2
      match Text.toNatBase? 16 digits with
      | some n =>
        if digits.length = 2 then return n.toUInt8 :: (← escapedBytes fuel) else Scan.refuse
      | none => Scan.refuse
    else return []

/-- The characters of tags that need no escape. -/
def isTagChar (c : CodePoint) : Bool :=
  c.isLetter || c.isDigit || startsWithAny "-;/?:@&=+$,_.!~*'()[]" [c]

/-- The text of a tag, escapes replaced. -/
def tagTextFrom : (fuel : Nat) → Scan Text
  | 0 => return []
  | fuel + 1 => do
    let plain ← Scan.takeWhile isTagChar
    if startsWith '%' (← Scan.rest) then
      match Encoding.utf8Text? (← escapedBytes fuel) with
      | some t => return plain ++ t ++ (← tagTextFrom fuel)
      | none => Scan.refuse
    else return plain

/-- The text of a tag, which must not be empty. -/
def tagText : Scan Text := do
  let before := (← Scan.rest).length
  let t ← tagTextFrom (← Scan.fuel)
  if (← Scan.rest).length = before then Scan.refuse else return t

/-- A tag handle: `!`, `!!` or `!name!`. -/
def tagHandle : Scan Text := do
  Scan.expect (startsWith '!')
  Scan.skip 1
  if startsWith ' ' (← Scan.rest) then return "!"
  else
    let middle ← Scan.takeWhile CodePoint.isNameChar
    Scan.expect (startsWith '!')
    Scan.skip 1
    return "!" ++ middle ++ "!"

/-- A directive. -/
def directive : Scan Directive := do
  Scan.skip 1
  let name ← name
  Scan.expect atSpace
  let d ←
    if name = "YAML" then do
      Scan.skipSpaces
      let major ← Scan.takeWhile CodePoint.isDigit
      Scan.expect (startsWith '.')
      Scan.skip 1
      let minor ← Scan.takeWhile CodePoint.isDigit
      Scan.expect atSpace
      if major.isEmpty || minor.isEmpty then Scan.refuse else pure (.version (Text.toNat major))
    else if name = "TAG" then do
      Scan.skipSpaces
      let handle ← tagHandle
      Scan.expect (startsWith ' ')
      Scan.skipSpaces
      let lead ← tagText
      Scan.expect atSpace
      pure (.tag handle lead)
    else do
      discard <| Scan.takeWhile (!isBreak ·)
      pure .reserved
  Scan.restOfLine
  return d

/-- The name behind `&` or `*`. -/
def anchorName : Scan Text := do
  Scan.skip 1
  let name ← name
  Scan.expect fun t => atBlank t || startsWithAny "?:,]\x7d%@\x60" t
  return name

/-- A tag, as its handle and the text behind it. -/
def tag : Scan Token := do
  let after := (← Scan.rest).drop 1
  let t ←
    if startsWith '<' after then do
      Scan.skip 2
      let t ← tagText
      Scan.expect (startsWith '>')
      Scan.skip 1
      pure (.tag none t)
    else if atBlank after then do
      Scan.skip 1
      pure (.tag none "!")
    else if (after.takeWhile fun c : CodePoint => !(c == ' ' || isBreak c)).contains '!' then do
      let handle ← tagHandle
      pure (.tag (some handle) (← tagText))
    else do
      Scan.skip 1
      pure (.tag (some "!") (← tagText))
  Scan.expect atSpace
  return t

/-! ## Tokens -/

/-- Consumes spaces, comments and line breaks. A key may begin on a new line of a block. -/
def skipToToken : (fuel : Nat) → Lex Unit
  | 0 => return ()
  | fuel + 1 => do
    scan Scan.skipSpaces
    scan Scan.comment
    let br ← scan Scan.lineBreak
    if br.isEmpty then return ()
    else
      if !(← get).inFlow then setKeyAllowed true
      skipToToken fuel

/-- A token that ends all blocks: a directive or a document mark. -/
def documentToken (m : Scan Token) : Lex Unit := do
  modify Lexer.endBlocks
  dropCandidate
  setKeyAllowed false
  push (← scan m)

/-- An indicator of so many characters. -/
def indicator (t : Token) (width : Nat) : Scan Token := do
  Scan.skip width
  return t

/-- A token that may be a key. -/
def keyToken (m : Scan Token) : Lex Unit := do
  saveCandidate
  setKeyAllowed false
  push (← scan m)

/-- The start of a flow collection, which may be a key. -/
def flowStart (t : Token) : Lex Unit := do
  saveCandidate
  modify fun s => { s with candidate := none, outer := s.candidate :: s.outer, keyAllowed := true }
  push (← scan (indicator t 1))

/-- The end of a flow collection. -/
def flowEnd (t : Token) : Lex Unit := do
  dropCandidate
  match (← get).outer with
  | [] => refuse
  | candidate :: outer =>
    modify fun s => { s with candidate, outer, keyAllowed := false }
    push (← scan (indicator t 1))

/-- An indicator in front of an item or a key. Outside flow collections it may start a block. -/
def entryToken (t start : Token) (keyBehind : Bool) : Lex Unit := do
  let s ← get
  if !s.inFlow then
    if !s.keyAllowed then refuse
    else
      let column := (← cursor).column
      modify fun s => s.startBlock start s.count column
  setKeyAllowed keyBehind
  dropCandidate
  push (← scan (indicator t 1))

/-- The indicator of a mapping's value. It makes the candidate a key. -/
def valueToken : Lex Unit := do
  let s ← get
  match s.candidate with
  | some k =>
    modify fun s =>
      let s := { s with candidate := none, keyAllowed := false }
      let s := s.insert k.position .key
      if s.inFlow then s else s.startBlock .blockMappingStart k.position k.column
    push (← scan (indicator .value 1))
  | none => entryToken .value .blockMappingStart (!s.inFlow)

/-- A block scalar. -/
def blockToken (folded : Bool) : Lex Unit := do
  setKeyAllowed true
  dropCandidate
  let least := (← get).leastColumn
  let t ← scan (blockScalar folded least)
  push (.scalar t false)

/-- A quoted scalar. -/
def quotedToken (quote : CodePoint) : Lex Unit :=
  keyToken do return .scalar (← quotedScalar quote) false

/-- A plain scalar. A key may begin behind it if a line break follows. -/
def plainToken : Lex Unit := do
  saveCandidate
  let s ← get
  let (t, broken) ← scan (plainScalar s.inFlow s.leastColumn)
  setKeyAllowed broken
  push (.scalar t true)

/-- Whether a plain scalar begins with a character, which a text follows. -/
def startsPlain (inFlow : Bool) (c : CodePoint) (after : Text) : Bool :=
  !(isGap c || isBreak c || startsWithAny "-?:,[]\x7b\x7d#&*!|>'\"%@\x60" [c]) ||
    (!atBlank after && (c == '-' || (!inFlow && (c == '?' || c == ':'))))

/-- The next token, which begins with a character that a text follows. -/
def token (c : CodePoint) (after : Text) : Lex Unit := do
  let s ← get
  let column := (← cursor).column
  let atMark := column == 0 && atDocumentMark (c :: after)
  if c = '%' ∧ column = 0 then documentToken do return .directive (← directive)
  else if c = '-' ∧ atMark then documentToken (indicator .documentStart 3)
  else if c = '.' ∧ atMark then documentToken (indicator .documentEnd 3)
  else if c = '[' then flowStart .flowSequenceStart
  else if c = '\x7b' then flowStart .flowMappingStart
  else if c = ']' then flowEnd .flowSequenceEnd
  else if c = '\x7d' then flowEnd .flowMappingEnd
  else if c = ',' then
    setKeyAllowed true
    dropCandidate
    push (← scan (indicator .flowEntry 1))
  else if c = '-' ∧ atBlank after then entryToken .blockEntry .blockSequenceStart true
  else if c = '?' ∧ (s.inFlow ∨ atBlank after) then
    entryToken .key .blockMappingStart (!s.inFlow)
  else if c = ':' ∧ (s.inFlow ∨ atBlank after) then valueToken
  else if c = '*' then keyToken do return .alias (← anchorName)
  else if c = '&' then keyToken do return .anchor (← anchorName)
  else if c = '!' then keyToken tag
  else if c = '|' ∧ !s.inFlow then blockToken false
  else if c = '>' ∧ !s.inFlow then blockToken true
  else if c = '\'' ∨ c = '"' then quotedToken c
  else if startsPlain s.inFlow c after then plainToken
  else refuse

/-- All tokens from the cursor on. -/
def tokens : (fuel : Nat) → Lex Unit
  | 0 => refuse
  | fuel + 1 => do
    skipToToken (← scan Scan.fuel)
    dropOutOfReach
    let column := (← cursor).column
    modify fun s => if s.inFlow then s else s.endBlocksAt column s.indents
    match ← scan Scan.rest with
    | [] =>
      modify fun s => if s.inFlow then s else s.endBlocks
      dropCandidate
    | c :: after =>
      token c after
      tokens fuel

end Lex

/-- The tokens of a text, which must not hold forbidden characters. A byte order mark at its
front is no part of it. -/
def Token.scan (t : Text) : Except Fault (List Token) := do
  if !t.all isAllowed then throw .unstructured
  else
    let begin : Cursor := ⟨t, 0, 0, 0⟩
    let begin := if t.head? = some .byteOrderMark then begin.next else begin
    let start : Lexer := ⟨[], 0, [], true, none, []⟩
    let (((), lexer), _) ← ((Lex.tokens (t.length + 1)).run start).run begin
    return lexer.tokens.reverse

end DocShape.Yaml
