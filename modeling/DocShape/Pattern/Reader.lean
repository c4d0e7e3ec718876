import DocShape.Pattern.Fault
import DocShape.Pattern.Syntax

/-!
# Reading a pattern

`read` turns the text of a pattern into a `Node` or says why it cannot. The text is read token by
token, a backslash together with the code point after it, with one token of foresight: a backslash
at the very end is refused as soon as it comes into view. Groups are numbered in the order in which
they open. The nesting of the three mutual readers is bounded by fuel, of which `read` gives more
than the length of the pattern can use up.
-/

namespace DocShape.Pattern

/-- A token: one code point, or a backslash and the code point after it. -/
inductive Token where
  | char (c : CodePoint)
  | escape (c : CodePoint)
deriving DecidableEq

/-- A token as it is written. -/
def Token.text : Token → Text
  | char c => [c]
  | escape c => ['\\', c]

/-- What the reader knows between two tokens. -/
structure Reading where
  pattern : Text
  /-- The characters that have a name. -/
  characters : Text → Option CodePoint
  rest : Text
  position : Nat
  globals : Flags
  names : List (Text × Nat)
  /-- The widths of the groups opened so far, none while a group is open. -/
  widths : List (Option (Nat × Nat))
  /-- The first group number that a look-behind in progress may not refer to. -/
  lookbehind : Option Nat
  /-- The groups that conditions refer to by number, with the places of the first such. -/
  conditions : List (Nat × Nat)

/-- A step of reading. -/
abbrev Reader := StateT Reading (Except Refusal)

namespace Reader

/-- The problem at an offset. -/
def failAt {α : Type} (problem : Problem) (offset : Nat) : Reader α := do
  throw (.fault ⟨problem, some (Place.at (← get).pattern offset)⟩)

/-- The problem some code points before the next token. -/
def failBack {α : Type} (problem : Problem) (back : Nat) : Reader α := do
  failAt problem ((← get).position - back)

/-- The problem at the next token. -/
def fail {α : Type} (problem : Problem) : Reader α := failBack problem 0

/-- The token at the front of a text. -/
def front? : Text → Option Token
  | [] => none
  | c :: rest =>
    if c = '\\' then match rest with
      | d :: _ => some (.escape d)
      | [] => none
    else some (.char c)

/-- The next token, which stays. -/
def peek : Reader (Option Token) := return front? (← get).rest

/-- Refuses a text that is a lone backslash. -/
def checkAhead : Reader Unit := do
  let s ← get
  if s.rest = [CodePoint.ofChar '\\'] then failAt .danglingEscape s.position

/-- The next token, which is taken. -/
def take : Reader (Option Token) := do
  let s ← get
  match front? s.rest with
  | none => return none
  | some token =>
    let n := token.text.length
    set { s with rest := s.rest.drop n, position := s.position + n }
    checkAhead
    return some token

/-- Takes the next token if it is this character. -/
def accept (c : CodePoint) : Reader Bool := do
  if (← peek) = some (.char c) then
    let _ ← take
    return true
  else return false

/-- Goes back to an earlier place. -/
def seek (position : Nat) : Reader Unit :=
  modify fun s => { s with rest := s.pattern.drop position, position := position }

/-- The next characters that satisfy a test, at most `n` of them. -/
def takeWhile (test : CodePoint → Bool) : Nat → Reader Text
  | 0 => return []
  | n + 1 => do
    match ← peek with
    | some (.char c) =>
      if test c then
        let _ ← take
        return c :: (← takeWhile test n)
      else return []
    | _ => return []

/-- What stands before a closing character, which is taken too. -/
def takeUntil (terminator : CodePoint) (what : Text) : (fuel : Nat) → Text → Reader Text
  | 0, name => return name
  | fuel + 1, name => do
    match ← take with
    | none =>
      if name.isEmpty then fail (.missingName what)
      else failBack (.unterminatedName terminator) name.length
    | some token =>
      if token = .char terminator then
        if name.isEmpty then failBack (.missingName what) 1 else return name
      else takeUntil terminator what fuel (name ++ token.text)

/-- The name of something up to a closing character. -/
def name (terminator : CodePoint) (what : Text) : Reader Text := do
  takeUntil terminator what ((← get).rest.length + 1) []

/-- Refuses a group name that is no identifier; the name has just been read. -/
def checkGroupName (name : Text) : Reader Unit := do
  if !name.isIdentifier then failBack (.badGroupName name) (name.length + 1)

/-! ## Groups -/

/-- How many groups have been opened, the whole pattern counted as one. -/
def groupCount : Reader Nat := return (← get).widths.length + 1

/-- The width of a group that is closed. -/
def closedWidth? (group : Nat) : Reader (Option (Nat × Nat)) := do
  return ((← get).widths[group - 1]?).join

/-- Refuses a group that a look-behind in progress may not refer to. -/
def checkLookbehind (group : Nat) : Reader Unit := do
  match (← get).lookbehind with
  | none => return ()
  | some first =>
    if group ≠ 0 ∧ (← closedWidth? group).isNone then fail .openGroup
    if first ≤ group then fail .sameLookbehindGroup

/-- Opens a group, with a name if it has one, and gives its number. -/
def openGroup (name : Option Text) : Reader Nat := do
  let group ← groupCount
  match name with
  | none => pure ()
  | some n =>
    match (← get).names.find? (·.1 = n) with
    | some (_, earlier) => failBack (.groupRedefined n group earlier) (n.length + 1)
    | none => modify fun s => { s with names := s.names ++ [(n, group)] }
  modify fun s => { s with widths := s.widths ++ [none] }
  return group

/-- Closes a group. -/
def closeGroup (group : Nat) (body : Node) : Reader Unit :=
  modify fun s => { s with widths := s.widths.set (group - 1) (some body.width) }

/-! ## Escapes -/

/-- A set of one entry. -/
def single (flags : Flags) (item : SetItem) : CharSet :=
  ⟨[item], false, flags.ignoreCase, flags.ascii⟩

/-- A single character. -/
def literal (flags : Flags) (c : CodePoint) : Node := .oneOf (single flags (.char c))

/-- Escapes for control characters. -/
def control? (c : CodePoint) : Option CodePoint :=
  if c = 'a' then some '\x07'
  else if c = 'b' then some '\x08'
  else if c = 'f' then some '\x0c'
  else if c = 'n' then some '\n'
  else if c = 'r' then some '\r'
  else if c = 't' then some '\t'
  else if c = 'v' then some '\x0b'
  else if c = '\\' then some c
  else none

/-- Escapes for categories. -/
def category? (c : CodePoint) : Option SetItem :=
  if c = 'd' then some (.category .digit false)
  else if c = 'D' then some (.category .digit true)
  else if c = 's' then some (.category .space false)
  else if c = 'S' then some (.category .space true)
  else if c = 'w' then some (.category .word false)
  else if c = 'W' then some (.category .word true)
  else none

/-- Escapes for places. -/
def anchor? (flags : Flags) (c : CodePoint) : Option Anchor :=
  if c = 'A' then some .textStart
  else if c = 'b' then some (.wordBoundary flags.ascii)
  else if c = 'B' then some (.noWordBoundary flags.ascii)
  else if c = 'Z' then some .textEnd
  else none

/-- The rest of an escape of exactly `n` hexadecimal digits. -/
def hexEscape (c : CodePoint) (n : Nat) : Reader CodePoint := do
  let digits ← takeWhile CodePoint.isHexDigit n
  let shown : Text := CodePoint.ofChar '\\' :: c :: digits
  if digits.length ≠ n then failBack (.incompleteEscape shown) shown.length
  let code := (Text.toNatBase? 16 digits).getD 0
  if h : code < 0x110000 then return ⟨code, h⟩
  else failBack (.badEscape shown) shown.length

/-- The rest of an escape by character name. A name with a surrogate is not even looked up. -/
def namedEscape : Reader CodePoint := do
  if !(← accept '{') then fail .missingBrace
  let charName ← name '}' "character name"
  if charName.any CodePoint.isSurrogate then failBack (.badEscape "\\N") 2
  match (← get).characters charName with
  | some c => return c
  | none => failBack (.unknownCharacterName charName) (charName.length + 4)

/-- An escape that is given by octal digits: the code point, if it is not too large. -/
def octalValue (digits : Text) : Reader CodePoint := do
  let code := (Text.toNatBase? 8 digits).getD 0
  if code > 0xFF then
    let shown : Text := '\\' :: digits
    failBack (.octalTooLarge shown) shown.length
  return CodePoint.ofNat code

/-- Escapes for characters by their number or name. -/
def codeEscape? (c : CodePoint) : Option (Reader CodePoint) :=
  if c = 'x' then some (hexEscape c 2)
  else if c = 'u' then some (hexEscape c 4)
  else if c = 'U' then some (hexEscape c 8)
  else if c = 'N' then some namedEscape
  else none

/-- An escape inside brackets. -/
def setEscape (c : CodePoint) : Reader SetItem := do
  match control? c, category? c, codeEscape? c with
  | some d, _, _ => return .char d
  | none, some item, _ => return item
  | none, none, some read => return .char (← read)
  | none, none, none =>
    if c.isOctalDigit then
      let digits ← takeWhile CodePoint.isOctalDigit 2
      return .char (← octalValue (c :: digits))
    if c.isDigit || c.isLetter then failBack (.badEscape ['\\', c]) 2
    return .char c

/-- A reference to a group by the digits of its number. -/
def groupReference (flags : Flags) (digits : Text) : Reader Node := do
  let group := Text.toNat digits
  if group < (← groupCount) then
    match ← closedWidth? group with
    | none => failBack .openGroup (digits.length + 1)
    | some (least, most) =>
      checkLookbehind group
      return .backref group flags.ignoreCase flags.ascii least most
  else failBack (.noSuchGroup group) digits.length

/-- An escape by digits: three octal digits are a character, others name a group. -/
def digitEscape (flags : Flags) (c : CodePoint) : Reader Node := do
  if c = '0' then
    let digits ← takeWhile CodePoint.isOctalDigit 2
    return literal flags (← octalValue (c :: digits))
  match ← takeWhile CodePoint.isDigit 1 with
  | [d] =>
    if c.isOctalDigit && d.isOctalDigit then
      match ← takeWhile CodePoint.isOctalDigit 1 with
      | [e] => return literal flags (← octalValue [c, d, e])
      | _ => groupReference flags [c, d]
    else groupReference flags [c, d]
  | _ => groupReference flags [c]

/-! ## Character sets -/

/-- The entry for a token inside brackets. -/
def setItem : Token → Reader SetItem
  | .char c => return .char c
  | .escape c => setEscape c

/-- The entries up to the closing bracket. The set began at `start`. -/
def setItems (start : Nat) : (fuel : Nat) → List SetItem → Reader (List SetItem)
  | 0, items => return items
  | fuel + 1, items => do
    let some low ← take | failAt .unterminatedSet start
    if low = .char ']' ∧ !items.isEmpty then return items
    let item ← setItem low
    if ← accept '-' then
      let some high ← take | failAt .unterminatedSet start
      if high = .char ']' then return items ++ [item, .char '-']
      let other ← setItem high
      let problem := Problem.badRange low.text high.text
      let back := low.text.length + 1 + high.text.length
      match item, other with
      | .char a, .char b =>
        if b < a then failBack problem back
        setItems start fuel (items ++ [.range a b])
      | _, _ => failBack problem back
    else setItems start fuel (items ++ [item])

/-- A character set; its opening bracket has been taken. -/
def charSet (flags : Flags) : Reader Node := do
  let start := (← get).position - 1
  let negated ← accept '^'
  let items ← setItems start ((← get).rest.length + 1) []
  return .oneOf ⟨items, negated, flags.ignoreCase, flags.ascii⟩

/-! ## Repeats -/

/-- The bounds of a repeat, or none if the brace is an ordinary character. -/
structure Bounds where
  least : Nat
  most : Option Nat

/-- Repeat counts from here on are refused. -/
def repeatLimit : Nat := 4294967295

/-- The count that digits give, none without digits. -/
def repeatCount (digits : Text) : Reader (Option Nat) := do
  if digits.isEmpty then return none
  if digitLimit < digits.length then throw (.longRepeat digits.length)
  let n := Text.toNat digits
  if repeatLimit ≤ n then throw .repeatTooLarge
  return some n

/-- The bounds in braces; the opening brace has been taken. -/
def bracedBounds : Reader (Option Bounds) := do
  let start := (← get).position
  if (← peek) = some (.char '}') then return none
  let fuel := (← get).rest.length
  let low ← takeWhile CodePoint.isDigit fuel
  let high ← if ← accept ',' then takeWhile CodePoint.isDigit fuel else pure low
  if !(← accept '}') then
    seek start
    return none
  let least ← repeatCount low
  let most ← repeatCount high
  match most with
  | some n => if n < least.getD 0 then failAt .repeatBoundsCrossed start
  | none => pure ()
  return some ⟨least.getD 0, most⟩

/-! ## Flags of a group -/

/-- Whether a flag chooses a character set. -/
def choosesCharacters (f : Flags) : Bool := f.ascii || f.unicode

/-- The flag for a token inside a group's head, or the problem that the token is. -/
def flagAt (otherwise : Problem) : Option Token → Reader Flags
  | none => fail otherwise
  | some token => do
    match token with
    | .char c =>
      if c = 'L' then fail .localeFlag
      match Flags.ofLetter? c with
      | some f => return f
      | none => failBack (if c.isAlphabetic then .unknownFlag else otherwise) 1
    | .escape _ => failBack otherwise 2

/-- The flags to turn on, from the first of them up to the character that ends them. -/
def flagsOn : (fuel : Nat) → Flags → Option Token → Reader (Flags × Option CodePoint)
  | 0, on, _ => return (on, none)
  | fuel + 1, on, token => do
    let f ← flagAt .missingFlagEnd token
    let on := on.union f
    if choosesCharacters f && on.ascii && on.unicode then fail .incompatibleFlags
    match ← take with
    | some (.char c) =>
      if c = ')' ∨ c = '-' ∨ c = ':' then return (on, some c)
      else flagsOn fuel on (some (.char c))
    | other => flagsOn fuel on other

/-- The flags to turn off, from the first of them up to the colon. -/
def flagsOff : (fuel : Nat) → Flags → Option Token → Reader Flags
  | 0, off, _ => return off
  | fuel + 1, off, token => do
    match token with
    | some (.char c) => if c = 'L' then fail .typeFlagOff
    | _ => pure ()
    let f ← flagAt (if off = Flags.none then .missingFlag else .missingColon) token
    if choosesCharacters f then fail .typeFlagOff
    let off := off.union f
    let next ← take
    if next = some (.char ':') then return off else flagsOff fuel off next

/-- The flags that a group's head turns on and off; none if they are meant for the whole pattern,
where they have been noted. -/
def groupFlags (token : Token) : Reader (Option (Flags × Flags)) := do
  let fuel := (← get).rest.length + 2
  let (on, stop) ←
    if token = .char '-' then pure (Flags.none, some (CodePoint.ofChar '-'))
    else flagsOn fuel Flags.none (some token)
  if stop = some (CodePoint.ofChar ')') then
    modify fun s => { s with globals := s.globals.union on }
    return none
  if on.template then failBack .globalFlagOn 1
  let off ← if stop = some (CodePoint.ofChar '-') then do flagsOff fuel Flags.none (← take)
    else pure Flags.none
  if off.template then failBack .globalFlagOff 1
  if on.inter off ≠ Flags.none then failBack .flagOnAndOff 1
  return some (on, off)

/-! ## The whole pattern -/

/-- What can stand before a repeat: a place, something that is repeated already, or anything. -/
inductive Role where
  | place
  | repeated
  | plain
deriving DecidableEq

/-- A part of a sequence. -/
structure Part where
  role : Role
  node : Node

/-- What a group's head says about its body. -/
inductive Head where
  | plain (capture : Bool) (name : Option Text) (on off : Flags)
  | atomic
  | look (behind negated : Bool)
  | condition (group : Nat)
  /-- Nothing follows: a comment, or flags for the whole pattern. -/
  | nothing (flagged : Bool)
  /-- A reference by name. -/
  | reference (node : Node)

/-- Skips a comment, whose group began at `start`. -/
def skipComment (start : Nat) : (fuel : Nat) → Reader Unit
  | 0 => return ()
  | fuel + 1 => do
    match ← peek with
    | none => failAt .unterminatedComment start
    | some _ => if (← take) = some (.char ')') then return () else skipComment start fuel

/-- White space around the number of a group. -/
def isPadding (c : CodePoint) : Bool := c.isBlank && !(0x1C ≤ c.val && c.val ≤ 0x1F)

/-- The integer that decimal digits of any script spell, with underscores between them, a sign and
white space around it. -/
def groupNumber? (t : Text) : Option Int := do
  let body := Text.trim isPadding t
  let digits := match body with
    | c :: rest => if c = '-' ∨ c = '+' then rest else body
    | [] => []
  let parts := Text.splitOn '_' digits
  let values ← parts.flatten.mapM CodePoint.decimalValue?
  if parts.any List.isEmpty || digitLimit < values.length then none
  else
    let n : Nat := values.foldl (fun n d => n * 10 + d) 0
    return if body.head? = some (CodePoint.ofChar '-') then -(n : Int) else n

/-- The number of a group as a condition names it. -/
def conditionGroup (condition : Text) : Reader Nat := do
  if condition.isIdentifier then
    match (← get).names.find? (·.1 = condition) with
    | some (_, group) => return group
    | none => failBack (.unknownGroupName condition) (condition.length + 1)
  else
    let back := condition.length + 1
    match groupNumber? condition with
    | some (.ofNat group) =>
      if group = 0 then failBack .badGroupNumber back
      if 1073741823 ≤ group then failBack (.noSuchGroup group) back
      modify fun s =>
        if s.conditions.any (·.1 = group) then s
        else { s with conditions := s.conditions ++ [(group, s.position - back)] }
      return group
    | _ => failBack (.badGroupName condition) back

/-- The head of a named group or of a reference by name, after `(?P`. -/
def namedHead (flags : Flags) : Reader Head := do
  if ← accept '<' then
    let groupName ← name '>' "group name"
    checkGroupName groupName
    return .plain true (some groupName) Flags.none Flags.none
  if ← accept '=' then
    let groupName ← name ')' "group name"
    checkGroupName groupName
    match (← get).names.find? (·.1 = groupName) with
    | none => failBack (.unknownGroupName groupName) (groupName.length + 1)
    | some (_, group) =>
      match ← closedWidth? group with
      | none => failBack .openGroup (groupName.length + 1)
      | some (least, most) =>
        checkLookbehind group
        return .reference (.backref group flags.ignoreCase flags.ascii least most)
  match ← take with
  | none => fail .unexpectedEnd
  | some token => failBack (.unknownExtension ("?P" ++ token.text)) (token.text.length + 2)

/-- The head of a group; its opening parenthesis has been taken and stands at `start`. -/
def head (flags : Flags) (start : Nat) : Reader Head := do
  if !(← accept '?') then return .plain true none Flags.none Flags.none
  let some token ← take | fail .unexpectedEnd
  match token with
  | .char c =>
    if c = 'P' then namedHead flags
    else if c = ':' then return .plain false none Flags.none Flags.none
    else if c = '#' then
      skipComment start ((← get).rest.length + 1)
      return .nothing false
    else if c = '=' then return .look false false
    else if c = '!' then return .look false true
    else if c = '<' then
      let some other ← take | fail .unexpectedEnd
      if other = .char '=' then return .look true false
      else if other = .char '!' then return .look true true
      else failBack (.unknownExtension ("?<" ++ other.text)) (other.text.length + 2)
    else if c = '(' then
      let condition ← name ')' "group name"
      let group ← conditionGroup condition
      checkLookbehind group
      return .condition group
    else if c = '>' then return .atomic
    else if c = '-' ∨ c = 'L' ∨ (Flags.ofLetter? c).isSome then
      match ← groupFlags token with
      | none => return .nothing true
      | some (on, off) => return .plain false none on off
    else failBack (.unknownExtension ("?" ++ token.text)) (token.text.length + 1)
  | .escape _ => failBack (.unknownExtension ("?" ++ token.text)) (token.text.length + 1)

/-- Takes the parenthesis that closes a group, which began at `start`. -/
def closing (start : Nat) : Reader Unit := do
  if !(← accept ')') then failAt .unterminatedGroup start

/-- Skips a comment to the end of its line, where blanks and comments do not count. -/
def skipLine : (fuel : Nat) → Reader Unit
  | 0 => return ()
  | fuel + 1 => do
    match ← take with
    | none => return ()
    | some token => if token = .char '\n' then return () else skipLine fuel

/-- White space between the parts of a spaced pattern. -/
def isSpacing (c : CodePoint) : Bool := c.val == 0x20 || (9 ≤ c.val && c.val ≤ 13)

/-- How eagerly a repeat takes its rounds, by the sign behind its quantifier. -/
def greed : Reader Greed := do
  if ← accept '?' then return .lazy
  if ← accept '+' then return .possessive
  return .greedy

/-- Repeats the last of the parts; the quantifier stands at `start`. -/
def repeatLast (parts : List Part) (bounds : Bounds) (start : Nat) : Reader (List Part) := do
  match parts.getLast? with
  | none => failAt .nothingToRepeat start
  | some last =>
    if last.role = .place then failAt .nothingToRepeat start
    if last.role = .repeated then failAt .multipleRepeat start
    let node := Node.repeated (← greed) bounds.least bounds.most last.node
    return parts.dropLast ++ [⟨.repeated, node⟩]

/-- The bounds of a quantifier, which has been taken; none if it is an ordinary character. -/
def quantifier? (c : CodePoint) : Option (Reader (Option Bounds)) :=
  if c = '?' then some (pure (some ⟨0, some 1⟩))
  else if c = '*' then some (pure (some ⟨0, none⟩))
  else if c = '+' then some (pure (some ⟨1, none⟩))
  else if c = '{' then some bracedBounds
  else none

/-- The part for an escape outside brackets. -/
def escapePart (flags : Flags) (c : CodePoint) : Reader Part := do
  match category? c, anchor? flags c, control? c, codeEscape? c with
  | some item, _, _, _ => return ⟨.plain, .oneOf (single flags item)⟩
  | none, some a, _, _ => return ⟨.place, .anchor a⟩
  | none, none, some d, _ => return ⟨.plain, literal flags d⟩
  | none, none, none, some read => return ⟨.plain, literal flags (← read)⟩
  | none, none, none, none =>
    if c.isDigit then return ⟨.plain, ← digitEscape flags c⟩
    if c.isLetter then failBack (.badEscape ['\\', c]) 2
    return ⟨.plain, literal flags c⟩

/-- Where a sequence stands: directly in the pattern, first of all or not, or inside a group. -/
inductive Standing where
  | first
  | later
  | inside
deriving DecidableEq

mutual

/-- Alternatives up to the end of the group or pattern. -/
def alternatives (flags : Flags) (standing : Standing) : (fuel : Nat) → Reader Node
  | 0 => return .empty
  | fuel + 1 => do
    let node ← sequence flags standing fuel []
    if ← accept '|' then
      let globals := (← get).globals
      let other ←
        if standing = .inside then alternatives flags .inside fuel
        else alternatives globals .later fuel
      return .alt node other
    else return node
termination_by structural fuel => fuel

/-- A sequence of parts up to a bar, a closing parenthesis or the end. -/
def sequence (flags : Flags) (standing : Standing) : (fuel : Nat) → List Part → Reader Node
  | 0, parts => return Node.ofList (parts.map Part.node)
  | fuel + 1, parts => do
    let start := (← get).position
    match ← peek with
    | none => return Node.ofList (parts.map Part.node)
    | some (.escape c) =>
      let _ ← take
      sequence flags standing fuel (parts ++ [← escapePart flags c])
    | some (.char c) =>
      if c = '|' ∨ c = ')' then return Node.ofList (parts.map Part.node)
      let _ ← take
      if flags.spaced && isSpacing c then sequence flags standing fuel parts
      else if flags.spaced && c = '#' then do
        skipLine ((← get).rest.length + 1)
        sequence flags standing fuel parts
      else if c = '[' then
        sequence flags standing fuel (parts ++ [⟨.plain, ← charSet flags⟩])
      else if c = '.' then
        sequence flags standing fuel (parts ++ [⟨.plain, .anyChar flags.dotAll⟩])
      else if c = '^' then
        let a := if flags.multiline then Anchor.lineStart else Anchor.textStart
        sequence flags standing fuel (parts ++ [⟨.place, .anchor a⟩])
      else if c = '$' then
        let a := if flags.multiline then Anchor.lineEnd else Anchor.finalLineEnd
        sequence flags standing fuel (parts ++ [⟨.place, .anchor a⟩])
      else if c = '(' then do
        match ← head flags start with
        | .nothing flagged =>
          if flagged then
            if standing ≠ .first ∨ !parts.isEmpty then failAt .lateGlobalFlags start
            sequence (← get).globals standing fuel parts
          else sequence flags standing fuel parts
        | .reference node => sequence flags standing fuel (parts ++ [⟨.plain, node⟩])
        | other =>
          let node ← group flags start fuel other
          sequence flags standing fuel (parts ++ [⟨.plain, node⟩])
      else match quantifier? c with
        | some read =>
          match ← read with
          | some bounds => sequence flags standing fuel (← repeatLast parts bounds start)
          | none => sequence flags standing fuel (parts ++ [⟨.plain, literal flags c⟩])
        | none => sequence flags standing fuel (parts ++ [⟨.plain, literal flags c⟩])
termination_by structural fuel => fuel

/-- A group after its head, with its closing parenthesis. -/
def group (flags : Flags) (start : Nat) : (fuel : Nat) → Head → Reader Node
  | 0, _ => return .empty
  | fuel + 1, h => do
    match h with
    | .plain capture groupName on off =>
      let index ← if capture then (some <$> openGroup groupName) else pure none
      let body ← alternatives (flags.within on off) .inside fuel
      closing start
      match index with
      | some i =>
        closeGroup i body
        return .group i body
      | none => return body
    | .atomic =>
      let body ← alternatives flags .inside fuel
      closing start
      return .atomic body
    | .look behind negated =>
      let outer := (← get).lookbehind
      if behind && outer.isNone then
        let count ← groupCount
        modify fun s => { s with lookbehind := some count }
      let body ← alternatives flags .inside fuel
      if behind then modify fun s => { s with lookbehind := outer }
      closing start
      return .look behind negated body
    | .condition index =>
      let yes ← sequence flags .inside fuel []
      let no ← if ← accept '|' then do
          let no ← sequence flags .inside fuel []
          if (← peek) = some (.char '|') then fail .tooManyBranches
          pure no
        else pure .empty
      closing start
      return .ifGroup index yes no
    | .nothing _ | .reference _ => return .empty
termination_by structural fuel => fuel

end

end Reader

/-- How a repeat is called in the interpreter's own terms. -/
def Greed.operator : Greed → Text
  | greedy => "MAX_REPEAT"
  | lazy => "MIN_REPEAT"
  | possessive => "POSSESSIVE_REPEAT"

/-- The first problem that shows only when all of a pattern has been read: a repeat in a template, or
a look-behind whose body has no fixed width. -/
def Node.lateProblem? (template : Bool) : Node → Option Problem
  | .seq a b | .alt a b | .ifGroup _ a b => a.lateProblem? template <|> b.lateProblem? template
  | .repeated greed _ _ body =>
    if template then some (.templateRepeat greed.operator) else body.lateProblem? template
  | .group _ body | .atomic body | .look false _ body => body.lateProblem? template
  | .look true _ body =>
    if Nat.pow 2 32 ≤ body.width.1 then some .longLookbehind
    else if body.width.1 ≠ body.width.2 then some .variableLookbehind
    else body.lateProblem? template
  | _ => none

/-- Reads a pattern, given which characters have a name. -/
def read (characters : Text → Option CodePoint) (pattern : Text) : Except Refusal Node := do
  let reader : Reader Node := do
    Reader.checkAhead
    let node ← Reader.alternatives Flags.none .first (3 * pattern.length + 3)
    let s ← get
    if s.globals.ascii && s.globals.unicode then throw .exclusiveFlags
    if !s.rest.isEmpty then Reader.fail .unbalanced
    match s.conditions.find? (fun c => s.widths.length < c.1) with
    | some (group, position) => Reader.failAt (.noSuchGroup group) position
    | none => return node
  let (node, s) ← reader.run
    { pattern, characters, rest := pattern, position := 0, globals := Flags.none, names := [],
      widths := [], lookbehind := none, conditions := [] }
  match node.lateProblem? s.globals.template with
  | some problem => throw (.fault ⟨problem, none⟩)
  | none => return node

end DocShape.Pattern
