import DocShape.Yaml.Cursor

/-!
# The text of scalars

A scalar is plain, in single or double quotes, or a block of lines. In all of them a single line
break between two lines of text is written for a space (in literal blocks it stands for itself), and
of several breaks the first is dropped.
-/

namespace DocShape.Yaml

/-- What the breaks between two lines of text stand for: the first break and those after it. -/
def foldBreaks (first more : Text) : Text :=
  if first ≠ "\n" then first ++ more else if more.isEmpty then " " else more

/-! ## Plain scalars -/

/-- How many characters at the front of a text a plain scalar takes on its line, up to a blank. -/
def plainLength (inFlow : Bool) : Text → Nat
  | [] => 0
  | c :: rest =>
    if isGap c || isBreak c then 0
    else if c == ':' && (atBlank rest || (inFlow && startsWithAny ",[]\x7b\x7d" rest)) then 0
    else if inFlow && startsWithAny ",?[]\x7b\x7d" [c] then 0
    else plainLength inFlow rest + 1

/-- The line breaks after the first one, with the spaces between them, and whether a document mark
ended them. -/
def plainBreaks : (fuel : Nat) → Scan (Text × Bool)
  | 0 => return ([], false)
  | fuel + 1 => do
    Scan.skipSpaces
    let br ← Scan.lineBreak
    if br.isEmpty then return ([], false)
    else if atDocumentMark (← Scan.rest) then return (br, true)
    else
      let (more, marked) ← plainBreaks fuel
      return (br ++ more, marked)

/-- The gap behind a word of a plain scalar: what it stands for, which is nothing where the scalar
must end, and whether it has a line break. -/
def plainGap : Scan (Text × Bool) := do
  let spaces ← Scan.takeWhile (· == ' ')
  let first ← Scan.lineBreak
  if first.isEmpty then return (spaces, false)
  else if atDocumentMark (← Scan.rest) then return ([], true)
  else
    let (more, marked) ← plainBreaks (← Scan.fuel)
    return (if marked then [] else foldBreaks first more, true)

/-- A plain scalar from a word on, and whether a line break came after its last word. Its lines
must be indented by `indent` columns, except in flow collections. -/
def plainFrom (inFlow : Bool) (indent : Nat) : (fuel : Nat) → Scan (Text × Bool)
  | 0 => Scan.refuse
  | fuel + 1 => do
    let word ← Scan.take (plainLength inFlow (← Scan.rest))
    let (gap, broken) ← plainGap
    let next ← Scan.rest
    let ends := gap.isEmpty || startsWith '#' next || (!inFlow && (← get).column < indent) ||
      plainLength inFlow next == 0
    if ends then return (word, broken)
    else
      let (more, broken) ← plainFrom inFlow indent fuel
      return (word ++ gap ++ more, broken)

/-- A plain scalar, and whether a line break came after its last word. -/
def plainScalar (inFlow : Bool) (indent : Nat) : Scan (Text × Bool) := do
  plainFrom inFlow indent (← Scan.fuel)

/-! ## Quoted scalars -/

/-- The character of a short escape. -/
def shortEscape? (c : CodePoint) : Option CodePoint :=
  let table := [('0', '\x00'), ('a', '\x07'), ('b', '\x08'), ('t', '\t'), ('\t', '\t'),
    ('n', '\n'), ('v', '\x0b'), ('f', '\x0c'), ('r', '\r'), ('e', '\x1b'), (' ', ' '), ('"', '"'),
    ('\\', '\\'), ('/', '/'), ('N', '\x85'), ('_', '\xa0'), ('L', '\u2028'), ('P', '\u2029')]
  (table.find? fun e => CodePoint.ofChar e.1 == c).map fun e => CodePoint.ofChar e.2

/-- How many hexadecimal digits follow the letter of an escape. -/
def escapeDigits? (c : CodePoint) : Option Nat :=
  if c = 'x' then some 2 else if c = 'u' then some 4 else if c = 'U' then some 8 else none

/-- A code point in some hexadecimal digits. -/
def hexEscape (digits : Nat) : Scan CodePoint := do
  let t ← Scan.take digits
  if t.length < digits then Scan.refuse
  else match Text.toNatBase? 16 t with
    | none => Scan.refuse
    | some n => if h : n < 0x110000 then return ⟨n, h⟩ else throw (.scalar (.noCodePoint n))

/-- The line breaks of a quoted scalar after the first one, with the blanks around them. -/
def quotedBreaks : (fuel : Nat) → Scan Text
  | 0 => return []
  | fuel + 1 => do
    if atDocumentMark (← Scan.rest) then Scan.refuse
    else
      discard <| Scan.takeWhile isGap
      let br ← Scan.lineBreak
      if br.isEmpty then return [] else return br ++ (← quotedBreaks fuel)

/-- What follows a backslash in double quotes. -/
def escaped : Scan Text := do
  match ← Scan.rest with
  | [] => Scan.refuse
  | c :: _ =>
    match shortEscape? c, escapeDigits? c with
    | some d, _ => do
      Scan.skip 1
      return [d]
    | none, some digits => do
      Scan.skip 1
      return [← hexEscape digits]
    | none, none =>
      if isBreak c then
        discard Scan.lineBreak
        quotedBreaks (← Scan.fuel)
      else Scan.refuse

/-- The gap between two words of a quoted scalar. -/
def quotedGap : Scan Text := do
  let blanks ← Scan.takeWhile isGap
  match ← Scan.rest with
  | [] => Scan.refuse
  | c :: _ =>
    if isBreak c then
      let first ← Scan.lineBreak
      return foldBreaks first (← quotedBreaks (← Scan.fuel))
    else return blanks

/-- The rest of a quoted scalar, with its closing quote. In single quotes a quote is written
twice. -/
def quotedFrom (quote : CodePoint) : (fuel : Nat) → Scan Text
  | 0 => Scan.refuse
  | fuel + 1 => do
    match ← Scan.rest with
    | [] => Scan.refuse
    | c :: rest =>
      let double := quote == '"'
      if c = quote && !double && startsWith quote rest then
        Scan.skip 2
        return c :: (← quotedFrom quote fuel)
      else if c = quote then
        Scan.skip 1
        return []
      else if double && c == '\\' then
        Scan.skip 1
        let t ← escaped
        return t ++ (← quotedFrom quote fuel)
      else if isGap c || isBreak c then
        let t ← quotedGap
        return t ++ (← quotedFrom quote fuel)
      else
        Scan.skip 1
        return c :: (← quotedFrom quote fuel)

/-- A quoted scalar. -/
def quotedScalar (quote : CodePoint) : Scan Text := do
  Scan.skip 1
  quotedFrom quote (← Scan.fuel)

/-! ## Block scalars -/

/-- What becomes of the line breaks at the end of a block scalar. -/
inductive Chomping where
  | strip
  | clip
  | keep
deriving DecidableEq, Repr

/-- The chomping that a sign asks for. -/
def chomping? : Scan (Option Chomping) := do
  match ← Scan.rest with
  | c :: _ =>
    if c = '+' then
      Scan.skip 1
      return some .keep
    else if c = '-' then
      Scan.skip 1
      return some .strip
    else return none
  | [] => return none

/-- The indentation that a digit asks for, which must not be zero. -/
def indentation? : Scan (Option Nat) := do
  match ← Scan.rest with
  | c :: _ =>
    if !c.isDigit then return none
    else if c = '0' then Scan.refuse
    else
      Scan.skip 1
      return some c.digitValue
  | [] => return none

/-- The header of a block scalar behind its indicator: sign and digit in any order. -/
def blockHeader : Scan (Chomping × Option Nat) := do
  let before ← chomping?
  let indentation ← indentation?
  let sign ← match before with
    | some sign => pure sign
    | none =>
      if indentation.isSome then return ((← chomping?).getD .clip, indentation) else pure .clip
  return (sign, indentation)

/-- The blank lines at the top of a block, and the widest indentation among them and the first
line of text. -/
def leadingBreaks : (fuel widest : Nat) → Scan (Text × Nat)
  | 0, widest => return ([], widest)
  | fuel + 1, widest => do
    Scan.skipSpaces
    let widest := max widest (← get).column
    let br ← Scan.lineBreak
    if br.isEmpty then return ([], widest)
    else
      let (more, widest) ← leadingBreaks fuel widest
      return (br ++ more, widest)

/-- Consumes up to so many spaces that the column is `indent`. -/
def skipIndentation (indent : Nat) : Scan Unit := do
  let column := (← get).column
  let spaces := (← Scan.rest).takeWhile fun c : CodePoint => c == ' '
  Scan.skip (min spaces.length (indent - column))

/-- The blank lines before the next line of a block, up to its indentation. -/
def blockBreaks (indent : Nat) : (fuel : Nat) → Scan Text
  | 0 => return []
  | fuel + 1 => do
    skipIndentation indent
    let br ← Scan.lineBreak
    if br.isEmpty then return [] else return br ++ (← blockBreaks indent fuel)

/-- The lines of a block scalar from one of them on: their text, and the breaks behind the last. -/
def blockLines (folded : Bool) (indent : Nat) : (fuel : Nat) → Scan (Text × Text × Text)
  | 0 => Scan.refuse
  | fuel + 1 => do
    let indented := startsWithAny " \t" (← Scan.rest)
    let line ← Scan.takeWhile (!isBreak ·)
    let first ← Scan.lineBreak
    let more ← blockBreaks indent (← Scan.fuel)
    let next ← Scan.rest
    if (← get).column == indent && !next.isEmpty then
      let joint : Text := if folded && first == "\n" && !indented && !startsWithAny " \t" next then
          (if more.isEmpty then " " else [])
        else first
      let (text, last, trailing) ← blockLines folded indent fuel
      return (line ++ joint ++ more ++ text, last, trailing)
    else return (line, first, more)

/-- A block scalar. Its lines are indented by at least `least` columns. -/
def blockScalar (folded : Bool) (least : Nat) : Scan Text := do
  Scan.skip 1
  let (chomping, indentation) ← blockHeader
  Scan.expect atSpace
  Scan.restOfLine
  let least := max least 1
  let (breaks, indent) ← match indentation with
    | none => do
      let (breaks, widest) ← leadingBreaks (← Scan.fuel) 0
      pure (breaks, max least widest)
    | some n => do
      let indent := least + n - 1
      pure (← blockBreaks indent (← Scan.fuel), indent)
  let (text, last, trailing) ←
    if (← get).column == indent && !(← Scan.rest).isEmpty then do
      let (text, last, trailing) ← blockLines folded indent (← Scan.fuel)
      pure (breaks ++ text, last, trailing)
    else pure ([], [], breaks)
  match chomping with
  | .strip => return text
  | .clip => return text ++ last
  | .keep => return text ++ last ++ trailing

end DocShape.Yaml
