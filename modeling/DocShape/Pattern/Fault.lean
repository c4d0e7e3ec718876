import DocShape.Value.Literal

/-!
# Why a pattern is refused

Each way in which the text of a pattern can be wrong is a `Problem` with its own wording. A `Fault`
adds where it stands in the pattern, counted in code points from zero; a pattern of several lines
also gives the line and the column.
-/

namespace DocShape.Pattern

/-- What is wrong with the text of a pattern. -/
inductive Problem where
  | danglingEscape
  | unterminatedSet
  | badRange (low high : Text)
  | incompleteEscape (escape : Text)
  | badEscape (escape : Text)
  | octalTooLarge (escape : Text)
  | missingBrace
  | missingName (what : Text)
  | unterminatedName (terminator : CodePoint)
  | unknownCharacterName (name : Text)
  | noSuchGroup (group : Nat)
  | openGroup
  | sameLookbehindGroup
  | nothingToRepeat
  | multipleRepeat
  | repeatBoundsCrossed
  | badGroupName (name : Text)
  | unknownGroupName (name : Text)
  | groupRedefined (name : Text) (group earlier : Nat)
  | badGroupNumber
  | unexpectedEnd
  | unknownExtension (shown : Text)
  | unterminatedComment
  | unterminatedGroup
  | tooManyBranches
  | lateGlobalFlags
  | localeFlag
  | incompatibleFlags
  | unknownFlag
  | missingFlag
  | missingFlagEnd
  | missingColon
  | globalFlagOn
  | globalFlagOff
  | typeFlagOff
  | flagOnAndOff
  | unbalanced
  | variableLookbehind
  | longLookbehind
  | templateRepeat (operator : Text)
deriving DecidableEq

/-- The wording of a problem. -/
def Problem.text : Problem → Text
  | danglingEscape => "bad escape (end of pattern)"
  | unterminatedSet => "unterminated character set"
  | badRange low high => "bad character range " ++ low ++ "-" ++ high
  | incompleteEscape escape => "incomplete escape " ++ escape
  | badEscape escape => "bad escape " ++ escape
  | octalTooLarge escape => "octal escape value " ++ escape ++ " outside of range 0-0o377"
  | missingBrace => "missing \x7b"
  | missingName what => "missing " ++ what
  | unterminatedName terminator => "missing " ++ [terminator] ++ ", unterminated name"
  | unknownCharacterName name => "undefined character name " ++ Literal.quoted name
  | noSuchGroup group => "invalid group reference " ++ Text.ofNat group
  | openGroup => "cannot refer to an open group"
  | sameLookbehindGroup => "cannot refer to group defined in the same lookbehind subpattern"
  | nothingToRepeat => "nothing to repeat"
  | multipleRepeat => "multiple repeat"
  | repeatBoundsCrossed => "min repeat greater than max repeat"
  | badGroupName name => "bad character in group name " ++ Literal.quoted name
  | unknownGroupName name => "unknown group name " ++ Literal.quoted name
  | groupRedefined name group earlier =>
    "redefinition of group name " ++ Literal.quoted name ++ " as group " ++ Text.ofNat group ++
      "; was group " ++ Text.ofNat earlier
  | badGroupNumber => "bad group number"
  | unexpectedEnd => "unexpected end of pattern"
  | unknownExtension shown => "unknown extension " ++ shown
  | unterminatedComment => "missing ), unterminated comment"
  | unterminatedGroup => "missing ), unterminated subpattern"
  | tooManyBranches => "conditional backref with more than two branches"
  | lateGlobalFlags => "global flags not at the start of the expression"
  | localeFlag => "bad inline flags: cannot use 'L' flag with a str pattern"
  | incompatibleFlags => "bad inline flags: flags 'a', 'u' and 'L' are incompatible"
  | unknownFlag => "unknown flag"
  | missingFlag => "missing flag"
  | missingFlagEnd => "missing -, : or )"
  | missingColon => "missing :"
  | globalFlagOn => "bad inline flags: cannot turn on global flag"
  | globalFlagOff => "bad inline flags: cannot turn off global flag"
  | typeFlagOff => "bad inline flags: cannot turn off flags 'a', 'u' and 'L'"
  | flagOnAndOff => "bad inline flags: flag turned on and off"
  | unbalanced => "unbalanced parenthesis"
  | variableLookbehind => "look-behind requires fixed-width pattern"
  | longLookbehind => "looks too much behind"
  | templateRepeat operator => "internal: unsupported template operator " ++ operator

/-- A place in a pattern: the code points before it, and its line and column counted from one where
the pattern has several lines. -/
structure Place where
  offset : Nat
  lineColumn : Option (Nat × Nat)
deriving DecidableEq

/-- The place at an offset of a pattern. -/
def Place.at (pattern : Text) (offset : Nat) : Place :=
  let before := pattern.take offset
  let newline := CodePoint.ofChar '\n'
  let lineColumn :=
    if pattern.contains newline then
      some (before.count newline + 1, (before.reverse.takeWhile (· ≠ newline)).length + 1)
    else none
  ⟨offset, lineColumn⟩

/-- A problem and where it stands, if it stands somewhere. -/
structure Fault where
  problem : Problem
  place : Option Place
deriving DecidableEq

/-- The wording of a fault. -/
def Fault.text (f : Fault) : Text :=
  match f.place with
  | none => f.problem.text
  | some place =>
    let base := f.problem.text ++ " at position " ++ Text.ofNat place.offset
    match place.lineColumn with
    | none => base
    | some (line, column) =>
      base ++ " (line " ++ Text.ofNat line ++ ", column " ++ Text.ofNat column ++ ")"

/-- Why a pattern cannot be used: a fault of its text, a repeat count beyond what is possible or with
too many digits, two global flags that exclude each other, or groups that nest deeper than the stack
allows, in the words of the interpreter. -/
inductive Refusal where
  | fault (f : Fault)
  | repeatTooLarge
  | longRepeat (count : Nat)
  | exclusiveFlags
  | exhausted (message : Text)
deriving DecidableEq

end DocShape.Pattern
