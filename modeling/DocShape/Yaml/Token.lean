import DocShape.Text

/-!
# Tokens of YAML

The indicators, names and scalars of a YAML text in their order. The layout of block collections
is made explicit: a token stands where one starts and where it ends, and `key` stands before every
key, also before those that only the `:` behind them makes one.
-/

namespace DocShape.Yaml

/-- A line that begins with `%`. -/
inductive Directive where
  | version (major : Nat)
  | tag (handle lead : Text)
  | reserved
deriving DecidableEq, Repr

/-- A token. -/
inductive Token where
  | directive (d : Directive)
  | documentStart
  | documentEnd
  | blockSequenceStart
  | blockMappingStart
  | blockEnd
  | flowSequenceStart
  | flowSequenceEnd
  | flowMappingStart
  | flowMappingEnd
  | blockEntry
  | flowEntry
  | key
  | value
  | alias (name : Text)
  | anchor (name : Text)
  | tag (handle : Option Text) (suffix : Text)
  | scalar (text : Text) (plain : Bool)
deriving DecidableEq, Repr

end DocShape.Yaml
