import DocShape.Host
import DocShape.Pattern.Match
import DocShape.Pattern.Reader
import DocShape.Schema.Block
import DocShape.Walk

/-!
# Rules on single nodes

Bounds on numbers, constraints on lengths and patterns of strings. Each check of a node reports at
most one error, and tells whether the rule holds.
-/

namespace DocShape

/-- A number as messages show it: a double without a fraction as an integer. -/
def Number.shown? : Number → Option Text
  | .int n => Text.ofIntLimited? n
  | .float x =>
    if x.isIntegral then (x.truncate?).map Text.ofInt else some x.text

/-- A number cut to an integer toward zero. -/
def Number.truncate : Number → Except Failure Int
  | .int n => .ok n
  | .float .nan => .error .lengthNaN
  | .float (.infinite _) => .error .lengthInfinite
  | .float x => .ok (x.truncate?.getD 0)

/-- Why a pattern of a block at a path cannot be used. Only a fault in it is told as an error of the
schema. -/
def Pattern.Refusal.failure (path : Path) : Pattern.Refusal → Failure
  | .fault f => .complaint (.violation path (.badPattern f))
  | .repeatTooLarge => .repeatTooLarge
  | .longRepeat count => .longRepeat count
  | .exclusiveFlags => .exclusiveFlags
  | .exhausted message => .exhausted message

/-- Compiles a pattern, as far as the stack of the interpreter allows. -/
def Pattern.compile [Host] (pattern : Text) : Except Pattern.Refusal Pattern.Node :=
  match Host.exhaustion pattern with
  | some message => .error (.exhausted message)
  | none => Pattern.read Host.characterName pattern

namespace Convert

/-- Reports a mismatch, unless a test holds. -/
def expect (path : Path) (cause : Mismatch) (holds : Bool) : Walk Bool := do
  if holds then return true
  else
    Walk.mismatch path cause
    return false

/-! ## Bounds on numbers -/

/-- A number as messages show it, which an integer of too many digits is not. -/
def shownNumber (n : Number) : Walk Text :=
  match n.shown? with
  | some t => pure t
  | none => throw (.unwritable .tooManyDigits)

/-- A node against a lower bound, which is written out in any case. -/
def above (path : Path) (node : Number) (limit : Limit) : Walk Bool := do
  let shown ← shownNumber limit.value
  if limit.isExclusive then expect path (.outOfBounds .above shown) (limit.value.lt node)
  else expect path (.outOfBounds .atLeast shown) (limit.value.le node)

/-- A node against an upper bound, which is written out in any case. -/
def below (path : Path) (node : Number) (limit : Limit) : Walk Bool := do
  let shown ← shownNumber limit.value
  if limit.isExclusive then expect path (.outOfBounds .below shown) (node.lt limit.value)
  else expect path (.outOfBounds .atMost shown) (node.le limit.value)

/-- A bound that may be left out. -/
def optionalLimit (check : Limit → Walk Bool) (limit : Setting Limit) : Walk Bool :=
  match limit.value? with
  | none => pure true
  | some limit => check limit

/-! ## Lengths -/

/-- A number as the bound of a length, with the mismatch to report if the test on it fails. -/
def lengthBound (path : Path) (bound : Number) (test : Int → Bool) (cause : Text → Mismatch) :
    Walk Bool := do
  let n ← Walk.ofExcept bound.truncate
  if test n then return true
  else
    Walk.mismatch path (cause (← Walk.shownInt n))
    return false

/-- A bound of a length that may be left out. -/
def optionalLengthBound (path : Path) (bound : Setting Number) (test : Int → Bool)
    (cause : Text → Mismatch) : Walk Bool :=
  match bound.value? with
  | none => pure true
  | some n => lengthBound path n test cause

/-- A length against its constraint. -/
def lengthRule (path : Path) (size : Nat) : LengthRule → Walk Bool
  | .exactly n => lengthBound path n (fun k => size = k) .lengthNot
  | .range r => do
    if ← optionalLengthBound path r.minimum (fun k => k ≤ size) (.lengthOutOfBounds .atLeast) then
      optionalLengthBound path r.maximum (fun k => size ≤ k) (.lengthOutOfBounds .atMost)
    else return false

/-- A length against a constraint that may be left out. -/
def length (path : Path) (size : Nat) (rule : Setting LengthRule) : Walk Bool :=
  match rule.value? with
  | none => pure true
  | some r => lengthRule path size r

/-! ## Patterns -/

/-- A text against a pattern, which is looked for anywhere in it. -/
def pattern [Host] (path : Path) (t : Text) (pattern : Setting Text) : Walk Bool :=
  match pattern.value? with
  | none => pure true
  | some p => do
    let node ← Walk.ofExcept ((Pattern.compile p).mapError fun refusal => refusal.failure path)
    expect path .patternUnmatched (node.finds t)

end Convert

end DocShape
