import DocShape.Conversion.Rule
import DocShape.Proofs.Listing.Finding

/-!
# The findings of the rules on single nodes

Bounds on numbers, constraints on lengths and patterns of strings, each as the findings it yields
on one node: none where the rule holds. The check of a rule lists them and tells whether there are
none (`Convert.least_lists` and so on).
-/

namespace DocShape

/-! ## Bounds on numbers -/

/-- A node against the lower bound of its block. The bound is written out in any case. -/
def Limit.checkLeast (path : Path) (node : Number) (limit : Limit) : List Finding :=
  match limit.value.shown? with
  | none => [.halt (.unwritable .tooManyDigits)]
  | some shown =>
    if limit.isExclusive then
      if limit.value.lt node then [] else [.mismatch path (.outOfBounds .above shown)]
    else if limit.value.le node then [] else [.mismatch path (.outOfBounds .atLeast shown)]

/-- A node against the upper bound of its block. -/
def Limit.checkMost (path : Path) (node : Number) (limit : Limit) : List Finding :=
  match limit.value.shown? with
  | none => [.halt (.unwritable .tooManyDigits)]
  | some shown =>
    if limit.isExclusive then
      if node.lt limit.value then [] else [.mismatch path (.outOfBounds .below shown)]
    else if node.le limit.value then [] else [.mismatch path (.outOfBounds .atMost shown)]

/-! ## Lengths -/

/-- A number as the bound of a length, with what to find if the test on it fails. -/
def checkLengthBound (bound : Number) (test : Int → Bool) (finding : Text → Finding) :
    List Finding :=
  match bound.truncate with
  | .error f => [.halt f]
  | .ok n => if test n then [] else [Finding.quotingInt n finding]

/-- A bound of a length that may be left out. -/
def checkOptionalBound (bound : Setting Number) (test : Int → Bool) (finding : Text → Finding) :
    List Finding :=
  match bound.value? with
  | none => []
  | some n => checkLengthBound n test finding

/-- A length against its constraint; at most one finding. -/
def LengthRule.check (path : Path) (size : Nat) : LengthRule → List Finding
  | exactly n => checkLengthBound n (fun k => size = k) fun shown =>
      .mismatch path (.lengthNot shown)
  | range r =>
    let least := checkOptionalBound r.minimum (fun k => k ≤ size) fun shown =>
      .mismatch path (.lengthOutOfBounds .atLeast shown)
    if least.isEmpty then
      checkOptionalBound r.maximum (fun k => size ≤ k) fun shown =>
        .mismatch path (.lengthOutOfBounds .atMost shown)
    else least

/-- A length against a constraint that may be left out. -/
def checkLength (path : Path) (size : Nat) (rule : Setting LengthRule) : List Finding :=
  match rule.value? with
  | none => []
  | some r => r.check path size

/-! ## Patterns -/

/-- A text against a pattern, which is looked for anywhere in it. -/
def checkPattern [Host] (path : Path) (t : Text) (pattern : Setting Text) : List Finding :=
  match pattern.value? with
  | none => []
  | some p =>
    match Pattern.compile p with
    | .error refusal => [.halt (refusal.failure path)]
    | .ok node => if node.finds t then [] else [.mismatch path .patternUnmatched]

/-! ## What the checks list -/

namespace Walk

/-- A step that quotes a value lists the finding that quotes it. -/
theorem Lists.quoting {v : Value} {report : Text → Walk Unit} {finding : Text → Finding}
    (h : ∀ t, (report t).Lists [finding t] ()) :
    (shown v >>= report).Lists [.quoting v finding] () := by
  unfold shown Finding.quoting
  cases v.display? with
  | none => exact .throw _ [] ()
  | some t =>
    rw [pure_bind]
    exact h t

/-- A step that quotes an integer lists the finding that quotes it. -/
theorem Lists.quotingInt {n : Int} {report : Text → Walk Unit} {finding : Text → Finding}
    (h : ∀ t, (report t).Lists [finding t] ()) :
    (shownInt n >>= report).Lists [.quotingInt n finding] () := by
  unfold shownInt Finding.quotingInt
  cases Text.ofIntLimited? n with
  | none => exact .throw _ [] ()
  | some t =>
    rw [pure_bind]
    exact h t

/-- A check lists some findings and tells whether there are none. -/
def Tests (walk : Walk Bool) (findings : List Finding) : Prop :=
  walk.Lists findings findings.isEmpty

/-- A check after a check that found nothing. -/
theorem Tests.andThen {first second : Walk Bool} {fs gs : List Finding} (hfirst : first.Tests fs)
    (hsecond : second.Tests gs) :
    (first >>= fun holds => if holds then second else pure false).Tests
      (if fs.isEmpty then gs else fs) := by
  cases fs with
  | nil => exact Lists.bind hfirst hsecond
  | cons f fs =>
    have hbind := Lists.bind (k := fun holds => if holds then second else pure false) hfirst
      (.pure false)
    rwa [List.append_nil] at hbind

end Walk

namespace Convert

theorem expect_tests (path : Path) (cause : Mismatch) (holds : Bool) :
    (expect path cause holds).Tests (if holds then [] else [.mismatch path cause]) := by
  cases holds with
  | true => exact .pure true
  | false => exact (Walk.Lists.mismatch path cause).bind (.pure false)

theorem above_tests (path : Path) (node : Number) (limit : Limit) :
    (above path node limit).Tests (limit.checkLeast path node) := by
  unfold above Limit.checkLeast shownNumber
  cases limit.value.shown? with
  | none => exact .throw _ [] _
  | some shown =>
    cases limit.isExclusive with
    | true => exact expect_tests path (.outOfBounds .above shown) (limit.value.lt node)
    | false => exact expect_tests path (.outOfBounds .atLeast shown) (limit.value.le node)

theorem below_tests (path : Path) (node : Number) (limit : Limit) :
    (below path node limit).Tests (limit.checkMost path node) := by
  unfold below Limit.checkMost shownNumber
  cases limit.value.shown? with
  | none => exact .throw _ [] _
  | some shown =>
    cases limit.isExclusive with
    | true => exact expect_tests path (.outOfBounds .below shown) (node.lt limit.value)
    | false => exact expect_tests path (.outOfBounds .atMost shown) (node.le limit.value)

theorem lengthBound_tests (path : Path) (bound : Number) (test : Int → Bool)
    (cause : Text → Mismatch) :
    (lengthBound path bound test cause).Tests
      (checkLengthBound bound test fun shown => .mismatch path (cause shown)) := by
  unfold lengthBound checkLengthBound
  cases bound.truncate with
  | error f => exact .throw f [] _
  | ok n =>
    cases htest : test n with
    | true =>
      simp only [Walk.ofExcept, pure_bind, htest, if_true]
      exact .pure true
    | false =>
      simp only [Walk.ofExcept, pure_bind, htest, Bool.false_eq_true, if_false]
      rw [← bind_assoc]
      exact (Walk.Lists.quotingInt fun shown => .mismatch path (cause shown)).bind (.pure false)

theorem optionalLengthBound_tests (path : Path) (bound : Setting Number) (test : Int → Bool)
    (cause : Text → Mismatch) :
    (optionalLengthBound path bound test cause).Tests
      (checkOptionalBound bound test fun shown => .mismatch path (cause shown)) := by
  unfold optionalLengthBound checkOptionalBound
  cases bound.value? with
  | none => exact .pure true
  | some n => exact lengthBound_tests path n test cause

theorem lengthRule_tests (path : Path) (size : Nat) (rule : LengthRule) :
    (lengthRule path size rule).Tests (rule.check path size) := by
  cases rule with
  | exactly n => exact lengthBound_tests path n _ .lengthNot
  | range r =>
    exact (optionalLengthBound_tests path r.minimum (fun k => k ≤ size)
      (.lengthOutOfBounds .atLeast)).andThen
      (optionalLengthBound_tests path r.maximum (fun k => size ≤ k) (.lengthOutOfBounds .atMost))

theorem length_tests (path : Path) (size : Nat) (rule : Setting LengthRule) :
    (length path size rule).Tests (checkLength path size rule) := by
  unfold length checkLength
  cases rule.value? with
  | none => exact .pure true
  | some r => exact lengthRule_tests path size r

theorem pattern_tests [Host] (path : Path) (t : Text) (rule : Setting Text) :
    (pattern path t rule).Tests (checkPattern path t rule) := by
  unfold pattern checkPattern
  cases rule.value? with
  | none => exact .pure true
  | some p =>
    cases hcompile : Pattern.compile p with
    | error refusal =>
      simp only [hcompile]
      exact .throw _ [] _
    | ok node =>
      simp only [hcompile]
      exact expect_tests path .patternUnmatched (node.finds t)

end Convert

end DocShape
