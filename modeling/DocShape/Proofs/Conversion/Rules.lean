import DocShape.Proofs.Listing.Conversion
import DocShape.Proofs.Number.Exact
import DocShape.Proofs.Schema.TypedForm
import DocShape.Proofs.Text.Digits

/-!
# Rules by exact values

What the rules on single nodes ask for, said about the numbers that bounds and lengths stand for:
`Limit.Precedes` and `Limit.Follows` for bounds, `LengthRule.Admits` for lengths, `Pattern.FoundIn` for
patterns. A rule yields nothing where this holds and one error where it does not, or breaks the walk
off for a reason that is known beforehand (`Finding.Verdict`): a bound that is to be shown has too many
digits, or a pattern cannot be used.
-/

namespace DocShape

/-! ## Integers that can be shown -/

namespace Text

theorem ofNat_length_le {n k : Nat} (h : n < 10 ^ (k + 1)) : (ofNat n).length ≤ k + 1 := by
  induction k generalizing n with
  | zero =>
    rw [ofNat_of_lt (by simpa using h)]
    rfl
  | succ k ih =>
    by_cases hn : n < 10
    · rw [ofNat_of_lt hn]
      simp
    · have hdiv : n / 10 < 10 ^ (k + 1) := by
        rw [Nat.pow_succ] at h
        omega
      have hsplit : ofNat (n / 10) ++ ofNat (n % 10) = ofNat n := by
        rw [ofNat_append (by omega) (by omega), Nat.div_add_mod]
      have hlast : (ofNat (n % 10)).length = 1 := by
        rw [ofNat_of_lt (by omega)]
        rfl
      rw [← hsplit, List.length_append, hlast]
      exact Nat.add_le_add_right (ih hdiv) 1

/-- Three bits take no more than a digit. -/
theorem ofNat_length_le_of_bits {n k : Nat} (h : n < 2 ^ (3 * (k + 1))) :
    (ofNat n).length ≤ k + 1 := by
  rw [Nat.pow_mul] at h
  exact ofNat_length_le (h.trans_le (Nat.pow_le_pow_left (by decide) _))

end Text

namespace Magnitude

theorem floor_lt (m : Magnitude) {k : Nat} (hk : 1024 ≤ k) : m.floor < 2 ^ k := by
  have hunits : m.units < 2 ^ (unitBits + k) := by
    refine (limit_eq ▸ m.representable.1).trans_le (Nat.pow_le_pow_right (by decide) ?_)
    rw [limitBits, Nat.add_comm]
    exact Nat.add_le_add_left hk _
  have hsplit : 2 ^ (unitBits + k) = unitsPerOne * 2 ^ k := by
    unfold unitsPerOne
    generalize unitBits = bits
    exact Nat.pow_add 2 bits k
  exact Nat.div_lt_of_lt_mul (hsplit ▸ hunits)

/-- The whole part of a double is within the digit limit. -/
theorem hasDigits_floor (m : Magnitude) : Text.HasDigits m.floor := by
  have hfloor : m.floor < 2 ^ (3 * (4299 + 1)) := m.floor_lt (by decide)
  rw [Text.HasDigits, Int.natAbs_natCast]
  exact Text.ofNat_length_le_of_bits hfloor

end Magnitude

/-! ## Verdicts -/

/-- What a rule on the node at a path comes to: nothing where it holds, an error where it does not, or
a reason to break off. -/
inductive Finding.Verdict (path : Path) (holds : Prop) (halts : Failure → Prop) :
    List Finding → Prop
  | passed (h : holds) (free : ∀ f, ¬ halts f) : Verdict path holds halts []
  | failed (cause : Mismatch) (h : ¬ holds) (free : ∀ f, ¬ halts f) :
    Verdict path holds halts [.mismatch path cause]
  | halted (f : Failure) (h : halts f) (only : ∀ g, halts g → g = f) :
    Verdict path holds halts [.halt f]

namespace Finding.Verdict

variable {path : Path} {holds : Prop} {halts : Failure → Prop} {fs : List Finding}

theorem holds_of_nil (h : Verdict path holds halts fs) (hfs : fs = []) : holds := by
  cases h with
  | passed h _ => exact h
  | _ => cases hfs

theorem eq_nil (h : Verdict path holds halts fs) (hholds : holds)
    (hfree : ∀ f, .halt f ∉ fs) : fs = [] := by
  cases h with
  | passed => rfl
  | failed _ hnot _ => exact absurd hholds hnot
  | halted f _ _ => exact absurd List.mem_cons_self (hfree f)

theorem halt_mem_iff (h : Verdict path holds halts fs) {f : Failure} :
    .halt f ∈ fs ↔ halts f := by
  cases h with
  | passed _ free => exact iff_of_false List.not_mem_nil (free f)
  | failed cause _ free =>
    refine iff_of_false (fun hmem => ?_) (free f)
    cases List.mem_singleton.1 hmem
  | halted g hg only =>
    refine ⟨fun hmem => ?_, fun hf => ?_⟩
    · cases List.mem_singleton.1 hmem
      exact hg
    · rw [only f hf]
      exact List.mem_singleton_self _

theorem congr {holds' : Prop} {halts' : Failure → Prop} (h : Verdict path holds halts fs)
    (hholds : holds ↔ holds') (hhalts : ∀ f, halts f ↔ halts' f) :
    Verdict path holds' halts' fs := by
  obtain rfl := propext hholds
  obtain rfl : halts = halts' := funext fun f => propext (hhalts f)
  exact h

end Finding.Verdict

/-! ## Bounds on numbers -/

namespace Number

theorem shown?_eq_none_iff {n : Number} (hn : n.isFinite = true) :
    n.shown? = none ↔ ∃ k, n = .int k ∧ ¬ Text.HasDigits k := by
  cases n with
  | int k =>
    rw [shown?, Text.ofIntLimited?_eq]
    by_cases hk : Text.HasDigits k <;> simp [hk]
  | float x =>
    refine iff_of_false (fun h => ?_) fun ⟨k, hk, _⟩ => by cases hk
    cases x with
    | finite negative m =>
      rw [shown?] at h
      split at h
      · cases negative <;> cases h
      · cases h
    | _ => cases hn

end Number

namespace Limit

/-- A lower bound allows a number. -/
def Precedes (l : Limit) (n : Number) : Prop :=
  if l.isExclusive = true then l.value.exact < n.exact else l.value.exact ≤ n.exact

/-- An upper bound allows a number. -/
def Follows (l : Limit) (n : Number) : Prop :=
  if l.isExclusive = true then n.exact < l.value.exact else n.exact ≤ l.value.exact

/-- A bound cannot be shown, which breaks the walk off. -/
def Unwritable (l : Limit) (f : Failure) : Prop :=
  (∃ k, l.value = .int k ∧ ¬ Text.HasDigits k) ∧ f = .unwritable .tooManyDigits

variable {l : Limit} {n : Number} {path : Path}

theorem verdict_of_test {holds : Prop} {test : Bool} (hl : l.value.isFinite = true)
    (htest : test = true ↔ holds) (cause : Text → Mismatch) :
    Finding.Verdict path holds l.Unwritable
      (match l.value.shown? with
        | none => [.halt (.unwritable .tooManyDigits)]
        | some shown => if test then [] else [.mismatch path (cause shown)]) := by
  cases hshown : l.value.shown? with
  | none =>
    exact .halted _ ⟨(Number.shown?_eq_none_iff hl).1 hshown, rfl⟩ fun g hg => hg.2
  | some shown =>
    have hfree : ∀ f, ¬ l.Unwritable f := fun f hf => by
      rw [(Number.shown?_eq_none_iff hl).2 hf.1] at hshown
      cases hshown
    dsimp only
    split
    · next h => exact .passed (htest.1 h) hfree
    · next h => exact .failed _ (fun hholds => h (htest.2 hholds)) hfree

theorem verdict_checkLeast (hl : l.value.isFinite = true) (hn : n.isFinite = true) :
    Finding.Verdict path (l.Precedes n) l.Unwritable (l.checkLeast path n) := by
  rw [checkLeast, Precedes]
  cases l.isExclusive with
  | true => exact verdict_of_test hl (Number.lt_iff hl hn) fun shown => .outOfBounds .above shown
  | false =>
    exact verdict_of_test hl (Number.le_iff hl hn) fun shown => .outOfBounds .atLeast shown

theorem verdict_checkMost (hl : l.value.isFinite = true) (hn : n.isFinite = true) :
    Finding.Verdict path (l.Follows n) l.Unwritable (l.checkMost path n) := by
  rw [checkMost, Follows]
  cases l.isExclusive with
  | true => exact verdict_of_test hl (Number.lt_iff hn hl) fun shown => .outOfBounds .below shown
  | false =>
    exact verdict_of_test hl (Number.le_iff hn hl) fun shown => .outOfBounds .atMost shown

end Limit

/-- A number against a lower bound that may be left out. -/
def leastFindings (path : Path) (n : Number) (minimum : Setting Limit) : List Finding :=
  match minimum.value? with
  | none => []
  | some l => l.checkLeast path n

/-- A number against an upper bound that may be left out. -/
def mostFindings (path : Path) (n : Number) (maximum : Setting Limit) : List Finding :=
  match maximum.value? with
  | none => []
  | some l => l.checkMost path n

section

variable {path : Path} {n : Number} {bound : Setting Limit} (hn : n.isFinite = true)
  (hbound : ∀ l, bound = .given l → l.value.isFinite = true)

include hn hbound

theorem verdict_leastFindings :
    Finding.Verdict path (∀ l, bound = .given l → l.Precedes n)
      (fun f => ∃ l, bound = .given l ∧ l.Unwritable f) (leastFindings path n bound) := by
  cases bound with
  | given l => exact (Limit.verdict_checkLeast (hbound l rfl) hn).congr (by simp) fun f => by simp
  | absent => exact .passed (fun l hl => by cases hl) fun f ⟨l, hl, _⟩ => by cases hl
  | null => exact .passed (fun l hl => by cases hl) fun f ⟨l, hl, _⟩ => by cases hl

theorem verdict_mostFindings :
    Finding.Verdict path (∀ l, bound = .given l → l.Follows n)
      (fun f => ∃ l, bound = .given l ∧ l.Unwritable f) (mostFindings path n bound) := by
  cases bound with
  | given l => exact (Limit.verdict_checkMost (hbound l rfl) hn).congr (by simp) fun f => by simp
  | absent => exact .passed (fun l hl => by cases hl) fun f ⟨l, hl, _⟩ => by cases hl
  | null => exact .passed (fun l hl => by cases hl) fun f ⟨l, hl, _⟩ => by cases hl

end

/-- A number that may have a fraction, or has none, is held against its bounds. -/
theorem convertNumber_of_number {d : Direction} {path : Path} {decimal : Bool}
    {minimum maximum : Setting Limit} {v : Value} {n : Number} (hv : v.finiteNumber? = some n)
    (hwhole : decimal = false → n.isIntegral = true) :
    convertNumber d path decimal minimum maximum v =
      .leaf v (leastFindings path n minimum ++ mostFindings path n maximum) := by
  have hfraction : ¬ (!decimal && !n.isIntegral) = true := by
    cases decimal with
    | true => simp
    | false => simp [hwhole rfl]
  simp only [convertNumber, hv, if_neg hfraction]
  rfl

theorem convertNumber_of_fraction {d : Direction} {path : Path} {minimum maximum : Setting Limit}
    {v : Value} {n : Number} (hv : v.finiteNumber? = some n) (hfraction : ¬ n.isIntegral = true) :
    convertNumber d path false minimum maximum v = .failed [.mismatch path .fractional] := by
  simp [convertNumber, hv, hfraction]

/-! ## Lengths -/

/-- A number that may be a length: finite and not negative. -/
def Number.IsLength (n : Number) : Prop := n.isFinite = true ∧ 0 ≤ n.exact

namespace LengthRule

/-- The numbers of a constraint may be lengths. -/
def IsMeasured : LengthRule → Prop
  | exactly n => n.IsLength
  | range r => (∀ n, r.minimum = .given n → n.IsLength) ∧ ∀ n, r.maximum = .given n → n.IsLength

/-- A constraint allows a length; fractions are cut off. -/
def Admits (size : Nat) : LengthRule → Prop
  | exactly n => (size : ℤ) = ⌊n.exact⌋
  | range r =>
    (∀ n, r.minimum = .given n → ⌊n.exact⌋ ≤ (size : ℤ)) ∧
      ∀ n, r.maximum = .given n → (size : ℤ) ≤ ⌊n.exact⌋

/-- A constraint does not allow a length, and says so with the bound that is the first to fail. -/
inductive Shows (size : Nat) : LengthRule → ℤ → Prop
  | exactly {n : Number} (h : (size : ℤ) ≠ ⌊n.exact⌋) : Shows size (.exactly n) ⌊n.exact⌋
  | minimum {r : LengthRange} {n : Number} (given : r.minimum = .given n)
    (h : (size : ℤ) < ⌊n.exact⌋) : Shows size (.range r) ⌊n.exact⌋
  | maximum {r : LengthRange} {n : Number}
    (least : ∀ m, r.minimum = .given m → ⌊m.exact⌋ ≤ (size : ℤ)) (given : r.maximum = .given n)
    (h : ⌊n.exact⌋ < (size : ℤ)) : Shows size (.range r) ⌊n.exact⌋

/-- The bound to be shown cannot be, which breaks the walk off. -/
def Unwritable (size : Nat) (rule : LengthRule) (f : Failure) : Prop :=
  (∃ k, rule.Shows size k ∧ ¬ Text.HasDigits k) ∧ f = .unwritable .tooManyDigits

variable {path : Path} {size : Nat}

/-- The verdict on one bound of a length. -/
theorem verdict_checkLengthBound {n : Number} (hn : n.IsLength) {test : Int → Bool}
    (cause : Text → Mismatch) :
    Finding.Verdict path (test ⌊n.exact⌋ = true)
      (fun f => (¬ test ⌊n.exact⌋ = true ∧ ¬ Text.HasDigits ⌊n.exact⌋) ∧
        f = .unwritable .tooManyDigits)
      (checkLengthBound n test fun shown => .mismatch path (cause shown)) := by
  rw [checkLengthBound, Number.truncate_of_nonneg hn.1 hn.2]
  dsimp only
  split
  · next h => exact .passed h fun f hf => hf.1.1 h
  · next h =>
    rw [Finding.quotingInt, Text.ofIntLimited?_eq]
    by_cases hdigits : Text.HasDigits ⌊n.exact⌋
    · rw [if_pos hdigits]
      exact .failed _ h fun f hf => hf.1.2 hdigits
    · rw [if_neg hdigits]
      exact .halted _ ⟨⟨h, hdigits⟩, rfl⟩ fun g hg => hg.2

theorem verdict_checkOptionalBound {bound : Setting Number}
    (hbound : ∀ n, bound = .given n → n.IsLength) {test : Int → Bool} (cause : Text → Mismatch) :
    Finding.Verdict path (∀ n, bound = .given n → test ⌊n.exact⌋ = true)
      (fun f => (∃ n, bound = .given n ∧ ¬ test ⌊n.exact⌋ = true ∧ ¬ Text.HasDigits ⌊n.exact⌋) ∧
        f = .unwritable .tooManyDigits)
      (checkOptionalBound bound test fun shown => .mismatch path (cause shown)) := by
  cases bound with
  | given n =>
    refine (verdict_checkLengthBound (hbound n rfl) cause).congr ?_ fun f => ?_
    · simp
    · simp
  | absent => exact .passed (fun n hn => by cases hn) fun f ⟨⟨n, hn, _⟩, _⟩ => by cases hn
  | null => exact .passed (fun n hn => by cases hn) fun f ⟨⟨n, hn, _⟩, _⟩ => by cases hn

/-- The verdict on a length. -/
theorem verdict_check {rule : LengthRule} (hrule : rule.IsMeasured) :
    Finding.Verdict path (rule.Admits size) (rule.Unwritable size) (rule.check path size) := by
  cases rule with
  | exactly n =>
    refine (verdict_checkLengthBound hrule fun shown => .lengthNot shown).congr
      decide_eq_true_iff fun f => and_congr_left fun _ => ?_
    rw [decide_eq_true_iff]
    constructor
    · rintro ⟨h, hdigits⟩
      exact ⟨_, .exactly h, hdigits⟩
    · rintro ⟨k, hk, hdigits⟩
      cases hk with
      | exactly h => exact ⟨h, hdigits⟩
  | range r =>
    have hleast : Finding.Verdict path _ _ (checkOptionalBound r.minimum
        (fun k => decide (k ≤ (size : ℤ))) fun shown =>
          .mismatch path (.lengthOutOfBounds .atLeast shown)) :=
      verdict_checkOptionalBound hrule.1 fun shown => .lengthOutOfBounds .atLeast shown
    have hmost : Finding.Verdict path _ _ (checkOptionalBound r.maximum
        (fun k => decide ((size : ℤ) ≤ k)) fun shown =>
          .mismatch path (.lengthOutOfBounds .atMost shown)) :=
      verdict_checkOptionalBound hrule.2 fun shown => .lengthOutOfBounds .atMost shown
    simp only [decide_eq_true_eq, not_le] at hleast hmost
    rw [check]
    generalize checkOptionalBound r.minimum _ _ = least at hleast
    cases hleast with
    | passed hmin _ =>
      -- the upper bound decides
      refine hmost.congr (and_iff_right hmin).symm fun f => and_congr_left fun _ => ?_
      constructor
      · rintro ⟨n, hn, hlt, hdigits⟩
        exact ⟨_, .maximum hmin hn hlt, hdigits⟩
      · rintro ⟨k, hk, hdigits⟩
        cases hk with
        | minimum hn hlt => exact absurd (hmin _ hn) (not_le.2 hlt)
        | maximum _ hn hlt => exact ⟨_, hn, hlt, hdigits⟩
    | failed cause hmin hfree =>
      refine .failed cause (fun h => hmin h.1) fun f hf => ?_
      obtain ⟨⟨k, hk, hdigits⟩, hf⟩ := hf
      cases hk with
      | minimum hn hlt => exact hfree f ⟨⟨_, hn, hlt, hdigits⟩, hf⟩
      | maximum hmin' => exact hmin hmin'
    | halted f hf _ =>
      obtain ⟨⟨n, hn, hlt, hdigits⟩, rfl⟩ := hf
      exact .halted _ ⟨⟨_, .minimum hn hlt, hdigits⟩, rfl⟩ fun g hg => hg.2

end LengthRule

/-- The verdict on a length that may be unconstrained. -/
theorem verdict_checkLength {path : Path} {size : Nat} {rule : Setting LengthRule}
    (hrule : ∀ r, rule = .given r → r.IsMeasured) :
    Finding.Verdict path (∀ r, rule = .given r → r.Admits size)
      (fun f => ∃ r, rule = .given r ∧ r.Unwritable size f) (checkLength path size rule) := by
  cases rule with
  | given r => exact (LengthRule.verdict_check (hrule r rfl)).congr (by simp) fun f => by simp
  | absent => exact .passed (fun r hr => by cases hr) fun f ⟨r, hr, _⟩ => by cases hr
  | null => exact .passed (fun r hr => by cases hr) fun f ⟨r, hr, _⟩ => by cases hr

/-! ## Patterns -/

/-- A pattern can be used, and is found in a text. -/
def Pattern.FoundIn [Host] (pattern t : Text) : Prop :=
  ∃ node, Pattern.compile pattern = .ok node ∧ node.finds t = true

/-- The verdict on a text that may be looked through for a pattern. -/
theorem verdict_checkPattern [Host] {path : Path} {t : Text} {pattern : Setting Text} :
    Finding.Verdict path (∀ p, pattern = .given p → Pattern.FoundIn p t)
      (fun f => ∃ p refusal, pattern = .given p ∧ Pattern.compile p = .error refusal ∧
        f = refusal.failure path) (checkPattern path t pattern) := by
  cases pattern with
  | given p =>
    cases hread : Pattern.compile p with
    | error refusal =>
      have hcheck : checkPattern path t (.given p) = [.halt (refusal.failure path)] := by
        simp only [checkPattern, Setting.value?, hread]
      rw [hcheck]
      refine .halted _ ⟨p, refusal, rfl, hread, rfl⟩ ?_
      rintro g ⟨q, refusal', hq, hread', rfl⟩
      cases hq
      rw [Except.error.inj (hread.symm.trans hread')]
    | ok node =>
      have hcheck : checkPattern path t (.given p) =
          if node.finds t then [] else [.mismatch path .patternUnmatched] := by
        simp only [checkPattern, Setting.value?, hread]
      have hfree : ∀ f, ¬ ∃ q refusal, Setting.given p = .given q ∧
          Pattern.compile q = .error refusal ∧ f = refusal.failure path := by
        rintro f ⟨q, refusal, hq, hread', -⟩
        cases hq
        cases hread.symm.trans hread'
      rw [hcheck]
      split
      · next hfinds =>
        refine .passed (fun q hq => ?_) hfree
        cases hq
        exact ⟨node, hread, hfinds⟩
      · next hfinds =>
        refine .failed _ (fun hfound => ?_) hfree
        obtain ⟨node', hread', hfinds'⟩ := hfound p rfl
        rw [Except.ok.inj (hread.symm.trans hread')] at hfinds
        exact hfinds hfinds'
  | absent => exact .passed (fun p hp => by cases hp) fun f ⟨p, _, hp, _⟩ => by cases hp
  | null => exact .passed (fun p hp => by cases hp) fun f ⟨p, _, hp, _⟩ => by cases hp

end DocShape
