import DocShape.Conversion.Rule
import DocShape.Proofs.Conversion.Rules
import DocShape.Proofs.Number.Exact

/-!
# Numbers in reduced form

A double without a fraction stands for an integer, and `Number.reduced` is that integer. Finite numbers
have one reduced form exactly if they have one exact value (`reduced_eq_iff`). Nothing that the rules
ask of a number tells it from its reduced form: comparing, testing for a fraction, cutting to an
integer, and showing.
-/

namespace DocShape

namespace Number

/-- An integer in place of a double without a fraction. -/
def reduced : Number → Number
  | int n => int n
  | float x => if x.isIntegral then int (x.truncate?.getD 0) else float x

theorem reduced_of_fraction {x : Binary64} (h : x.isIntegral = false) :
    (float x).reduced = float x := by
  rw [reduced, h, if_neg Bool.false_ne_true]

/-- What a double without a fraction is: a whole part with a sign. -/
theorem exists_of_isIntegral {x : Binary64} (h : x.isIntegral = true) :
    ∃ negative m, x = .finite negative m ∧ (m.floor * Magnitude.unitsPerOne = m.units) ∧
      (float x).reduced = int (if negative then -(m.floor : ℤ) else m.floor) := by
  have hreduced : (float x).reduced = int (x.truncate?.getD 0) := by rw [reduced, if_pos h]
  cases x with
  | nan => cases h
  | infinite negative => cases h
  | finite negative m =>
    have hdvd : Magnitude.unitsPerOne ∣ m.units := of_decide_eq_true h
    refine ⟨negative, m, rfl, Nat.div_mul_cancel hdvd, ?_⟩
    rw [hreduced]
    cases negative <;> rfl

/-! ## The line -/

@[simp] theorem place?_reduced (n : Number) : n.reduced.place? = n.place? := by
  cases n with
  | int n => rfl
  | float x =>
    cases h : x.isIntegral with
    | false => rw [reduced_of_fraction h]
    | true =>
      obtain ⟨negative, m, rfl, hunits, hreduced⟩ := exists_of_isIntegral h
      have hcast : (m.floor : ℤ) * Magnitude.unitsPerOne = m.units := by exact_mod_cast hunits
      rw [hreduced]
      cases negative with
      | false =>
        show some (Place.point ((m.floor : ℤ) * Magnitude.unitsPerOne)) = some (.point m.units)
        rw [hcast]
      | true =>
        show some (Place.point (-(m.floor : ℤ) * Magnitude.unitsPerOne)) = some (.point (-m.units))
        rw [Int.neg_mul, hcast]

/-- Two integers are compared by their places too. -/
theorem le_eq_place (a b : Number) :
    a.le b = match a.place?, b.place? with
      | some p, some q => p.le q
      | _, _ => false := by
  cases a with
  | int m =>
    cases b with
    | int n =>
      have hpos : (0 : ℤ) < Magnitude.unitsPerOne := Int.natCast_pos.2 Magnitude.unitsPerOne_pos
      show decide (m ≤ n) = decide (m * (Magnitude.unitsPerOne : ℤ) ≤ n * Magnitude.unitsPerOne)
      exact decide_eq_decide.2 (Int.mul_le_mul_right hpos).symm
    | float y => rfl
  | float x => rfl

variable (a b n : Number)

@[simp] theorem le_reduced_left : a.reduced.le b = a.le b := by
  rw [le_eq_place, le_eq_place, place?_reduced]

@[simp] theorem le_reduced_right : a.le b.reduced = a.le b := by
  rw [le_eq_place, le_eq_place, place?_reduced]

@[simp] theorem lt_reduced_left : a.reduced.lt b = a.lt b := by
  rw [lt, lt, le_reduced_left, le_reduced_right]

@[simp] theorem lt_reduced_right : a.lt b.reduced = a.lt b := by
  rw [lt, lt, le_reduced_left, le_reduced_right]

end Number

theorem Place.le_trans {p q r : Place} (h : p.le q = true) (h' : q.le r = true) : p.le r = true := by
  cases p with
  | belowAll => rfl
  | aboveAll =>
    cases q with
    | aboveAll => exact h'
    | _ => cases h
  | point a =>
    cases r with
    | aboveAll => rfl
    | belowAll =>
      cases q with
      | belowAll => exact h
      | _ => cases h'
    | point c =>
      cases q with
      | point b => exact decide_eq_true (Int.le_trans (of_decide_eq_true h) (of_decide_eq_true h'))
      | belowAll => cases h
      | aboveAll => cases h'

namespace Number

variable {a b c n : Number}

theorem le_trans (h : a.le b = true) (h' : b.le c = true) : a.le c = true := by
  rw [le_eq_place] at h h' ⊢
  split at h
  · next p q hp hq =>
    rw [hp]
    rw [hq] at h'
    cases hr : c.place? with
    | none => rw [hr] at h'; cases h'
    | some r =>
      rw [hr] at h'
      exact Place.le_trans h h'
  · cases h

theorem lt_of_lt_of_le (h : a.lt b = true) (h' : b.le c = true) : a.lt c = true := by
  rw [lt, Bool.and_eq_true, Bool.not_eq_true'] at h ⊢
  refine ⟨le_trans h.1 h', Bool.eq_false_iff.2 fun hca => ?_⟩
  rw [le_trans h' hca] at h
  cases h.2

theorem lt_of_le_of_lt (h : a.le b = true) (h' : b.lt c = true) : a.lt c = true := by
  rw [lt, Bool.and_eq_true, Bool.not_eq_true'] at h' ⊢
  refine ⟨le_trans h h'.1, Bool.eq_false_iff.2 fun hca => ?_⟩
  rw [le_trans hca h] at h'
  cases h'.2

/-! ## Other questions -/

@[simp] theorem isFinite_reduced (n : Number) : n.reduced.isFinite = n.isFinite := by
  cases n with
  | int n => rfl
  | float x =>
    cases h : x.isIntegral with
    | false => rw [reduced_of_fraction h]
    | true =>
      obtain ⟨negative, m, rfl, -, hreduced⟩ := exists_of_isIntegral h
      rw [hreduced]
      rfl

@[simp] theorem isIntegral_reduced (n : Number) : n.reduced.isIntegral = n.isIntegral := by
  cases n with
  | int n => rfl
  | float x =>
    cases h : x.isIntegral with
    | false => rw [reduced_of_fraction h]
    | true =>
      rw [reduced, if_pos h]
      exact h.symm

@[simp] theorem truncate_reduced (n : Number) : n.reduced.truncate = n.truncate := by
  cases n with
  | int n => rfl
  | float x =>
    cases h : x.isIntegral with
    | false => rw [reduced_of_fraction h]
    | true =>
      obtain ⟨negative, m, rfl, -, hreduced⟩ := exists_of_isIntegral h
      rw [hreduced]
      cases negative <;> rfl

@[simp] theorem shown?_reduced (n : Number) : n.reduced.shown? = n.shown? := by
  cases n with
  | int n => rfl
  | float x =>
    cases h : x.isIntegral with
    | false => rw [reduced_of_fraction h]
    | true =>
      obtain ⟨negative, m, rfl, -, hreduced⟩ := exists_of_isIntegral h
      have hdigits (k : ℤ) (hk : k.natAbs = m.floor) : Text.ofIntLimited? k = some (Text.ofInt k) := by
        have hk : Text.HasDigits k := by
          rw [Text.HasDigits, hk, ← Int.natAbs_natCast m.floor]
          exact m.hasDigits_floor
        rw [Text.ofIntLimited?_eq, if_pos hk]
      rw [hreduced, shown?, shown?, if_pos h]
      cases negative with
      | false => exact hdigits _ (Int.natAbs_natCast _)
      | true => exact hdigits _ ((Int.natAbs_neg _).trans (Int.natAbs_natCast _))

@[simp] theorem reduced_reduced (n : Number) : n.reduced.reduced = n.reduced := by
  cases n with
  | int n => rfl
  | float x =>
    cases h : x.isIntegral with
    | false => rw [reduced_of_fraction h, reduced_of_fraction h]
    | true => rw [reduced, if_pos h, reduced]

/-! ## Exact values -/

theorem exact_reduced (h : n.isFinite = true) : n.reduced.exact = n.exact := by
  have hplace := place?_reduced n
  rw [place?_of_isFinite h, place?_of_isFinite (by rwa [isFinite_reduced]), Option.some_inj,
    Place.point.injEq] at hplace
  rw [exact_eq_units_div, exact_eq_units_div, hplace]

/-- Doubles with a fraction are equal if they have one exact value: only a zero has two signs. -/
theorem eq_of_exact_eq {x y : Binary64} (hx : x.isFinite = true) (hy : y.isFinite = true)
    (hfraction : x.isIntegral = false) (h : (float x).exact = (float y).exact) : x = y := by
  have hunits : (float x).units = (float y).units := by
    rw [exact_eq_units_div, exact_eq_units_div, div_left_inj' unitsPerOne_cast_pos.ne',
      Int.cast_inj] at h
    exact h
  cases x with
  | finite s m =>
    cases y with
    | finite t k =>
      have hpos : m.units ≠ 0 := fun hzero => by
        have hdvd : m.IsIntegral := by
          rw [Magnitude.IsIntegral, hzero]
          exact Nat.dvd_zero _
        rw [Binary64.isIntegral, decide_eq_true hdvd] at hfraction
        cases hfraction
      have hsame : s = t ∧ m.units = k.units := by
        cases s <;> cases t <;> simp only [units, Binary64.units?, Option.getD_some] at hunits <;>
          simp only [reduceCtorEq, true_and, false_and] <;> omega
      obtain ⟨rfl, hmagnitude⟩ := hsame
      obtain rfl : m = k := by
        cases m
        cases k
        exact (Magnitude.mk.injEq ..).mpr hmagnitude
      rfl
    | _ => cases hy
  | _ => cases hx

/-- Finite numbers have one reduced form if and only if they have one exact value. -/
theorem reduced_eq_iff (ha : a.isFinite = true) (hb : b.isFinite = true) :
    a.reduced = b.reduced ↔ a.exact = b.exact := by
  have hint {n : Number} (hn : n.isIntegral = true) : ∃ k, n.reduced = int k := by
    cases n with
    | int k => exact ⟨k, rfl⟩
    | float x =>
      obtain ⟨negative, m, -, -, hreduced⟩ := exists_of_isIntegral hn
      exact ⟨_, hreduced⟩
  constructor
  · intro h
    rw [← exact_reduced ha, h, exact_reduced hb]
  intro h
  have hsame : a.isIntegral = b.isIntegral := by
    rw [Bool.eq_iff_iff, isIntegral_iff ha, isIntegral_iff hb, h]
  rw [← exact_reduced ha, ← exact_reduced hb] at h
  cases hintegral : b.isIntegral with
  | true =>
    obtain ⟨k, hk⟩ := hint (hsame.trans hintegral)
    obtain ⟨l, hl⟩ := hint hintegral
    rw [hk, hl] at h ⊢
    exact congrArg int (Int.cast_inj.1 h)
  | false =>
    rw [hintegral] at hsame
    cases a with
    | int k => cases hsame
    | float x =>
      cases b with
      | int l => cases hintegral
      | float y =>
        rw [reduced_of_fraction hsame, reduced_of_fraction hintegral] at h ⊢
        exact congrArg float (eq_of_exact_eq ha hb hsame h)

end Number

end DocShape
