import DocShape.Conversion.Rule
import DocShape.Proofs.Number.Rounding
import Mathlib.Algebra.Order.Floor.Ring
import Mathlib.Data.Rat.Floor

/-!
# Exact values of numbers

`Number.exact` is the rational number that an integer or a finite double stands for. Comparing,
testing for a fraction and cutting to an integer are done in units of a double, and come to the same
on the line of rational numbers (`le_iff`, `lt_iff`, `isIntegral_iff`, `truncate_of_nonneg`).
-/

namespace DocShape

namespace Number

/-- The rational number that a finite number stands for. -/
def exact : Number → ℚ
  | int n => n
  | float x => (x.units?.getD 0 : ℚ) / Magnitude.unitsPerOne

/-- How many units of a double a finite number has. -/
def units : Number → Int
  | int n => n * Magnitude.unitsPerOne
  | float x => x.units?.getD 0

theorem unitsPerOne_cast_pos : (0 : ℚ) < Magnitude.unitsPerOne :=
  Nat.cast_pos.2 Magnitude.unitsPerOne_pos

variable {a b n : Number}

theorem exact_eq_units_div (n : Number) : n.exact = n.units / Magnitude.unitsPerOne := by
  cases n with
  | int n =>
    rw [exact, units, Int.cast_mul, Int.cast_natCast,
      mul_div_cancel_right₀ _ unitsPerOne_cast_pos.ne']
  | float x => rfl

theorem exact_le_exact : a.exact ≤ b.exact ↔ a.units ≤ b.units := by
  rw [exact_eq_units_div, exact_eq_units_div, div_le_div_iff_of_pos_right unitsPerOne_cast_pos,
    Int.cast_le]

theorem place?_of_isFinite (h : n.isFinite = true) : n.place? = some (.point n.units) := by
  cases n with
  | int n => rfl
  | float x =>
    cases x with
    | finite negative m => cases negative <;> rfl
    | _ => cases h

/-- Numbers are compared by their exact values. -/
theorem le_iff (ha : a.isFinite = true) (hb : b.isFinite = true) :
    a.le b = true ↔ a.exact ≤ b.exact := by
  have hunits : (Place.point a.units).le (.point b.units) = true ↔ a.exact ≤ b.exact := by
    rw [exact_le_exact]
    exact decide_eq_true_iff
  cases a with
  | int m =>
    cases b with
    | int n =>
      rw [le, decide_eq_true_iff]
      exact Int.cast_le.symm
    | float y =>
      simp only [le, place?_of_isFinite ha, place?_of_isFinite hb]
      exact hunits
  | float x =>
    simp only [le, place?_of_isFinite ha, place?_of_isFinite hb]
    exact hunits

theorem lt_iff (ha : a.isFinite = true) (hb : b.isFinite = true) :
    a.lt b = true ↔ a.exact < b.exact := by
  rw [lt, Bool.and_eq_true, Bool.not_eq_true', ← Bool.not_eq_true, le_iff ha hb, le_iff hb ha,
    lt_iff_le_not_ge]

/-- A number has no fraction when it stands for an integer. -/
theorem isIntegral_iff (h : n.isFinite = true) :
    n.isIntegral = true ↔ ∃ k : ℤ, n.exact = k := by
  cases n with
  | int n => exact ⟨fun _ => ⟨n, rfl⟩, fun _ => rfl⟩
  | float x =>
    cases x with
    | finite negative m =>
      have hunits : (∃ k : ℤ, (float (.finite negative m)).exact = k) ↔
          (Magnitude.unitsPerOne : ℤ) ∣ (float (.finite negative m)).units := by
        rw [exact_eq_units_div]
        constructor
        · rintro ⟨k, hk⟩
          rw [div_eq_iff unitsPerOne_cast_pos.ne'] at hk
          exact ⟨k, by rw [mul_comm]; exact_mod_cast hk⟩
        · rintro ⟨k, hk⟩
          exact ⟨k, by rw [hk, div_eq_iff unitsPerOne_cast_pos.ne']; push_cast; ring⟩
      rw [hunits, isIntegral, Binary64.isIntegral, decide_eq_true_iff, Magnitude.IsIntegral]
      cases negative with
      | false => exact Int.natCast_dvd_natCast.symm
      | true => exact Int.natCast_dvd_natCast.symm.trans Int.dvd_neg.symm
    | _ => cases h

/-- Cutting a number that is not negative gives the largest integer below it. -/
theorem truncate_of_nonneg (h : n.isFinite = true) (hn : 0 ≤ n.exact) :
    n.truncate = .ok ⌊n.exact⌋ := by
  cases n with
  | int n => rw [truncate, exact, Int.floor_intCast]
  | float x =>
    cases x with
    | finite negative m =>
      have hfloor : ⌊(m.units : ℚ) / Magnitude.unitsPerOne⌋ = m.floor :=
        Rat.floor_natCast_div_natCast m.units Magnitude.unitsPerOne
      cases negative with
      | false =>
        rw [exact, Binary64.units?, Option.getD_some, Int.cast_natCast, hfloor]
        rfl
      | true =>
        -- only a zero with a sign is not negative
        have hzero : m.units = 0 := by
          rw [exact, Binary64.units?, Option.getD_some, le_div_iff₀ unitsPerOne_cast_pos,
            zero_mul] at hn
          have : (0 : ℤ) ≤ -(m.units : ℤ) := by exact_mod_cast hn
          omega
        have hexact : (float (.finite true m)).exact = 0 := by
          rw [exact, Binary64.units?, Option.getD_some, hzero, Nat.cast_zero, neg_zero,
            Int.cast_zero, zero_div]
        have hwhole : m.floor = 0 := by rw [Magnitude.floor, hzero, Nat.zero_div]
        rw [hexact, Int.floor_zero, truncate]
        · rw [Binary64.truncate?, hwhole]
          rfl
        · intro h; cases h
        · intro _ h; cases h
    | _ => cases h

end Number

end DocShape
