import DocShape.Proofs.Number.Rounding
import Mathlib.Algebra.Order.Field.Basic
import Mathlib.Data.Rat.Defs
import Mathlib.Tactic.Positivity
import Mathlib.Tactic.Ring

/-!
# The range of doubles

Rounding gives a double up to the middle between the largest double and `2^1024`, where the tie goes
to the even neighbour that is no double any more. `Magnitude.overflow` is that middle, and a numeral is
within range exactly if it stands for less (`Binary64.isFinite_ofDecimal_iff`).
-/

namespace DocShape

/-- Quotients are rounded to at most an odd number up to the tie above it, which goes to its even
neighbour. -/
theorem roundHalfEven_le_iff {num den p : Nat} (hden : 0 < den) (hodd : p % 2 = 1) :
    roundHalfEven num den ≤ p ↔ 2 * num < (2 * p + 1) * den := by
  have hnum : den * (num / den) + num % den = num := Nat.div_add_mod num den
  have hrem : num % den < den := Nat.mod_lt _ hden
  simp only [roundHalfEven]
  generalize num / den = q at hnum ⊢
  generalize num % den = r at hnum hrem ⊢
  have hmul : (2 * p + 1) * den = 2 * (den * p) + den := by ring
  rw [hmul, ← hnum]
  rcases Nat.lt_trichotomy q p with hq | rfl | hq
  · have hle : den * (q + 1) ≤ den * p := Nat.mul_le_mul_left _ hq
    rw [Nat.mul_add, Nat.mul_one] at hle
    refine iff_of_true ?_ (by omega)
    split
    · omega
    · split <;> omega
  · constructor
    · intro h
      split at h
      · omega
      · split at h <;> omega
    · intro h
      rw [if_pos (by omega)]
  · have hle : den * (p + 1) ≤ den * q := Nat.mul_le_mul_left _ hq
    rw [Nat.mul_add, Nat.mul_one] at hle
    refine iff_of_false ?_ (by omega)
    split
    · omega
    · split <;> omega

theorem roundHalfEven_le (num den : Nat) : roundHalfEven num den ≤ num / den + 1 := by
  simp only [roundHalfEven]
  split
  · exact Nat.le_succ _
  · split <;> omega

namespace Magnitude

/-- Doubles near `units` have 53 significant bits. -/
theorem div_spacing_lt (units : Nat) : units / Nat.pow 2 (spacing units) < 2 ^ 53 := by
  rw [Nat.pow_eq, Nat.div_lt_iff_lt_mul (Nat.pow_pos Nat.two_pos), ← Nat.pow_add]
  refine Nat.lt_of_lt_of_le Nat.lt_log2_self (Nat.pow_le_pow_right Nat.two_pos ?_)
  rw [spacing]
  omega

/-- A multiple of some spacing with at most 53 bits is a multiple of its own spacing. -/
theorem spacing_dvd {q s : Nat} (hq : q ≤ 2 ^ 53) :
    Nat.pow 2 (spacing (q * 2 ^ s)) ∣ q * 2 ^ s := by
  rw [Nat.pow_eq]
  rcases Nat.lt_or_ge q (2 ^ 53) with hlt | hge
  · -- fewer bits: the spacing is no larger
    refine Nat.dvd_trans (Nat.pow_dvd_pow 2 ?_) (Nat.dvd_mul_left _ _)
    rcases Nat.eq_zero_or_pos q with rfl | hpos
    · simp [spacing]
    · have hlog : (q * 2 ^ s).log2 < 53 + s := by
        rw [Nat.log2_lt (by positivity), Nat.pow_add]
        exact Nat.mul_lt_mul_of_pos_right hlt (by positivity)
      rw [spacing]
      omega
  · -- the carry gives a power of two
    rw [Nat.le_antisymm hq hge, ← Nat.pow_add, spacing, Nat.log2_two_pow]
    exact Nat.pow_dvd_pow 2 (by omega)

/-- The first quotient, in units, that is rounded beyond the doubles. -/
def overflow : Nat := (2 ^ 54 - 1) * 2 ^ (limitBits - 54)

/-- The limit and the overflow in terms of the largest significand, whose power stays a variable so that
nothing computes it. -/
theorem exists_largest : ∃ p k, p + 1 = 2 ^ 53 ∧ limit = 2 ^ (54 + k) ∧
    overflow = (2 * p + 1) * 2 ^ k := by
  have hodd : 2 * (2 ^ 53 - 1) + 1 = 2 ^ 54 - 1 := by norm_num
  refine ⟨2 ^ 53 - 1, limitBits - 54, by norm_num, ?_, ?_⟩
  · rw [limit_eq, Nat.add_sub_cancel' (by decide)]
  · rw [overflow, hodd]

theorem ofUnits?_isSome_iff {units : Nat} : (ofUnits? units).isSome = true ↔ Representable units := by
  rw [ofUnits?]
  split
  · next h => exact iff_of_true rfl h
  · next h => exact iff_of_false (fun h => by cases h) h

/-- What a quotient is rounded to has at most 53 bits, so only the limit matters. -/
theorem representable_round_iff {n den : Nat} :
    Representable (roundHalfEven n (den * 2 ^ spacing (n / den)) * 2 ^ spacing (n / den)) ↔
      roundHalfEven n (den * 2 ^ spacing (n / den)) * 2 ^ spacing (n / den) < limit := by
  refine and_iff_left (spacing_dvd ?_)
  have hbits := div_spacing_lt (n / den)
  rw [Nat.pow_eq, Nat.div_div_eq_div_mul] at hbits
  have hround := roundHalfEven_le n (den * 2 ^ spacing (n / den))
  omega

section NearLimit

variable {n den k : Nat}

/-- A quotient below half the limit is rounded to less than the limit. -/
theorem round_lt_of_small (h : n / den < 2 ^ (53 + k)) :
    roundHalfEven n (den * 2 ^ spacing (n / den)) * 2 ^ spacing (n / den) < 2 ^ (54 + k) := by
  have hround := roundHalfEven_le n (den * 2 ^ spacing (n / den))
  rw [← Nat.div_div_eq_div_mul] at hround
  generalize n / den = u at h hround ⊢
  have hspacing : 2 ^ spacing u ≤ 2 ^ k := by
    refine Nat.pow_le_pow_right Nat.two_pos ?_
    rcases Nat.eq_zero_or_pos u with rfl | hpos
    · exact Nat.zero_le _
    · have hlog := (Nat.log2_lt (Nat.pos_iff_ne_zero.1 hpos)).2 h
      rw [spacing]
      omega
  calc roundHalfEven n (den * 2 ^ spacing u) * 2 ^ spacing u
      ≤ (u / 2 ^ spacing u + 1) * 2 ^ spacing u := Nat.mul_le_mul_right _ hround
    _ = u / 2 ^ spacing u * 2 ^ spacing u + 2 ^ spacing u := by rw [Nat.add_mul, Nat.one_mul]
    _ ≤ u + 2 ^ k := Nat.add_le_add (Nat.div_mul_le_self _ _) hspacing
    _ < 2 ^ (53 + k) + 2 ^ (53 + k) :=
      Nat.add_lt_add_of_lt_of_le h (Nat.pow_le_pow_right Nat.two_pos (by omega))
    _ = 2 ^ (54 + k) := by
      rw [← Nat.two_mul, ← Nat.pow_succ', Nat.succ_eq_add_one, Nat.add_right_comm]

/-- A quotient below half the limit is below the overflow. -/
theorem lt_overflow_of_small {p : Nat} (hp : p + 1 = 2 ^ 53) (hden : 0 < den)
    (h : n / den < 2 ^ (53 + k)) : n < (2 * p + 1) * 2 ^ k * den := by
  calc n < (n / den + 1) * den := Nat.lt_mul_of_div_lt (Nat.lt_succ_self _) hden
    _ ≤ 2 ^ (53 + k) * den := Nat.mul_le_mul_right _ h
    _ ≤ (2 * p + 1) * 2 ^ k * den := by
      rw [Nat.pow_add, ← hp]
      exact Nat.mul_le_mul_right _ (Nat.mul_le_mul_right _ (by omega))

/-- Up to the limit the spacing is that of the largest doubles, and rounding carries to the limit from
the overflow on. -/
theorem round_lt_iff_of_large {p : Nat} (hp : p + 1 = 2 ^ 53) (hden : 0 < den)
    (hge : 2 ^ (53 + k) ≤ n / den) (hlt : n / den < 2 ^ (54 + k)) :
    roundHalfEven n (den * 2 ^ spacing (n / den)) * 2 ^ spacing (n / den) < 2 ^ (54 + k) ↔
      n < (2 * p + 1) * 2 ^ k * den := by
  have hspacing : spacing (n / den) = 1 + k := by
    have hne : n / den ≠ 0 := Nat.ne_of_gt (Nat.lt_of_lt_of_le (Nat.pow_pos Nat.two_pos) hge)
    have hlog : (n / den).log2 = 53 + k :=
      (Nat.log2_eq_iff hne).2 ⟨hge, by rw [Nat.add_right_comm]; exact hlt⟩
    rw [spacing, hlog]
    omega
  have hpow : 0 < 2 ^ (1 + k) := Nat.pow_pos Nat.two_pos
  have hlimit : 2 ^ (54 + k) = (p + 1) * 2 ^ (1 + k) := by
    rw [hp, ← Nat.pow_add, ← Nat.add_assoc]
  have htwice : (2 * p + 1) * (den * 2 ^ (1 + k)) = 2 * ((2 * p + 1) * 2 ^ k * den) := by
    rw [Nat.pow_add]
    ring
  have hodd : p % 2 = 1 := by omega
  rw [hspacing, hlimit, Nat.mul_lt_mul_right hpow, Nat.lt_succ_iff,
    roundHalfEven_le_iff (Nat.mul_pos hden hpow) hodd, htwice, Nat.mul_lt_mul_left Nat.two_pos]

end NearLimit

theorem overflow_le_limit : overflow ≤ limit := by
  obtain ⟨p, k, hp, hlimit, hoverflow⟩ := exists_largest
  rw [hlimit, hoverflow, Nat.pow_add]
  exact Nat.mul_le_mul_right _ (by omega)

/-- A quotient has a nearest double exactly if it is below the overflow. -/
theorem ofRatio?_isSome_iff {num den : Nat} (hden : 0 < den) :
    (ofRatio? num den).isSome = true ↔ num * unitsPerOne < overflow * den := by
  rcases Nat.lt_or_ge (num * unitsPerOne / den) limit with hlt | hge
  · simp only [ofRatio?, ofUnits?_isSome_iff, Nat.pow_eq, representable_round_iff]
    generalize num * unitsPerOne = n at hlt ⊢
    obtain ⟨p, k, hp, hlimit, hoverflow⟩ := exists_largest
    rw [hlimit] at hlt ⊢
    rw [hoverflow]
    rcases Nat.lt_or_ge (n / den) (2 ^ (53 + k)) with hsmall | hlarge
    · exact iff_of_true (round_lt_of_small hsmall) (lt_overflow_of_small hp hden hsmall)
    · exact round_lt_iff_of_large hp hden hlarge hlt
  · have hlarge := (Nat.le_div_iff_mul_le hden).1 hge
    rw [ofRatio?_of_large hden hlarge]
    refine iff_of_false (fun h => by cases h) (Nat.not_lt.2 (Nat.le_trans ?_ hlarge))
    exact Nat.mul_le_mul_right _ overflow_le_limit

theorem cast_overflow : (overflow : ℚ) = (2 ^ 1024 - 2 ^ 970) * unitsPerOne := by
  -- the powers stay variables here too
  have hsplit : limitBits - 54 = 970 + unitBits := by decide
  have hunits : unitsPerOne = 2 ^ unitBits := by
    unfold unitsPerOne
    generalize unitBits = b
    rfl
  have hexp : 1024 = 54 + 970 := rfl
  rw [overflow, hsplit, hunits, hexp]
  generalize unitBits = b
  generalize 970 = a
  rw [Nat.cast_mul, Nat.cast_sub (Nat.one_le_two_pow), pow_add, pow_add]
  push_cast
  ring

end Magnitude

/-- The rational number that an unsigned numeral stands for. -/
def Decimal.exact (d : Decimal) : ℚ := d.digits * 10 ^ d.exponent

theorem Decimal.exact_eq_div (d : Decimal) :
    d.exact = Magnitude.numerator d / Magnitude.denominator d := by
  obtain ⟨digits, exponent⟩ := d
  cases exponent with
  | ofNat e => simp [exact, Magnitude.numerator, Magnitude.denominator]
  | negSucc e =>
    simp [exact, Magnitude.numerator, Magnitude.denominator, Int.neg_negSucc, zpow_negSucc,
      div_eq_mul_inv]

/-- A numeral has a nearest double exactly if it stands for less than the middle between the largest
double and `2^1024`. -/
theorem Binary64.isFinite_ofDecimal_iff {negative : Bool} {d : Decimal} :
    (ofDecimal negative d).isFinite = true ↔ d.exact < 2 ^ 1024 - 2 ^ 970 := by
  have hsome : (ofDecimal negative d).isFinite = (Magnitude.ofDecimal? d).isSome := by
    rw [ofDecimal]
    cases Magnitude.ofDecimal? d <;> rfl
  have hden : (0 : ℚ) < Magnitude.denominator d := Nat.cast_pos.2 (Magnitude.denominator_pos d)
  have hunits : (0 : ℚ) < Magnitude.unitsPerOne := Nat.cast_pos.2 Magnitude.unitsPerOne_pos
  rw [hsome, Magnitude.ofDecimal?_eq, Magnitude.ofRatio?_isSome_iff (Magnitude.denominator_pos d),
    Decimal.exact_eq_div, div_lt_iff₀ hden, ← Nat.cast_lt (α := ℚ), Nat.cast_mul, Nat.cast_mul,
    Magnitude.cast_overflow, mul_right_comm, mul_lt_mul_iff_left₀ hunits]

end DocShape
