import DocShape.Number.Binary64
import DocShape.Proofs.Prelude

/-!
# Reading a numeral depends on its value alone

`Magnitude.ofDecimal?` takes shortcuts where a numeral is far out of range. They change nothing:
a numeral is always read as the double nearest to its quotient (`ofDecimal?_eq`), and a quotient
written with larger terms rounds the same (`ofRatio?_scale`). So powers of ten may move between the
digits and the exponent of a numeral (`ofDecimal?_shift`).
-/

namespace DocShape

theorem roundHalfEven_scale (num den : Nat) {k : Nat} (hk : 0 < k) :
    roundHalfEven (num * k) (den * k) = roundHalfEven num den := by
  have hlt (a b : Nat) : a * k < b * k ↔ a < b := Nat.mul_lt_mul_right hk
  simp only [roundHalfEven, Nat.mul_div_mul_right _ _ hk, Nat.mul_mod_mul_right,
    ← Nat.mul_assoc, hlt]

theorem roundHalfEven_mul (q : Nat) {den : Nat} (h : 0 < den) : roundHalfEven (q * den) den = q := by
  simp [roundHalfEven, Nat.mul_div_cancel _ h, h]

theorem roundHalfEven_of_small {num den : Nat} (h : 2 * num < den) : roundHalfEven num den = 0 := by
  have hlt : num < den := by omega
  simp [roundHalfEven, Nat.div_eq_of_lt hlt, Nat.mod_eq_of_lt hlt, h]

theorem div_le_roundHalfEven (num den : Nat) : num / den ≤ roundHalfEven num den := by
  simp only [roundHalfEven]
  split
  · exact Nat.le_refl _
  · split <;> omega

namespace Magnitude

theorem unitsPerOne_pos : 0 < unitsPerOne := by
  unfold unitsPerOne
  generalize unitBits = n
  exact Nat.pow_pos Nat.two_pos

theorem ofUnits?_units (m : Magnitude) : ofUnits? m.units = some m := by
  rw [ofUnits?, dif_pos m.representable]

theorem ofUnits?_of_limit_le {units : Nat} (h : limit ≤ units) : ofUnits? units = none := by
  rw [ofUnits?, dif_neg]
  intro hr
  exact Nat.not_lt.2 h hr.1

/-! ## Quotients -/

theorem ofRatio?_scale (num den : Nat) {k : Nat} (hk : 0 < k) :
    ofRatio? (num * k) (den * k) = ofRatio? num den := by
  have hscaled : num * k * unitsPerOne = num * unitsPerOne * k := Nat.mul_right_comm ..
  have hstep (s : Nat) : den * k * s = den * s * k := Nat.mul_right_comm ..
  simp only [ofRatio?, hscaled, hstep, Nat.mul_div_mul_right _ _ hk, roundHalfEven_scale _ _ hk]

theorem ofRatio?_congr {num den num' den' : Nat} (hd : 0 < den) (hd' : 0 < den')
    (h : num * den' = num' * den) : ofRatio? num den = ofRatio? num' den' := by
  rw [← ofRatio?_scale num den hd', ← ofRatio?_scale num' den' hd, h, Nat.mul_comm den']

/-- Every double is the one nearest to itself. -/
theorem ofRatio?_units (m : Magnitude) {k : Nat} (hk : 0 < k) :
    ofRatio? (m.units * k) (unitsPerOne * k) = some m := by
  rw [ofRatio?_scale _ _ hk]
  obtain ⟨q, hq⟩ := m.representable.2
  have hstep : 0 < Nat.pow 2 (spacing m.units) := Nat.pow_pos Nat.two_pos
  simp only [ofRatio?, Nat.mul_div_cancel _ unitsPerOne_pos]
  have hscaled : m.units * unitsPerOne = q * (unitsPerOne * Nat.pow 2 (spacing m.units)) := by
    conv => lhs; rw [hq]
    rw [Nat.mul_comm _ q, Nat.mul_assoc, Nat.mul_comm unitsPerOne]
  rw [hscaled, roundHalfEven_mul _ (Nat.mul_pos unitsPerOne_pos hstep), Nat.mul_comm q, ← hq,
    ofUnits?_units]

/-- A quotient below half a unit is rounded to nothing. -/
theorem ofRatio?_of_small {num den : Nat} (h : 2 * (num * unitsPerOne) < den) :
    ofRatio? num den = some zero := by
  have hdiv : num * unitsPerOne / den = 0 := Nat.div_eq_of_lt (by omega)
  have hstep : Nat.pow 2 (spacing 0) = 1 := by decide
  simp only [ofRatio?, hdiv, hstep, Nat.mul_one, roundHalfEven_of_small h]
  exact ofUnits?_units zero

/-- The largest power of two in a number is a multiple of its spacing. -/
theorem pow_log2_le_round {u : Nat} (h : 53 ≤ u.log2) :
    2 ^ u.log2 ≤ u / Nat.pow 2 (spacing u) * Nat.pow 2 (spacing u) := by
  have hsplit : 2 ^ u.log2 = 2 ^ 52 * Nat.pow 2 (spacing u) := by
    rw [Nat.pow_eq, ← Nat.pow_add, spacing]
    congr 1
    omega
  have hpos : 0 < Nat.pow 2 (spacing u) := Nat.pow_pos Nat.two_pos
  have hu : 2 ^ u.log2 ≤ u := Nat.log2_self_le (by rintro rfl; simp at h)
  rw [hsplit] at hu ⊢
  exact Nat.mul_le_mul_right _ ((Nat.le_div_iff_mul_le hpos).2 hu)

theorem limit_eq : limit = 2 ^ limitBits := by
  unfold limit
  generalize limitBits = n
  rfl

/-- A quotient from `2^1024` on is too large. -/
theorem ofRatio?_of_large {num den : Nat} (hd : 0 < den) (h : limit * den ≤ num * unitsPerOne) :
    ofRatio? num den = none := by
  simp only [ofRatio?]
  have hlimit : limit ≤ num * unitsPerOne / den := (Nat.le_div_iff_mul_le hd).2 h
  generalize hu : num * unitsPerOne / den = u at hlimit
  apply ofUnits?_of_limit_le
  have hne : u ≠ 0 := by have := limit_pos; omega
  have hlog : limitBits ≤ u.log2 := (Nat.le_log2 hne).2 (limit_eq ▸ hlimit)
  calc limit = 2 ^ limitBits := limit_eq
    _ ≤ 2 ^ u.log2 := Nat.pow_le_pow_right Nat.two_pos hlog
    _ ≤ u / Nat.pow 2 (spacing u) * Nat.pow 2 (spacing u) :=
        pow_log2_le_round (Nat.le_trans (by decide) hlog)
    _ ≤ _ := Nat.mul_le_mul_right _ (by
        rw [← hu, Nat.div_div_eq_div_mul]
        exact div_le_roundHalfEven ..)

/-! ## Numerals -/

/-- What stands above in a numeral written as a quotient. -/
def numerator (d : Decimal) : Nat := d.digits * 10 ^ d.exponent.toNat

/-- What stands below in a numeral written as a quotient. -/
def denominator (d : Decimal) : Nat := 10 ^ (-d.exponent).toNat

theorem denominator_pos (d : Decimal) : 0 < denominator d := Nat.pow_pos (by decide)

/-- Three binary digits give less than one decimal digit. -/
theorem lt_pow_of_log2 (n : Nat) : n < 10 ^ ((n.log2 + 1) / 3 + 1) :=
  calc n < 2 ^ (n.log2 + 1) := Nat.lt_log2_self
    _ ≤ 2 ^ (3 * ((n.log2 + 1) / 3 + 1)) := Nat.pow_le_pow_right Nat.two_pos (by omega)
    _ = 8 ^ ((n.log2 + 1) / 3 + 1) := by rw [Nat.pow_mul]
    _ ≤ 10 ^ ((n.log2 + 1) / 3 + 1) := Nat.pow_le_pow_left (by decide) _

/-- Ten binary digits give more than three decimal digits. -/
theorem pow_le_of_log2 {n : Nat} (h : n ≠ 0) : 10 ^ (3 * n.log2 / 10) ≤ n := by
  refine Nat.le_trans ?_ (Nat.log2_self_le h)
  rw [← Nat.pow_le_pow_iff_left (n := 10) (by decide), ← Nat.pow_mul, ← Nat.pow_mul]
  calc 10 ^ (3 * n.log2 / 10 * 10) ≤ 10 ^ (3 * n.log2) :=
        Nat.pow_le_pow_right (by decide) (Nat.div_mul_le_self ..)
    _ = 1000 ^ n.log2 := by rw [Nat.pow_mul]
    _ ≤ 1024 ^ n.log2 := Nat.pow_le_pow_left (by decide) _
    _ = 2 ^ (n.log2 * 10) := by rw [Nat.mul_comm, Nat.pow_mul]

/-- The shortcut for large numerals takes nothing away. -/
theorem ofRatio?_of_overflow {d : Decimal} (hne : d.digits ≠ 0)
    (h : 310 ≤ (3 * d.digits.log2 / 10 : Int) + d.exponent) :
    ofRatio? (numerator d) (denominator d) = none := by
  apply ofRatio?_of_large (denominator_pos d)
  obtain ⟨k, hk, hbig⟩ : ∃ k, k = 310 ∧ limit ≤ 10 ^ k * unitsPerOne :=
    ⟨310, rfl, by decide +kernel⟩
  have hexp : k + (-d.exponent).toNat ≤ 3 * d.digits.log2 / 10 + d.exponent.toNat := by omega
  calc limit * denominator d ≤ 10 ^ k * unitsPerOne * denominator d :=
        Nat.mul_le_mul_right _ hbig
    _ = 10 ^ (k + (-d.exponent).toNat) * unitsPerOne := by
        rw [denominator, Nat.pow_add, Nat.mul_right_comm]
    _ ≤ 10 ^ (3 * d.digits.log2 / 10 + d.exponent.toNat) * unitsPerOne :=
        Nat.mul_le_mul_right _ (Nat.pow_le_pow_right (by decide) hexp)
    _ ≤ numerator d * unitsPerOne := by
        rw [numerator, Nat.pow_add]
        exact Nat.mul_le_mul_right _ (Nat.mul_le_mul_right _ (pow_le_of_log2 hne))

/-- The shortcut for small numerals takes nothing away. -/
theorem ofRatio?_of_underflow {d : Decimal}
    (h : ((d.digits.log2 + 1) / 3 + 1 : Int) + d.exponent < -330) :
    ofRatio? (numerator d) (denominator d) = some zero := by
  apply ofRatio?_of_small
  obtain ⟨k, hk, hsmall⟩ : ∃ k, k = 331 ∧ 2 * unitsPerOne < 10 ^ k :=
    ⟨331, rfl, by decide +kernel⟩
  have hexp : d.exponent.toNat = 0 := by omega
  have hden : (d.digits.log2 + 1) / 3 + 1 + k ≤ (-d.exponent).toNat := by omega
  calc 2 * (numerator d * unitsPerOne) = d.digits * (2 * unitsPerOne) := by
        rw [numerator, hexp, Nat.pow_zero, Nat.mul_one, Nat.mul_left_comm]
    _ < 10 ^ ((d.digits.log2 + 1) / 3 + 1) * 10 ^ k :=
        Nat.mul_lt_mul_of_lt_of_le (lt_pow_of_log2 _) (Nat.le_of_lt hsmall)
          (Nat.pow_pos (by decide))
    _ = 10 ^ ((d.digits.log2 + 1) / 3 + 1 + k) := (Nat.pow_add ..).symm
    _ ≤ denominator d := Nat.pow_le_pow_right (by decide) hden

/-- A numeral is read as the double nearest to it. -/
theorem ofDecimal?_eq (d : Decimal) :
    ofDecimal? d = ofRatio? (numerator d) (denominator d) := by
  unfold ofDecimal?
  split
  · next h0 =>
    rw [numerator, h0, Nat.zero_mul, ofRatio?_of_small]
    simpa using denominator_pos d
  · next h0 =>
    split
    · next hlarge => exact (ofRatio?_of_overflow h0 hlarge).symm
    · split
      · next hsmall => exact (ofRatio?_of_underflow hsmall).symm
      · obtain ⟨digits, exponent⟩ := d
        cases exponent with
        | ofNat e => simp [numerator, denominator]
        | negSucc e => simp [numerator, denominator, Int.neg_negSucc]

/-- Powers of ten may move between the digits and the exponent. -/
theorem ofDecimal?_shift (digits k : Nat) (exponent : Int) :
    ofDecimal? ⟨digits * 10 ^ k, exponent - k⟩ = ofDecimal? ⟨digits, exponent⟩ := by
  rw [ofDecimal?_eq, ofDecimal?_eq]
  apply ofRatio?_congr (denominator_pos _) (denominator_pos _)
  simp only [numerator, denominator, Nat.mul_assoc, ← Nat.pow_add]
  congr 2
  omega

end Magnitude

end DocShape
