import DocShape.Proofs.Prelude
import DocShape.Value.Literal
import Mathlib.Algebra.Ring.Int.Defs

/-!
# Decimal digits

Natural numbers and integers as decimal text, and back. `Text.IsNumeral` describes the texts that
natural numbers have: digits without a zero in front. Writing a number and reading it, and reading
a numeral and writing it, give back what there was (`toNat_ofNat`, `ofNat_toNat`). `Text.HasDigits`
singles out the integers that have a text within the digit limit. Every integer is written as a name.
-/

namespace DocShape

namespace CodePoint

theorem ofChar_inj {a b : Char} (h : ofChar a = ofChar b) : a = b := by
  have hn : (ofChar a).val = (ofChar b).val := by rw [h]
  exact Char.toNat_inj.1 hn

@[simp] theorem ofChar_eq_iff {a b : Char} : ofChar a = ofChar b ↔ a = b :=
  ⟨ofChar_inj, fun h => h ▸ rfl⟩

theorem isDigit_ofChar {c : Char} (h : c.isDigit = true) : (ofChar c).isDigit = true := by
  simp only [Char.isDigit, Bool.and_eq_true, decide_eq_true_eq] at h
  simp only [isDigit, Bool.and_eq_true, decide_eq_true_eq]
  exact h

theorem digitValue_digitChar {d : Nat} (h : d < 10) : (ofChar d.digitChar).digitValue = d := by
  have : ∀ d < 10, (ofChar (Nat.digitChar d)).digitValue = d := by decide
  exact this d h

theorem digitChar_digitValue {c : CodePoint} (h : c.isDigit = true) :
    ofChar c.digitValue.digitChar = c := by
  have hall : ∀ d < 10, (ofChar (Nat.digitChar d)).val = d + 0x30 := by decide
  simp only [isDigit, Bool.and_eq_true, decide_eq_true_eq] at h
  have hd : c.digitValue < 10 := by simp only [digitValue]; omega
  apply Fin.ext
  rw [hall _ hd, digitValue]
  omega

theorem digitValue_lt {c : CodePoint} (h : c.isDigit = true) : c.digitValue < 10 := by
  simp only [isDigit, Bool.and_eq_true, decide_eq_true_eq] at h
  simp only [digitValue]
  omega

/-- A digit is none of the other characters that numbers and documents are made of. -/
theorem ne_of_isDigit {c d : CodePoint} (h : c.isDigit = true) (hd : d.isDigit = false) : c ≠ d := by
  rintro rfl
  rw [h] at hd
  cases hd

end CodePoint

namespace Text

/-! ## Digits at the front -/

/-- No digit is at the front of a text. -/
def NoDigit (t : Text) : Prop := ∀ c ∈ t.head?, c.isDigit = false

theorem takeWhile_isDigit {t rest : Text} (h : ∀ c ∈ t, c.isDigit = true) (hr : NoDigit rest) :
    (t ++ rest).takeWhile CodePoint.isDigit = t := by
  rw [List.takeWhile_append_of_pos h]
  cases rest with
  | nil => simp
  | cons c rest =>
    have hc : c.isDigit = false := hr c rfl
    simp [hc]

theorem dropWhile_isDigit {t rest : Text} (h : ∀ c ∈ t, c.isDigit = true) (hr : NoDigit rest) :
    (t ++ rest).dropWhile CodePoint.isDigit = rest := by
  rw [List.dropWhile_append_of_pos h]
  cases rest with
  | nil => rfl
  | cons c rest =>
    have hc : c.isDigit = false := hr c rfl
    simp [hc]

/-! ## The number that digits stand for -/

theorem toNat_append (s t : Text) : toNat (s ++ t) = toNat s * 10 ^ t.length + toNat t := by
  have go : ∀ (t : Text) (n : Nat),
      t.foldl (fun n c => n * 10 + c.digitValue) n = n * 10 ^ t.length + toNat t := by
    intro t
    induction t with
    | nil => intro n; simp [toNat]
    | cons c t ih =>
      intro n
      rw [toNat, List.foldl_cons, List.foldl_cons, ih, ih (0 * 10 + _), List.length_cons,
        Nat.pow_succ, Nat.zero_mul, Nat.zero_add, Nat.add_mul, Nat.mul_assoc,
        Nat.mul_comm 10, Nat.add_assoc]
  rw [toNat, List.foldl_append, go]
  rfl

theorem toNat_replicate_zero (k : Nat) : toNat (List.replicate k (CodePoint.ofChar '0')) = 0 := by
  induction k with
  | zero => rfl
  | succ k ih =>
    rw [List.replicate_succ', toNat_append, ih]
    rfl

/-- Zeros at the end count as a power of ten. -/
theorem toNat_append_zeros (s : Text) (k : Nat) :
    toNat (s ++ List.replicate k (CodePoint.ofChar '0')) = toNat s * 10 ^ k := by
  rw [toNat_append, toNat_replicate_zero, List.length_replicate, Nat.add_zero]

/-- Zeros in front do not count. -/
theorem toNat_zeros_append (k : Nat) (s : Text) :
    toNat (List.replicate k (CodePoint.ofChar '0') ++ s) = toNat s := by
  rw [toNat_append, toNat_replicate_zero, Nat.zero_mul, Nat.zero_add]

/-! ## Natural numbers -/

theorem ofNat_of_lt {n : Nat} (h : n < 10) : ofNat n = [CodePoint.ofChar n.digitChar] := by
  rw [ofNat, Nat.toDigits_of_lt_base h]
  rfl

theorem ofNat_append {n d : Nat} (hn : 0 < n) (hd : d < 10) :
    ofNat n ++ ofNat d = ofNat (10 * n + d) := by
  rw [ofNat, ofNat, ofNat, ← List.map_append, Nat.toDigits_append_toDigits (by decide) hn hd]

theorem toNat_ofNat (n : Nat) : toNat (ofNat n) = n := by
  induction n using Nat.base_induction 10 (by decide) with
  | single d hd =>
    rw [ofNat_of_lt hd]
    simp [toNat, CodePoint.digitValue_digitChar hd]
  | digit n d hd hn ih =>
    rw [← ofNat_append hn hd, toNat_append, ih, ofNat_of_lt hd]
    simp only [toNat, List.length_singleton, List.foldl_cons, List.foldl_nil,
      CodePoint.digitValue_digitChar hd]
    omega

/-- How natural numbers are written: with digits, the first of which is no zero unless it stands
alone. -/
structure IsNumeral (t : Text) : Prop where
  nonempty : t ≠ []
  digits : ∀ c ∈ t, c.isDigit = true
  noLeadingZero : t.head? = some (CodePoint.ofChar '0') → t.length = 1

theorem isNumeral_ofNat (n : Nat) : IsNumeral (ofNat n) where
  nonempty := by simp [ofNat, Nat.toDigits_ne_nil]
  digits := by
    intro c hc
    simp only [ofNat, List.mem_map] at hc
    obtain ⟨d, hd, rfl⟩ := hc
    exact CodePoint.isDigit_ofChar (Nat.isDigit_of_mem_toDigits (by decide) (by decide) hd)
  noLeadingZero := by
    induction n using Nat.base_induction 10 (by decide) with
    | single d hd => intro _; rw [ofNat_of_lt hd]; rfl
    | digit n d hd hn ih =>
      intro h
      obtain ⟨a, s, hs⟩ : ∃ a s, ofNat n = a :: s :=
        List.exists_cons_of_ne_nil (by simp [ofNat, Nat.toDigits_ne_nil])
      rw [← ofNat_append hn hd, hs, List.cons_append, List.head?_cons] at h
      -- the number in front would be a lone zero, and it is positive
      obtain ⟨c, hc⟩ := List.length_eq_one_iff.1 (ih (by rw [hs]; exact h))
      obtain ⟨rfl, rfl⟩ := List.cons.inj (hs.symm.trans hc)
      rw [Option.some.injEq] at h
      have : n = 0 := by
        rw [← toNat_ofNat n, hc, h]
        rfl
      omega

/-- A numeral is written as what it is read as. -/
theorem ofNat_toNat {t : Text} (h : IsNumeral t) : ofNat (toNat t) = t := by
  obtain ⟨hne, hdigits, hzero⟩ := h
  induction t using List.reverseRecOn with
  | nil => exact absurd rfl hne
  | append_singleton s c ih =>
    have hc : c.isDigit = true := hdigits c (by simp)
    have hlt := CodePoint.digitValue_lt hc
    have hlast : ofNat c.digitValue = [c] := by
      rw [ofNat_of_lt hlt, CodePoint.digitChar_digitValue hc]
    rcases List.eq_nil_or_concat s with rfl | ⟨u, d, hs⟩
    · simpa [toNat] using hlast
    · have hsne : s ≠ [] := by simp [hs]
      have hhead : s.head? ≠ some (CodePoint.ofChar '0') := by
        intro h0
        have hlen := hzero (by rw [List.head?_append, h0]; rfl)
        simp [hs] at hlen
      have hs' : ofNat (toNat s) = s :=
        ih hsne (fun x hx => hdigits x (by simp [hx])) (fun h0 => absurd h0 hhead)
      have hpos : 0 < toNat s := by
        rcases Nat.eq_zero_or_pos (toNat s) with h0 | h0
        · rw [h0] at hs'
          exact absurd (by rw [← hs']; rfl) hhead
        · exact h0
      rw [toNat_append]
      simp only [List.length_singleton, Nat.pow_one]
      have hv : toNat [c] = c.digitValue := by simp [toNat]
      rw [hv, Nat.mul_comm, ← ofNat_append hpos hlt, hs', hlast]

theorem ofNat_length_pos (n : Nat) : 0 < (ofNat n).length :=
  List.length_pos_iff.2 (isNumeral_ofNat n).nonempty

/-- A power of ten is a one with zeros. -/
theorem ofNat_pow (k : Nat) :
    ofNat (10 ^ k) = CodePoint.ofChar '1' :: List.replicate k (CodePoint.ofChar '0') := by
  have hdigits : ∀ c ∈ CodePoint.ofChar '1' :: List.replicate k (CodePoint.ofChar '0'),
      c.isDigit = true := by
    refine List.forall_mem_cons.2 ⟨by decide, fun c hc => ?_⟩
    rw [List.eq_of_mem_replicate hc]
    decide
  have hnumeral : IsNumeral (CodePoint.ofChar '1' :: List.replicate k (CodePoint.ofChar '0')) :=
    ⟨List.cons_ne_nil _ _, hdigits, fun h => by simp at h⟩
  have hone : toNat [CodePoint.ofChar '1'] = 1 := by decide
  rw [← ofNat_toNat hnumeral, ← List.singleton_append, toNat_append_zeros, hone, Nat.one_mul]

/-! ## Integers -/

theorem ofInt_eq (n : Int) :
    ofInt n = if n < 0 then CodePoint.ofChar '-' :: ofNat n.natAbs else ofNat n.natAbs := by
  cases n with
  | ofNat n => rw [if_neg (by simp)]; rfl
  | negSucc n => rw [if_pos (by omega)]; rfl

theorem IsNumeral.head?_ne_minus {t : Text} (h : t.IsNumeral) :
    t.head? ≠ some (CodePoint.ofChar '-') := by
  intro hminus
  have hdigit := h.digits _ (List.mem_of_mem_head? hminus)
  exact CodePoint.ne_of_isDigit hdigit (by decide) rfl

theorem head?_ofNat_ne_minus (n : Nat) : (ofNat n).head? ≠ some (CodePoint.ofChar '-') :=
  (isNumeral_ofNat n).head?_ne_minus

/-- An integer has a text within the digit limit. -/
def HasDigits (n : Int) : Prop := (ofNat n.natAbs).length ≤ digitLimit

instance (n : Int) : Decidable (HasDigits n) := inferInstanceAs (Decidable (_ ≤ _))

theorem hasDigits_of_length {n : Int} (h : (ofInt n).length ≤ digitLimit) : HasDigits n := by
  rw [ofInt_eq] at h
  rw [HasDigits]
  split at h
  · exact Nat.le_of_succ_le h
  · exact h

theorem hasDigits_pow {k : Nat} : HasDigits (10 ^ k) ↔ k < digitLimit := by
  rw [HasDigits, Int.natAbs_pow, show Int.natAbs 10 = 10 from rfl, ofNat_pow, List.length_cons,
    List.length_replicate, Nat.succ_le_iff]

theorem ofIntLimited?_eq (n : Int) :
    ofIntLimited? n = if HasDigits n then some (ofInt n) else none := by
  rw [ofIntLimited?, ofInt_eq]
  rfl

theorem ofNat_injective : Function.Injective ofNat := by
  intro m n h
  rw [← toNat_ofNat m, h, toNat_ofNat]

/-! ## Names -/

/-- What a name is made of. -/
theorem isName_iff {t : Text} : t.isName = true ↔ t ≠ [] ∧ ∀ c ∈ t, c.isNameChar = true := by
  rw [isName, Bool.and_eq_true, List.all_eq_true]
  cases t <;> simp

theorem isNameChar_of_isDigit {c : CodePoint} (h : c.isDigit = true) : c.isNameChar = true := by
  simp [CodePoint.isNameChar, h]

/-- Every integer is written as a name. -/
theorem isName_ofInt (n : Int) : (ofInt n).isName = true := by
  have hnumeral := isNumeral_ofNat n.natAbs
  rw [isName_iff, ofInt_eq]
  split
  · refine ⟨List.cons_ne_nil _ _, List.forall_mem_cons.2 ⟨by decide, fun c hc => ?_⟩⟩
    exact isNameChar_of_isDigit (hnumeral.digits c hc)
  · exact ⟨hnumeral.nonempty, fun c hc => isNameChar_of_isDigit (hnumeral.digits c hc)⟩

end Text

end DocShape
