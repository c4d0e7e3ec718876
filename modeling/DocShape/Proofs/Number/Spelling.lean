import DocShape.Proofs.Number.Numeral

/-!
# The text of a double reads back as that double

`Magnitude.shortest` gives a numeral that is read as the double it came from (`ofDecimal?_shortest`).
`Binary64.spelling` tells how each numeral is spelled, and a proper spelling is a number as documents
have it (`Spelling.numeral`). So the text of a double is that of a number which stands for the double
(`Binary64.text_numeral`, `Binary64.value_numeral`).
-/

namespace DocShape

namespace Magnitude

/-! ## The shortest numeral -/

theorem ofDecimal?_of_firstReadingBack {m : Magnitude} {digits dropped count : Nat} {d : Decimal}
    (h : firstReadingBack m digits dropped count = some d) : ofDecimal? d = some m := by
  induction count generalizing dropped with
  | zero => cases h
  | succ count ih =>
    simp only [firstReadingBack] at h
    split at h
    · next e hfind =>
      obtain rfl := Option.some.inj h
      simpa using List.find?_some hfind
    · exact ih h

/-- Dropping zeros at the end does not change what is read. -/
theorem ofDecimal?_stripZeros (d : Decimal) (fuel : Nat) :
    ofDecimal? (stripZeros d fuel) = ofDecimal? d := by
  induction fuel generalizing d with
  | zero => rfl
  | succ fuel ih =>
    rw [stripZeros]
    split
    · next h =>
      have hdigits : d.digits / 10 * 10 ^ 1 = d.digits := by
        rw [Nat.pow_one]
        exact Nat.div_mul_cancel (Nat.dvd_of_mod_eq_zero h.2)
      have hexponent : d.exponent + 1 - (1 : Nat) = d.exponent := by omega
      rw [ih, ← ofDecimal?_shift (d.digits / 10) 1, hdigits, hexponent]
    · rfl

-- The powers below are kept behind variables, so that nothing computes them.

theorem numerator_expansion (m : Magnitude) :
    numerator m.expansion = m.units * Nat.pow 5 unitBits := by
  have hexponent : m.expansion.exponent.toNat = 0 := rfl
  have hbits : 1074 = unitBits := rfl
  rw [numerator, hexponent, Nat.pow_zero, Nat.mul_one, expansion, hbits]

theorem denominator_expansion (m : Magnitude) :
    denominator m.expansion = unitsPerOne * Nat.pow 5 unitBits := by
  have hexponent : (-m.expansion.exponent).toNat = unitBits := rfl
  rw [denominator, hexponent]
  unfold unitsPerOne
  generalize unitBits = n
  rw [Nat.pow_eq, Nat.pow_eq, ← Nat.mul_pow]

theorem ofDecimal?_expansion (m : Magnitude) : ofDecimal? m.expansion = some m := by
  rw [ofDecimal?_eq, numerator_expansion, denominator_expansion]
  have hpos (n : Nat) : 0 < Nat.pow 5 n := Nat.pow_pos (by decide)
  exact ofRatio?_units m (hpos unitBits)

/-- The shortest numeral of a double is read as that double. -/
theorem ofDecimal?_shortest (m : Magnitude) : ofDecimal? m.shortest = some m := by
  unfold shortest
  split
  · next h0 =>
    have hm : m = zero := by
      cases m
      cases h0
      rfl
    rw [hm]
    rfl
  · simp only
    split
    · next d hd => rw [ofDecimal?_stripZeros, ofDecimal?_of_firstReadingBack hd]
    · exact ofDecimal?_expansion m

end Magnitude

/-! ## Spellings -/

/-- A number as it stands in a text. -/
structure Spelling where
  whole : Text
  /-- The digits after the point, which is left out where there are none. -/
  fraction : Text
  exponent : Option Int

namespace Spelling

def fractionText (s : Spelling) : Text :=
  if s.fraction.isEmpty then [] else CodePoint.ofChar '.' :: s.fraction

def exponentText (s : Spelling) : Text :=
  match s.exponent with
  | none => []
  | some e => CodePoint.ofChar 'e' :: Binary64.exponentText e

def text (s : Spelling) : Text := s.whole ++ s.fractionText ++ s.exponentText

/-- The numeral that is spelled. -/
def decimal (s : Spelling) : Decimal := Decimal.ofParts s.whole s.fraction (s.exponent.getD 0)

/-- A spelling of a double: a numeral in front, and something that tells it from an integer. -/
structure Proper (s : Spelling) : Prop where
  whole : Text.IsNumeral s.whole
  fraction : ∀ c ∈ s.fraction, c.isDigit = true
  notInteger : s.fraction ≠ [] ∨ s.exponent.isSome

/-! ### Spellings as numbers -/

theorem exponentDigits_isDigit (e : Int) :
    ∀ c ∈ Text.padLeft 2 (Text.ofNat e.natAbs), c.isDigit = true := by
  intro c hc
  rw [Text.padLeft, List.mem_append] at hc
  rcases hc with hc | hc
  · rw [List.eq_of_mem_replicate hc]
    rfl
  · exact (Text.isNumeral_ofNat _).digits c hc

theorem exponentDigits_ne_nil (e : Int) : Text.padLeft 2 (Text.ofNat e.natAbs) ≠ [] := by
  have := Text.ofNat_length_pos e.natAbs
  intro h
  rw [Text.padLeft, List.append_eq_nil_iff] at h
  rw [h.2] at this
  exact absurd this (by decide)

/-- An exponent as doubles have it: a sign and at least two digits. -/
def exponentOf (e : Int) : Exponent where
  letter := CodePoint.ofChar 'e'
  sign := if e < 0 then "-" else "+"
  digits := Text.padLeft 2 (Text.ofNat e.natAbs)
  isLetter := .inl rfl
  isSign := by split <;> simp
  nonempty := exponentDigits_ne_nil e
  areDigits := exponentDigits_isDigit e

theorem text_exponentOf (e : Int) :
    (exponentOf e).text = CodePoint.ofChar 'e' :: Binary64.exponentText e := by
  rw [Exponent.text, exponentOf, Binary64.exponentText]

theorem value_exponentOf (e : Int) : (exponentOf e).value = e := by
  have hvalue : Text.toNat (Text.padLeft 2 (Text.ofNat e.natAbs)) = e.natAbs := by
    rw [Text.padLeft, Text.toNat_zeros_append, Text.toNat_ofNat]
  have hplus : Text.ofString "+" ≠ Text.ofString "-" := by decide
  rw [Exponent.value, exponentOf]
  simp only [hvalue]
  by_cases he : e < 0
  · simp only [he, ↓reduceIte]
    omega
  · simp only [he, ↓reduceIte, hplus]
    omega

/-- A proper spelling with a sign. -/
def numeral (s : Spelling) (h : s.Proper) (negative : Bool) : Numeral :=
  ⟨negative, s.whole, s.fraction, s.exponent.map exponentOf, h.whole, h.fraction⟩

variable {s : Spelling} (h : s.Proper) (negative : Bool)

theorem unsigned_numeral : (s.numeral h negative).unsigned = s.text := by
  rw [Numeral.unsigned, text, List.append_assoc]
  congr 2
  rw [Numeral.exponentText, numeral, exponentText]
  cases s.exponent with
  | none => rfl
  | some e => exact text_exponentOf e

theorem decimal_numeral : (s.numeral h negative).decimal = s.decimal := by
  rw [Numeral.decimal, decimal, numeral]
  cases s.exponent with
  | none => rfl
  | some e => simp [value_exponentOf]

theorem not_isInteger_numeral : ¬ (s.numeral h negative).IsInteger := by
  rintro ⟨hfraction, hexponent⟩
  rcases h.notInteger with hne | hsome
  · exact hne hfraction
  · rw [numeral, Option.map_eq_none_iff] at hexponent
    rw [hexponent] at hsome
    cases hsome

end Spelling

/-! ## How numerals are spelled -/

namespace Binary64

/-- The spelling of a numeral: positional from `0.0001` up to `10^16`, else with an exponent. -/
def spelling (d : Decimal) : Spelling :=
  let digits := Text.ofNat d.digits
  let point : Int := digits.length + d.exponent
  let zeros (n : Nat) : Text := List.replicate n (CodePoint.ofChar '0')
  if d.digits = 0 then ⟨zeros 1, zeros 1, none⟩
  else if -4 < point ∧ point ≤ 16 then
    if point ≤ 0 then ⟨zeros 1, zeros point.natAbs ++ digits, none⟩
    else if d.exponent < 0 then ⟨digits.take point.toNat, digits.drop point.toNat, none⟩
    else ⟨digits ++ zeros d.exponent.toNat, zeros 1, none⟩
  else ⟨digits.take 1, digits.drop 1, some (point - 1)⟩

theorem numeralText_eq (d : Decimal) : numeralText d = (spelling d).text := by
  have hlen := Text.ofNat_length_pos d.digits
  rw [numeralText, spelling]
  simp only
  split
  · rfl
  · split
    · split
      · next h =>
        have hne : (List.replicate ((Text.ofNat d.digits).length + d.exponent).natAbs
            (CodePoint.ofChar '0') ++ Text.ofNat d.digits).isEmpty = false := by
          rw [List.isEmpty_eq_false_iff]
          intro h0
          rw [(List.append_eq_nil_iff.1 h0).2] at hlen
          exact absurd hlen (by decide)
        simp only [Spelling.text, Spelling.fractionText, Spelling.exponentText, hne,
          Bool.false_eq_true, ↓reduceIte, List.append_nil]
        rfl
      · split
        · next h1 h2 =>
          have hne : ((Text.ofNat d.digits).drop
              ((Text.ofNat d.digits).length + d.exponent).toNat).isEmpty = false := by
            rw [List.isEmpty_eq_false_iff, ← List.length_pos_iff, List.length_drop]
            omega
          simp only [Spelling.text, Spelling.fractionText, Spelling.exponentText, hne,
            Bool.false_eq_true, ↓reduceIte, List.append_nil, List.append_assoc]
          rfl
        · simp [Spelling.text, Spelling.fractionText, Spelling.exponentText, Text.ofString]
    · have hiff : (Text.ofNat d.digits).length = 1 ↔
          ((Text.ofNat d.digits).drop 1).isEmpty = true := by
        rw [List.isEmpty_iff_length_eq_zero, List.length_drop]
        omega
      simp only [Spelling.text, Spelling.fractionText, Spelling.exponentText, hiff]
      split <;> simp [Text.ofString]

theorem head?_ofNat_ne_zero {n : Nat} (h : n ≠ 0) :
    (Text.ofNat n).head? ≠ some (CodePoint.ofChar '0') := by
  intro h0
  obtain ⟨c, hc⟩ := List.length_eq_one_iff.1 ((Text.isNumeral_ofNat n).noLeadingZero h0)
  rw [hc, List.head?_cons, Option.some.injEq] at h0
  rw [h0] at hc
  exact h (by rw [← Text.toNat_ofNat n, hc]; rfl)

/-- A front part of a positive numeral is a numeral, zeros behind it or not. -/
theorem isNumeral_take_append {n k : Nat} (h : n ≠ 0) (hk : 0 < k) (zeros : Nat) :
    Text.IsNumeral ((Text.ofNat n).take k ++ List.replicate zeros (CodePoint.ofChar '0')) := by
  have hn := Text.isNumeral_ofNat n
  have hhead := head?_ofNat_ne_zero h
  obtain ⟨c, t, ht⟩ := List.exists_cons_of_ne_nil hn.nonempty
  obtain ⟨k, rfl⟩ := Nat.exists_eq_succ_of_ne_zero (Nat.ne_of_gt hk)
  have hdigits := hn.digits
  rw [ht] at hhead hdigits ⊢
  rw [List.take_succ_cons]
  refine ⟨by simp, ?_, fun h0 => absurd h0 hhead⟩
  intro d hd
  rcases List.mem_append.1 hd with hd | hd
  · exact hdigits d (List.mem_of_mem_take (i := k + 1) (by simpa using hd))
  · rw [List.eq_of_mem_replicate hd]
    rfl

theorem isNumeral_zero : Text.IsNumeral (List.replicate 1 (CodePoint.ofChar '0')) :=
  Text.isNumeral_ofNat 0

theorem isDigit_of_mem_zeros {n : Nat} : ∀ c ∈ List.replicate n (CodePoint.ofChar '0'),
    c.isDigit = true := by
  intro c hc
  rw [List.eq_of_mem_replicate hc]
  rfl

theorem spelling_proper (d : Decimal) : (spelling d).Proper := by
  have hlen := Text.ofNat_length_pos d.digits
  have hdigits := (Text.isNumeral_ofNat d.digits).digits
  have hnil (t : Text) : t ++ Text.ofNat d.digits ≠ [] := by
    intro h0
    rw [(List.append_eq_nil_iff.1 h0).2] at hlen
    exact absurd hlen (by decide)
  unfold spelling
  simp only
  split
  · exact ⟨isNumeral_zero, isDigit_of_mem_zeros, .inl (by decide)⟩
  · next h0 =>
    split
    · split
      · refine ⟨isNumeral_zero, ?_, .inl (hnil _)⟩
        intro c hc
        rcases List.mem_append.1 hc with hc | hc
        · exact isDigit_of_mem_zeros c hc
        · exact hdigits c hc
      · next hpoint =>
        split
        · next hexp =>
          refine ⟨?_, fun c hc => hdigits c (List.mem_of_mem_drop hc), .inl ?_⟩
          · have := isNumeral_take_append h0
              (k := ((Text.ofNat d.digits).length + d.exponent).toNat) (by omega) 0
            simpa using this
          · rw [← List.length_pos_iff, List.length_drop]
            omega
        · refine ⟨?_, isDigit_of_mem_zeros, .inl (List.cons_ne_nil _ _)⟩
          have := isNumeral_take_append h0 hlen d.exponent.toNat
          rwa [List.take_length] at this
    · refine ⟨?_, fun c hc => hdigits c (List.mem_of_mem_drop hc), .inr rfl⟩
      have := isNumeral_take_append h0 Nat.one_pos 0
      simpa using this

/-- A numeral and its spelling are read as the same double. -/
theorem ofDecimal?_spelling (d : Decimal) :
    Magnitude.ofDecimal? (spelling d).decimal = Magnitude.ofDecimal? d := by
  have hvalue := Text.toNat_ofNat d.digits
  have hlen := Text.ofNat_length_pos d.digits
  obtain ⟨n, e⟩ := d
  unfold spelling
  simp only [Spelling.decimal, Decimal.ofParts] at hvalue hlen ⊢
  split
  · next h0 =>
    rw [Magnitude.ofDecimal?, Magnitude.ofDecimal?, if_pos h0, if_pos (by decide)]
  · split
    · split
      · have hexp : (0 : Int) - (List.replicate ((Text.ofNat n).length + e).natAbs
            (CodePoint.ofChar '0') ++ Text.ofNat n).length = e := by
          rw [List.length_append, List.length_replicate]
          omega
        rw [Option.getD_none, hexp, ← List.append_assoc, List.replicate_append_replicate,
          Text.toNat_zeros_append, hvalue]
      · split
        · have hexp : (0 : Int) -
              ((Text.ofNat n).drop ((Text.ofNat n).length + e).toNat).length = e := by
            rw [List.length_drop]
            omega
          rw [Option.getD_none, hexp, List.take_append_drop, hvalue]
        · have hexp : (0 : Int) - (List.replicate 1 (CodePoint.ofChar '0')).length =
              e - (e.toNat + 1 : Nat) := by
            rw [List.length_replicate]
            omega
          rw [Option.getD_none, hexp, List.append_assoc, List.replicate_append_replicate,
            Text.toNat_append_zeros, hvalue, Magnitude.ofDecimal?_shift]
    · have hexp : ((Text.ofNat n).length + e - 1 : Int) - ((Text.ofNat n).drop 1).length = e := by
        rw [List.length_drop]
        omega
      rw [Option.getD_some, hexp, List.take_append_drop, hvalue]

/-! ## Doubles as numbers -/

/-- The number as which a finite double is written. -/
def numeral (negative : Bool) (m : Magnitude) : Numeral :=
  (spelling m.shortest).numeral (spelling_proper _) negative

theorem text_numeral (negative : Bool) (m : Magnitude) :
    (numeral negative m).text = (finite negative m).text := by
  rw [Numeral.text, numeral, Spelling.unsigned_numeral, ← numeralText_eq]
  cases negative <;> rfl

theorem ofDecimal_numeral (negative : Bool) (m : Magnitude) :
    ofDecimal negative (numeral negative m).decimal = finite negative m := by
  rw [numeral, Spelling.decimal_numeral, ofDecimal, ofDecimal?_spelling,
    Magnitude.ofDecimal?_shortest]

theorem value_numeral (negative : Bool) (m : Magnitude) :
    (numeral negative m).value = .float (finite negative m) := by
  rw [Numeral.value, numeral, if_neg (Spelling.not_isInteger_numeral _ _)]
  exact congrArg Number.float (ofDecimal_numeral negative m)

theorem inRange_numeral (negative : Bool) (m : Magnitude) : (numeral negative m).InRange := by
  have hfinite : (ofDecimal negative (numeral negative m).decimal).isFinite = true := by
    rw [ofDecimal_numeral]
    rfl
  rw [Numeral.InRange, numeral, if_neg (Spelling.not_isInteger_numeral _ _)]
  exact isFinite_ofDecimal_iff.1 hfinite

/-- The text of a finite double is read as that double. -/
theorem ofText?_text (negative : Bool) (m : Magnitude) :
    ofText? (finite negative m).text = some (finite negative m) := by
  rw [← text_numeral, Numeral.ofText?_text]
  exact congrArg some (ofDecimal_numeral negative m)

end Binary64

end DocShape
