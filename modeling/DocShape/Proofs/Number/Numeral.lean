import DocShape.Number
import DocShape.Proofs.Number.Range
import DocShape.Proofs.Text.Digits

/-!
# Numbers as documents spell them

A `Numeral` is a number of the grammar of documents: a sign, digits without a zero in front, and a
fraction and an exponent where there are any. It stands for an integer if it has neither, and else for
the double nearest to it. Reading its text gives that double (`ofText?_text`).
-/

namespace DocShape

/-- The exponent of a number: the letter `e` in either case, a sign or none, and digits. -/
structure Exponent where
  letter : CodePoint
  sign : Text
  digits : Text
  isLetter : letter = CodePoint.ofChar 'e' ∨ letter = CodePoint.ofChar 'E'
  isSign : sign = [] ∨ sign = "+" ∨ sign = "-"
  nonempty : digits ≠ []
  areDigits : ∀ c ∈ digits, c.isDigit = true

namespace Exponent

def text (e : Exponent) : Text := e.letter :: (e.sign ++ e.digits)

def value (e : Exponent) : Int :=
  if e.sign = "-" then -(Text.toNat e.digits : Int) else Text.toNat e.digits

theorem exponent?_text (e : Exponent) : Decimal.exponent? (e.sign ++ e.digits) = some e.value := by
  obtain ⟨letter, sign, digits, -, hsign, hne, hdigits⟩ := e
  obtain ⟨c, ds, rfl⟩ := List.exists_cons_of_ne_nil hne
  have hall : (c :: ds).all CodePoint.isDigit = true := List.all_eq_true.2 hdigits
  have hc : c.isDigit = true := hdigits c List.mem_cons_self
  have hplus : c ≠ CodePoint.ofChar '+' := CodePoint.ne_of_isDigit hc (by decide)
  have hminus : c ≠ CodePoint.ofChar '-' := CodePoint.ne_of_isDigit hc (by decide)
  rcases hsign with rfl | rfl | rfl
  · simp [Decimal.exponent?, value, hplus, hminus, hall, Text.ofString]
  · simp [Decimal.exponent?, value, hall, Text.ofString]
  · simp [Decimal.exponent?, value, hall, Text.ofString]

end Exponent

/-- A number as a document spells it. -/
structure Numeral where
  negative : Bool
  whole : Text
  /-- The digits after the point, which is left out where there are none. -/
  fraction : Text
  exponent : Option Exponent
  isNumeral : Text.IsNumeral whole
  areDigits : ∀ c ∈ fraction, c.isDigit = true

namespace Numeral

def signText (negative : Bool) : Text := if negative then [CodePoint.ofChar '-'] else []

/-- The point and the digits after it. -/
def fractionText (n : Numeral) : Text :=
  if n.fraction.isEmpty then [] else CodePoint.ofChar '.' :: n.fraction

def exponentText (n : Numeral) : Text := n.exponent.elim [] Exponent.text

def unsigned (n : Numeral) : Text := n.whole ++ (n.fractionText ++ n.exponentText)

def text (n : Numeral) : Text := signText n.negative ++ n.unsigned

/-- Neither a fraction nor an exponent. -/
def IsInteger (n : Numeral) : Prop := n.fraction = [] ∧ n.exponent = none

instance (n : Numeral) : Decidable n.IsInteger :=
  decidable_of_iff (n.fraction = [] ∧ n.exponent.isNone = true) (by simp [IsInteger])

/-- The number without its sign, as digits and a power of ten. -/
def decimal (n : Numeral) : Decimal :=
  Decimal.ofParts n.whole n.fraction (n.exponent.elim 0 Exponent.value)

/-- What a number stands for: an integer, or the nearest double. -/
def value (n : Numeral) : Number :=
  if n.IsInteger then .int (if n.negative then -(Text.toNat n.whole : Int) else Text.toNat n.whole)
  else .float (Binary64.ofDecimal n.negative n.decimal)

/-- An integer has no more digits than the limit, and another number is below the middle between the
largest double and `2^1024`, from where on the nearest double is infinite. -/
def InRange (n : Numeral) : Prop :=
  if n.IsInteger then n.whole.length ≤ digitLimit else n.decimal.exact < 2 ^ 1024 - 2 ^ 970

variable {n : Numeral}

/-! ## Digits and what follows them -/

theorem exists_cons (n : Numeral) : ∃ c t, n.unsigned = c :: t ∧ c.isDigit = true := by
  obtain ⟨c, t, ht⟩ := List.exists_cons_of_ne_nil n.isNumeral.nonempty
  refine ⟨c, t ++ (n.fractionText ++ n.exponentText), ?_, ?_⟩
  · rw [unsigned, ht, List.cons_append]
  · exact n.isNumeral.digits c (by rw [ht]; exact List.mem_cons_self)

/-- What may follow a number without being taken for a part of it. -/
def Ends (rest : Text) : Prop :=
  ∀ c ∈ rest.head?, c.isDigit = false ∧ c ≠ CodePoint.ofChar '.' ∧ c ≠ CodePoint.ofChar 'e' ∧
    c ≠ CodePoint.ofChar 'E'

theorem ends_nil : Ends [] := fun c hc => by cases hc

theorem Ends.noDigit {rest : Text} (h : Ends rest) : Text.NoDigit rest := fun c hc => (h c hc).1

/-- Behind its fraction a number goes on with the letter of its exponent, or ends. -/
theorem head_exponentText (n : Numeral) {rest : Text} (hr : Ends rest) :
    ∀ c ∈ (n.exponentText ++ rest).head?, c.isDigit = false ∧ c ≠ CodePoint.ofChar '.' := by
  intro c hc
  cases he : n.exponent with
  | none =>
    rw [exponentText, he] at hc
    exact ⟨(hr c hc).1, (hr c hc).2.1⟩
  | some e =>
    rw [exponentText, he] at hc
    obtain rfl : e.letter = c := Option.some.inj hc
    rcases e.isLetter with h | h <;> rw [h] <;> decide

/-- Behind its digits a number goes on with a point, with the letter of its exponent, or ends. -/
theorem noDigit_fractionText (n : Numeral) {rest : Text} (hr : Text.NoDigit rest) :
    Text.NoDigit (n.fractionText ++ rest) := by
  unfold fractionText
  split
  · exact hr
  · intro c hc
    obtain rfl := Option.some.inj hc
    rfl

/-! ## Reading a number as a double -/

/-- The text of a number without its sign is read as its digits and its power of ten. -/
theorem decimal_ofText?_unsigned (n : Numeral) : Decimal.ofText? n.unsigned = some n.decimal := by
  have hafter : Text.NoDigit n.exponentText := fun c hc =>
    (head_exponentText n ends_nil c (by rwa [List.append_nil])).1
  have htake : n.unsigned.takeWhile CodePoint.isDigit = n.whole :=
    Text.takeWhile_isDigit n.isNumeral.digits (n.noDigit_fractionText hafter)
  have hdrop : n.unsigned.dropWhile CodePoint.isDigit = n.fractionText ++ n.exponentText :=
    Text.dropWhile_isDigit n.isNumeral.digits (n.noDigit_fractionText hafter)
  have hfraction := Text.takeWhile_isDigit n.areDigits hafter
  have hrest := Text.dropWhile_isDigit n.areDigits hafter
  have hwhole : n.whole.isEmpty = false := List.isEmpty_eq_false_iff.2 n.isNumeral.nonempty
  have hexponent (e : Exponent) :
      (if e.letter = CodePoint.ofChar 'e' ∨ e.letter = CodePoint.ofChar 'E' then
        (Decimal.exponent? (e.sign ++ e.digits)).map (Decimal.ofParts n.whole n.fraction)
      else none) = some (Decimal.ofParts n.whole n.fraction e.value) := by
    rw [if_pos e.isLetter, e.exponent?_text]
    rfl
  obtain ⟨negative, whole, fraction, exponent, _, _⟩ := n
  simp only [Decimal.ofText?, htake, hdrop]
  cases fraction with
  | nil =>
    -- there is no point, so the exponent follows the digits at once
    cases exponent with
    | none => simp [fractionText, exponentText, decimal, hwhole]
    | some e =>
      have hpoint : e.letter ≠ CodePoint.ofChar '.' := by
        rcases e.isLetter with h | h <;> rw [h] <;> decide
      simp only [fractionText, exponentText, decimal] at hwhole hexponent ⊢
      simp [Exponent.text, hwhole, hpoint, hexponent]
  | cons d ds =>
    simp only [fractionText, List.isEmpty_cons, Bool.false_eq_true, ↓reduceIte, List.cons_append]
    simp only [List.cons_append] at hfraction hrest
    rw [hfraction, hrest]
    cases exponent with
    | none => simp [exponentText, decimal]
    | some e =>
      simp only [exponentText, decimal] at hexponent ⊢
      simp [Exponent.text, hexponent]

/-- What begins with a digit is no word for a number that is not finite. -/
theorem toLowerAscii_ne_word {c : CodePoint} (h : c.isDigit = true) (t : Text) {w : CodePoint}
    (hw : w.isDigit = false) (ws : Text) : (c :: t).map CodePoint.toLowerAscii ≠ w :: ws := by
  intro heq
  have hval : 0x30 ≤ c.val ∧ c.val ≤ 0x39 := by
    simpa [CodePoint.isDigit] using h
  have hlower : c.toLowerAscii = c := by
    rw [CodePoint.toLowerAscii, if_neg]
    simp
    omega
  rw [List.map_cons, hlower] at heq
  exact CodePoint.ne_of_isDigit h hw (List.cons.inj heq).1

theorem splitSign_text (n : Numeral) : Binary64.splitSign n.text = (n.negative, n.unsigned) := by
  obtain ⟨c, t, hct, hc⟩ := n.exists_cons
  have hminus : c ≠ CodePoint.ofChar '-' := CodePoint.ne_of_isDigit hc (by decide)
  have hplus : c ≠ CodePoint.ofChar '+' := CodePoint.ne_of_isDigit hc (by decide)
  rw [text, hct]
  cases n.negative with
  | true => rfl
  | false => simp [signText, Binary64.splitSign, hminus, hplus]

/-- The text of a number is read as the double nearest to it. -/
theorem ofText?_text (n : Numeral) :
    Binary64.ofText? n.text = some (Binary64.ofDecimal n.negative n.decimal) := by
  obtain ⟨c, t, hct, hc⟩ := n.exists_cons
  have hword {w : CodePoint} (hw : w.isDigit = false) (ws : Text) :
      n.unsigned.map CodePoint.toLowerAscii ≠ w :: ws := by
    rw [hct]
    exact toLowerAscii_ne_word hc t hw ws
  have hinf : n.unsigned.map CodePoint.toLowerAscii ≠ "inf" := hword (by decide) _
  have hinfinity : n.unsigned.map CodePoint.toLowerAscii ≠ "infinity" := hword (by decide) _
  have hnan : n.unsigned.map CodePoint.toLowerAscii ≠ "nan" := hword (by decide) _
  simp only [Binary64.ofText?, splitSign_text, hinf, hinfinity, hnan, or_self, ↓reduceIte,
    decimal_ofText?_unsigned, Option.map_some]

end Numeral

end DocShape
