import DocShape.Proofs.Json.Strings

/-!
# Numbers

The reader of numbers takes a number to its end, provided that what follows cannot be a part of it
(`Numeral.Ends`), and finds its parts (`numberParts?_text`); whatever parts it finds are those of a
number (`exists_numeral`). In the strict dialect a number has a value exactly if it is in range
(`value_parts_iff`).
-/

namespace DocShape

namespace Json

/-- The parts of a number as the reader finds them. -/
def numeralParts (n : Numeral) : NumberParts :=
  ⟨n.negative, n.whole, n.fractionText, n.exponentText⟩

theorem text_numeralParts (n : Numeral) : (numeralParts n).text = n.text := by
  rw [numeralParts, NumberParts.text, Numeral.text, Numeral.unsigned, Numeral.signText,
    List.append_assoc, List.append_assoc]

/-! ## The parts of a number that ends -/

theorem wholeDigits_append {whole rest : Text} (h : Text.IsNumeral whole) (hr : Text.NoDigit rest) :
    wholeDigits (whole ++ rest) = whole := by
  obtain ⟨c, ds, rfl⟩ := List.exists_cons_of_ne_nil h.nonempty
  have hc : c.isDigit = true := h.digits c List.mem_cons_self
  have hds : ∀ d ∈ ds, d.isDigit = true := fun d hd => h.digits d (List.mem_cons_of_mem _ hd)
  rw [List.cons_append, wholeDigits]
  by_cases h0 : c = CodePoint.ofChar '0'
  · have hlen := h.noLeadingZero (by rw [List.head?_cons, h0])
    rw [List.length_cons] at hlen
    rw [if_pos h0, List.length_eq_zero_iff.1 (Nat.succ.inj hlen)]
  · rw [if_neg h0, if_pos hc, Text.takeWhile_isDigit hds hr]

theorem fractionDigits_of_ends {rest : Text} (h : ∀ c ∈ rest.head?, c ≠ CodePoint.ofChar '.') :
    fractionDigits rest = [] := by
  unfold fractionDigits
  split
  · next p d rest =>
    rw [if_neg]
    intro hp
    exact h p rfl hp.1
  · rfl

theorem fractionDigits_fractionText (n : Numeral) {rest : Text} (hr : Text.NoDigit rest)
    (hp : ∀ c ∈ rest.head?, c ≠ CodePoint.ofChar '.') :
    fractionDigits (n.fractionText ++ rest) = n.fractionText := by
  obtain ⟨negative, whole, fraction, exponent, hwhole, hfraction⟩ := n
  cases fraction with
  | nil => exact fractionDigits_of_ends hp
  | cons d ds =>
    obtain ⟨hd, hds⟩ := List.forall_mem_cons.1 hfraction
    simp only [Numeral.fractionText, List.isEmpty_cons, Bool.false_eq_true, ↓reduceIte,
      List.cons_append, fractionDigits, hd, and_self]
    rw [Text.takeWhile_isDigit hds hr]

theorem exponentDigits_of_ends {rest : Text} (h : Numeral.Ends rest) : exponentDigits rest = [] := by
  cases rest with
  | nil => rfl
  | cons c rest =>
    have hc := h c rfl
    unfold exponentDigits
    simp only
    rw [if_neg]
    rintro (he | he)
    · exact hc.2.2.1 he
    · exact hc.2.2.2 he

theorem exponentDigits_text (e : Exponent) {rest : Text} (hr : Text.NoDigit rest) :
    exponentDigits (e.text ++ rest) = e.text := by
  obtain ⟨letter, sign, digits, hletter, hsign, hne, hdigits⟩ := e
  obtain ⟨c, ds, rfl⟩ := List.exists_cons_of_ne_nil hne
  have hc : c.isDigit = true := hdigits c List.mem_cons_self
  have htake := Text.takeWhile_isDigit hdigits hr
  have hplus : c ≠ CodePoint.ofChar '+' := CodePoint.ne_of_isDigit hc (by decide)
  have hminus : c ≠ CodePoint.ofChar '-' := CodePoint.ne_of_isDigit hc (by decide)
  rw [List.cons_append] at htake
  rcases hsign with rfl | rfl | rfl
  · simp [exponentDigits, Exponent.text, hletter, hplus, hminus, htake]
  · simp [exponentDigits, Exponent.text, hletter, Text.ofString, htake]
  · simp [exponentDigits, Exponent.text, hletter, Text.ofString, htake]

theorem exponentDigits_exponentText (n : Numeral) {rest : Text} (hr : Numeral.Ends rest) :
    exponentDigits (n.exponentText ++ rest) = n.exponentText := by
  rw [Numeral.exponentText]
  cases n.exponent with
  | none => exact exponentDigits_of_ends hr
  | some e => exact exponentDigits_text e hr.noDigit

/-- The parts of a number behind its sign. -/
def unsignedParts? (negative : Bool) (t : Text) : Option NumberParts :=
  let whole := wholeDigits t
  let afterWhole := t.drop whole.length
  let fraction := fractionDigits afterWhole
  if whole.isEmpty then none
  else some ⟨negative, whole, fraction, exponentDigits (afterWhole.drop fraction.length)⟩

theorem numberParts?_minus (t : Text) :
    numberParts? (CodePoint.ofChar '-' :: t) = unsignedParts? true t := rfl

theorem numberParts?_of_ne_minus {c : CodePoint} (h : c ≠ CodePoint.ofChar '-') (t : Text) :
    numberParts? (c :: t) = unsignedParts? false (c :: t) := by
  rw [numberParts?, if_neg h]
  rfl

theorem unsignedParts?_unsigned (n : Numeral) {rest : Text} (hr : Numeral.Ends rest) :
    unsignedParts? n.negative (n.unsigned ++ rest) = some (numeralParts n) := by
  have htail : Text.NoDigit (n.exponentText ++ rest) := fun c hc =>
    (n.head_exponentText hr c hc).1
  have hsplit : n.unsigned ++ rest = n.whole ++ (n.fractionText ++ (n.exponentText ++ rest)) := by
    simp [Numeral.unsigned]
  have hw := wholeDigits_append n.isNumeral (n.noDigit_fractionText htail)
  have hf := fractionDigits_fractionText n htail fun c hc => (n.head_exponentText hr c hc).2
  have he := exponentDigits_exponentText n hr
  have hempty : n.whole.isEmpty = false := List.isEmpty_eq_false_iff.2 n.isNumeral.nonempty
  rw [hsplit]
  simp only [unsignedParts?, hw, List.drop_left, hf, he, hempty, Bool.false_eq_true, ↓reduceIte]
  rfl

/-- The reader finds the parts of a number when nothing behind it belongs to it. -/
theorem numberParts?_text (n : Numeral) {rest : Text} (hr : Numeral.Ends rest) :
    numberParts? (n.text ++ rest) = some (numeralParts n) := by
  have hparts := unsignedParts?_unsigned n hr
  obtain ⟨c, t, hct, hc⟩ := n.exists_cons
  rw [Numeral.text, List.append_assoc]
  cases hn : n.negative with
  | true =>
    rw [hn] at hparts
    exact (numberParts?_minus _).trans hparts
  | false =>
    rw [hn, hct] at hparts
    rw [hct]
    exact (numberParts?_of_ne_minus (CodePoint.ne_of_isDigit hc (by decide)) _).trans hparts

/-! ## What is found are the parts of a number -/

theorem wholeDigits_prefix (t : Text) : wholeDigits t <+: t := by
  unfold wholeDigits
  split
  · exact List.prefix_refl _
  · next c rest =>
    split
    · exact List.prefix_append [c] rest
    split
    · exact (List.prefix_cons_inj c).2 (List.takeWhile_prefix _)
    · exact List.nil_prefix

theorem isNumeral_wholeDigits {t : Text} (h : wholeDigits t ≠ []) :
    Text.IsNumeral (wholeDigits t) := by
  unfold wholeDigits at h ⊢
  split at h
  · exact absurd rfl h
  · next c rest =>
    split at h
    · next h0 =>
      rw [if_pos h0]
      refine ⟨by simp, fun d hd => ?_, fun _ => rfl⟩
      rw [List.mem_singleton.1 hd, h0]
      decide
    · next h0 =>
      split at h
      · next hc =>
        rw [if_neg h0, if_pos hc]
        refine ⟨by simp, fun d hd => ?_, fun h => absurd (Option.some.inj h) h0⟩
        rcases List.mem_cons.1 hd with rfl | hd
        · exact hc
        · exact List.all_eq_true.1 List.all_takeWhile d hd
      · exact absurd rfl h

/-- A fraction that is found is empty or a point with digits behind it, and stands at the front. -/
theorem exists_fraction (t : Text) : ∃ digits : Text, (∀ c ∈ digits, c.isDigit = true) ∧
    fractionDigits t = (if digits.isEmpty then [] else CodePoint.ofChar '.' :: digits) ∧
    fractionDigits t <+: t := by
  have hnone : ∃ digits : Text, (∀ c ∈ digits, c.isDigit = true) ∧
      [] = (if digits.isEmpty then [] else CodePoint.ofChar '.' :: digits) ∧ [] <+: t :=
    ⟨[], nofun, rfl, List.nil_prefix⟩
  unfold fractionDigits
  split
  · next p d rest =>
    split
    · next h =>
      obtain ⟨rfl, hd⟩ := h
      refine ⟨d :: rest.takeWhile CodePoint.isDigit, List.forall_mem_cons.2 ⟨hd, fun c hc => ?_⟩,
        rfl, ?_⟩
      · exact List.all_eq_true.1 List.all_takeWhile c hc
      · exact (List.prefix_cons_inj _).2 ((List.prefix_cons_inj d).2 (List.takeWhile_prefix _))
    · exact hnone
  · exact hnone

/-- Behind the letter of an exponent there is a sign or none, and then digits. -/
theorem exponentDigits_cons {letter : CodePoint}
    (h : letter = CodePoint.ofChar 'e' ∨ letter = CodePoint.ofChar 'E') (rest : Text) :
    ∃ sign : Text, (sign = [] ∨ sign = "+" ∨ sign = "-") ∧ sign <+: rest ∧
      exponentDigits (letter :: rest) =
        if ((rest.drop sign.length).takeWhile CodePoint.isDigit).isEmpty then []
        else letter :: (sign ++ (rest.drop sign.length).takeWhile CodePoint.isDigit) := by
  cases rest with
  | nil => exact ⟨[], .inl rfl, List.nil_prefix, if_pos h⟩
  | cons s rest =>
    by_cases hs : s = CodePoint.ofChar '+' ∨ s = CodePoint.ofChar '-'
    · have hsign : [s] = Text.ofString "+" ∨ [s] = Text.ofString "-" :=
        hs.imp (congrArg fun c => [c]) (congrArg fun c => [c])
      refine ⟨[s], .inr hsign, List.prefix_append [s] rest, ?_⟩
      rw [exponentDigits, if_pos h]
      simp only [if_pos hs]
      rfl
    · refine ⟨[], .inl rfl, List.nil_prefix, ?_⟩
      rw [exponentDigits, if_pos h]
      simp only [if_neg hs]
      rfl

/-- An exponent that is found is one, and stands at the front. -/
theorem exists_exponent (t : Text) : ∃ e : Option Exponent,
    exponentDigits t = e.elim [] Exponent.text ∧ exponentDigits t <+: t := by
  cases t with
  | nil => exact ⟨none, rfl, List.nil_prefix⟩
  | cons letter rest =>
    by_cases hletter : letter = CodePoint.ofChar 'e' ∨ letter = CodePoint.ofChar 'E'
    · obtain ⟨sign, hsign, hprefix, heq⟩ := exponentDigits_cons hletter rest
      rw [heq]
      split
      · exact ⟨none, rfl, List.nil_prefix⟩
      · next hne =>
        refine ⟨some ⟨letter, sign, (rest.drop sign.length).takeWhile CodePoint.isDigit, hletter,
          hsign, fun h => hne (List.isEmpty_iff.2 h), List.all_eq_true.1 List.all_takeWhile⟩, rfl,
          (List.prefix_cons_inj letter).2 ?_⟩
        obtain ⟨more, rfl⟩ := hprefix
        rw [List.drop_left]
        exact (List.prefix_append_right_inj sign).2 (List.takeWhile_prefix _)
    · have heq : exponentDigits (letter :: rest) = [] := if_neg hletter
      rw [heq]
      exact ⟨none, rfl, List.nil_prefix⟩

/-- The parts found behind a sign are those of a number. Each part stands at the front of what the one
before it leaves. -/
theorem exists_numeral_of_unsignedParts? {negative : Bool} {t : Text} {p : NumberParts}
    (h : unsignedParts? negative t = some p) :
    ∃ n rest, n.negative = negative ∧ numeralParts n = p ∧ t = n.unsigned ++ rest := by
  simp only [unsignedParts?] at h
  split at h
  · cases h
  next hwhole =>
  obtain rfl := Option.some.inj h
  have hne : wholeDigits t ≠ [] := fun h => hwhole (List.isEmpty_iff.2 h)
  obtain ⟨afterWhole, ht⟩ := wholeDigits_prefix t
  have hafterWhole : t.drop (wholeDigits t).length = afterWhole :=
    (congrArg (List.drop _) ht).symm.trans List.drop_left
  obtain ⟨fraction, hdigits, hfraction, afterFraction, hafter⟩ := exists_fraction afterWhole
  have hafterFraction : afterWhole.drop (fractionDigits afterWhole).length = afterFraction :=
    (congrArg (List.drop _) hafter).symm.trans List.drop_left
  obtain ⟨exponent, hexponent, rest, hrest⟩ := exists_exponent afterFraction
  let n : Numeral :=
    ⟨negative, wholeDigits t, fraction, exponent, isNumeral_wholeDigits hne, hdigits⟩
  have hfractionText : n.fractionText = fractionDigits afterWhole := hfraction.symm
  have hexponentText : n.exponentText = exponentDigits afterFraction := hexponent.symm
  refine ⟨n, rest, rfl, ?_, ?_⟩
  · rw [numeralParts, hfractionText, hexponentText, hafterWhole, hafterFraction]
  · rw [Numeral.unsigned, hfractionText, hexponentText, List.append_assoc, List.append_assoc, hrest,
      hafter, ht]

/-- What the reader finds are the parts of a number at the front of the text. -/
theorem exists_numeral {t : Text} {p : NumberParts} (h : numberParts? t = some p) :
    ∃ n, numeralParts n = p ∧ t = n.text ++ t.drop n.text.length := by
  have hsign : ∃ negative unsigned, t = Numeral.signText negative ++ unsigned ∧
      unsignedParts? negative unsigned = some p := by
    cases t with
    | nil => exact ⟨false, [], rfl, h⟩
    | cons c t =>
      by_cases hc : c = CodePoint.ofChar '-'
      · rw [hc, numberParts?_minus] at h
        exact ⟨true, t, by rw [hc]; rfl, h⟩
      · rw [numberParts?_of_ne_minus hc] at h
        exact ⟨false, c :: t, rfl, h⟩
  obtain ⟨negative, unsigned, rfl, hparts⟩ := hsign
  obtain ⟨n, rest, rfl, hn, rfl⟩ := exists_numeral_of_unsignedParts? hparts
  refine ⟨n, hn, ?_⟩
  rw [← List.append_assoc, ← Numeral.text, List.drop_left]

/-! ## The value of a number -/

theorem isInteger_iff {n : Numeral} : n.IsInteger ↔
    ((numeralParts n).fraction.isEmpty && (numeralParts n).exponent.isEmpty) = true := by
  obtain ⟨negative, whole, fraction, exponent, hwhole, hfraction⟩ := n
  cases fraction <;> cases exponent <;>
    simp [Numeral.IsInteger, numeralParts, Numeral.fractionText, Numeral.exponentText, Exponent.text]

/-- A number in range has its value in every dialect. -/
theorem value_parts {n : Numeral} (h : n.InRange) (dialect : Dialect) :
    (numeralParts n).value dialect = .ok (.ofNumber n.value) := by
  rw [NumberParts.value, text_numeralParts, n.ofText?_text]
  by_cases hint : n.IsInteger
  · rw [Numeral.InRange, if_pos hint] at h
    have hlen : (numeralParts n).whole.length ≤ digitLimit := h
    rw [if_pos (isInteger_iff.1 hint), if_pos hlen, Numeral.value, if_pos hint]
    rfl
  · rw [Numeral.InRange, if_neg hint] at h
    have hfinite : (Binary64.ofDecimal n.negative n.decimal).isFinite = true :=
      Binary64.isFinite_ofDecimal_iff.2 h
    rw [if_neg fun h => hint (isInteger_iff.2 h), Numeral.value, if_neg hint]
    simp only [hfinite, Bool.not_true, Bool.false_eq_true, and_false, ↓reduceIte]
    rfl

/-- In the strict dialect only a number in range has a value. -/
theorem inRange_of_value {n : Numeral} {v : Value} (h : (numeralParts n).value .strict = .ok v) :
    n.InRange ∧ v = .ofNumber n.value := by
  suffices hrange : n.InRange from
    ⟨hrange, (Except.ok.inj ((value_parts hrange .strict).symm.trans h)).symm⟩
  rw [NumberParts.value, text_numeralParts, n.ofText?_text] at h
  rw [Numeral.InRange]
  split at h
  · next hempty =>
    rw [if_pos (isInteger_iff.2 hempty)]
    split at h
    · next hlen => exact hlen
    · cases h
  · next hempty =>
    rw [if_neg fun h => hempty (isInteger_iff.1 h)]
    simp only at h
    split at h
    · cases h
    · next hfinite => exact Binary64.isFinite_ofDecimal_iff.1 (by simpa using hfinite)

/-! ## Numbers and words -/

theorem find?_words (negative : Bool) {c : CodePoint} (hc : c.isDigit = true) (t : Text) :
    words.find? (fun w => w.1.isPrefixOf (Numeral.signText negative ++ c :: t)) = none := by
  -- no word begins with a digit, nor with a sign and a digit
  have hne (d : Char) (hd : (CodePoint.ofChar d).isDigit = false) :
      (CodePoint.ofChar d == c) = false := by
    rw [beq_eq_false_iff_ne]
    exact (CodePoint.ne_of_isDigit hc hd).symm
  have hn := hne 'n' (by decide)
  have ht := hne 't' (by decide)
  have hf := hne 'f' (by decide)
  have hN := hne 'N' (by decide)
  have hI := hne 'I' (by decide)
  have hminus := hne '-' (by decide)
  cases negative with
  | true => simp [words, Numeral.signText, Text.ofString, List.isPrefixOf, hI]
  | false => simp [words, Numeral.signText, Text.ofString, List.isPrefixOf, hn, ht, hf, hN, hI, hminus]

/-- A number in range is read as its value. -/
theorem scalar_numeral (dialect : Dialect) {n : Numeral} (h : n.InRange) {rest : Text}
    (hr : Numeral.Ends rest) (offset : Nat) :
    Leaves (scalar dialect ⟨n.text ++ rest, offset⟩) (.ofNumber n.value) rest := by
  obtain ⟨c, t, hct, hc⟩ := n.exists_cons
  have hwords : words.find? (fun w => w.1.isPrefixOf (n.text ++ rest)) = none := by
    rw [Numeral.text, hct, List.append_assoc]
    exact find?_words n.negative hc _
  refine ⟨offset + n.text.length, ?_⟩
  unfold scalar
  simp only [hwords, numberParts?_text n hr, value_parts h, text_numeralParts, Input.drop,
    List.drop_left]
  rfl

theorem word_of_find? {t word : Text} {v : Value}
    (h : words.find? (fun w => w.1.isPrefixOf t) = some (word, v)) :
    (word, v) ∈ words ∧ t = word ++ t.drop word.length := by
  have hfront : word.isPrefixOf t = true := by simpa using List.find?_some h
  exact ⟨List.mem_of_find?_eq_some h,
    (List.prefix_iff_eq_append.1 (List.isPrefixOf_iff_prefix.1 hfront)).symm⟩

/-- What is read as a number or a word in the strict dialect is a number in range, `null`, `true` or
`false`. -/
theorem tree_of_scalar {i j : Input} {v : Value} (h : scalar .strict i = .ok (v, j)) :
    ∃ tree : Tree, (tree.InRange ∧ tree.depth = 0) ∧ tree.value = v ∧
      i.rest = tree.text ++ j.rest := by
  unfold scalar at h
  split at h
  · next word w hfind =>
    split at h
    · cases h
    · next hnumber =>
      obtain ⟨rfl, rfl⟩ := Prod.mk.inj (Except.ok.inj h)
      obtain ⟨hmem, hrest⟩ := word_of_find? hfind
      simp only [words, List.mem_cons, Prod.mk.injEq, List.not_mem_nil, or_false] at hmem
      rcases hmem with ⟨rfl, rfl⟩ | ⟨rfl, rfl⟩ | ⟨rfl, rfl⟩ | ⟨-, rfl⟩ | ⟨-, rfl⟩ | ⟨-, rfl⟩
      · exact ⟨.null, ⟨.of_null, rfl⟩, rfl, hrest⟩
      · exact ⟨.bool true, ⟨.of_bool true, rfl⟩, rfl, hrest⟩
      · exact ⟨.bool false, ⟨.of_bool false, rfl⟩, rfl, hrest⟩
      all_goals exact absurd ⟨rfl, rfl⟩ hnumber
  · split at h
    · cases h
    · next p hp =>
      obtain ⟨w, hw, hj⟩ := Except.bind_eq_ok.1 h
      obtain ⟨rfl, rfl⟩ := Prod.mk.inj (Except.ok.inj hj)
      obtain ⟨n, rfl, hrest⟩ := exists_numeral hp
      obtain ⟨hrange, rfl⟩ := inRange_of_value hw
      rw [text_numeralParts]
      exact ⟨.number n, ⟨Tree.InRange.number_iff.2 hrange, rfl⟩, rfl, hrest⟩

end Json

end DocShape
