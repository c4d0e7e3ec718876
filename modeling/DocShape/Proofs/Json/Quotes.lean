import DocShape.Proofs.Json.Strings
import DocShape.Proofs.Text.Surrogates

/-!
# Written strings

`Json.quote` writes a text as parts that stand for it (`exists_parts_quote`). Where characters are written as
they are, this holds of lone surrogates too, as none of the parts is an escaped high surrogate. In ASCII, a
high surrogate and a low one behind it are written like the character of the pair (`quote_joined`), so
there it holds of texts in which no such pair stands.
-/

namespace DocShape.Json

/-! ## Code units -/

theorem hexValue?_digitChar {d : Nat} (h : d < 16) :
    (CodePoint.ofChar d.digitChar).hexValue? = some d := by
  have : ∀ d < 16, (CodePoint.ofChar (Nat.digitChar d)).hexValue? = some d := by decide
  exact this d h

/-- Four hexadecimal digits of a number are its code unit. -/
theorem exists_codeUnit {n : Nat} (h : n < 0x10000) :
    ∃ u : CodeUnit, u.digits = Text.hex4 n ∧ u.code.val = n := by
  have hdigit {d : Nat} := hexValue?_digitChar (d := d % 16) (Nat.mod_lt _ (by decide))
  have hhex : ∀ c ∈ Text.hex4 n, c.isHexDigit = true := by
    simp only [Text.hex4, Text.hex2, List.map_cons, List.map_nil, List.cons_append, List.nil_append]
    simp [CodePoint.isHexDigit, hdigit]
  refine ⟨⟨Text.hex4 n, rfl, hhex⟩, rfl, ?_⟩
  have hcode : (Text.hex4 n).foldl (fun n c => n * 16 + c.hexValue?.getD 0) 0 = n := by
    simp only [Text.hex4, Text.hex2, List.map_cons, List.map_nil, List.cons_append, List.nil_append,
      List.foldl_cons, List.foldl_nil, hdigit, Option.getD_some]
    omega
  rw [CodeUnit.code, hcode]
  exact CodePoint.val_ofNat (by omega)

theorem isHighSurrogate_of_isHigh {p : StringPart} (h : p.isHigh = true) :
    p.code.isHighSurrogate = true := by
  cases p with
  | unit u => exact h
  | _ => cases h

theorem isLowSurrogate_of_isLow {p : StringPart} (h : p.isLow = true) :
    p.code.isLowSurrogate = true := by
  cases p with
  | unit u => exact h
  | _ => cases h

/-! ## Characters -/

/-- A character in the reach of one code unit is escaped as a part that stands for it. -/
theorem exists_part_escape {asciiOnly : Bool} {c : CodePoint}
    (hc : asciiOnly = true → c.val < 0x10000) :
    ∃ p : StringPart, p.text = escape asciiOnly c ∧ p.code = c ∧
      (p.isHigh = true → asciiOnly = true) := by
  have hunit (hreach : c.val < 0x10000) :
      ∃ u : CodeUnit, (StringPart.unit u).text = codeUnit c.val ∧ u.code = c := by
    obtain ⟨u, hdigits, hval⟩ := exists_codeUnit hreach
    exact ⟨u, by rw [StringPart.text, hdigits]; rfl, Fin.ext hval⟩
  have hnone : (false = true) → asciiOnly = true := fun h => absurd h Bool.false_ne_true
  unfold escape
  split
  · next h =>
    refine ⟨.short c c ?_, rfl, rfl, hnone⟩
    rcases h with rfl | rfl <;> simp [shortEscapes]
  split
  · next h => exact ⟨.short 'n' c (by rw [h]; simp [shortEscapes]), rfl, rfl, hnone⟩
  split
  · next h => exact ⟨.short 'r' c (by rw [h]; simp [shortEscapes]), rfl, rfl, hnone⟩
  split
  · next h => exact ⟨.short 't' c (by rw [h]; simp [shortEscapes]), rfl, rfl, hnone⟩
  split
  · next h =>
    obtain rfl : c = CodePoint.ofChar '\x08' := Fin.ext h
    exact ⟨.short 'b' _ (by decide), rfl, rfl, hnone⟩
  split
  · next h =>
    obtain rfl : c = CodePoint.ofChar '\x0c' := Fin.ext h
    exact ⟨.short 'f' _ (by decide), rfl, rfl, hnone⟩
  split
  · next h =>
    obtain ⟨u, htext, hcode⟩ := hunit (by omega)
    refine ⟨.unit u, htext, hcode, fun hhigh => ?_⟩
    have hhigh := isHighSurrogate_of_isHigh hhigh
    rw [StringPart.code, hcode, CodePoint.isHighSurrogate_iff] at hhigh
    omega
  · next hquote _ _ _ _ _ hcontrol =>
    split
    · next hascii =>
      simp only [Bool.and_eq_true] at hascii
      rw [if_pos (hc hascii.1)]
      obtain ⟨u, htext, hcode⟩ := hunit (hc hascii.1)
      exact ⟨.unit u, htext, hcode, fun _ => hascii.1⟩
    · exact ⟨.plain c ⟨Nat.not_lt.1 hcontrol, fun h => hquote (.inl h), fun h => hquote (.inr h)⟩,
        rfl, rfl, hnone⟩

theorem escape_of_not_ascii {c : CodePoint} (hc : 0x7E < c.val) :
    escape true c = if c.val < 0x10000 then codeUnit c.val
      else codeUnit (0xD800 + (c.val - 0x10000) / 0x400) ++
        codeUnit (0xDC00 + (c.val - 0x10000) % 0x400) := by
  have hne {d : Char} (hd : d.toNat ≤ 0x7E) : c ≠ CodePoint.ofChar d := by
    rintro rfl
    exact absurd hc (Nat.not_lt.2 hd)
  have hspecial : ¬ (c = CodePoint.ofChar '"' ∨ c = CodePoint.ofChar '\\') :=
    not_or.2 ⟨hne (by decide), hne (by decide)⟩
  have hascii : (true && decide (0x7E < c.val)) = true := by simp [hc]
  unfold escape
  rw [if_neg hspecial, if_neg (hne (by decide)), if_neg (hne (by decide)), if_neg (hne (by decide)),
    if_neg (by omega), if_neg (by omega), if_neg (by omega), if_pos hascii]

theorem escape_surrogate {c : CodePoint} (hc : c.isSurrogate = true) :
    escape true c = codeUnit c.val := by
  rw [CodePoint.isSurrogate_iff] at hc
  rw [escape_of_not_ascii (by omega), if_pos (by omega)]

/-- In ASCII a pair of surrogates is escaped like the character that it encodes. -/
theorem escape_joinSurrogates {c d : CodePoint} (hc : c.isHighSurrogate = true)
    (hd : d.isLowSurrogate = true) :
    escape true (Encoding.joinSurrogates c d) = escape true c ++ escape true d := by
  have hval := CodePoint.val_joinSurrogates hc hd
  rw [escape_surrogate (CodePoint.isSurrogate_of_high hc),
    escape_surrogate (CodePoint.isSurrogate_of_low hd)]
  rw [CodePoint.isHighSurrogate_iff] at hc
  rw [CodePoint.isLowSurrogate_iff] at hd
  have hfirst : 0xD800 + ((Encoding.joinSurrogates c d).val - 0x10000) / 0x400 = c.val := by omega
  have hsecond : 0xDC00 + ((Encoding.joinSurrogates c d).val - 0x10000) % 0x400 = d.val := by omega
  rw [escape_of_not_ascii (by omega), if_neg (by omega), hfirst, hsecond]

/-- In ASCII a character beyond the reach of one code unit is escaped as a pair that is joined to it. -/
theorem exists_pair_escape {c : CodePoint} (hc : 0x10000 ≤ c.val) :
    ∃ u v : CodeUnit, (StringPart.unit u).text ++ (StringPart.unit v).text = escape true c ∧
      u.code.isHighSurrogate = true ∧ v.code.isLowSurrogate = true ∧
      Encoding.joinSurrogates u.code v.code = c := by
  have hbound := c.isLt
  obtain ⟨u, hu, huval⟩ := exists_codeUnit (n := 0xD800 + (c.val - 0x10000) / 0x400) (by omega)
  obtain ⟨v, hv, hvval⟩ := exists_codeUnit (n := 0xDC00 + (c.val - 0x10000) % 0x400) (by omega)
  have hhigh : u.code.isHighSurrogate = true := by
    rw [CodePoint.isHighSurrogate_iff]
    omega
  have hlow : v.code.isLowSurrogate = true := by
    rw [CodePoint.isLowSurrogate_iff]
    omega
  refine ⟨u, v, ?_, hhigh, hlow, Fin.ext ?_⟩
  · rw [escape_of_not_ascii (by omega), if_neg (by omega), StringPart.text, StringPart.text, hu, hv]
    rfl
  · rw [CodePoint.val_joinSurrogates hhigh hlow]
    omega

/-! ## Texts -/

/-- What is written in quotes are the parts of a string that stand for the text. -/
theorem exists_parts_quote {asciiOnly : Bool} {t : Text} (ht : asciiOnly = true → t.IsJoined) :
    ∃ ps, stringText ps = quote asciiOnly t ∧ decode ps = t := by
  suffices h : ∃ ps : List StringPart, ps.flatMap StringPart.text = t.flatMap (escape asciiOnly) ∧
      decode ps = t ∧ ∀ p ∈ ps.head?, p.isLow = true → ∃ c ∈ t.head?, c.isLowSurrogate = true by
    obtain ⟨ps, htext, hdecode, -⟩ := h
    exact ⟨ps, by rw [stringText, htext]; rfl, hdecode⟩
  induction t with
  | nil => exact ⟨[], rfl, rfl, fun p hp => by cases hp⟩
  | cons c t ih =>
    obtain ⟨ps, htext, hdecode, hhead⟩ := ih fun h => (Text.isJoined_cons.1 (ht h)).2
    by_cases hc : asciiOnly = true → c.val < 0x10000
    · obtain ⟨p, hp, hcode, hhigh⟩ := exists_part_escape hc
      refine ⟨p :: ps, ?_, ?_, ?_⟩
      · rw [List.flatMap_cons, List.flatMap_cons, hp, htext]
      · -- an escaped high surrogate is alone, as the text is joined
        rw [decode_cons fun h q hq => ?_, hcode, hdecode]
        obtain ⟨hjoined, -⟩ := Text.isJoined_cons.1 (ht (hhigh h))
        refine Bool.eq_false_iff.2 fun hlow => ?_
        obtain ⟨d, hd, hdlow⟩ := hhead q hq hlow
        rw [hjoined (hcode ▸ isHighSurrogate_of_isHigh h) d hd] at hdlow
        cases hdlow
      · intro q hq hlow
        obtain rfl := Option.some.inj hq
        exact ⟨c, rfl, hcode ▸ isLowSurrogate_of_isLow hlow⟩
    · obtain ⟨rfl, hval⟩ := Classical.not_imp.1 hc
      obtain ⟨u, v, huv, hhigh, hlow, hjoin⟩ := exists_pair_escape (Nat.not_lt.1 hval)
      refine ⟨.unit u :: .unit v :: ps, ?_, ?_, ?_⟩
      · rw [List.flatMap_cons, List.flatMap_cons, List.flatMap_cons, htext, ← huv, List.append_assoc]
      · rw [decode, if_pos ⟨hhigh, hlow⟩, hdecode]
        exact congrArg (· :: t) hjoin
      · intro q hq hqlow
        obtain rfl := Option.some.inj hq
        rw [CodePoint.isHighSurrogate_iff] at hhigh
        have hqlow := CodePoint.isLowSurrogate_iff.1 hqlow
        omega

/-- In ASCII a text is written like the text with its pairs of surrogates joined. -/
theorem quote_joined (t : Text) : quote true t.joined = quote true t := by
  have hescapes : t.joined.flatMap (escape true) = t.flatMap (escape true) := by
    induction t using Text.joined.induct with
    | case1 => rfl
    | case2 c => rfl
    | case3 c d rest hpair ih =>
      rw [Text.joined, if_pos hpair, List.flatMap_cons, List.flatMap_cons, List.flatMap_cons, ih,
        escape_joinSurrogates hpair.1 hpair.2, List.append_assoc]
    | case4 c d rest halone ih =>
      rw [Text.joined, if_neg halone, List.flatMap_cons, ih]
      rfl
  rw [quote, quote, hescapes]

end DocShape.Json
