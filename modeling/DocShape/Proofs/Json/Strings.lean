import DocShape.Json.Reader
import DocShape.Json.Writer
import DocShape.Proofs.Json.Grammar

/-!
# Strings

The reader of strings takes the parts of a string one by one and gives what they stand for
(`string_parts`), and whatever it takes are parts of a string (`parts_of_string`). A high surrogate
that is escaped waits for the part behind it, which decides whether the two are one code point.

`Leaves r a rest` says that a reader succeeded with `a` and that `rest` is the input behind it. Where
in the document that is does not matter for what is read.
-/

namespace DocShape.Json

/-- A reader gave this result and left this input. -/
def Leaves {α : Type} (r : Except RawFault (α × Input)) (a : α) (rest : Text) : Prop :=
  ∃ offset, r = .ok (a, ⟨rest, offset⟩)

/-! ## Code units -/

theorem hexValue?_lt {c : CodePoint} {n : Nat} (h : c.hexValue? = some n) : n < 16 := by
  rw [CodePoint.hexValue?] at h
  split at h
  · next hdigit =>
    simp only [CodePoint.isDigit, Bool.and_eq_true, decide_eq_true_eq] at hdigit
    have := Option.some.inj h
    omega
  split at h
  · next hsmall =>
    simp only [Bool.and_eq_true, decide_eq_true_eq] at hsmall
    have := Option.some.inj h
    omega
  split at h
  · next hcapital =>
    simp only [Bool.and_eq_true, decide_eq_true_eq] at hcapital
    have := Option.some.inj h
    omega
  · cases h

theorem toNatBase?_eq_some_iff {digits : Text} {n : Nat} :
    Text.toNatBase? 16 digits = some n ↔ (∀ c ∈ digits, c.isHexDigit = true) ∧
      digits.foldl (fun n c => n * 16 + c.hexValue?.getD 0) 0 = n := by
  have go : ∀ (digits : Text) (m : Nat), digits.foldlM (fun n c => do
      let d ← c.hexValue?
      if d < 16 then some (n * 16 + d) else none) m = some n ↔
      (∀ c ∈ digits, c.isHexDigit = true) ∧
        digits.foldl (fun n c => n * 16 + c.hexValue?.getD 0) m = n := by
    intro digits
    induction digits with
    | nil => intro m; simp
    | cons c digits ih =>
      intro m
      rw [List.foldlM_cons, List.foldl_cons, List.forall_mem_cons, CodePoint.isHexDigit]
      cases hc : c.hexValue? with
      | none => simp
      | some d =>
        simp only [hexValue?_lt hc, ↓reduceIte, Option.bind_eq_bind, Option.bind_some,
          Option.isSome_some, true_and, Option.getD_some]
        exact ih _
  exact go digits 0

theorem CodeUnit.length_pos (u : CodeUnit) (rest : Text) : 4 ≤ (u.digits ++ rest).length := by
  rw [List.length_append, u.length_eq]
  exact Nat.le_add_right _ _

theorem CodeUnit.drop_append (u : CodeUnit) (rest : Text) : (u.digits ++ rest).drop 4 = rest := by
  rw [← u.length_eq]
  exact List.drop_left

/-- Four hexadecimal digits at the front of a text are a code unit. -/
theorem hex4?_eq_some_iff {t : Text} {c : CodePoint} :
    hex4? t = some c ↔ ∃ u : CodeUnit, u.code = c ∧ t = u.digits ++ t.drop 4 := by
  rw [hex4?]
  by_cases hlen : t.length < 4
  · rw [if_pos hlen]
    refine iff_of_false (fun h => by cases h) ?_
    rintro ⟨u, -, ht⟩
    have := u.length_pos (t.drop 4)
    rw [← ht] at this
    exact Nat.not_lt.2 this hlen
  · rw [if_neg hlen, Option.map_eq_some_iff]
    have htake : (t.take 4).length = 4 := List.length_take_of_le (Nat.not_lt.1 hlen)
    constructor
    · rintro ⟨n, hn, rfl⟩
      obtain ⟨hhex, rfl⟩ := toNatBase?_eq_some_iff.1 hn
      exact ⟨⟨t.take 4, htake, hhex⟩, rfl, (List.take_append_drop 4 t).symm⟩
    · rintro ⟨u, rfl, ht⟩
      have hdigits : t.take 4 = u.digits := by
        rw [ht, ← u.length_eq]
        exact List.take_left
      exact ⟨_, toNatBase?_eq_some_iff.2 ⟨hdigits ▸ u.areHex, rfl⟩, by rw [hdigits]; rfl⟩

theorem hex4?_digits (u : CodeUnit) (rest : Text) : hex4? (u.digits ++ rest) = some u.code :=
  hex4?_eq_some_iff.2 ⟨u, rfl, by rw [u.drop_append]⟩

/-! ## Escapes -/

theorem shortEscape?_eq_some_iff {letter c : CodePoint} :
    shortEscape? letter = some c ↔ (letter, c) ∈ shortEscapes := by
  have hall : ∀ e ∈ shortEscapes, shortEscape? e.1 = some e.2 := by
    have hcheck : (shortEscapes.all fun e => decide (shortEscape? e.1 = some e.2)) = true := by decide
    exact fun e he => of_decide_eq_true (List.all_eq_true.1 hcheck e he)
  refine ⟨fun h => ?_, fun h => hall _ h⟩
  have hletter : letter ∈ shortEscapes.map Prod.fst := by
    by_contra hne
    simp only [shortEscapes, List.map_cons, List.map_nil, List.mem_cons, List.not_mem_nil, or_false,
      not_or] at hne
    simp [shortEscape?, hne] at h
  obtain ⟨e, he, rfl⟩ := List.mem_map.1 hletter
  rw [← Option.some.inj ((hall e he).symm.trans h)]
  exact he

theorem ne_u_of_mem_shortEscapes {letter c : CodePoint} (h : (letter, c) ∈ shortEscapes) :
    letter ≠ CodePoint.ofChar 'u' := by
  rintro rfl
  have := shortEscape?_eq_some_iff.2 h
  cases this

/-- An escaped low surrogate right behind an escaped high one is taken with it. -/
theorem codeEscape_pair {u v : CodeUnit} (hu : u.code.isHighSurrogate = true)
    (hv : v.code.isLowSurrogate = true) {rest : Text} (hrest : rest ≠ []) :
    codeEscape (u.digits ++ CodePoint.ofChar '\\' :: CodePoint.ofChar 'u' :: (v.digits ++ rest)) =
      .ok (Encoding.joinSurrogates u.code v.code, 10) := by
  have hpos := List.length_pos_iff.2 hrest
  have hlen := u.length_eq
  have hlen' := v.length_eq
  have hback : (Text.ofString "\\u") = [CodePoint.ofChar '\\', CodePoint.ofChar 'u'] := rfl
  have hsix : 6 < (CodePoint.ofChar '\\' :: CodePoint.ofChar 'u' :: (v.digits ++ rest)).length := by
    simp only [List.length_cons, List.length_append]
    omega
  rw [codeEscape, if_neg (by simp only [List.length_append, List.length_cons]; omega), hex4?_digits]
  simp only [u.drop_append, hu, hsix, decide_true, Bool.and_true, List.take_succ_cons, List.take_zero,
    hback, beq_self_eq_true, ↓reduceIte, List.drop_succ_cons, List.drop_zero, hex4?_digits, hv]

/-- An escape is taken alone if it is no high surrogate or if no low one is escaped behind it. -/
theorem codeEscape_alone {u : CodeUnit} {ps : List StringPart}
    (h : u.code.isHighSurrogate = true → ∀ q ∈ ps.head?, q.isLow = false) (rest : Text) :
    codeEscape (u.digits ++ (ps.flatMap StringPart.text ++ CodePoint.ofChar '"' :: rest)) =
      .ok (u.code, 4) := by
  have hlen := u.length_eq
  have hback : (Text.ofString "\\u") = [CodePoint.ofChar '\\', CodePoint.ofChar 'u'] := rfl
  rw [codeEscape, if_neg (by simp only [List.length_append, List.length_cons]; omega), hex4?_digits]
  simp only [u.drop_append, hback]
  split
  · next hcond =>
    simp only [Bool.and_eq_true, decide_eq_true_eq, beq_iff_eq] at hcond
    obtain ⟨⟨hhigh, -⟩, htwo⟩ := hcond
    -- only the escape of a code unit begins like that
    cases ps with
    | nil =>
      rw [List.flatMap_nil, List.nil_append, List.take_succ_cons] at htwo
      exact absurd (List.cons.inj htwo).1 (by decide)
    | cons q ps =>
      have hlow := h hhigh q rfl
      rw [List.flatMap_cons, List.append_assoc] at htwo ⊢
      cases q with
      | plain c hc =>
        rw [StringPart.text, List.singleton_append, List.take_succ_cons] at htwo
        exact absurd (List.cons.inj htwo).1 hc.2.2
      | short letter c hc =>
        rw [StringPart.text, List.cons_append, List.singleton_append, List.take_succ_cons,
          List.take_succ_cons] at htwo
        exact absurd (List.cons.inj (List.cons.inj htwo).2).1 (ne_u_of_mem_shortEscapes hc)
      | unit v =>
        have hdrop : (StringPart.text (.unit v) ++
            (ps.flatMap StringPart.text ++ CodePoint.ofChar '"' :: rest)).drop 2 =
            v.digits ++ (ps.flatMap StringPart.text ++ CodePoint.ofChar '"' :: rest) := rfl
        have hv : v.code.isLowSurrogate = false := hlow
        rw [hdrop, hex4?_digits]
        simp [hv]
  · rfl

/-- What is taken behind a backslash and the letter `u` are one code unit, or the two of a pair. -/
theorem exists_units_of_codeEscape {t : Text} {c : CodePoint} {n : Nat}
    (h : codeEscape t = .ok (c, n)) :
    (∃ u : CodeUnit, t = u.digits ++ t.drop n ∧ n = 4 ∧ c = u.code) ∨
    ∃ u v : CodeUnit, t = u.digits ++ CodePoint.ofChar '\\' :: CodePoint.ofChar 'u' ::
        (v.digits ++ t.drop n) ∧ n = 10 ∧ u.code.isHighSurrogate = true ∧
      v.code.isLowSurrogate = true ∧ c = Encoding.joinSurrogates u.code v.code := by
  rw [codeEscape] at h
  split at h
  · cases h
  split at h
  · cases h
  · next d hd =>
    obtain ⟨u, rfl, ht⟩ := hex4?_eq_some_iff.1 hd
    have halone : Except.ok (ε := Int) (u.code, 4) = .ok (c, n) →
        ∃ u : CodeUnit, t = u.digits ++ t.drop n ∧ n = 4 ∧ c = u.code := by
      intro hok
      obtain ⟨rfl, rfl⟩ := Prod.mk.inj (Except.ok.inj hok)
      exact ⟨u, ht, rfl, rfl⟩
    simp only at h
    split at h
    · next hcond =>
      simp only [Bool.and_eq_true, beq_iff_eq] at hcond
      obtain ⟨⟨hhigh, -⟩, htwo⟩ := hcond
      split at h
      · cases h
      · next e he =>
        obtain ⟨v, rfl, hv⟩ := hex4?_eq_some_iff.1 he
        split at h
        · next hlow =>
          obtain ⟨rfl, rfl⟩ := Prod.mk.inj (Except.ok.inj h)
          refine .inr ⟨u, v, ?_, rfl, hhigh, hlow, rfl⟩
          have hdrop : ((t.drop 4).drop 2).drop 4 = t.drop 10 := by
            rw [List.drop_drop, List.drop_drop]
          have hmore : t.drop 4 = Text.ofString "\\u" ++ (t.drop 4).drop 2 := by
            rw [← htwo, List.take_append_drop]
          rw [hdrop] at hv
          rw [hv] at hmore
          rw [hmore] at ht
          exact ht
        · exact .inl (halone h)
    · exact .inl (halone h)

/-! ## Reading the parts of a string -/

theorem decode_cons {p : StringPart} {ps : List StringPart}
    (h : p.isHigh = true → ∀ q ∈ ps.head?, q.isLow = false) :
    decode (p :: ps) = p.code :: decode ps := by
  cases ps with
  | nil => rfl
  | cons q ps =>
    rw [decode, if_neg]
    rintro ⟨hp, hq⟩
    rw [h hp q rfl] at hq
    cases hq

section Parts

variable (start fuel offset : Nat)

/-- A character of a string in front of what is read behind it. -/
def withFirst (c : CodePoint) (r : Except RawFault (Text × Input)) : Except RawFault (Text × Input) :=
  r.map fun p => (c :: p.1, p.2)

theorem bind_withFirst (c : CodePoint) (r : Except RawFault (Text × Input)) :
    (do let p ← r; return (c :: p.1, p.2)) = withFirst c r := by
  cases r <;> rfl

theorem stringRest_plain {c : CodePoint} (h : Unescaped c) (rest : Text) :
    stringRest start (fuel + 1) ⟨c :: rest, offset⟩ =
      withFirst c (stringRest start fuel ⟨rest, offset + 1⟩) := by
  obtain ⟨hval, hquote, hback⟩ := h
  rw [stringRest]
  simp only
  rw [if_neg hquote, if_neg (Nat.not_lt.2 hval), if_neg hback]
  exact bind_withFirst c _

theorem stringRest_short {letter c : CodePoint} (h : (letter, c) ∈ shortEscapes) (rest : Text) :
    stringRest start (fuel + 1) ⟨CodePoint.ofChar '\\' :: letter :: rest, offset⟩ =
      withFirst c (stringRest start fuel ⟨rest, offset + 2⟩) := by
  rw [stringRest]
  simp only
  rw [if_neg (by decide), if_neg (by decide), if_pos trivial, if_neg (ne_u_of_mem_shortEscapes h),
    shortEscape?_eq_some_iff.2 h]
  exact bind_withFirst c _

theorem stringRest_unit {t : Text} {c : CodePoint} {n : Nat} (h : codeEscape t = .ok (c, n)) :
    stringRest start (fuel + 1) ⟨CodePoint.ofChar '\\' :: CodePoint.ofChar 'u' :: t, offset⟩ =
      withFirst c (stringRest start fuel ⟨t.drop n, offset + (n + 2)⟩) := by
  have hdrop : (CodePoint.ofChar '\\' :: CodePoint.ofChar 'u' :: t).drop (n + 2) = t.drop n := rfl
  rw [stringRest]
  simp only
  rw [if_neg (by decide), if_neg (by decide), if_pos trivial, if_pos trivial, h]
  simp only [Input.drop, hdrop]
  exact bind_withFirst c _

/-- A part is read alone unless a surrogate behind it joins it. -/
theorem stringRest_part {p : StringPart} {ps : List StringPart}
    (h : p.isHigh = true → ∀ q ∈ ps.head?, q.isLow = false) (rest : Text) :
    ∃ o, stringRest start (fuel + 1)
        ⟨p.text ++ (ps.flatMap StringPart.text ++ CodePoint.ofChar '"' :: rest), offset⟩ =
      withFirst p.code (stringRest start fuel
        ⟨ps.flatMap StringPart.text ++ CodePoint.ofChar '"' :: rest, o⟩) := by
  cases p with
  | plain c hc => exact ⟨_, stringRest_plain start fuel offset hc _⟩
  | short letter c hc => exact ⟨_, stringRest_short start fuel offset hc _⟩
  | unit u =>
    have hunit := stringRest_unit start fuel offset (codeEscape_alone h rest)
    rw [u.drop_append] at hunit
    exact ⟨_, hunit⟩

end Parts

/-- The parts of a string are read as what they stand for, up to the closing quote. -/
theorem stringRest_parts (start : Nat) (rest : Text) (ps : List StringPart) (fuel offset : Nat)
    (h : ps.length ≤ fuel) :
    Leaves (stringRest start (fuel + 1)
      ⟨ps.flatMap StringPart.text ++ CodePoint.ofChar '"' :: rest, offset⟩) (decode ps) rest := by
  induction ps using decode.induct generalizing fuel offset with
  | case1 => exact ⟨offset + 1, rfl⟩
  | case2 p =>
    obtain ⟨fuel, rfl⟩ := Nat.exists_eq_add_of_le' h
    have halone : p.isHigh = true → ∀ q ∈ ([] : List StringPart).head?, q.isLow = false :=
      fun _ q hq => by cases hq
    obtain ⟨o, ho⟩ := stringRest_part start (fuel + 1) offset halone rest
    refine ⟨o + 1, ?_⟩
    rw [List.flatMap_cons, List.append_assoc, List.length_singleton, ho]
    rfl
  | case3 p q ps hpair ih =>
    obtain ⟨hp, hq⟩ := hpair
    -- only escaped code units are surrogates of a pair
    cases p with
    | plain => cases hp
    | short => cases hp
    | unit u =>
      cases q with
      | plain => cases hq
      | short => cases hq
      | unit v =>
        rw [List.length_cons, List.length_cons] at h
        obtain ⟨fuel, rfl⟩ : ∃ f, fuel = f + 1 := ⟨fuel - 1, by omega⟩
        have hne : ps.flatMap StringPart.text ++ CodePoint.ofChar '"' :: rest ≠ [] := by simp
        have hunit := stringRest_unit start (fuel + 1) offset (codeEscape_pair hp hq hne)
        have hdrop (more : Text) : (u.digits ++ CodePoint.ofChar '\\' :: CodePoint.ofChar 'u' ::
            (v.digits ++ more)).drop 10 = more := by
          have hten : 10 = 4 + (2 + 4) := rfl
          rw [hten, ← List.drop_drop, u.drop_append, ← List.drop_drop]
          exact v.drop_append more
        obtain ⟨o, ho⟩ := ih fuel (offset + (10 + 2)) (by omega)
        rw [hdrop, ho] at hunit
        refine ⟨o, ?_⟩
        rw [decode, if_pos ⟨hp, hq⟩, List.flatMap_cons, List.flatMap_cons, List.append_assoc,
          List.append_assoc]
        exact hunit
  | case4 p q ps halone ih =>
    rw [List.length_cons] at h
    obtain ⟨fuel, rfl⟩ := Nat.exists_eq_add_of_le' (Nat.le_of_add_left_le h)
    have hlow : p.isHigh = true → ∀ r ∈ (q :: ps).head?, r.isLow = false := by
      intro hp r hr
      obtain rfl := Option.some.inj hr
      exact Bool.eq_false_iff.2 fun hq => halone ⟨hp, hq⟩
    obtain ⟨o, ho⟩ := stringRest_part start (fuel + 1) offset hlow rest
    obtain ⟨o', ho'⟩ := ih fuel o (Nat.le_of_succ_le_succ h)
    refine ⟨o', ?_⟩
    rw [decode_cons hlow, List.flatMap_cons, List.append_assoc, ho, ho']
    rfl

theorem length_le_flatMap (ps : List StringPart) :
    ps.length ≤ (ps.flatMap StringPart.text).length := by
  induction ps with
  | nil => exact Nat.le_refl _
  | cons p ps ih =>
    have hp : 1 ≤ p.text.length := by
      cases p <;> simp [StringPart.text]
    rw [List.flatMap_cons, List.length_cons, List.length_append]
    omega

/-- The parts of a string are read behind its opening quote. -/
theorem string_parts (ps : List StringPart) (rest : Text) (offset : Nat) :
    Leaves (string ⟨ps.flatMap StringPart.text ++ CodePoint.ofChar '"' :: rest, offset⟩)
      (decode ps) rest := by
  apply stringRest_parts
  rw [List.length_append]
  exact Nat.le_add_right_of_le (length_le_flatMap ps)

theorem stringText_append (ps : List StringPart) (rest : Text) :
    stringText ps ++ rest =
      CodePoint.ofChar '"' :: (ps.flatMap StringPart.text ++ CodePoint.ofChar '"' :: rest) := by
  simp [stringText]

/-! ## What is read are the parts of a string -/

/-- What is taken behind a backslash and the letter `u` are one or two parts. -/
theorem parts_of_codeEscape {t : Text} {c : CodePoint} {n : Nat} (h : codeEscape t = .ok (c, n))
    {ps : List StringPart} {rest : Text}
    (hrest : t.drop n = ps.flatMap StringPart.text ++ CodePoint.ofChar '"' :: rest) :
    ∃ qs, decode qs = c :: decode ps ∧ CodePoint.ofChar '\\' :: CodePoint.ofChar 'u' :: t =
      qs.flatMap StringPart.text ++ CodePoint.ofChar '"' :: rest := by
  rcases exists_units_of_codeEscape h with ⟨u, ht, rfl, rfl⟩ | ⟨u, v, ht, rfl, hhigh, hlow, hc⟩
  · rw [hrest] at ht
    refine ⟨.unit u :: ps, decode_cons fun hhigh q hq => ?_, ?_⟩
    · obtain ⟨ps', rfl⟩ := List.head?_eq_some_iff.1 hq
      cases q with
      | plain => rfl
      | short => rfl
      | unit v =>
        -- a low surrogate behind it would have been taken with it
        refine Bool.eq_false_iff.2 fun hlow => ?_
        have hne : ps'.flatMap StringPart.text ++ CodePoint.ofChar '"' :: rest ≠ [] := by simp
        have hpair := codeEscape_pair hhigh hlow hne
        rw [ht, List.flatMap_cons, List.append_assoc] at h
        have hn := (Prod.mk.inj (Except.ok.inj (h.symm.trans hpair))).2
        exact absurd hn (by decide)
    · rw [ht, List.flatMap_cons, List.append_assoc]
      rfl
  · rw [hrest] at ht
    refine ⟨.unit u :: .unit v :: ps, ?_, ?_⟩
    · rw [decode, if_pos ⟨hhigh, hlow⟩, hc]
      rfl
    · rw [ht]
      simp [StringPart.text]

theorem parts_of_stringRest (start fuel : Nat) {i j : Input} {t : Text}
    (h : stringRest start fuel i = .ok (t, j)) :
    ∃ ps, decode ps = t ∧
      i.rest = ps.flatMap StringPart.text ++ CodePoint.ofChar '"' :: j.rest := by
  induction fuel generalizing i t with
  | zero => cases h
  | succ fuel ih =>
    -- whatever the first part is, the others come of the induction hypothesis
    have hothers {c : CodePoint} {n : Nat}
        (h : (do let p ← stringRest start fuel (i.drop n); return (c :: p.1, p.2)) = .ok (t, j)) :
        ∃ ps, t = c :: decode ps ∧
          i.rest.drop n = ps.flatMap StringPart.text ++ CodePoint.ofChar '"' :: j.rest := by
      obtain ⟨⟨ds, k⟩, hds, hk⟩ := Except.bind_eq_ok.1 h
      obtain ⟨rfl, rfl⟩ := Prod.mk.inj (Except.ok.inj hk)
      obtain ⟨ps, rfl, hps⟩ := ih hds
      exact ⟨ps, rfl, hps⟩
    rw [stringRest] at h
    split at h
    · cases h
    next c rest hrest =>
    rw [hrest] at hothers ⊢
    split at h
    · next hquote =>
      obtain ⟨rfl, rfl⟩ := Prod.mk.inj (Except.ok.inj h)
      exact ⟨[], rfl, by rw [hquote, Input.drop, hrest]; rfl⟩
    next hquote =>
    split at h
    · cases h
    next hcontrol =>
    split at h
    · next hback =>
      split at h
      · cases h
      next e more =>
      split at h
      · next hu =>
        split at h
        · cases h
        next d n hcode =>
        obtain ⟨ps, rfl, hps⟩ := hothers h
        rw [hback, hu]
        exact parts_of_codeEscape hcode hps
      · split at h
        · cases h
        next d hshort =>
        obtain ⟨ps, rfl, hps⟩ := hothers h
        refine ⟨.short e d (shortEscape?_eq_some_iff.1 hshort) :: ps, decode_cons nofun, ?_⟩
        rw [hback]
        exact congrArg (fun t => CodePoint.ofChar '\\' :: e :: t) hps
    · next hback =>
      obtain ⟨ps, rfl, hps⟩ := hothers h
      refine ⟨.plain c ⟨Nat.not_lt.1 hcontrol, hquote, hback⟩ :: ps, decode_cons nofun, ?_⟩
      exact congrArg (List.cons c) hps

/-- What is read as a string are the parts of one, and the rest follows its closing quote. -/
theorem parts_of_string {i j : Input} {t : Text} (h : string i = .ok (t, j)) :
    ∃ ps, decode ps = t ∧ CodePoint.ofChar '"' :: i.rest = stringText ps ++ j.rest := by
  obtain ⟨ps, hdecode, hrest⟩ := parts_of_stringRest _ _ h
  exact ⟨ps, hdecode, by rw [hrest, stringText_append]⟩

end DocShape.Json
