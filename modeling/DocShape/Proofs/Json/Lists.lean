import DocShape.Proofs.Json.Numbers

/-!
# White space and lists

Items of arrays and members of objects are read by one scheme (`Separated`): one element, white space,
and then the closing bracket or a comma with more elements. Such a reader takes what is joined by commas
if the reader of one element takes each of them (`Separated.joined`), and whatever it takes is joined
like that (`Separated.exists_joined`). It stops where the reader of one element does
(`Separated.joined_refuses`).
-/

namespace DocShape.Json

/-! ## White space -/

theorem isSpace_iff {c : CodePoint} : Input.isSpace c = true ↔ IsSpace c := by
  have hval (d : Char) : c = CodePoint.ofChar d ↔ c.val = d.toNat := Fin.ext_iff
  simp only [Input.isSpace, IsSpace, hval, Bool.or_eq_true, beq_iff_eq, or_assoc]
  rfl

/-- No white space at the front. -/
def NoGap (t : Text) : Prop := ∀ c ∈ t.head?, Input.isSpace c = false

theorem noGap_nil : NoGap [] := fun c hc => by cases hc

theorem noGap_cons {c : CodePoint} (h : Input.isSpace c = false) (t : Text) : NoGap (c :: t) := by
  intro d hd
  obtain rfl := Option.some.inj hd
  exact h

theorem skipSpace_gap (gap : Gap) (t : Text) (offset : Nat) :
    Input.skipSpace ⟨gap.text ++ t, offset⟩ = Input.skipSpace ⟨t, offset + gap.text.length⟩ := by
  have hgap : ∀ c ∈ gap.text, Input.isSpace c = true := fun c hc => isSpace_iff.2 (gap.isSpace c hc)
  simp only [Input.skipSpace, Input.drop, List.takeWhile_append_of_pos hgap, List.length_append,
    ← List.drop_drop, List.drop_left, Nat.add_assoc]

theorem skipSpace_of_noGap {t : Text} (h : NoGap t) (offset : Nat) :
    Input.skipSpace ⟨t, offset⟩ = ⟨t, offset⟩ := by
  have htake : t.takeWhile Input.isSpace = [] := by
    cases t with
    | nil => rfl
    | cons c t => rw [List.takeWhile_cons_of_neg (by rw [h c rfl]; decide)]
  rw [Input.skipSpace, htake]
  rfl

/-- What is skipped is white space. -/
theorem exists_gap (i : Input) : ∃ gap : Gap, i.rest = gap.text ++ i.skipSpace.rest := by
  refine ⟨⟨i.rest.takeWhile Input.isSpace, fun c hc => ?_⟩, ?_⟩
  · exact isSpace_iff.1 (List.all_eq_true.1 List.all_takeWhile c hc)
  · exact (List.prefix_iff_eq_append.1 (List.takeWhile_prefix _)).symm

theorem after?_self (c : CodePoint) (t : Text) (offset : Nat) :
    Input.after? ⟨c :: t, offset⟩ c = some ⟨t, offset + 1⟩ := by
  simp [Input.after?, Input.drop]

theorem after?_of_ne {c d : CodePoint} (h : d ≠ c) (t : Text) (offset : Nat) :
    Input.after? ⟨d :: t, offset⟩ c = none := by
  simp [Input.after?, h]

theorem rest_of_after? {i j : Input} {c : CodePoint} (h : i.after? c = some j) :
    i.rest = c :: j.rest := by
  rw [Input.after?] at h
  split at h
  · next d rest hrest =>
    split at h
    · next hd =>
      obtain rfl := Option.some.inj h
      rw [Input.drop, hrest, hd]
      rfl
    · cases h
  · cases h

/-! ## Opening brackets -/

/-- How many brackets open in a text. -/
def openings (t : Text) : Nat :=
  t.countP fun c => c = CodePoint.ofChar '[' ∨ c = CodePoint.ofChar '{'

theorem openings_append (s t : Text) : openings (s ++ t) = openings s + openings t :=
  List.countP_append

theorem openings_le_cons (c : CodePoint) (t : Text) : openings t ≤ openings (c :: t) := by
  rw [← List.singleton_append, openings_append]
  exact Nat.le_add_left _ _

theorem openings_skipSpace (i : Input) : openings i.skipSpace.rest ≤ openings i.rest := by
  obtain ⟨gap, hgap⟩ := exists_gap i
  rw [hgap, openings_append]
  exact Nat.le_add_left _ _

/-! ## The ends of numbers -/

/-- Neither a digit nor another character of a number. -/
def OutsideNumbers (c : CodePoint) : Prop :=
  c.isDigit = false ∧ c ≠ CodePoint.ofChar '.' ∧ c ≠ CodePoint.ofChar 'e' ∧ c ≠ CodePoint.ofChar 'E'

instance (c : CodePoint) : Decidable (OutsideNumbers c) := inferInstanceAs (Decidable (_ ∧ _))

theorem ends_cons {c : CodePoint} (h : OutsideNumbers c) (rest : Text) :
    Numeral.Ends (c :: rest) := by
  intro d hd
  obtain rfl := Option.some.inj hd
  exact h

/-- White space ends a number, and so does what may stand behind it. -/
theorem ends_gap (gap : Gap) {t : Text} (h : Numeral.Ends t) : Numeral.Ends (gap.text ++ t) := by
  obtain ⟨text, hspace⟩ := gap
  cases text with
  | nil => exact h
  | cons d text =>
    refine ends_cons ?_ _
    rcases hspace d List.mem_cons_self with rfl | rfl | rfl | rfl <;> decide

/-! ## What is read wherever it stands -/

/-- A character that can open a value or a name: neither white space, a closing bracket nor a byte order
mark. -/
def Opens (c : CodePoint) : Prop :=
  Input.isSpace c = false ∧ c ≠ CodePoint.ofChar ']' ∧ c ≠ CodePoint.ofChar '}' ∧
    c ≠ CodePoint.byteOrderMark

instance (c : CodePoint) : Decidable (Opens c) := inferInstanceAs (Decidable (_ ∧ _))

/-- A text is read by a reader with enough fuel wherever it stands. -/
structure ReadsAs {β : Type} (one : Nat → Input → Except RawFault (β × Input)) (t : Text) (b : β) :
    Prop where
  opens : ∃ c u, t = c :: u ∧ Opens c
  reads : ∀ fuel rest offset, 2 * t.length ≤ fuel + 1 → Numeral.Ends rest →
    Leaves (one fuel ⟨t ++ rest, offset⟩) b rest

theorem ReadsAs.noGap {β : Type} {one : Nat → Input → Except RawFault (β × Input)} {t : Text} {b : β}
    (h : ReadsAs one t b) (rest : Text) : NoGap (t ++ rest) := by
  obtain ⟨c, u, rfl, hc⟩ := h.opens
  exact noGap_cons hc.1 _

/-- A text is refused by a reader with enough fuel wherever it stands. -/
structure Refuses {β : Type} (one : Nat → Input → Except RawFault (β × Input)) (t : Text)
    (fault : RawFault) : Prop where
  opens : ∃ c u, t = c :: u ∧ Opens c
  refuses : ∀ fuel rest offset, 2 * t.length ≤ fuel + 1 →
    one fuel ⟨t ++ rest, offset⟩ = .error fault

theorem Refuses.noGap {β : Type} {one : Nat → Input → Except RawFault (β × Input)} {t : Text}
    {fault : RawFault} (h : Refuses one t fault) (rest : Text) : NoGap (t ++ rest) := by
  obtain ⟨c, u, rfl, hc⟩ := h.opens
  exact noGap_cons hc.1 _

/-! ## Elements with commas between them -/

/-- What follows an element: the closing bracket, or a comma and more elements. -/
def listAfter {β : Type} (closing : CodePoint) (more : Input → Except RawFault (List β × Input))
    (b : β) (i : Input) : Except RawFault (List β × Input) :=
  match i.after? closing with
  | some i => .ok ([b], i)
  | none =>
    match i.after? ',' with
    | none => i.fail .expectingComma
    | some i => do
      let (bs, i) ← more i.skipSpace
      return (b :: bs, i)

/-- A reader of elements up to a closing bracket, by a reader of one element. -/
structure Separated {β : Type} (closing : CodePoint)
    (one : Nat → Input → Except RawFault (β × Input))
    (list : Nat → Input → Except RawFault (List β × Input)) : Prop where
  zero : ∀ i, ∃ problem, list 0 i = i.fail problem
  succ : ∀ fuel i, list (fuel + 1) i = (do
    let (b, i) ← one fuel i
    listAfter closing (list fuel) b i.skipSpace)

/-- The brackets that close. -/
def Closes (c : CodePoint) : Prop := c = CodePoint.ofChar ']' ∨ c = CodePoint.ofChar '}'

theorem Closes.noGap {c : CodePoint} (h : Closes c) (rest : Text) : NoGap (c :: rest) := by
  rcases h with rfl | rfl <;> exact noGap_cons (by decide) rest

theorem Closes.ends {c : CodePoint} (h : Closes c) (rest : Text) : Numeral.Ends (c :: rest) := by
  rcases h with rfl | rfl <;> exact ends_cons (by decide) rest

theorem Closes.ne_comma {c : CodePoint} (h : Closes c) : CodePoint.ofChar ',' ≠ c := by
  rcases h with rfl | rfl <;> decide

section Lists

variable {α β : Type} {text : α → Text} {val : α → β} {closing : CodePoint}
  {one : Nat → Input → Except RawFault (β × Input)}
  {list : Nat → Input → Except RawFault (List β × Input)}

theorem joined_cons (inside : α → Text) (s : Spaced α) (ss : List (Spaced α)) :
    ∃ more, Spaced.joined inside (s :: ss) = s.before.text ++ (inside s.inner ++ more) := by
  cases ss with
  | nil => exact ⟨_, rfl⟩
  | cons s' ss =>
    refine ⟨s.after.text ++ CodePoint.ofChar ',' :: Spaced.joined inside (s' :: ss), ?_⟩
    rw [Spaced.joined_cons_cons, Spaced.text, List.append_assoc, List.append_assoc]

/-- Behind white space, joined elements open with the first of them. -/
theorem skipSpace_joined {s : Spaced α} {b : β} (h : ReadsAs one (text s.inner) b)
    (ss : List (Spaced α)) (rest : Text) (offset : Nat) :
    ∃ c u o, Input.skipSpace ⟨Spaced.joined text (s :: ss) ++ rest, offset⟩ = ⟨c :: u, o⟩ ∧
      Opens c := by
  obtain ⟨more, hmore⟩ := joined_cons text s ss
  obtain ⟨c, u, hcu, hc⟩ := h.opens
  refine ⟨c, u ++ (more ++ rest), offset + s.before.text.length, ?_, hc⟩
  rw [hmore, List.append_assoc, List.append_assoc, skipSpace_gap, skipSpace_of_noGap (h.noGap _), hcu]
  rfl

/-- Reading one element leads to what follows it and the white space around it. -/
theorem Separated.step (h : Separated closing one list) {s : Spaced α} {b : β}
    (hs : ReadsAs one (text s.inner) b) {fuel : Nat} (hfuel : 2 * (s.text text).length ≤ fuel + 1)
    {t : Text} (ht : Numeral.Ends t) (hgap : NoGap t) (offset : Nat) :
    ∃ o, list (fuel + 1) (Input.skipSpace ⟨s.text text ++ t, offset⟩) =
      listAfter closing (list fuel) b ⟨t, o⟩ := by
  rw [Spaced.text, List.length_append, List.length_append] at hfuel
  obtain ⟨o, ho⟩ := hs.reads fuel (s.after.text ++ t) (offset + s.before.text.length) (by omega)
    (ends_gap s.after ht)
  refine ⟨o + s.after.text.length, ?_⟩
  rw [Spaced.text, List.append_assoc, List.append_assoc, skipSpace_gap,
    skipSpace_of_noGap (hs.noGap _), h.succ, ho]
  simp only [bind, Except.bind, skipSpace_gap, skipSpace_of_noGap hgap]

/-- Elements with commas between them are read as what each of them is read as. -/
theorem Separated.joined (h : Separated closing one list) (hclosing : Closes closing) (rest : Text)
    (s : Spaced α) (ss : List (Spaced α))
    (hss : ∀ x ∈ s :: ss, ReadsAs one (text x.inner) (val x.inner)) (fuel offset : Nat)
    (hfuel : 2 * (Spaced.joined text (s :: ss)).length ≤ fuel) :
    Leaves (list fuel (Input.skipSpace ⟨Spaced.joined text (s :: ss) ++ closing :: rest, offset⟩))
      ((s :: ss).map fun x => val x.inner) rest := by
  induction ss generalizing s fuel offset with
  | nil =>
    -- the last element, with the closing bracket behind it
    have hs := hss s List.mem_cons_self
    rw [Spaced.joined_singleton] at hfuel ⊢
    obtain ⟨fuel, rfl⟩ : ∃ f, fuel = f + 1 := by
      obtain ⟨c, u, hcu, -⟩ := hs.opens
      rw [Spaced.text, hcu, List.length_append, List.length_append, List.length_cons] at hfuel
      exact ⟨fuel - 1, by omega⟩
    obtain ⟨o, ho⟩ := h.step hs hfuel (hclosing.ends rest) (hclosing.noGap rest) offset
    refine ⟨o + 1, ?_⟩
    rw [ho, listAfter, after?_self]
    rfl
  | cons s' ss ih =>
    -- a comma follows, and the fuel that is left is enough for the others
    obtain ⟨hs, hss'⟩ := List.forall_mem_cons.1 hss
    rw [Spaced.joined_cons_cons, List.length_append, List.length_cons] at hfuel
    obtain ⟨fuel, rfl⟩ : ∃ f, fuel = f + 1 := ⟨fuel - 1, by omega⟩
    rw [Spaced.joined_cons_cons, List.append_assoc, List.cons_append]
    have hfuel' : 2 * (s.text text).length ≤ fuel + 1 := by omega
    obtain ⟨o, ho⟩ := h.step hs hfuel'
      (ends_cons (c := CodePoint.ofChar ',') (by decide) _) (noGap_cons (by decide) _) offset
    obtain ⟨o', ho'⟩ := ih s' hss' fuel (o + 1) (by omega)
    refine ⟨o', ?_⟩
    rw [ho, listAfter, after?_of_ne hclosing.ne_comma, after?_self]
    simp only [ho']
    rfl

/-- Behind elements that are read, an element that is refused is refused with the whole list. -/
theorem Separated.joined_refuses (h : Separated closing one list) (hclosing : Closes closing)
    {fault : RawFault}
    {x : Spaced α} (hx : Refuses one (text x.inner) fault) (rest : Text) (ss post : List (Spaced α))
    (hss : ∀ y ∈ ss, ReadsAs one (text y.inner) (val y.inner)) (fuel offset : Nat)
    (hfuel : 2 * (Spaced.joined text (ss ++ x :: post)).length ≤ fuel) :
    list fuel (Input.skipSpace ⟨Spaced.joined text (ss ++ x :: post) ++ rest, offset⟩) =
      .error fault := by
  induction ss generalizing fuel offset with
  | nil =>
    obtain ⟨more, hmore⟩ := joined_cons text x post
    rw [List.nil_append, hmore] at hfuel ⊢
    obtain ⟨c, u, hcu, -⟩ := hx.opens
    have hlength : 0 < (text x.inner).length := by rw [hcu]; exact Nat.succ_pos _
    rw [List.length_append, List.length_append] at hfuel
    obtain ⟨fuel, rfl⟩ : ∃ f, fuel = f + 1 := ⟨fuel - 1, by omega⟩
    rw [List.append_assoc, List.append_assoc, skipSpace_gap, skipSpace_of_noGap (hx.noGap _), h.succ,
      hx.refuses fuel _ _ (by omega)]
    rfl
  | cons s ss ih =>
    -- there is an element before, with a comma behind it
    obtain ⟨hs, hss'⟩ := List.forall_mem_cons.1 hss
    obtain ⟨s', ss', hcons⟩ : ∃ s' ss', ss ++ x :: post = s' :: ss' := by
      cases ss <;> exact ⟨_, _, rfl⟩
    have hjoined : Spaced.joined text (s :: ss ++ x :: post) =
        s.text text ++ CodePoint.ofChar ',' :: Spaced.joined text (ss ++ x :: post) := by
      rw [List.cons_append, hcons, Spaced.joined_cons_cons]
    rw [hjoined, List.length_append, List.length_cons] at hfuel
    obtain ⟨fuel, rfl⟩ : ∃ f, fuel = f + 1 := ⟨fuel - 1, by omega⟩
    rw [hjoined, List.append_assoc, List.cons_append]
    have hfuel' : 2 * (s.text text).length ≤ fuel + 1 := by omega
    obtain ⟨o, ho⟩ := h.step hs hfuel'
      (ends_cons (c := CodePoint.ofChar ',') (by decide) _) (noGap_cons (by decide) _) offset
    rw [ho, listAfter, after?_of_ne hclosing.ne_comma, after?_self]
    simp only [ih hss' fuel (o + 1) (by omega)]
    rfl

/-- Whatever is read as a list are elements with commas between them. White space in front of them
belongs to the first. -/
theorem Separated.exists_joined (h : Separated closing one list) {P : α → Prop} {fuel : Nat}
    (hone : ∀ f < fuel, ∀ i b j, one f i = .ok (b, j) →
      ∃ a, P a ∧ val a = b ∧ i.rest = text a ++ j.rest)
    {i j : Input} {bs : List β} (hlist : list fuel i = .ok (bs, j)) (gap : Gap) :
    ∃ s ss, (∀ x ∈ s :: ss, P x.inner) ∧ ((s :: ss).map fun x => val x.inner) = bs ∧
      gap.text ++ i.rest = Spaced.joined text (s :: ss) ++ closing :: j.rest := by
  induction fuel generalizing i bs gap with
  | zero =>
    obtain ⟨problem, hzero⟩ := h.zero i
    rw [hzero] at hlist
    cases hlist
  | succ fuel ih =>
    rw [h.succ] at hlist
    obtain ⟨⟨b, k⟩, hb, hafter⟩ := Except.bind_eq_ok.1 hlist
    obtain ⟨a, ha, rfl, hrest⟩ := hone fuel (Nat.lt_succ_self _) i b k hb
    obtain ⟨after, hk⟩ := exists_gap k
    have hfront : gap.text ++ i.rest =
        Spaced.text text ⟨gap, a, after⟩ ++ k.skipSpace.rest := by
      rw [hrest, hk, Spaced.text, List.append_assoc, List.append_assoc]
    rw [hfront]
    simp only [listAfter] at hafter
    split at hafter
    · next l hl =>
      obtain ⟨rfl, rfl⟩ := Prod.mk.inj (Except.ok.inj hafter)
      refine ⟨⟨gap, a, after⟩, [], List.forall_mem_singleton.2 ha, rfl, ?_⟩
      rw [rest_of_after? hl, Spaced.joined_singleton]
    · split at hafter
      · cases hafter
      · next l hl =>
        obtain ⟨⟨bs', m⟩, hbs, hm⟩ := Except.bind_eq_ok.1 hafter
        obtain ⟨rfl, rfl⟩ := Prod.mk.inj (Except.ok.inj hm)
        -- the white space behind the comma goes to the next element
        obtain ⟨before, hl'⟩ := exists_gap l
        obtain ⟨s, ss, hss, rfl, hmore⟩ :=
          ih (fun f hf => hone f (Nat.lt_succ_of_lt hf)) hbs before
        refine ⟨⟨gap, a, after⟩, s :: ss, List.forall_mem_cons.2 ⟨ha, hss⟩, rfl, ?_⟩
        rw [rest_of_after? hl, hl', hmore, Spaced.joined_cons_cons, List.append_assoc,
          List.cons_append]

/-- Elements are refused as too deep only where brackets enough open in what is left of the text. -/
theorem Separated.openings_of_tooDeep (h : Separated closing one list) {room fuel : Nat}
    {container : Container}
    (hone : ∀ f < fuel, ∀ i, one f i = .error (.tooDeep container) → room < openings i.rest)
    (hrest : ∀ f < fuel, ∀ i b j, one f i = .ok (b, j) → openings j.rest ≤ openings i.rest)
    {i : Input} (hlist : list fuel i = .error (.tooDeep container)) : room < openings i.rest := by
  induction fuel generalizing i with
  | zero =>
    obtain ⟨problem, hzero⟩ := h.zero i
    rw [hzero] at hlist
    cases hlist
  | succ fuel ih =>
    rw [h.succ] at hlist
    rcases Except.bind_eq_error.1 hlist with hfirst | ⟨⟨b, k⟩, hb, hafter⟩
    · exact hone fuel (Nat.lt_succ_self _) i hfirst
    · have hk := hrest fuel (Nat.lt_succ_self _) i b k hb
      simp only [listAfter] at hafter
      split at hafter
      · cases hafter
      · split at hafter
        · cases hafter
        · next l hl =>
          rcases Except.bind_eq_error.1 hafter with hmore | ⟨_, _, hpure⟩
          · have hl' := ih (fun f hf => hone f (Nat.lt_succ_of_lt hf))
              (fun f hf => hrest f (Nat.lt_succ_of_lt hf)) hmore
            have hcomma : openings l.rest ≤ openings k.skipSpace.rest := by
              rw [rest_of_after? hl]
              exact openings_le_cons _ _
            exact (hl'.trans_le (openings_skipSpace l)).trans_le
              (hcomma.trans ((openings_skipSpace k).trans hk))
          · cases hpure

/-! ## Lists in brackets -/

/-- What follows an opening bracket: the closing one, or elements. -/
def inBrackets (closing : CodePoint) (build : List β → Value)
    (list : Input → Except RawFault (List β × Input)) (i : Input) : Except RawFault (Value × Input) :=
  match i.after? closing with
  | some i => .ok (build [], i)
  | none => do
    let (bs, i) ← list i
    return (build bs, i)

theorem Separated.openings_of_inBrackets (h : Separated closing one list) {room fuel : Nat}
    {container : Container} {build : List β → Value}
    (hone : ∀ f < fuel, ∀ i, one f i = .error (.tooDeep container) → room < openings i.rest)
    (hrest : ∀ f < fuel, ∀ i b j, one f i = .ok (b, j) → openings j.rest ≤ openings i.rest)
    {i : Input}
    (hlist : inBrackets closing build (list fuel) i = .error (.tooDeep container)) :
    room < openings i.rest := by
  simp only [inBrackets] at hlist
  split at hlist
  · cases hlist
  · rcases Except.bind_eq_error.1 hlist with hmore | ⟨_, _, hpure⟩
    · exact h.openings_of_tooDeep hone hrest hmore
    · cases hpure

/-- Elements in brackets are read as what is built of them. -/
theorem Separated.inBrackets_joined (h : Separated closing one list) (hclosing : Closes closing)
    (build : List β → Value) (gap : Gap) {ss : List (Spaced α)}
    (hss : ∀ x ∈ ss, ReadsAs one (text x.inner) (val x.inner)) {fuel : Nat} (rest : Text)
    (offset : Nat) (hfuel : 2 * (Spaced.joined text ss).length ≤ fuel) :
    Leaves (inBrackets closing build (list fuel) (Input.skipSpace
        ⟨gap.text ++ (Spaced.joined text ss ++ closing :: rest), offset⟩))
      (build (ss.map fun x => val x.inner)) rest := by
  rw [skipSpace_gap]
  cases ss with
  | nil =>
    have hstart : Spaced.joined text [] ++ closing :: rest = closing :: rest := rfl
    refine ⟨offset + gap.text.length + 1, ?_⟩
    rw [hstart, skipSpace_of_noGap (hclosing.noGap rest), inBrackets, after?_self]
    rfl
  | cons s ss =>
    obtain ⟨o, ho⟩ := h.joined hclosing rest s ss hss fuel (offset + gap.text.length) hfuel
    obtain ⟨c, u, o', hfront, hc⟩ := skipSpace_joined (hss s List.mem_cons_self) ss
      (closing :: rest) (offset + gap.text.length)
    have hne : c ≠ closing := by
      rcases hclosing with rfl | rfl
      · exact hc.2.1
      · exact hc.2.2.1
    refine ⟨o, ?_⟩
    rw [hfront] at ho ⊢
    rw [inBrackets, after?_of_ne hne, ho]
    rfl

/-- Behind elements that are read, an element that is refused is refused with the brackets around. -/
theorem Separated.inBrackets_refuses (h : Separated closing one list) (hclosing : Closes closing)
    (build : List β → Value) (gap : Gap) {fault : RawFault} {x : Spaced α}
    (hx : Refuses one (text x.inner) fault) {ss post : List (Spaced α)}
    (hss : ∀ y ∈ ss, ReadsAs one (text y.inner) (val y.inner)) {fuel : Nat} (rest : Text)
    (offset : Nat) (hfuel : 2 * (Spaced.joined text (ss ++ x :: post)).length ≤ fuel) :
    inBrackets closing build (list fuel) (Input.skipSpace
      ⟨gap.text ++ (Spaced.joined text (ss ++ x :: post) ++ rest), offset⟩) = .error fault := by
  have hlist := h.joined_refuses hclosing hx rest ss post hss fuel (offset + gap.text.length) hfuel
  -- the first element is no closing bracket
  obtain ⟨c, u, o, hfront, hc⟩ : ∃ c u o, Input.skipSpace
      ⟨Spaced.joined text (ss ++ x :: post) ++ rest, offset + gap.text.length⟩ = ⟨c :: u, o⟩ ∧
      Opens c := by
    cases ss with
    | nil =>
      obtain ⟨more, hmore⟩ := joined_cons text x post
      obtain ⟨c, u, hcu, hc⟩ := hx.opens
      refine ⟨c, u ++ (more ++ rest), offset + gap.text.length + x.before.text.length, ?_, hc⟩
      rw [List.nil_append, hmore, List.append_assoc, List.append_assoc, skipSpace_gap,
        skipSpace_of_noGap (hx.noGap _), hcu]
      rfl
    | cons s ss =>
      exact skipSpace_joined (hss s List.mem_cons_self) _ rest (offset + gap.text.length)
  have hne : c ≠ closing := by
    rcases hclosing with rfl | rfl
    · exact hc.2.1
    · exact hc.2.2.1
  rw [skipSpace_gap]
  rw [hfront] at hlist ⊢
  rw [inBrackets, after?_of_ne hne, hlist]
  rfl

/-- What is read in brackets are elements with commas between them, or white space only. -/
theorem Separated.exists_inBrackets (h : Separated closing one list) {P : α → Prop} {fuel : Nat}
    (hone : ∀ f < fuel, ∀ i b j, one f i = .ok (b, j) →
      ∃ a, P a ∧ val a = b ∧ i.rest = text a ++ j.rest)
    {build : List β → Value} {i j : Input} {v : Value}
    (hok : inBrackets closing build (list fuel) i.skipSpace = .ok (v, j)) :
    ∃ (gap : Gap) (ss : List (Spaced α)), (∀ x ∈ ss, P x.inner) ∧
      build (ss.map fun x => val x.inner) = v ∧
      i.rest = gap.text ++ (Spaced.joined text ss ++ closing :: j.rest) := by
  obtain ⟨gap, hgap⟩ := exists_gap i
  simp only [inBrackets] at hok
  split at hok
  · next k hk =>
    obtain ⟨rfl, rfl⟩ := Prod.mk.inj (Except.ok.inj hok)
    exact ⟨gap, [], nofun, rfl, by rw [hgap, rest_of_after? hk]; rfl⟩
  · obtain ⟨⟨bs, k⟩, hbs, hk⟩ := Except.bind_eq_ok.1 hok
    obtain ⟨rfl, rfl⟩ := Prod.mk.inj (Except.ok.inj hk)
    obtain ⟨s, ss, hss, rfl, hrest⟩ := h.exists_joined hone hbs Gap.none
    rw [Gap.text_none, List.nil_append] at hrest
    exact ⟨gap, s :: ss, hss, rfl, by rw [hgap, hrest]⟩

end Lists

end DocShape.Json
