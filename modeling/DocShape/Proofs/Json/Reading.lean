import DocShape.Proofs.Json.Lists

/-!
# Reading is derivation

A tree whose numbers are in range and whose brackets have room inside each other is read as the value
that it denotes, wherever its text stands (`readsAs_tree`). Conversely whatever the strict reader takes
is the text of such a tree (`tree_of_value`): by induction on the fuel, since what is read inside
brackets is read with less. So the strict reader gives a value exactly for the texts that can be derived
with as many brackets inside each other as there is room for (`read_eq_ok_iff`).

A tree that is deeper is refused as such (`read_of_deep`), and nothing is unless so many brackets open
(`openings_of_read`).
-/

namespace DocShape.Json

/-! ## Arrays and objects as lists -/

/-- A member of an object. -/
def member (dialect : Dialect) (room fuel : Nat) (i : Input) :
    Except RawFault ((Value × Value) × Input) :=
  match i.after? '"' with
  | none => i.fail .expectingName
  | some i => do
    let (name, i) ← string i
    let i := i.skipSpace
    match i.after? ':' with
    | none => i.fail .expectingColon
    | some i => do
      let (v, i) ← value dialect room fuel i.skipSpace
      return ((.str name, v), i)

theorem separated_items (dialect : Dialect) (room : Nat) :
    Separated (CodePoint.ofChar ']') (value dialect room) (items dialect room) where
  zero i := ⟨.expectingValue, by rw [items]⟩
  succ fuel i := by
    rw [items]
    cases value dialect room fuel i with
    | error => rfl
    | ok p =>
      simp only [bind, Except.bind, listAfter]
      cases p.2.skipSpace.after? ']' <;> rfl

theorem separated_members (dialect : Dialect) (room : Nat) :
    Separated (CodePoint.ofChar '}') (member dialect room) (members dialect room) where
  zero i := ⟨.expectingName, by rw [members]⟩
  succ fuel i := by
    rw [members, member]
    cases i.after? '"' with
    | none => rfl
    | some i =>
      simp only
      cases string i with
      | error => rfl
      | ok p =>
        simp only [bind, Except.bind]
        cases p.2.skipSpace.after? ':' with
        | none => rfl
        | some k =>
          simp only
          cases value dialect room fuel k.skipSpace with
          | error => rfl
          | ok q =>
            simp only [listAfter, pure, Except.pure]
            cases q.2.skipSpace.after? '}' <;> rfl

section Brackets

variable (dialect : Dialect) (room fuel : Nat) (t : Text) (offset : Nat)

theorem value_array : value dialect (room + 1) (fuel + 1) ⟨CodePoint.ofChar '[' :: t, offset⟩ =
    inBrackets (CodePoint.ofChar ']') .list (items dialect room fuel)
      (Input.skipSpace ⟨t, offset + 1⟩) := by
  rw [value]
  simp only
  rw [if_neg (by decide), if_pos trivial]
  rfl

theorem value_object : value dialect (room + 1) (fuel + 1) ⟨CodePoint.ofChar '{' :: t, offset⟩ =
    inBrackets (CodePoint.ofChar '}') (fun es => .dict (Entries.ofList es)) (members dialect room fuel)
      (Input.skipSpace ⟨t, offset + 1⟩) := by
  rw [value]
  simp only
  rw [if_neg (by decide), if_neg (by decide), if_pos trivial]
  rfl

end Brackets

section

variable {dialect : Dialect} {room fuel : Nat} {t : Text} {offset : Nat}

theorem value_nil :
    value dialect room (fuel + 1) ⟨[], offset⟩ = Input.fail ⟨[], offset⟩ .expectingValue := by
  rw [value.eq_def]

theorem value_quote : value dialect room (fuel + 1) ⟨CodePoint.ofChar '"' :: t, offset⟩ = (do
    let (s, i) ← string ⟨t, offset + 1⟩
    return (.str s, i)) := by
  rw [value.eq_def]
  rfl

theorem value_other {c : CodePoint} (hquote : c ≠ CodePoint.ofChar '"')
    (hbracket : c ≠ CodePoint.ofChar '[') (hbrace : c ≠ CodePoint.ofChar '{') :
    value dialect room (fuel + 1) ⟨c :: t, offset⟩ = scalar dialect ⟨c :: t, offset⟩ := by
  rw [value.eq_def]
  simp only [hquote, hbracket, hbrace, ↓reduceIte]

end

/-! ## Trees are read -/

/-- What the scalar reader reads wherever it stands is read as a value there. -/
theorem readsAs_scalar {dialect : Dialect} (room : Nat) {c : CodePoint} {u : Text} {v : Value}
    (hc : Opens c)
    (hquote : c ≠ CodePoint.ofChar '"') (hbracket : c ≠ CodePoint.ofChar '[')
    (hbrace : c ≠ CodePoint.ofChar '{')
    (h : ∀ rest offset, Numeral.Ends rest →
      Leaves (scalar dialect ⟨c :: u ++ rest, offset⟩) v rest) :
    ReadsAs (value dialect room) (c :: u) v where
  opens := ⟨c, u, rfl, hc⟩
  reads := by
    intro fuel rest offset hfuel hrest
    rw [List.length_cons] at hfuel
    obtain ⟨fuel, rfl⟩ : ∃ f, fuel = f + 1 := ⟨fuel - 1, by omega⟩
    have := h rest offset hrest
    simp only [List.cons_append] at this ⊢
    simpa only [value, hquote, hbracket, hbrace, ↓reduceIte] using this

theorem readsAs_word (dialect : Dialect) (room : Nat) {c : CodePoint} {u : Text} {v : Value}
    (hc : Opens c)
    (hquote : c ≠ CodePoint.ofChar '"') (hbracket : c ≠ CodePoint.ofChar '[')
    (hbrace : c ≠ CodePoint.ofChar '{') (hv : v.number? = none)
    (hfind : ∀ rest, words.find? (fun w => w.1.isPrefixOf (c :: u ++ rest)) = some (c :: u, v)) :
    ReadsAs (value dialect room) (c :: u) v := by
  refine readsAs_scalar room hc hquote hbracket hbrace fun rest offset _ => ?_
  refine ⟨offset + (c :: u).length, ?_⟩
  unfold scalar
  simp only [hfind, hv, Option.isSome_none, Bool.false_eq_true, and_false, ↓reduceIte, Input.drop,
    List.drop_left]

theorem readsAs_null (dialect : Dialect) (room : Nat) : ReadsAs (value dialect room) "null" .null :=
  readsAs_word (c := 'n') (u := "ull") dialect room (by decide) (by decide) (by decide) (by decide) rfl
    fun _ => rfl

theorem readsAs_true (dialect : Dialect) (room : Nat) :
    ReadsAs (value dialect room) "true" (.bool true) :=
  readsAs_word (c := 't') (u := "rue") dialect room (by decide) (by decide) (by decide) (by decide) rfl
    fun _ => rfl

theorem readsAs_false (dialect : Dialect) (room : Nat) :
    ReadsAs (value dialect room) "false" (.bool false) :=
  readsAs_word (c := 'f') (u := "alse") dialect room (by decide) (by decide) (by decide) (by decide) rfl
    fun _ => rfl

theorem opens_of_isDigit {c : CodePoint} (h : c.isDigit = true) : Opens c := by
  have hspace : Input.isSpace c = false := by
    simp only [CodePoint.isDigit, Bool.and_eq_true, decide_eq_true_eq] at h
    simp only [Input.isSpace, Bool.or_eq_false_iff, beq_eq_false_iff_ne]
    omega
  exact ⟨hspace, CodePoint.ne_of_isDigit h (by decide), CodePoint.ne_of_isDigit h (by decide),
    CodePoint.ne_of_isDigit h (by decide)⟩

theorem readsAs_numeral (dialect : Dialect) (room : Nat) {n : Numeral} (h : n.InRange) :
    ReadsAs (value dialect room) n.text (.ofNumber n.value) := by
  have hread := fun rest offset (hrest : Numeral.Ends rest) => scalar_numeral dialect h hrest offset
  obtain ⟨c, t, hct, hc⟩ := n.exists_cons
  rw [Numeral.text, hct] at hread ⊢
  cases hn : n.negative with
  | true =>
    rw [hn] at hread
    exact readsAs_scalar room (c := CodePoint.ofChar '-') (u := c :: t) (by decide) (by decide) (by decide)
      (by decide) hread
  | false =>
    rw [hn] at hread
    have hne (d : CodePoint) (hd : d.isDigit = false) : c ≠ d := CodePoint.ne_of_isDigit hc hd
    exact readsAs_scalar room (opens_of_isDigit hc) (hne _ (by decide)) (hne _ (by decide))
      (hne _ (by decide)) hread

theorem readsAs_string (dialect : Dialect) (room : Nat) (ps : List StringPart) :
    ReadsAs (value dialect room) (stringText ps) (.str (decode ps)) where
  opens := ⟨_, _, rfl, by decide⟩
  reads := by
    intro fuel rest offset hfuel _
    rw [stringText, List.length_cons] at hfuel
    obtain ⟨fuel, rfl⟩ : ∃ f, fuel = f + 1 := ⟨fuel - 1, by omega⟩
    obtain ⟨o, ho⟩ := string_parts ps rest (offset + 1)
    refine ⟨o, ?_⟩
    rw [stringText_append]
    simp only [value, ↓reduceIte, Input.drop, List.drop_succ_cons, List.drop_zero, ho]
    rfl

theorem readsAs_inBrackets {dialect : Dialect} {room : Nat} {α β : Type} {text : α → Text} (val : α → β)
    {opening closing : CodePoint} {one : Nat → Input → Except RawFault (β × Input)}
    {list : Nat → Input → Except RawFault (List β × Input)} {build : List β → Value}
    (hopening : Opens opening) (hclosing : Closes closing) (h : Separated closing one list)
    (hvalue : ∀ fuel t offset, value dialect room (fuel + 1) ⟨opening :: t, offset⟩ =
      inBrackets closing build (list fuel) (Input.skipSpace ⟨t, offset + 1⟩))
    (gap : Gap) {ss : List (Spaced α)} (hss : ∀ x ∈ ss, ReadsAs one (text x.inner) (val x.inner)) :
    ReadsAs (value dialect room) (opening :: (gap.text ++ (Spaced.joined text ss ++ [closing])))
      (build (ss.map fun x => val x.inner)) where
  opens := ⟨_, _, rfl, hopening⟩
  reads := by
    intro fuel rest offset hfuel _
    rw [List.length_cons, List.length_append, List.length_append, List.length_singleton] at hfuel
    obtain ⟨fuel, rfl⟩ : ∃ f, fuel = f + 1 := ⟨fuel - 1, by omega⟩
    rw [List.cons_append, List.append_assoc, List.append_assoc, List.singleton_append, hvalue]
    exact h.inBrackets_joined hclosing build gap hss rest (offset + 1) (by omega)

theorem readsAs_member {dialect : Dialect} {room : Nat} {m : Member Tree}
    (h : ReadsAs (value dialect room) m.inner.text m.inner.value) :
    ReadsAs (member dialect room) (m.text Tree.text) (.str (decode m.name), m.inner.value) where
  opens := ⟨_, _, rfl, by decide⟩
  reads := by
    intro fuel rest offset hfuel hrest
    have hcolon (t : Text) : NoGap (CodePoint.ofChar ':' :: t) := noGap_cons (by decide) t
    rw [Member.text] at hfuel ⊢
    simp only [List.length_append, List.length_cons] at hfuel
    simp only [List.append_assoc, List.cons_append, stringText_append]
    obtain ⟨o, ho⟩ := string_parts m.name (m.beforeColon.text ++ CodePoint.ofChar ':' ::
      (m.afterColon.text ++ (m.inner.text ++ rest))) (offset + 1)
    obtain ⟨o', ho'⟩ := h.reads fuel rest
      (o + m.beforeColon.text.length + 1 + m.afterColon.text.length) (by omega) hrest
    refine ⟨o', ?_⟩
    simp only [member, after?_self, ho, bind, Except.bind, skipSpace_gap,
      skipSpace_of_noGap (hcolon _), skipSpace_of_noGap (h.noGap rest), ho']
    rfl

theorem Tree.value_array (gap : Gap) (items : List (Spaced Tree)) :
    (Tree.array gap items).value = .list (items.map fun s => s.inner.value) := by
  rw [Tree.value, Tree.itemValues_eq]

theorem Tree.value_object (gap : Gap) (members : List (Spaced (Member Tree))) :
    (Tree.object gap members).value = .dict (Entries.ofList
      (members.map fun s => (.str (decode s.inner.name), s.inner.inner.value))) := by
  rw [Tree.value, Tree.memberValues_eq, ← Entries.ofList_texts, List.map_map]
  rfl

/-- A tree with its numbers in range is read as the value that it denotes, if there is room for its
brackets. -/
theorem readsAs_tree (dialect : Dialect) {room : Nat} {tree : Tree} (h : tree.InRange)
    (hdepth : tree.depth ≤ room) : ReadsAs (value dialect room) tree.text tree.value := by
  induction tree using Tree.partsInduction generalizing room with
  | step tree ih =>
    cases tree with
    | null => exact readsAs_null dialect room
    | bool b =>
      cases b with
      | true => exact readsAs_true dialect room
      | false => exact readsAs_false dialect room
    | number n => exact readsAs_numeral dialect room (Tree.InRange.number_iff.1 h)
    | string ps => exact readsAs_string dialect room ps
    | array gap items =>
      cases room with
      | zero => rw [Tree.depth] at hdepth; omega
      | succ room =>
        rw [Tree.text_array, Tree.value_array]
        refine readsAs_inBrackets Tree.value (by decide) (.inl rfl) (separated_items dialect room)
          (value_array dialect room) gap fun s hs => ?_
        have hpart : s.inner ∈ (Tree.array gap items).parts := List.mem_map_of_mem hs
        exact ih _ hpart (h.inside _ hpart) (Tree.depth_array_le.1 hdepth s hs)
    | object gap members =>
      cases room with
      | zero => rw [Tree.depth] at hdepth; omega
      | succ room =>
        rw [Tree.text_object, Tree.value_object]
        refine readsAs_inBrackets (fun m : Member Tree => (.str (decode m.name), m.inner.value))
          (by decide) (.inr rfl) (separated_members dialect room) (value_object dialect room) gap
          fun s hs => ?_
        have hpart : s.inner.inner ∈ (Tree.object gap members).parts :=
          List.mem_map_of_mem (f := fun s : Spaced (Member Tree) => s.inner.inner) hs
        exact readsAs_member (ih _ hpart (h.inside _ hpart) (Tree.depth_object_le.1 hdepth s hs))

/-! ## Deep trees are refused -/

theorem refuses_inBrackets {dialect : Dialect} {room : Nat} {α β : Type} {text : α → Text}
    (val : α → β) {opening closing : CodePoint}
    {one : Nat → Input → Except RawFault (β × Input)}
    {list : Nat → Input → Except RawFault (List β × Input)} {build : List β → Value}
    (hopening : Opens opening) (hclosing : Closes closing) (h : Separated closing one list)
    (hvalue : ∀ fuel t offset, value dialect room (fuel + 1) ⟨opening :: t, offset⟩ =
      inBrackets closing build (list fuel) (Input.skipSpace ⟨t, offset + 1⟩))
    (gap : Gap) {fault : RawFault} {ss post : List (Spaced α)} {x : Spaced α}
    (hss : ∀ y ∈ ss, ReadsAs one (text y.inner) (val y.inner))
    (hx : Refuses one (text x.inner) fault) :
    Refuses (value dialect room)
      (opening :: (gap.text ++ (Spaced.joined text (ss ++ x :: post) ++ [closing]))) fault where
  opens := ⟨_, _, rfl, hopening⟩
  refuses := by
    intro fuel rest offset hfuel
    rw [List.length_cons, List.length_append, List.length_append, List.length_singleton] at hfuel
    obtain ⟨fuel, rfl⟩ : ∃ f, fuel = f + 1 := ⟨fuel - 1, by omega⟩
    rw [List.cons_append, List.append_assoc, List.append_assoc, hvalue]
    exact h.inBrackets_refuses hclosing build gap hx hss _ (offset + 1) (by omega)

theorem refuses_member {dialect : Dialect} {room : Nat} {m : Member Tree} {fault : RawFault}
    (h : Refuses (value dialect room) m.inner.text fault) :
    Refuses (member dialect room) (m.text Tree.text) fault where
  opens := ⟨_, _, rfl, by decide⟩
  refuses := by
    intro fuel rest offset hfuel
    have hcolon (t : Text) : NoGap (CodePoint.ofChar ':' :: t) := noGap_cons (by decide) t
    rw [Member.text] at hfuel ⊢
    simp only [List.length_append, List.length_cons] at hfuel
    simp only [List.append_assoc, List.cons_append, stringText_append]
    obtain ⟨o, ho⟩ := string_parts m.name (m.beforeColon.text ++ CodePoint.ofChar ':' ::
      (m.afterColon.text ++ (m.inner.text ++ rest))) (offset + 1)
    have hvalue := h.refuses fuel rest (o + m.beforeColon.text.length + 1 + m.afterColon.text.length)
      (by omega)
    simp only [member, after?_self, ho, bind, Except.bind, skipSpace_gap,
      skipSpace_of_noGap (hcolon _), skipSpace_of_noGap (h.noGap rest), hvalue]

/-- Where some element is no longer within a bound, there is a first such. -/
theorem exists_first {α : Type} {p : α → Prop} {xs : List α} (h : ¬ ∀ x ∈ xs, p x) :
    ∃ before x after, xs = before ++ x :: after ∧ (∀ y ∈ before, p y) ∧ ¬ p x := by
  classical
  obtain ⟨x, hx⟩ : ∃ x, xs.find? (fun x => ¬ p x) = some x := by
    rw [← Option.isSome_iff_exists, List.find?_isSome]
    obtain ⟨x, hp⟩ := not_forall.1 h
    obtain ⟨hx, hp⟩ := Classical.not_imp.1 hp
    exact ⟨x, hx, by simpa using hp⟩
  obtain ⟨hp, before, after, rfl, hbefore⟩ := List.find?_eq_some_iff_append.1 hx
  exact ⟨before, x, after, rfl, fun y hy => by simpa using hbefore y hy, by simpa using hp⟩

/-- A tree with its numbers in range is refused as too deep if there is no room for its brackets. By
induction on the tree: what stands before the first element that is too deep is read. -/
theorem refuses_tree (dialect : Dialect) {room : Nat} {tree : Tree} (h : tree.InRange)
    (hdepth : room < tree.depth) :
    ∃ container, Refuses (value dialect room) tree.text (.tooDeep container) := by
  induction tree using Tree.partsInduction generalizing room with
  | step tree ih =>
    cases tree with
    | null => exact absurd hdepth (Nat.not_lt_zero _)
    | bool b => exact absurd hdepth (Nat.not_lt_zero _)
    | number n => exact absurd hdepth (Nat.not_lt_zero _)
    | string ps => exact absurd hdepth (Nat.not_lt_zero _)
    | array gap items =>
      rw [Tree.text_array]
      cases room with
      | zero =>
        refine ⟨.array, ⟨⟨_, _, rfl, by decide⟩, fun fuel rest offset hfuel => ?_⟩⟩
        rw [List.length_cons] at hfuel
        obtain ⟨fuel, rfl⟩ : ∃ f, fuel = f + 1 := ⟨fuel - 1, by omega⟩
        rw [value]
        rfl
      | succ room =>
        obtain ⟨before, x, after, rfl, hbefore, hx⟩ :=
          exists_first fun hall => Nat.not_lt.2 (Tree.depth_array_le.2 hall) hdepth
        have hpart : ∀ s ∈ before ++ x :: after,
            s.inner ∈ (Tree.array gap (before ++ x :: after)).parts := fun s => List.mem_map_of_mem
        have hinner : x ∈ before ++ x :: after := by simp
        obtain ⟨container, hcontainer⟩ := ih _ (hpart x hinner) (h.inside _ (hpart x hinner))
          (Nat.not_le.1 hx)
        refine ⟨container, refuses_inBrackets Tree.value (by decide) (.inl rfl)
          (separated_items dialect room) (value_array dialect room) gap (fun s hs => ?_) hcontainer⟩
        have hmem : s ∈ before ++ x :: after := List.mem_append_left _ hs
        exact readsAs_tree dialect (h.inside _ (hpart s hmem)) (hbefore s hs)
    | object gap members =>
      rw [Tree.text_object]
      cases room with
      | zero =>
        refine ⟨.object, ⟨⟨_, _, rfl, by decide⟩, fun fuel rest offset hfuel => ?_⟩⟩
        rw [List.length_cons] at hfuel
        obtain ⟨fuel, rfl⟩ : ∃ f, fuel = f + 1 := ⟨fuel - 1, by omega⟩
        rw [value]
        rfl
      | succ room =>
        obtain ⟨before, x, after, rfl, hbefore, hx⟩ :=
          exists_first fun hall => Nat.not_lt.2 (Tree.depth_object_le.2 hall) hdepth
        have hpart : ∀ s ∈ before ++ x :: after,
            s.inner.inner ∈ (Tree.object gap (before ++ x :: after)).parts :=
          fun s => List.mem_map_of_mem (f := fun s : Spaced (Member Tree) => s.inner.inner)
        have hinner : x ∈ before ++ x :: after := by simp
        obtain ⟨container, hcontainer⟩ := ih _ (hpart x hinner) (h.inside _ (hpart x hinner))
          (Nat.not_le.1 hx)
        refine ⟨container, refuses_inBrackets
          (fun m : Member Tree => ((.str (decode m.name), m.inner.value) : Value × Value))
          (by decide) (.inr rfl) (separated_members dialect room) (value_object dialect room) gap
          (fun s hs => ?_) (refuses_member hcontainer)⟩
        have hmem : s ∈ before ++ x :: after := List.mem_append_left _ hs
        exact readsAs_member (readsAs_tree dialect (h.inside _ (hpart s hmem)) (hbefore s hs))

/-! ## What is read are trees -/

/-- A reader of values takes the texts of trees that fit into a room. -/
def TakesTrees (room : Nat) (one : Input → Except RawFault (Value × Input)) : Prop :=
  ∀ i v j, one i = .ok (v, j) → ∃ tree : Tree, (tree.InRange ∧ tree.depth ≤ room) ∧
    tree.value = v ∧ i.rest = tree.text ++ j.rest

theorem member_of_reader {room fuel : Nat} {i j : Input} {e : Value × Value}
    (hvalue : TakesTrees room (value .strict room fuel))
    (h : member .strict room fuel i = .ok (e, j)) :
    ∃ m : Member Tree, (m.inner.InRange ∧ m.inner.depth ≤ room) ∧
      (.str (decode m.name), m.inner.value) = e ∧ i.rest = m.text Tree.text ++ j.rest := by
  rw [member] at h
  split at h
  · cases h
  next i₁ hi₁ =>
  obtain ⟨⟨name, i₂⟩, hname, h⟩ := Except.bind_eq_ok.1 h
  simp only at h
  split at h
  · cases h
  next i₃ hi₃ =>
  obtain ⟨⟨v, i₄⟩, hv, h⟩ := Except.bind_eq_ok.1 h
  obtain ⟨rfl, rfl⟩ := Prod.mk.inj (Except.ok.inj h)
  obtain ⟨ps, rfl, hps⟩ := parts_of_string hname
  obtain ⟨beforeColon, hbefore⟩ := exists_gap i₂
  obtain ⟨afterColon, hafter⟩ := exists_gap i₃
  obtain ⟨tree, hfits, rfl, htree⟩ := hvalue _ v i₄ hv
  refine ⟨⟨ps, beforeColon, afterColon, tree⟩, hfits, rfl, ?_⟩
  rw [rest_of_after? hi₁, hps, hbefore, rest_of_after? hi₃, hafter, htree, Member.text]
  simp only [List.append_assoc, List.cons_append]

/-- Whatever the strict reader takes is the text of a tree, and it gives the value of the tree. -/
theorem tree_of_value (room fuel : Nat) : TakesTrees room (value .strict room fuel) := by
  induction fuel using Nat.strongRecOn generalizing room with
  | ind fuel ih =>
    intro i v j h
    cases fuel with
    | zero => rw [value] at h; cases h
    | succ fuel =>
      -- elements in brackets are read with less fuel
      have hvalue : ∀ room, ∀ f < fuel, TakesTrees room (value .strict room f) :=
        fun room f hf => ih f (Nat.lt_succ_of_lt hf) room
      obtain ⟨rest, offset⟩ := i
      cases rest with
      | nil => rw [value_nil] at h; cases h
      | cons c t =>
        by_cases hquote : c = CodePoint.ofChar '"'
        · subst hquote
          rw [value_quote] at h
          obtain ⟨⟨s, k⟩, hs, hk⟩ := Except.bind_eq_ok.1 h
          obtain ⟨rfl, rfl⟩ := Prod.mk.inj (Except.ok.inj hk)
          obtain ⟨ps, rfl, hps⟩ := parts_of_string hs
          exact ⟨.string ps, ⟨.of_string ps, Nat.zero_le _⟩, rfl, hps⟩
        by_cases hbracket : c = CodePoint.ofChar '['
        · subst hbracket
          cases room with
          | zero => rw [value] at h; cases h
          | succ room =>
            rw [value_array] at h
            obtain ⟨gap, ss, hss, hbuild, hrest⟩ :=
              (separated_items .strict room).exists_inBrackets (hvalue room) h
            refine ⟨.array gap ss, ⟨.of_array gap fun s hs => (hss s hs).1,
              Tree.depth_array_le.2 fun s hs => (hss s hs).2⟩, ?_, ?_⟩
            · rw [Tree.value_array, hbuild]
            · rw [Tree.text_array]
              simp only [List.cons_append, List.append_assoc, List.nil_append]
              exact congrArg _ hrest
        by_cases hbrace : c = CodePoint.ofChar '{'
        · subst hbrace
          cases room with
          | zero => rw [value] at h; cases h
          | succ room =>
            rw [value_object] at h
            obtain ⟨gap, ss, hss, hbuild, hrest⟩ :=
              (separated_members .strict room).exists_inBrackets
                (fun f hf i e j => member_of_reader (hvalue room f hf)) h
            refine ⟨.object gap ss, ⟨.of_object gap fun s hs => (hss s hs).1,
              Tree.depth_object_le.2 fun s hs => (hss s hs).2⟩, ?_, ?_⟩
            · rw [Tree.value_object, hbuild]
            · rw [Tree.text_object]
              simp only [List.cons_append, List.append_assoc, List.nil_append]
              exact congrArg _ hrest
        · rw [value_other hquote hbracket hbrace] at h
          obtain ⟨tree, ⟨hrange, hflat⟩, hvalue, hrest⟩ := tree_of_scalar h
          exact ⟨tree, ⟨hrange, hflat ▸ Nat.zero_le room⟩, hvalue, hrest⟩

/-! ## What is refused as too deep -/

theorem malformed_of_stringRest {start fuel : Nat} {i : Input} {fault : RawFault}
    (h : stringRest start fuel i = .error fault) : ∃ problem place, fault = .malformed problem place := by
  induction fuel generalizing i with
  | zero => exact ⟨_, _, (Except.error.inj h).symm⟩
  | succ fuel ih =>
    have hmore {c : CodePoint} {k : Input} (hk : (do
        let (ds, i) ← stringRest start fuel k
        return (c :: ds, i)) = (.error fault : Except RawFault (Text × Input))) :
        ∃ problem place, fault = .malformed problem place := by
      rcases Except.bind_eq_error.1 hk with hk | ⟨_, _, hpure⟩
      · exact ih hk
      · cases hpure
    rw [stringRest] at h
    repeat' split at h
    all_goals first
      | exact hmore h
      | exact ⟨_, _, (Except.error.inj h).symm⟩
      | cases h

theorem openings_of_taken {room : Nat} {one : Input → Except RawFault (Value × Input)}
    (h : TakesTrees room one) {i j : Input} {v : Value} (hok : one i = .ok (v, j)) :
    openings j.rest ≤ openings i.rest := by
  obtain ⟨tree, -, -, hrest⟩ := h i v j hok
  rw [hrest, openings_append]
  exact Nat.le_add_left _ _

theorem openings_of_member_taken {room fuel : Nat} {i j : Input} {e : Value × Value}
    (hok : member .strict room fuel i = .ok (e, j)) : openings j.rest ≤ openings i.rest := by
  obtain ⟨m, -, -, hrest⟩ := member_of_reader (tree_of_value room fuel) hok
  rw [hrest, openings_append]
  exact Nat.le_add_left _ _

theorem string_ne_tooDeep {i : Input} {container : Container} :
    string i ≠ .error (.tooDeep container) := by
  intro h
  obtain ⟨problem, place, hfault⟩ := malformed_of_stringRest h
  cases hfault

theorem scalar_ne_tooDeep {dialect : Dialect} {i : Input} {container : Container} :
    scalar dialect i ≠ .error (.tooDeep container) := by
  intro h
  unfold scalar at h
  split at h
  · split at h <;> cases h
  · split at h
    · cases h
    · rcases Except.bind_eq_error.1 h with hvalue | ⟨_, _, hpure⟩
      · unfold NumberParts.value at hvalue
        repeat' split at hvalue
        all_goals cases hvalue
      · cases hpure

theorem openings_of_member {room fuel : Nat} {i : Input} {container : Container}
    (hvalue : ∀ i, value .strict room fuel i = .error (.tooDeep container) → room < openings i.rest)
    (h : member .strict room fuel i = .error (.tooDeep container)) : room < openings i.rest := by
  rw [member] at h
  split at h
  · cases h
  next i₁ hi₁ =>
  rcases Except.bind_eq_error.1 h with hstring | ⟨⟨name, i₂⟩, hname, h⟩
  · exact absurd hstring string_ne_tooDeep
  obtain ⟨ps, -, hps⟩ := parts_of_string hname
  have hbehind : openings i₂.skipSpace.rest ≤ openings i.rest := by
    refine (openings_skipSpace i₂).trans ?_
    rw [rest_of_after? hi₁, hps, openings_append]
    exact Nat.le_add_left _ _
  simp only at h
  split at h
  · cases h
  next i₃ hi₃ =>
  rcases Except.bind_eq_error.1 h with hdeep | ⟨_, _, hpure⟩
  · have hroom := (hvalue _ hdeep).trans_le (openings_skipSpace i₃)
    rw [rest_of_after? hi₃] at hbehind
    exact hroom.trans_le ((openings_le_cons _ _).trans hbehind)
  · cases hpure

/-- Nothing is refused as too deep unless more brackets open than there is room for. -/
theorem openings_of_tooDeep (room fuel : Nat) {i : Input} {container : Container}
    (h : value .strict room fuel i = .error (.tooDeep container)) : room < openings i.rest := by
  induction fuel using Nat.strongRecOn generalizing room i with
  | ind fuel ih =>
    cases fuel with
    | zero => rw [value] at h; cases h
    | succ fuel =>
      have hvalue : ∀ room, ∀ f < fuel, ∀ i, value .strict room f i = .error (.tooDeep container) →
          room < openings i.rest := fun room f hf i => ih f (Nat.lt_succ_of_lt hf) room
      obtain ⟨rest, offset⟩ := i
      cases rest with
      | nil => rw [value_nil] at h; cases h
      | cons c t =>
        by_cases hquote : c = CodePoint.ofChar '"'
        · subst hquote
          rw [value_quote] at h
          rcases Except.bind_eq_error.1 h with hstring | ⟨_, _, hpure⟩
          · exact absurd hstring string_ne_tooDeep
          · cases hpure
        by_cases hbracket : c = CodePoint.ofChar '['
        · subst hbracket
          have hopen : openings (CodePoint.ofChar '[' :: t) = openings t + 1 :=
            List.countP_cons_of_pos (by decide)
          cases room with
          | zero => rw [hopen]; exact Nat.succ_pos _
          | succ room =>
            rw [value_array] at h
            have hinside := (separated_items .strict room).openings_of_inBrackets (hvalue room)
              (fun f _ i v j hok => openings_of_taken (tree_of_value room f) hok) h
            rw [hopen]
            exact Nat.succ_lt_succ (hinside.trans_le (openings_skipSpace _))
        by_cases hbrace : c = CodePoint.ofChar '{'
        · subst hbrace
          have hopen : openings (CodePoint.ofChar '{' :: t) = openings t + 1 :=
            List.countP_cons_of_pos (by decide)
          cases room with
          | zero => rw [hopen]; exact Nat.succ_pos _
          | succ room =>
            rw [value_object] at h
            have hinside := (separated_members .strict room).openings_of_inBrackets
              (fun f hf i => openings_of_member (hvalue room f hf))
              (fun f _ i e j hok => openings_of_member_taken hok) h
            rw [hopen]
            exact Nat.succ_lt_succ (hinside.trans_le (openings_skipSpace _))
        · rw [value_other hquote hbracket hbrace] at h
          exact absurd h scalar_ne_tooDeep

/-! ## Documents -/

variable {dialect : Dialect} {nesting : Nat} {tree : Tree} {t : Text}

/-- A text that is derived by a tree with its numbers in range is read as the value of the tree, if
there is room for its brackets. -/
theorem whole_of_derives (hrange : tree.InRange) (hdepth : tree.depth ≤ nesting)
    (ht : tree.Derives t) : whole dialect nesting t = .ok tree.value := by
  obtain ⟨before, after, rfl⟩ := ht
  have hreads := readsAs_tree dialect hrange hdepth
  have hend : Numeral.Ends after.text := by
    have := ends_gap after Numeral.ends_nil
    rwa [List.append_nil] at this
  have hnil (o : Nat) : (Input.skipSpace ⟨after.text, o⟩).rest = [] := by
    have hgap := skipSpace_gap after [] o
    rw [List.append_nil, skipSpace_of_noGap noGap_nil] at hgap
    rw [hgap]
  obtain ⟨o, ho⟩ := hreads.reads (2 * (before.text ++ (tree.text ++ after.text)).length + 1)
    after.text (0 + before.text.length) (by simp only [List.length_append]; omega) hend
  rw [whole, skipSpace_gap, skipSpace_of_noGap (hreads.noGap _), ho]
  simp only [bind, Except.bind, hnil, List.isEmpty_nil, ↓reduceIte]
  rfl

/-- A text that is derived by a tree with its numbers in range is refused as too deep if there is no
room for its brackets. -/
theorem whole_of_deep (hrange : tree.InRange) (hdepth : nesting < tree.depth)
    (ht : tree.Derives t) :
    ∃ container, whole dialect nesting t = .error (.tooDeep container) := by
  obtain ⟨before, after, rfl⟩ := ht
  obtain ⟨container, hrefuses⟩ := refuses_tree dialect hrange hdepth
  refine ⟨container, ?_⟩
  rw [whole, skipSpace_gap, skipSpace_of_noGap (hrefuses.noGap _),
    hrefuses.refuses _ _ _ (by simp only [List.length_append]; omega)]
  rfl

/-- Whatever the strict reader takes as a whole is derived by a tree with its numbers in range, and
there is room for its brackets. -/
theorem exists_derives {v : Value} (h : whole .strict nesting t = .ok v) :
    ∃ tree : Tree, tree.Derives t ∧ tree.InRange ∧ tree.depth ≤ nesting ∧ tree.value = v := by
  rw [whole] at h
  obtain ⟨⟨w, i⟩, hw, h⟩ := Except.bind_eq_ok.1 h
  obtain ⟨before, hbefore⟩ := exists_gap ⟨t, 0⟩
  obtain ⟨tree, ⟨hrange, hdepth⟩, rfl, htree⟩ := tree_of_value _ _ _ _ _ hw
  obtain ⟨after, hafter⟩ := exists_gap i
  simp only at h
  split at h
  · next hempty =>
    obtain rfl := Except.ok.inj h
    rw [List.isEmpty_iff.1 hempty, List.append_nil] at hafter
    exact ⟨tree, ⟨before, after, by rw [← hafter, ← htree]; exact hbefore⟩, hrange, hdepth, rfl⟩
  · cases h

theorem openings_of_whole {container : Container}
    (h : whole .strict nesting t = .error (.tooDeep container)) : nesting < openings t := by
  rw [whole] at h
  rcases Except.bind_eq_error.1 h with hdeep | ⟨⟨v, i⟩, _, hmore⟩
  · exact (openings_of_tooDeep _ _ hdeep).trans_le (openings_skipSpace ⟨t, 0⟩)
  · simp only at hmore
    split at hmore <;> cases hmore

/-- A text that can be derived does not begin with a byte order mark. -/
theorem head?_ne_byteOrderMark (h : tree.Derives t) (hrange : tree.InRange) :
    t.head? ≠ some .byteOrderMark := by
  obtain ⟨before, after, rfl⟩ := h
  obtain ⟨c, u, hcu, hc⟩ := (readsAs_tree .strict hrange (Nat.le_refl _)).opens
  obtain ⟨text, hspace⟩ := before
  intro hhead
  cases text with
  | nil =>
    rw [hcu] at hhead
    exact hc.2.2.2 (Option.some.inj hhead)
  | cons d text =>
    have hd := hspace d List.mem_cons_self
    rw [Option.some.inj hhead] at hd
    exact absurd hd (by unfold IsSpace; decide)

theorem read_of_derives (hrange : tree.InRange) (hdepth : tree.depth ≤ nesting)
    (ht : tree.Derives t) : read dialect nesting t = .ok tree.value := by
  rw [read, if_neg (head?_ne_byteOrderMark ht hrange), whole_of_derives hrange hdepth ht]
  rfl

theorem read_of_deep (hrange : tree.InRange) (hdepth : nesting < tree.depth) (ht : tree.Derives t) :
    ∃ container, read dialect nesting t = .error (.tooDeep container) := by
  obtain ⟨container, hwhole⟩ : ∃ container, whole dialect nesting t = .error (.tooDeep container) :=
    whole_of_deep hrange hdepth ht
  refine ⟨container, ?_⟩
  rw [read, if_neg (head?_ne_byteOrderMark ht hrange), hwhole]
  rfl

/-- The strict reader gives a value exactly for the texts that can be derived with all numbers in range
and room for all brackets, and it is the value that the derivation denotes. -/
theorem read_eq_ok_iff {v : Value} :
    read .strict nesting t = .ok v ↔
      ∃ tree : Tree, tree.Derives t ∧ tree.InRange ∧ tree.depth ≤ nesting ∧ tree.value = v := by
  constructor
  · intro h
    rw [read] at h
    split at h
    · cases h
    · exact exists_derives (Except.mapError_eq_ok.1 h)
  · rintro ⟨tree, hderives, hrange, hdepth, rfl⟩
    exact read_of_derives hrange hdepth hderives

/-- The strict reader refuses a text as too deep only where more brackets open than there is room for. -/
theorem openings_of_read {container : Container}
    (h : read .strict nesting t = .error (.tooDeep container)) : nesting < openings t := by
  rw [read] at h
  split at h
  · cases h
  · obtain ⟨fault, hfault, hlocate⟩ := Except.mapError_eq_error.1 h
    cases fault with
    | tooDeep container => exact openings_of_whole hfault
    | _ => cases hlocate

end DocShape.Json
