import DocShape.Proofs.Json.Quotes
import DocShape.Proofs.Json.Reading
import DocShape.Proofs.Value.Joined

/-!
# What documents hold

A tree with its numbers in range denotes a document value: null, truth values, integers within the digit
limit, finite doubles, texts, lists, and dictionaries with each text once (`Tree.everywhere_value`). So
whatever text the strict reader accepts, what it gives can be written again. If no surrogates stand in the
text as they are, then the texts in what is read are joined (`isJoined_of_read`).
-/

namespace DocShape

/-- What the strict reader can give at one place. -/
def Value.ReadNode (v : Value) : Prop := v.DocumentNode ∧ v.IntDigitsNode ∧ v.KeyDigitsNode

namespace Json

theorem readNode_numeral {n : Numeral} (h : n.InRange) : (Value.ofNumber n.value).ReadNode := by
  rw [Numeral.InRange] at h
  rw [Numeral.value]
  split at h
  · next hint =>
    rw [if_pos hint]
    refine ⟨trivial, ?_, trivial⟩
    have habs : (if n.negative = true then -(Text.toNat n.whole : Int)
        else Text.toNat n.whole).natAbs = Text.toNat n.whole := by
      split <;> simp
    show (Text.ofNat _).length ≤ digitLimit
    rw [habs, Text.ofNat_toNat n.isNumeral]
    exact h
  · next hint =>
    rw [if_neg hint]
    exact ⟨Binary64.isFinite_ofDecimal_iff.2 h, trivial, trivial⟩

/-- Each entry of an object comes of a member. -/
theorem Tree.exists_member_of_mem {members : List (Spaced (Member Tree))} {e : Value × Value}
    (h : e ∈ Entries.lastValues (Tree.memberValues members)) :
    ∃ s ∈ members, e = (.str (decode s.inner.name), s.inner.inner.value) := by
  obtain ⟨p, hp, rfl⟩ := Entries.mem_lastValues h
  rw [Tree.memberValues_eq] at hp
  obtain ⟨s, hs, rfl⟩ := List.mem_map.1 hp
  exact ⟨s, hs, rfl⟩

/-- A tree with its numbers in range denotes what a document can hold, with integers that can be
written. -/
theorem Tree.everywhere_value {tree : Tree} (h : tree.InRange) :
    tree.value.Everywhere Value.ReadNode := by
  induction tree using Tree.partsInduction with
  | step tree ih =>
    have hparts : ∀ u ∈ tree.parts, u.value.Everywhere Value.ReadNode :=
      fun u hu => ih u hu (h.inside u hu)
    cases tree with
    | null => exact .leaf ⟨trivial, trivial, trivial⟩ rfl
    | bool b => exact .leaf ⟨trivial, trivial, trivial⟩ rfl
    | number n =>
      refine .leaf (readNode_numeral (Tree.InRange.number_iff.1 h)) ?_
      rw [Tree.value]
      cases n.value <;> rfl
    | string ps => exact .leaf ⟨trivial, trivial, trivial⟩ rfl
    | array gap items =>
      rw [Tree.value_array]
      refine ⟨⟨trivial, trivial, trivial⟩, List.forall_mem_map.2 fun s hs => ?_⟩
      exact hparts _ (List.mem_map_of_mem hs)
    | object gap members =>
      rw [Tree.value]
      refine ⟨⟨⟨fun e he => ?_, Entries.nodup_lastValues _⟩, trivial, fun e he n hn => ?_⟩,
        List.forall_mem_map.2 fun e he => ?_⟩
      · obtain ⟨s, -, rfl⟩ := Tree.exists_member_of_mem he
        exact ⟨_, rfl⟩
      · obtain ⟨s, -, rfl⟩ := Tree.exists_member_of_mem he
        cases hn
      · obtain ⟨s, hs, rfl⟩ := Tree.exists_member_of_mem he
        exact hparts _ (List.mem_map_of_mem (f := fun s : Spaced (Member Tree) => s.inner.inner) hs)

section

variable {nesting : Nat} {t : Text} {v : Value}

theorem everywhere_of_whole (h : whole .strict nesting t = .ok v) :
    v.Everywhere Value.ReadNode := by
  obtain ⟨tree, -, hrange, -, rfl⟩ := exists_derives h
  exact tree.everywhere_value hrange

theorem everywhere_of_read (h : read .strict nesting t = .ok v) :
    v.Everywhere Value.ReadNode := by
  obtain ⟨tree, -, hrange, -, rfl⟩ := read_eq_ok_iff.1 h
  exact tree.everywhere_value hrange

/-- What is read from a document is what a document can hold. -/
theorem isDocument_of_read (h : read .strict nesting t = .ok v) : v.IsDocument :=
  (everywhere_of_read h).mono fun _ hv => hv.1

/-- The integers that are read from a document are within the digit limit. -/
theorem hasDigits_of_read (h : read .strict nesting t = .ok v) : v.HasDigits :=
  (everywhere_of_read h).mono fun _ hv => hv.2

/-- What is read from a document is no deeper than the reader has room for. -/
theorem depth_of_whole (h : whole .strict nesting t = .ok v) : v.depth ≤ nesting := by
  obtain ⟨tree, -, -, hdepth, rfl⟩ := exists_derives h
  exact tree.depth_value_le.trans hdepth

theorem depth_of_read (h : read .strict nesting t = .ok v) : v.depth ≤ nesting := by
  obtain ⟨tree, -, -, hdepth, rfl⟩ := read_eq_ok_iff.1 h
  exact tree.depth_value_le.trans hdepth

end

/-! ## Surrogates -/

theorem noSurrogates_of_subset {s t : Text} (h : t.NoSurrogates) (hs : s ⊆ t) : s.NoSurrogates :=
  fun c hc => h c (hs hc)

theorem subset_join {separator t : Text} {ts : List Text} (h : t ∈ ts) :
    t ⊆ Text.join separator ts := by
  induction ts with
  | nil => cases h
  | cons s ts ih =>
    cases ts with
    | nil =>
      obtain rfl := List.mem_singleton.1 h
      exact List.Subset.refl _
    | cons u us =>
      rcases List.mem_cons.1 h with rfl | h
      · exact List.Subset.trans (List.subset_append_left _ _) (List.subset_append_left _ _)
      · exact List.Subset.trans (ih h) (List.subset_append_right _ _)

/-- A part that stands for a high surrogate is an escape, if no surrogates stand in its text. -/
theorem StringPart.isHigh_of_code {p : StringPart} (h : p.text.NoSurrogates)
    (hp : p.code.isHighSurrogate = true) : p.isHigh = true := by
  cases p with
  | plain c _ =>
    have hc := h c (List.mem_singleton_self c)
    cases hc.symm.trans (CodePoint.isSurrogate_of_high hp)
  | short letter c hc =>
    have hall : (shortEscapes.any fun e => e.2.isHighSurrogate) = false := by decide
    cases hall.symm.trans (List.any_eq_true.2 ⟨_, hc, hp⟩)
  | unit u => exact hp

/-- A part that stands for a low surrogate is an escape, if no surrogates stand in its text. -/
theorem StringPart.isLow_of_code {p : StringPart} (h : p.text.NoSurrogates)
    (hp : p.code.isLowSurrogate = true) : p.isLow = true := by
  cases p with
  | plain c _ =>
    have hc := h c (List.mem_singleton_self c)
    cases hc.symm.trans (CodePoint.isSurrogate_of_low hp)
  | short letter c hc =>
    have hall : (shortEscapes.any fun e => e.2.isLowSurrogate) = false := by decide
    cases hall.symm.trans (List.any_eq_true.2 ⟨_, hc, hp⟩)
  | unit u => exact hp

/-- What a string begins with is a low surrogate only if its first part stands for one. -/
theorem isLowSurrogate_of_head?_decode {p : StringPart} {ps : List StringPart}
    (h : p.code.isLowSurrogate = false) :
    ∀ c ∈ (decode (p :: ps)).head?, c.isLowSurrogate = false := by
  have hpair {q : StringPart} (hp : p.isHigh = true) (hq : q.isLow = true) :
      (Encoding.joinSurrogates p.code q.code).isLowSurrogate = false := by
    have hval := CodePoint.val_joinSurrogates (isHighSurrogate_of_isHigh hp)
      (isLowSurrogate_of_isLow hq)
    rw [Bool.eq_false_iff, ne_eq, CodePoint.isLowSurrogate_iff]
    omega
  intro c hc
  cases ps with
  | nil => exact Option.some.inj hc ▸ h
  | cons q ps =>
    rw [decode] at hc
    split at hc
    · next hjoin => exact Option.some.inj hc ▸ hpair hjoin.1 hjoin.2
    · exact Option.some.inj hc ▸ h

/-- The text of a string is joined, as escaped surrogates are joined where it is read. -/
theorem isJoined_decode {ps : List StringPart} (h : ∀ p ∈ ps, p.text.NoSurrogates) :
    (decode ps).IsJoined := by
  induction ps using decode.induct with
  | case1 => exact Text.isJoined_nil
  | case2 p => exact .singleton p.code
  | case3 p q rest hpair ih =>
    rw [decode, if_pos hpair]
    refine Text.isJoined_cons.2 ⟨fun hhigh => ?_, ih fun r hr => ?_⟩
    · have hval := CodePoint.val_joinSurrogates (isHighSurrogate_of_isHigh hpair.1)
        (isLowSurrogate_of_isLow hpair.2)
      rw [CodePoint.isHighSurrogate_iff] at hhigh
      omega
    · exact h r (List.mem_cons_of_mem _ (List.mem_cons_of_mem _ hr))
  | case4 p q rest halone ih =>
    obtain ⟨hp, hrest⟩ := List.forall_mem_cons.1 h
    rw [decode, if_neg halone]
    refine Text.isJoined_cons.2 ⟨fun hhigh => isLowSurrogate_of_head?_decode ?_, ih hrest⟩
    refine Bool.eq_false_iff.2 fun hlow => halone ⟨p.isHigh_of_code hp hhigh, ?_⟩
    exact q.isLow_of_code (hrest q List.mem_cons_self) hlow

theorem isJoined_of_stringText {ps : List StringPart} (h : (stringText ps).NoSurrogates) :
    (decode ps).IsJoined := by
  refine isJoined_decode fun p hp => noSurrogates_of_subset h fun c hc => ?_
  exact List.mem_cons_of_mem _ (List.mem_append_left _ (List.mem_flatMap.2 ⟨p, hp, hc⟩))

/-- If no surrogates stand in the text of a tree, then the texts in its value are joined. -/
theorem Tree.isJoined_value {tree : Tree} (h : tree.text.NoSurrogates) : tree.value.IsJoined := by
  induction tree using Tree.partsInduction with
  | step tree ih =>
    cases tree with
    | null => exact .leaf trivial rfl
    | bool b => exact .leaf trivial rfl
    | number n =>
      rw [Tree.value]
      cases n.value <;> exact .leaf trivial rfl
    | string ps => exact .leaf (isJoined_of_stringText h) rfl
    | array gap items =>
      rw [Tree.text_array] at h
      rw [Tree.value_array]
      refine ⟨trivial, List.forall_mem_map.2 fun s hs => ?_⟩
      refine ih _ (List.mem_map_of_mem hs) (noSurrogates_of_subset h fun c hc => ?_)
      have hitem : c ∈ s.text Tree.text := List.mem_append_right _ (List.mem_append_left _ hc)
      exact List.mem_cons_of_mem _ (List.mem_append_right _
        (List.mem_append_left _ (subset_join (List.mem_map_of_mem hs) hitem)))
    | object gap members =>
      rw [Tree.text_object] at h
      have hmember : ∀ s ∈ members, (s.inner.text Tree.text).NoSurrogates := fun s hs =>
        noSurrogates_of_subset h fun c hc => by
          have hspaced : c ∈ s.text (Member.text Tree.text) :=
            List.mem_append_right _ (List.mem_append_left _ hc)
          exact List.mem_cons_of_mem _ (List.mem_append_right _
            (List.mem_append_left _ (subset_join (List.mem_map_of_mem hs) hspaced)))
      rw [Tree.value]
      refine ⟨fun e he t ht => ?name, List.forall_mem_map.2 fun e he => ?value⟩
      case name =>
        obtain ⟨s, hs, rfl⟩ := Tree.exists_member_of_mem he
        obtain rfl := Value.str.inj ht
        refine isJoined_of_stringText (noSurrogates_of_subset (hmember s hs) fun c hc => ?_)
        exact List.mem_append_left _ hc
      case value =>
        obtain ⟨s, hs, rfl⟩ := Tree.exists_member_of_mem he
        refine ih _ (List.mem_map_of_mem (f := fun s : Spaced (Member Tree) => s.inner.inner) hs)
          (noSurrogates_of_subset (hmember s hs) fun c hc => ?_)
        exact List.mem_append_right _ (List.mem_append_right _
          (List.mem_cons_of_mem _ (List.mem_append_right _ hc)))

/-- What is read of a text without surrogates has joined texts. -/
theorem isJoined_of_read {nesting : Nat} {t : Text} {v : Value} (ht : t.NoSurrogates)
    (h : read .strict nesting t = .ok v) : v.IsJoined := by
  obtain ⟨tree, ⟨before, after, rfl⟩, -, -, rfl⟩ := read_eq_ok_iff.1 h
  refine tree.isJoined_value (noSurrogates_of_subset ht fun c hc => ?_)
  exact List.mem_append_right _ (List.mem_append_left _ hc)

end Json

end DocShape
