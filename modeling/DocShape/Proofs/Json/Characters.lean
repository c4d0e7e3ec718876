import DocShape.Proofs.Json.RoundTrip
import DocShape.Proofs.Text.Bytes

/-!
# Characters of documents

A document has control characters for white space only (`Tree.stands_text`), and its first character is an
ASCII one, so that its encoding shows in its first bytes (`showsEncoding_of_read`). The writer uses less:
newlines, and characters from the space on, in ASCII none behind the tilde (`written_text`).
-/

namespace DocShape

/-- The space, and the characters that ASCII has a shape for. -/
def CodePoint.isGraphic (c : CodePoint) : Bool := 0x20 ≤ c.val && c.val ≤ 0x7E

theorem CodePoint.isGraphic_iff {c : CodePoint} : c.isGraphic = true ↔ 0x20 ≤ c.val ∧ c.val ≤ 0x7E := by
  simp only [isGraphic, Bool.and_eq_true, decide_eq_true_eq]

/-- A text in ASCII without control characters. -/
def Text.IsGraphic (t : Text) : Prop := ∀ c ∈ t, c.isGraphic = true

instance (t : Text) : Decidable t.IsGraphic :=
  decidable_of_iff (t.all CodePoint.isGraphic = true) List.all_eq_true

namespace Text

variable {s t : Text} {c : CodePoint}

theorem IsGraphic.nil : IsGraphic [] := fun _ hc => absurd hc List.not_mem_nil

theorem isGraphic_cons : IsGraphic (c :: t) ↔ c.isGraphic = true ∧ t.IsGraphic := List.forall_mem_cons

theorem isGraphic_append : IsGraphic (s ++ t) ↔ s.IsGraphic ∧ t.IsGraphic := List.forall_mem_append

/-- What holds of the characters of the parts and of the separator holds of those of the whole. -/
theorem forall_mem_join {p : CodePoint → Prop} {ts : List Text} (hs : ∀ c ∈ s, p c)
    (hts : ∀ t ∈ ts, ∀ c ∈ t, p c) : ∀ c ∈ join s ts, p c := by
  induction ts with
  | nil => exact fun c hc => absurd hc List.not_mem_nil
  | cons t ts ih =>
    obtain ⟨ht, hts⟩ := List.forall_mem_cons.1 hts
    cases ts with
    | nil => exact ht
    | cons u us => exact List.forall_mem_append.2 ⟨List.forall_mem_append.2 ⟨ht, hs⟩, ih hts⟩

theorem isGraphic_of_digits (h : ∀ c ∈ t, c.isDigit = true) : t.IsGraphic := by
  intro c hc
  have hdigit := h c hc
  simp only [CodePoint.isDigit, Bool.and_eq_true, decide_eq_true_eq] at hdigit
  rw [CodePoint.isGraphic_iff]
  omega

theorem isGraphic_ofInt (n : Int) : (ofInt n).IsGraphic := by
  have hdigits : (ofNat n.natAbs).IsGraphic := isGraphic_of_digits (isNumeral_ofNat _).digits
  rw [ofInt_eq]
  split
  · exact isGraphic_cons.2 ⟨by decide, hdigits⟩
  · exact hdigits

theorem isGraphic_hex4 (n : Nat) : (hex4 n).IsGraphic := by
  have hdigit (m : Nat) : (CodePoint.ofChar (m % 16).digitChar).isGraphic = true := by
    have hall : ∀ d < 16, (CodePoint.ofChar (Nat.digitChar d)).isGraphic = true := by decide
    exact hall _ (Nat.mod_lt _ (by decide))
  simp only [hex4, hex2, List.map_cons, List.map_nil, List.cons_append, List.nil_append]
  simp only [isGraphic_cons, hdigit, IsGraphic.nil, and_self]

end Text

theorem Exponent.isGraphic_text (e : Exponent) : e.text.IsGraphic := by
  refine Text.isGraphic_cons.2
    ⟨?_, Text.isGraphic_append.2 ⟨?_, Text.isGraphic_of_digits e.areDigits⟩⟩
  · rcases e.isLetter with h | h <;> rw [h] <;> decide
  · rcases e.isSign with h | h | h <;> rw [h]
    · exact .nil
    · decide
    · decide

theorem Numeral.isGraphic_text (n : Numeral) : n.text.IsGraphic := by
  have hsign : (signText n.negative).IsGraphic := by
    cases n.negative <;> decide
  have hfraction : n.fractionText.IsGraphic := by
    rw [fractionText]
    split
    · exact .nil
    · exact Text.isGraphic_cons.2 ⟨by decide, Text.isGraphic_of_digits n.areDigits⟩
  have hexponent : n.exponentText.IsGraphic := by
    rw [exponentText]
    cases n.exponent with
    | none => exact .nil
    | some e => exact e.isGraphic_text
  exact Text.isGraphic_append.2 ⟨hsign, Text.isGraphic_append.2
    ⟨Text.isGraphic_of_digits n.isNumeral.digits, Text.isGraphic_append.2 ⟨hfraction, hexponent⟩⟩⟩

namespace Json

/-! ## What is written -/

section Written

variable {style : Style} {depth : Nat} {c d : CodePoint} {t : Text}

/-- The characters that are written in a style. -/
def Written (style : Style) (c : CodePoint) : Prop :=
  c = CodePoint.ofChar '\n' ∨ 0x20 ≤ c.val ∧ (style.asciiOnly = true → c.val ≤ 0x7E)

/-- No control character is written but the newline. -/
theorem Written.ne_of_control {d : CodePoint} (h : Written style c) (hd : d.val < 0x20)
    (hnewline : d ≠ CodePoint.ofChar '\n') : c ≠ d := by
  rintro rfl
  rcases h with h | ⟨hval, -⟩
  · exact hnewline h
  · omega

theorem written_of_graphic (h : c.isGraphic = true) : Written style c :=
  .inr ((CodePoint.isGraphic_iff.1 h).imp_right fun hval _ => hval)

theorem isGraphic_codeUnit (n : Nat) : (codeUnit n).IsGraphic :=
  Text.isGraphic_append.2 ⟨by decide, Text.isGraphic_hex4 n⟩

/-- An escape is in graphic characters, and any other character stands for itself. -/
theorem written_escape (hd : d ∈ escape style.asciiOnly c) : Written style d := by
  have hescape {t : Text} (ht : t.IsGraphic) (hd : d ∈ t) : Written style d :=
    written_of_graphic (ht d hd)
  unfold escape at hd
  split at hd
  · next h => rcases h with rfl | rfl <;> exact hescape (by decide) hd
  iterate 5
    split at hd
    · exact hescape (by decide) hd
  split at hd
  · exact hescape (isGraphic_codeUnit _) hd
  split at hd
  · split at hd
    · exact hescape (isGraphic_codeUnit _) hd
    · exact hescape (Text.isGraphic_append.2 ⟨isGraphic_codeUnit _, isGraphic_codeUnit _⟩) hd
  · next hcontrol hascii =>
    obtain rfl := List.mem_singleton.1 hd
    simp only [Bool.and_eq_true, decide_eq_true_eq, not_and, not_lt] at hascii
    exact .inr ⟨by omega, hascii⟩

theorem written_quote (t : Text) : ∀ c ∈ quote style.asciiOnly t, Written style c := by
  have hmark : ∀ c ∈ Text.ofString "\"", Written style c := fun c hc =>
    written_of_graphic ((by decide : Text.IsGraphic "\"") c hc)
  refine List.forall_mem_append.2 ⟨List.forall_mem_append.2 ⟨hmark, fun d hd => ?_⟩, hmark⟩
  obtain ⟨c, -, hd⟩ := List.mem_flatMap.1 hd
  exact written_escape hd

theorem isGraphic_floatText {x : Binary64} (h : floatText style x = .ok t) : t.IsGraphic := by
  cases x with
  | nan =>
    rw [floatText] at h
    split at h
    · cases h
    · exact Except.ok.inj h ▸ by decide
  | infinite negative =>
    rw [floatText] at h
    split at h
    · cases h
    · cases negative <;> exact Except.ok.inj h ▸ by decide
  | finite negative m =>
    obtain rfl := Except.ok.inj h
    rw [← Binary64.text_numeral]
    exact Numeral.isGraphic_text _

theorem written_bracketed {opening closing : CodePoint} (hopening : opening.isGraphic = true)
    (hclosing : closing.isGraphic = true) {parts : List Text} (h : ∀ t ∈ parts, ∀ c ∈ t, Written style c) :
    ∀ c ∈ bracketed style depth opening closing parts, Written style c := by
  have hspace : (CodePoint.ofChar ' ').isGraphic = true := by decide
  have hcomma : ∀ c ∈ Text.ofString ",", Written style c := fun c hc =>
    written_of_graphic ((by decide : Text.IsGraphic ",") c hc)
  have hline (depth : Nat) : ∀ c ∈ newline depth, Written style c :=
    List.forall_mem_cons.2 ⟨.inl rfl, fun c hc =>
      List.eq_of_mem_replicate hc ▸ written_of_graphic hspace⟩
  have hends : (∀ c ∈ [opening], Written style c) ∧ ∀ c ∈ [closing], Written style c :=
    ⟨List.forall_mem_singleton.2 (written_of_graphic hopening),
      List.forall_mem_singleton.2 (written_of_graphic hclosing)⟩
  rw [bracketed]
  split
  · exact List.forall_mem_cons.2 ⟨written_of_graphic hopening, hends.2⟩
  split
  · simp only [List.forall_mem_append]
    exact ⟨⟨⟨⟨hends.1, hline _⟩,
      Text.forall_mem_join (List.forall_mem_append.2 ⟨hcomma, hline _⟩) h⟩, hline _⟩, hends.2⟩
  · simp only [List.forall_mem_append]
    exact ⟨⟨hends.1, Text.forall_mem_join hcomma h⟩, hends.2⟩

/-- No other characters are written. -/
theorem written_text (v : Value) (h : text style depth v = .ok t) : ∀ c ∈ t, Written style c := by
  have hgraphic {t : Text} (ht : t.IsGraphic) : ∀ c ∈ t, Written style c :=
    fun c hc => written_of_graphic (ht c hc)
  induction v using Value.partsInduction generalizing depth t with
  | step v ih =>
    have hitems {ts : List Text} (hts : itemTexts style (depth + 1) v.parts = .ok ts) :
        ∀ t ∈ ts, ∀ c ∈ t, Written style c :=
      ((List.forall₂_and_left _ _).1 (forall₂_of_mem (itemTexts_eq_ok.1 hts)
        fun x hx t ht => ⟨ih x hx ht, ht⟩)).1
    cases v with
    | null => exact Except.ok.inj h ▸ hgraphic (by decide)
    | bool b => cases b <;> exact Except.ok.inj h ▸ hgraphic (by decide)
    | int n =>
      rw [text, intText_eq_ok] at h
      exact h.2 ▸ hgraphic (Text.isGraphic_ofInt n)
    | float x => exact hgraphic (isGraphic_floatText h)
    | str s =>
      rw [text, Except.ok.injEq] at h
      exact h ▸ written_quote s
    | list xs =>
      obtain ⟨-, ts, hts, rfl⟩ := text_list_eq_ok.1 h
      exact written_bracketed (by decide) (by decide) (hitems hts)
    | tuple xs =>
      obtain ⟨-, ts, hts, rfl⟩ := text_tuple_eq_ok.1 h
      exact written_bracketed (by decide) (by decide) (hitems hts)
    | dict es =>
      obtain ⟨-, ts, hts, rfl⟩ := text_dict_eq_ok.1 h
      refine written_bracketed (by decide) (by decide) ?_
      have hcolon : ∀ c ∈ colon style, Written style c := by
        rw [colon]
        split <;> exact hgraphic (by decide)
      refine ((List.forall₂_and_left _ _).1 (forall₂_of_mem (memberTexts_eq_ok.1 hts)
        fun e he s hs => ⟨?_, hs⟩)).1
      obtain ⟨name, shown, -, hshown, rfl⟩ := hs
      exact List.forall_mem_append.2 ⟨List.forall_mem_append.2 ⟨written_quote name, hcolon⟩,
        ih e.2 (List.mem_map_of_mem he) hshown⟩
    | _ => cases h

end Written

/-! ## What is read -/

/-- The characters that a document may have. -/
def Stands (c : CodePoint) : Prop := IsSpace c ∨ 0x20 ≤ c.val

theorem stands_of_graphic {t : Text} (h : t.IsGraphic) : ∀ c ∈ t, Stands c :=
  fun c hc => .inr (CodePoint.isGraphic_iff.1 (h c hc)).1

theorem Gap.stands (gap : Gap) : ∀ c ∈ gap.text, Stands c := fun c hc => .inl (gap.isSpace c hc)

theorem StringPart.stands_text (p : StringPart) : ∀ c ∈ p.text, Stands c := by
  cases p with
  | plain c isUnescaped => exact List.forall_mem_singleton.2 (.inr isUnescaped.1)
  | short letter code isShort =>
    have hall : (shortEscapes.all fun e => e.1.isGraphic) = true := by decide
    exact stands_of_graphic (Text.isGraphic_cons.2
      ⟨by decide, Text.isGraphic_cons.2 ⟨List.all_eq_true.1 hall _ isShort, .nil⟩⟩)
  | unit u =>
    refine List.forall_mem_cons.2 ⟨.inr (by decide), List.forall_mem_cons.2 ⟨.inr (by decide), ?_⟩⟩
    intro c hc
    have hhex := u.areHex c hc
    refine .inr (Nat.le_of_not_lt fun hcontrol => ?_)
    have hnone : c.hexValue? = none := by
      unfold CodePoint.hexValue?
      rw [if_neg (by simp [CodePoint.isDigit]; omega), if_neg (by simp; omega),
        if_neg (by simp; omega)]
    rw [CodePoint.isHexDigit, hnone] at hhex
    cases hhex

theorem stands_stringText (ps : List StringPart) : ∀ c ∈ stringText ps, Stands c := by
  have hmark : Stands (CodePoint.ofChar '"') := .inr (by decide)
  refine List.forall_mem_cons.2
    ⟨hmark, List.forall_mem_append.2 ⟨fun c hc => ?_, List.forall_mem_singleton.2 hmark⟩⟩
  obtain ⟨p, -, hc⟩ := List.mem_flatMap.1 hc
  exact p.stands_text c hc

theorem Spaced.stands_joined {α : Type} {f : α → Text} {ss : List (Spaced α)}
    (h : ∀ s ∈ ss, ∀ c ∈ f s.inner, Stands c) : ∀ c ∈ Spaced.joined f ss, Stands c := by
  refine Text.forall_mem_join (stands_of_graphic (by decide)) (List.forall_mem_map.2 fun s hs => ?_)
  exact List.forall_mem_append.2
    ⟨s.before.stands, List.forall_mem_append.2 ⟨h s hs, s.after.stands⟩⟩

/-- What stands in brackets. -/
theorem stands_enclosed {opening closing : CodePoint} (hopening : 0x20 ≤ opening.val)
    (hclosing : 0x20 ≤ closing.val) (gap : Gap) {t : Text} (h : ∀ c ∈ t, Stands c) :
    ∀ c ∈ opening :: (gap.text ++ (t ++ [closing])), Stands c :=
  List.forall_mem_cons.2 ⟨.inr hopening, List.forall_mem_append.2 ⟨gap.stands,
    List.forall_mem_append.2 ⟨h, List.forall_mem_singleton.2 (.inr hclosing)⟩⟩⟩

/-- Control characters stand in a document for white space only. -/
theorem Tree.stands_text (tree : Tree) : ∀ c ∈ tree.text, Stands c := by
  induction tree using Tree.partsInduction with
  | step tree ih =>
    cases tree with
    | null => exact stands_of_graphic (by decide)
    | bool b => cases b <;> exact stands_of_graphic (by decide)
    | number n => exact stands_of_graphic n.isGraphic_text
    | string ps => exact stands_stringText ps
    | array gap items =>
      rw [text_array]
      refine stands_enclosed (by decide) (by decide) gap (Spaced.stands_joined fun s hs => ?_)
      exact ih _ (List.mem_map_of_mem hs)
    | object gap members =>
      rw [text_object]
      refine stands_enclosed (by decide) (by decide) gap (Spaced.stands_joined fun s hs => ?_)
      have hvalue := ih s.inner.inner
        (List.mem_map_of_mem (f := fun s : Spaced (Member Tree) => s.inner.inner) hs)
      refine List.forall_mem_append.2 ⟨stands_stringText s.inner.name, ?_⟩
      exact List.forall_mem_append.2 ⟨s.inner.beforeColon.stands, List.forall_mem_cons.2
        ⟨.inr (by decide), List.forall_mem_append.2 ⟨s.inner.afterColon.stands, hvalue⟩⟩⟩

/-- A value begins with an ASCII character. -/
theorem Tree.exists_ascii_cons (tree : Tree) : ∃ c u, tree.text = c :: u ∧ c.val < 0x80 := by
  cases tree with
  | null => exact ⟨_, _, rfl, by decide⟩
  | bool b => cases b <;> exact ⟨_, _, rfl, by decide⟩
  | number n =>
    obtain ⟨c, u, hcu⟩ : ∃ c u, n.text = c :: u := by
      obtain ⟨c, u, hcu, -⟩ := n.exists_cons
      rw [Numeral.text, hcu]
      cases n.negative <;> exact ⟨_, _, rfl⟩
    obtain ⟨-, hc⟩ := CodePoint.isGraphic_iff.1 (n.isGraphic_text c (hcu ▸ List.mem_cons_self))
    exact ⟨c, u, hcu, by omega⟩
  | string ps => exact ⟨_, _, rfl, by decide⟩
  | array gap items => exact ⟨_, _, text_array gap items, by decide⟩
  | object gap members => exact ⟨_, _, text_object gap members, by decide⟩

theorem IsSpace.ascii {c : CodePoint} (h : IsSpace c) : 0 < c.val ∧ c.val < 0x80 := by
  rcases h with rfl | rfl | rfl | rfl <;> decide

/-- The encoding of a document shows in its first bytes. -/
theorem showsEncoding_of_read {nesting : Nat} {t : Text} {v : Value}
    (h : read .strict nesting t = .ok v) :
    t.ShowsEncoding := by
  obtain ⟨tree, ⟨before, after, rfl⟩, -, -⟩ := read_eq_ok_iff.1 h
  refine ⟨?_, fun c hc => ?_⟩
  · cases hbefore : before.text with
    | nil =>
      obtain ⟨c, u, hcu, hc⟩ := tree.exists_ascii_cons
      exact ⟨c, by rw [hcu]; rfl, hc⟩
    | cons c u =>
      exact ⟨c, rfl, (before.isSpace c (hbefore ▸ List.mem_cons_self)).ascii.2⟩
  · have hall : ∀ c ∈ before.text ++ (tree.text ++ after.text), Stands c :=
      List.forall_mem_append.2 ⟨before.stands, List.forall_mem_append.2 ⟨tree.stands_text, after.stands⟩⟩
    rcases hall c hc with hspace | hval
    · exact Nat.pos_iff_ne_zero.1 hspace.ascii.1
    · omega

end Json

end DocShape
