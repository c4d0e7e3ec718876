import DocShape.Proofs.Json.Characters

/-!
# Documents in ASCII

In the ASCII styles nothing but ASCII characters is written (`isAscii_text`), and a value is written like the
value with its texts joined (`text_joined`). So what is written of a value that a document has a place for
is read as the joined value (`exists_ascii`).
-/

namespace DocShape

/-- A text of ASCII characters. -/
def Text.IsAscii (t : Text) : Prop := ∀ c ∈ t, c.val < 0x80

instance (t : Text) : Decidable t.IsAscii :=
  decidable_of_iff (t.all (fun c => decide (c.val < 0x80)) = true) (by simp [Text.IsAscii])

namespace Text

variable {s t : Text}

theorem isAscii_append : IsAscii (s ++ t) ↔ s.IsAscii ∧ t.IsAscii := List.forall_mem_append

theorem IsAscii.noSurrogates (h : t.IsAscii) : t.NoSurrogates := by
  intro c hc
  have hval := h c hc
  rw [Bool.eq_false_iff, ne_eq, CodePoint.isSurrogate_iff]
  omega

end Text

namespace Json

variable {style : Style} {depth : Nat} {t : Text}

/-- In ASCII nothing else is written. -/
theorem isAscii_text (hstyle : style.asciiOnly = true) (v : Value)
    (h : text style depth v = .ok t) : t.IsAscii := by
  intro c hc
  rcases written_text v h c hc with rfl | ⟨-, hascii⟩
  · decide
  · exact Nat.lt_of_le_of_lt (hascii hstyle) (by decide)

/-! ## Joined texts are written alike -/

theorem itemTexts_joined {xs : List Value}
    (h : ∀ x ∈ xs, text style depth x.joined = text style depth x) :
    itemTexts style depth (xs.map Value.joined) = itemTexts style depth xs := by
  induction xs with
  | nil => rfl
  | cons x xs ih =>
    obtain ⟨hx, hxs⟩ := List.forall_mem_cons.1 h
    rw [List.map_cons, itemTexts, itemTexts, hx, ih hxs]

theorem memberTexts_joined (hstyle : style.asciiOnly = true) {es : Entries}
    (h : ∀ e ∈ es, text style depth e.2.joined = text style depth e.2) :
    memberTexts style depth (es.map fun e => (e.1.joinedKey, e.2.joined)) =
      memberTexts style depth es := by
  induction es with
  | nil => rfl
  | cons e es ih =>
    obtain ⟨k, v⟩ := e
    obtain ⟨hv, hes⟩ := List.forall_mem_cons.1 h
    rw [List.map_cons, memberTexts, memberTexts, hv, ih hes, hstyle]
    cases k with
    | str t => simp only [Value.joinedKey, nameOfKey, quote_joined, bind, Except.bind]
    | _ => rfl

/-- In ASCII a value is written like the value with its texts joined. -/
theorem text_joined (hstyle : style.asciiOnly = true) (v : Value) :
    text style depth v.joined = text style depth v := by
  induction v using Value.partsInduction generalizing depth with
  | step v ih =>
    have hitems : itemTexts style (depth + 1) (v.parts.map Value.joined) =
        itemTexts style (depth + 1) v.parts := itemTexts_joined fun x hx => ih x hx
    cases v with
    | str t => rw [Value.joined, text, text, hstyle, quote_joined]
    | list xs =>
      rw [Value.joined_list, text, text]
      simp only [Value.parts] at hitems
      rw [hitems]
    | tuple xs =>
      rw [Value.joined_tuple, text, text]
      simp only [Value.parts] at hitems
      rw [hitems]
    | dict es =>
      rw [Value.joined_dict, text, text,
        memberTexts_joined hstyle fun e he => ih e.2 (List.mem_map_of_mem he)]
    | _ => rfl

/-- What a document has a place for, with joined keys and integers within the digit limit, is written in
ASCII and read as the joined value, if there is room for its brackets. -/
theorem exists_ascii {v : Value} (hv : v.IsPlain) (hdigits : v.HasDigits) (hkeys : v.KeysJoined)
    (dialect : Dialect) :
    ∃ t, write .ascii v = .ok t ∧ t.IsAscii ∧
      ∀ nesting, v.depth ≤ nesting → read dialect nesting t = .ok v.joined.spelled := by
  obtain ⟨t, ht⟩ : ∃ t, text .ascii 0 v = .ok t :=
    text_total v 0 hv hdigits (hasRoom_of_unlimited rfl)
  have hjoined : text .ascii 0 v.joined = .ok t := (text_joined rfl v).trans ht
  obtain ⟨tree, rfl, hvalue, hrange, hdepth⟩ :=
    exists_tree _ (hv.joined hkeys) (fun _ => hv.isJoined_joined hkeys) hjoined
  refine ⟨_, ht, isAscii_text rfl v ht, fun nesting hnesting => ?_⟩
  rw [Value.depth_joined] at hdepth
  exact hvalue ▸ read_of_tree hrange (hdepth.trans hnesting)

end Json

end DocShape
