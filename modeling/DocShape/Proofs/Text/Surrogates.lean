import DocShape.Proofs.Text.Digits
import DocShape.Text.Encoding

/-!
# Surrogates in texts

A high surrogate and a low one behind it, each a code point of its own, are escaped just like the one
character that the pair encodes. `Text.joined` is a text with that character for every such pair, and
`Text.IsJoined` says that there is none. A text without surrogates is joined, and so is what is read of
UTF-8 (`Encoding.noSurrogates_utf8Text`).
-/

namespace DocShape

namespace CodePoint

variable {c d : CodePoint}

theorem isHighSurrogate_iff : c.isHighSurrogate = true ↔ 0xD800 ≤ c.val ∧ c.val ≤ 0xDBFF := by
  simp only [isHighSurrogate, Bool.and_eq_true, decide_eq_true_eq]

theorem isLowSurrogate_iff : c.isLowSurrogate = true ↔ 0xDC00 ≤ c.val ∧ c.val ≤ 0xDFFF := by
  simp only [isLowSurrogate, Bool.and_eq_true, decide_eq_true_eq]

theorem isSurrogate_iff : c.isSurrogate = true ↔ 0xD800 ≤ c.val ∧ c.val ≤ 0xDFFF := by
  simp only [isSurrogate, Bool.and_eq_true, decide_eq_true_eq]

theorem isSurrogate_of_high (h : c.isHighSurrogate = true) : c.isSurrogate = true := by
  rw [isHighSurrogate_iff] at h
  rw [isSurrogate_iff]
  omega

theorem isSurrogate_of_low (h : c.isLowSurrogate = true) : c.isSurrogate = true := by
  rw [isLowSurrogate_iff] at h
  rw [isSurrogate_iff]
  omega

theorem val_ofNat {n : Nat} (h : n < 0x110000) : (ofNat n).val = n := by
  rw [ofNat, dif_pos h]

/-- The code point of a pair is beyond all surrogates. -/
theorem val_joinSurrogates (hc : c.isHighSurrogate = true) (hd : d.isLowSurrogate = true) :
    (Encoding.joinSurrogates c d).val =
      0x10000 + (c.val - 0xD800) * 0x400 + (d.val - 0xDC00) := by
  rw [isHighSurrogate_iff] at hc
  rw [isLowSurrogate_iff] at hd
  exact val_ofNat (by omega)

end CodePoint

namespace Text

/-- A text with one character for each pair of surrogates. -/
def joined : Text → Text
  | [] => []
  | [c] => [c]
  | c :: d :: rest =>
    if c.isHighSurrogate ∧ d.isLowSurrogate then Encoding.joinSurrogates c d :: joined rest
    else c :: joined (d :: rest)

/-- No low surrogate stands behind a high one. -/
def IsJoined (t : Text) : Prop :=
  t.IsChain fun c d => ¬ (c.isHighSurrogate = true ∧ d.isLowSurrogate = true)

/-- There are no surrogates in a text. -/
def NoSurrogates (t : Text) : Prop := ∀ c ∈ t, c.isSurrogate = false

instance (t : Text) : Decidable t.NoSurrogates :=
  decidable_of_iff (t.all fun c => !c.isSurrogate) (by simp [NoSurrogates])

variable {c : CodePoint} {t : Text}

theorem isJoined_nil : IsJoined [] := .nil

theorem isJoined_cons : IsJoined (c :: t) ↔
    (c.isHighSurrogate = true → ∀ d ∈ t.head?, d.isLowSurrogate = false) ∧ t.IsJoined := by
  cases t with
  | nil => exact iff_of_true (.singleton c) ⟨fun _ _ => nofun, isJoined_nil⟩
  | cons d t =>
    rw [IsJoined, List.isChain_cons_cons]
    simp [IsJoined]

theorem NoSurrogates.isJoined (h : t.NoSurrogates) : t.IsJoined := by
  induction t with
  | nil => exact isJoined_nil
  | cons c t ih =>
    obtain ⟨hc, ht⟩ := List.forall_mem_cons.1 h
    refine isJoined_cons.2 ⟨fun hhigh => ?_, ih ht⟩
    rw [CodePoint.isSurrogate_of_high hhigh] at hc
    cases hc

theorem joined_eq_self (h : t.IsJoined) : t.joined = t := by
  induction t using joined.induct with
  | case1 => rfl
  | case2 c => rfl
  | case3 c d rest hpair ih =>
    obtain ⟨hhead, -⟩ := isJoined_cons.1 h
    rw [hhead hpair.1 d rfl] at hpair
    cases hpair.2
  | case4 c d rest halone ih =>
    rw [joined, if_neg halone, ih (isJoined_cons.1 h).2]

/-- What a joined text begins with is a low surrogate only if the text begins with one. -/
theorem isLowSurrogate_of_head?_joined (h : ∀ d ∈ t.head?, d.isLowSurrogate = false) :
    ∀ d ∈ t.joined.head?, d.isLowSurrogate = false := by
  cases t using joined.induct with
  | case1 => exact h
  | case2 c => exact h
  | case3 c d rest hpair =>
    rw [joined, if_pos hpair]
    intro e he
    obtain rfl := Option.some.inj he
    have hval := CodePoint.val_joinSurrogates hpair.1 hpair.2
    rw [Bool.eq_false_iff, ne_eq, CodePoint.isLowSurrogate_iff]
    omega
  | case4 c d rest halone =>
    rw [joined, if_neg halone]
    exact h

theorem isJoined_joined (t : Text) : t.joined.IsJoined := by
  induction t using joined.induct with
  | case1 => exact isJoined_nil
  | case2 c => exact .singleton c
  | case3 c d rest hpair ih =>
    rw [joined, if_pos hpair]
    refine isJoined_cons.2 ⟨fun hhigh => ?_, ih⟩
    have hval := CodePoint.val_joinSurrogates hpair.1 hpair.2
    rw [CodePoint.isHighSurrogate_iff] at hhigh
    omega
  | case4 c d rest halone ih =>
    rw [joined, if_neg halone]
    refine isJoined_cons.2 ⟨fun hhigh => isLowSurrogate_of_head?_joined fun e he => ?_, ih⟩
    obtain rfl := Option.some.inj he
    exact Bool.eq_false_iff.2 fun hlow => halone ⟨hhigh, hlow⟩

end Text

namespace Encoding

theorem noSurrogates_decodeUtf8 {encoding : Encoding} {fuel offset : Nat} {bytes : List UInt8}
    {t : Text} (h : decodeUtf8 encoding false fuel offset bytes = .ok t) : t.NoSurrogates := by
  induction fuel generalizing offset bytes t with
  | zero =>
    cases bytes <;> exact Except.ok.inj h ▸ fun c hc => by cases hc
  | succ fuel ih =>
    cases bytes with
    | nil => exact Except.ok.inj h ▸ fun c hc => by cases hc
    | cons a rest =>
      rw [decodeUtf8] at h
      split at h
      · next c size hfront =>
        split at h
        · cases h
        · next hc =>
          obtain ⟨more, hmore, hok⟩ := Except.bind_eq_ok.1 h
          obtain rfl := Except.ok.inj hok
          refine List.forall_mem_cons.2 ⟨?_, ih hmore⟩
          simpa using hc
      · cases h

/-- Bytes that are read as UTF-8 text spell no surrogates. -/
theorem noSurrogates_utf8Text {bytes : List UInt8} {t : Text} (h : utf8Text bytes = .ok t) :
    t.NoSurrogates := noSurrogates_decodeUtf8 h

end Encoding

end DocShape
