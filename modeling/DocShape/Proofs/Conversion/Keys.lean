import DocShape.Conversion
import DocShape.Proofs.Text.Digits
import DocShape.Proofs.Value.Parts

/-!
# Integer keys

The texts that an object takes for integers are exactly those that integers are written as
(`isCanonicalInteger_iff`), and reading such a text gives the integer back. So putting integers in
place of these texts keeps the keys of a dictionary apart, and a decoder that meets the text does
what an encoder does that meets the integer (`key?_respell`). `Direction.KeyAs` says which keys an
object takes in either direction; the only ones that break a walk off are integers beyond the digit
limit (`key?_eq_error_iff`).
-/

namespace DocShape

namespace Direction

/-! ## Canonical integers -/

theorem isCanonicalInteger_of_minus (ds : Text) :
    isCanonicalInteger (CodePoint.ofChar '-' :: ds) = true ↔
      Text.IsNumeral ds ∧ ds.head? ≠ some (CodePoint.ofChar '0') := by
  rw [isCanonicalInteger, List.head?_cons, if_pos rfl, List.drop_succ_cons, List.drop_zero]
  cases ds with
  | nil => exact ⟨fun h => (by cases h), fun h => absurd rfl h.1.nonempty⟩
  | cons c ds =>
    simp only [List.length_cons, Bool.and_eq_true, List.all_eq_true, List.head?_cons]
    by_cases h0 : c = CodePoint.ofChar '0'
    · simp [h0]
    · rw [if_neg h0]
      constructor
      · rintro ⟨hdigits, -⟩
        have hne : some c ≠ some (CodePoint.ofChar '0') := fun h => h0 (Option.some.inj h)
        exact ⟨⟨by simp, hdigits, fun h => absurd h hne⟩, hne⟩
      · rintro ⟨hds, -⟩
        exact ⟨hds.digits, rfl⟩

theorem isCanonicalInteger_of_plain {t : Text} (h : t.head? ≠ some (CodePoint.ofChar '-')) :
    isCanonicalInteger t = true ↔ Text.IsNumeral t := by
  rw [isCanonicalInteger, if_neg h]
  cases t with
  | nil => exact ⟨fun h => (by cases h), fun h => absurd rfl h.nonempty⟩
  | cons c ds =>
    simp only [Bool.and_eq_true, List.all_eq_true]
    by_cases h0 : c = CodePoint.ofChar '0'
    · rw [if_pos h0]
      simp only [decide_true, Bool.and_true, List.isEmpty_iff]
      constructor
      · rintro ⟨hdigits, rfl⟩
        exact ⟨by simp, hdigits, fun _ => rfl⟩
      · intro hds
        have hlen := hds.noLeadingZero (by rw [List.head?_cons, h0])
        exact ⟨hds.digits, by simpa using hlen⟩
    · rw [if_neg h0]
      constructor
      · rintro ⟨hdigits, -⟩
        exact ⟨by simp, hdigits, fun h => absurd (Option.some.inj h) h0⟩
      · intro hds
        exact ⟨hds.digits, rfl⟩

/-- A text is a canonical integer when some integer is written like that. -/
theorem isCanonicalInteger_iff {t : Text} :
    isCanonicalInteger t = true ↔ ∃ n, t = Text.ofInt n := by
  constructor
  · intro h
    by_cases hminus : t.head? = some (CodePoint.ofChar '-')
    · obtain ⟨ds, rfl⟩ : ∃ ds, t = CodePoint.ofChar '-' :: ds := by
        cases t with
        | nil => cases hminus
        | cons c ds => exact ⟨ds, by rw [Option.some.inj hminus]⟩
      obtain ⟨hds, h0⟩ := (isCanonicalInteger_of_minus ds).1 h
      have hpos : Text.toNat ds ≠ 0 := by
        intro hzero
        have hback := Text.ofNat_toNat hds
        rw [hzero] at hback
        exact h0 (by rw [← hback]; rfl)
      refine ⟨-(Text.toNat ds : Int), ?_⟩
      rw [Text.ofInt_eq, if_pos (by omega), Int.natAbs_neg, Int.natAbs_natCast,
        Text.ofNat_toNat hds]
    · have hds := (isCanonicalInteger_of_plain hminus).1 h
      refine ⟨Text.toNat t, ?_⟩
      rw [Text.ofInt_eq, if_neg (by omega), Int.natAbs_natCast, Text.ofNat_toNat hds]
  · rintro ⟨n, rfl⟩
    rw [Text.ofInt_eq]
    have hnumeral := Text.isNumeral_ofNat n.natAbs
    split
    · next hn =>
      refine (isCanonicalInteger_of_minus _).2 ⟨hnumeral, fun h0 => ?_⟩
      obtain ⟨c, hc⟩ := List.length_eq_one_iff.1 (hnumeral.noLeadingZero h0)
      rw [hc] at h0
      have hzero : n.natAbs = 0 := by
        rw [← Text.toNat_ofNat n.natAbs, hc, Option.some.inj h0]
        rfl
      omega
    · exact (isCanonicalInteger_of_plain (Text.head?_ofNat_ne_minus _)).2 hnumeral

theorem readInteger_ofInt (n : Int) : readInteger (Text.ofInt n) = n := by
  rw [Text.ofInt_eq]
  split
  · rw [readInteger, if_pos rfl, Text.toNat_ofNat]
    omega
  · obtain ⟨c, ds, hc⟩ := List.exists_cons_of_ne_nil (Text.isNumeral_ofNat n.natAbs).nonempty
    have hminus : c ≠ CodePoint.ofChar '-' := by
      intro h
      exact Text.head?_ofNat_ne_minus n.natAbs (by rw [hc, h]; rfl)
    rw [hc, readInteger, if_neg hminus, ← hc, Text.toNat_ofNat]
    omega

theorem filter_isDigit_ofInt (n : Int) :
    (Text.ofInt n).filter CodePoint.isDigit = Text.ofNat n.natAbs := by
  have hall : (Text.ofNat n.natAbs).filter CodePoint.isDigit = Text.ofNat n.natAbs :=
    List.filter_eq_self.2 (Text.isNumeral_ofNat n.natAbs).digits
  rw [Text.ofInt_eq]
  split
  · rw [List.filter_cons_of_neg (by decide), hall]
  · exact hall

/-! ## The two spellings of a key -/

theorem integerKey?_ofInt {n : Int} (h : Text.HasDigits n) :
    decoding.integerKey? (.str (Text.ofInt n)) = some (.ok (.int n, Text.ofInt n)) := by
  have hcanonical : isCanonicalInteger (Text.ofInt n) = true := isCanonicalInteger_iff.2 ⟨n, rfl⟩
  have hcount : (Text.ofNat n.natAbs).length ≤ digitLimit := h
  rw [integerKey?, if_pos hcanonical, filter_isDigit_ofInt, readInteger_ofInt]
  simp only [if_pos hcount]

theorem integerKey?_int {n : Int} (h : Text.HasDigits n) :
    encoding.integerKey? (.int n) = some (.ok (.int n, Text.ofInt n)) := by
  rw [integerKey?, Text.ofIntLimited?_eq, if_pos h]

end Direction

/-- The native keys of a kind: integers within the digit limit, or names. -/
def KeyKind.Fits : KeyKind → Value → Prop
  | integer, .int n => Text.HasDigits n
  | string, .str t => t.isName = true
  | _, _ => False

namespace Direction

/-- A key that an encoder takes is of the kind, and stays what it is. -/
theorem key?_encoding_eq_ok {kind : KeyKind} {k key : Value} {shown : Text}
    (h : encoding.key? kind k = some (.ok (key, shown))) : key = k ∧ kind.Fits k := by
  cases kind with
  | integer =>
    cases k with
    | int n =>
      rw [key?, integerKey?, Text.ofIntLimited?_eq] at h
      by_cases hn : Text.HasDigits n
      · rw [if_pos hn] at h
        obtain ⟨rfl, -⟩ := Prod.mk.inj (Except.ok.inj (Option.some.inj h))
        exact ⟨rfl, hn⟩
      · rw [if_neg hn] at h
        cases Option.some.inj h
    | _ => cases h
  | string =>
    cases k with
    | str t =>
      rw [key?] at h
      split at h
      · next hname =>
        obtain ⟨rfl, -⟩ := Prod.mk.inj (Except.ok.inj (Option.some.inj h))
        exact ⟨rfl, hname⟩
      · cases h
    | _ => cases h

end Direction

/-- A key with the integer in place of the text that spells it, where keys are integers. -/
def KeyKind.respell : KeyKind → Value → Value
  | integer, .str t =>
    if Direction.isCanonicalInteger t then .int (Direction.readInteger t) else .str t
  | _, k => k

namespace KeyKind

theorem respell_ofInt (n : Int) : integer.respell (.str (Text.ofInt n)) = .int n := by
  have hcanonical : Direction.isCanonicalInteger (Text.ofInt n) = true :=
    Direction.isCanonicalInteger_iff.2 ⟨n, rfl⟩
  rw [respell, if_pos hcanonical, Direction.readInteger_ofInt]

theorem respell_str (kind : KeyKind) (t : Text) :
    (∃ n, kind = integer ∧ t = Text.ofInt n ∧ kind.respell (.str t) = .int n) ∨
      kind.respell (.str t) = .str t ∧ (kind = integer → Direction.isCanonicalInteger t = false) := by
  cases kind with
  | integer =>
    by_cases h : Direction.isCanonicalInteger t = true
    · obtain ⟨n, rfl⟩ := Direction.isCanonicalInteger_iff.1 h
      exact .inl ⟨n, rfl, rfl, respell_ofInt n⟩
    · exact .inr ⟨by rw [respell, if_neg h], fun _ => by simpa using h⟩
  | string => exact .inr ⟨rfl, fun h => by cases h⟩

/-- Different texts stay different keys. -/
theorem respell_injective {kind : KeyKind} {s t : Text}
    (h : (kind.respell (.str s)).equals (kind.respell (.str t)) = true) : s = t := by
  rcases respell_str kind s with ⟨m, -, rfl, hm⟩ | ⟨hs, -⟩ <;>
    rcases respell_str kind t with ⟨n, -, rfl, hn⟩ | ⟨ht, -⟩
  · rw [hm, hn, Value.equals_int, beq_iff_eq] at h
    rw [h]
  · rw [hm, ht] at h
    cases h
  · rw [hs, hn] at h
    cases h
  · rw [hs, ht, Value.equals_str, beq_iff_eq] at h
    exact h

/-- A decoder does with a text key what an encoder does with the key that it becomes. -/
theorem key?_respell {kind : KeyKind} {t : Text}
    (h : ∀ n, kind.respell (.str t) = .int n → Text.HasDigits n) :
    Direction.encoding.key? kind (kind.respell (.str t)) =
      Direction.decoding.key? kind (.str t) := by
  rcases respell_str kind t with ⟨n, rfl, rfl, hn⟩ | ⟨ht, hcanonical⟩
  · rw [hn]
    have hdigits := h n hn
    exact (Direction.integerKey?_int hdigits).trans (Direction.integerKey?_ofInt hdigits).symm
  · rw [ht]
    cases kind with
    | integer =>
      simp [Direction.key?, Direction.integerKey?, hcanonical rfl]
    | string => rfl

end KeyKind

/-! ## Which keys are taken -/

namespace Direction

/-- A key of an object is of some kind, and becomes another key. -/
inductive KeyAs : Direction → KeyKind → Value → Value → Prop
  | name {d : Direction} {t : Text} (h : t.isName = true) : KeyAs d .string (.str t) (.str t)
  | spelled (n : Int) : KeyAs .decoding .integer (.str (Text.ofInt n)) (.int n)
  | native (n : Int) : KeyAs .encoding .integer (.int n) (.int n)

/-- An integer key has too many digits, which breaks a walk off. -/
inductive KeyTooLong : Direction → KeyKind → Value → Failure → Prop
  | spelled {n : Int} (h : ¬ Text.HasDigits n) :
    KeyTooLong .decoding .integer (.str (Text.ofInt n)) (.longKey (Text.ofNat n.natAbs).length)
  | native {n : Int} (h : ¬ Text.HasDigits n) :
    KeyTooLong .encoding .integer (.int n) (.unwritable .tooManyDigits)

variable {d : Direction} {kind : KeyKind} {k key : Value} {shown : Text} {f : Failure}

theorem integerKey?_ofInt_long {n : Int} (h : ¬ Text.HasDigits n) :
    decoding.integerKey? (.str (Text.ofInt n)) =
      some (.error (.longKey (Text.ofNat n.natAbs).length)) := by
  have hcanonical : isCanonicalInteger (Text.ofInt n) = true := isCanonicalInteger_iff.2 ⟨n, rfl⟩
  have hcount : ¬ (Text.ofNat n.natAbs).length ≤ digitLimit := h
  rw [integerKey?, if_pos hcanonical, filter_isDigit_ofInt]
  simp only [if_neg hcount]

theorem integerKey?_int_long {n : Int} (h : ¬ Text.HasDigits n) :
    encoding.integerKey? (.int n) = some (.error (.unwritable .tooManyDigits)) := by
  rw [integerKey?, Text.ofIntLimited?_eq, if_neg h]

/-- An integer key is one that can be spelled in the direction of the walk. -/
theorem exists_int_of_integerKey? {r : Except Failure (Value × Text)}
    (h : d.integerKey? k = some r) :
    ∃ n, KeyAs d .integer k (.int n) ∧ (Text.HasDigits n ∧ r = .ok (.int n, Text.ofInt n) ∨
      ¬ Text.HasDigits n ∧ ∃ f, r = .error f ∧ KeyTooLong d .integer k f) := by
  cases d with
  | decoding =>
    cases k with
    | str t =>
      have hcanonical : isCanonicalInteger t = true := by
        by_contra hnot
        rw [integerKey?, if_neg hnot] at h
        cases h
      obtain ⟨n, rfl⟩ := isCanonicalInteger_iff.1 hcanonical
      refine ⟨n, .spelled n, ?_⟩
      by_cases hn : Text.HasDigits n
      · rw [integerKey?_ofInt hn] at h
        exact .inl ⟨hn, (Option.some.inj h).symm⟩
      · rw [integerKey?_ofInt_long hn] at h
        exact .inr ⟨hn, _, (Option.some.inj h).symm, .spelled hn⟩
    | _ => cases h
  | encoding =>
    cases k with
    | int n =>
      refine ⟨n, .native n, ?_⟩
      by_cases hn : Text.HasDigits n
      · rw [integerKey?_int hn] at h
        exact .inl ⟨hn, (Option.some.inj h).symm⟩
      · rw [integerKey?_int_long hn] at h
        exact .inr ⟨hn, _, (Option.some.inj h).symm, .native hn⟩
    | _ => cases h

/-- A key is taken for the integer that it stands for, under the text that spells it. -/
theorem exists_int_of_integerKey?_ok (h : d.integerKey? k = some (.ok (key, shown))) :
    ∃ n, KeyAs d .integer k (.int n) ∧ Text.HasDigits n ∧ key = .int n ∧ shown = Text.ofInt n := by
  obtain ⟨n, hn, ⟨hdigits, hr⟩ | ⟨-, f, hr, -⟩⟩ := exists_int_of_integerKey? h
  · exact ⟨n, hn, hdigits, Prod.mk.inj (Except.ok.inj hr)⟩
  · cases hr

theorem keyAs_of_key? (h : d.key? kind k = some (.ok (key, shown))) : KeyAs d kind k key := by
  cases kind with
  | integer =>
    obtain ⟨n, hn, -, rfl, -⟩ := exists_int_of_integerKey?_ok h
    exact hn
  | string =>
    cases k with
    | str t =>
      rw [key?] at h
      split at h
      · next hname =>
        rw [← (Prod.mk.inj (Except.ok.inj (Option.some.inj h))).1]
        exact .name hname
      · cases h
    | _ => cases h

theorem key?_eq_error_iff : d.key? kind k = some (.error f) ↔ KeyTooLong d kind k f := by
  constructor
  · intro h
    cases kind with
    | integer =>
      obtain ⟨n, -, ⟨-, hr⟩ | ⟨-, g, hr, hg⟩⟩ := exists_int_of_integerKey? h
      · cases hr
      · rw [Except.error.inj hr]
        exact hg
    | string =>
      cases k with
      | str t =>
        rw [key?] at h
        split at h <;> cases h
      | _ => cases h
  · intro h
    cases h with
    | spelled h => exact integerKey?_ofInt_long h
    | native h => exact integerKey?_int_long h

/-- A key that is too long spells an integer beyond the digit limit. -/
theorem KeyTooLong.exists_int (h : KeyTooLong d kind k f) :
    kind = .integer ∧ ∃ n, KeyAs d .integer k (.int n) ∧ ¬ Text.HasDigits n := by
  cases h with
  | spelled h => exact ⟨rfl, _, .spelled _, h⟩
  | native h => exact ⟨rfl, _, .native _, h⟩

theorem KeyTooLong.exists_count (h : KeyTooLong .decoding kind k f) :
    ∃ count, digitLimit < count ∧ f = .longKey count := by
  cases h with
  | spelled h => exact ⟨_, Nat.lt_of_not_le h, rfl⟩

/-- A key that spells an integer beyond the digit limit is too long. -/
theorem KeyAs.exists_tooLong {n : Int} (h : KeyAs d .integer k (.int n))
    (hlong : ¬ Text.HasDigits n) : ∃ f, KeyTooLong d .integer k f := by
  cases h with
  | spelled => exact ⟨_, .spelled hlong⟩
  | native => exact ⟨_, .native hlong⟩

/-- A key of the kind is taken unless it has too many digits. -/
theorem key?_of_keyAs (h : KeyAs d kind k key) (hlong : ∀ f, d.key? kind k ≠ some (.error f)) :
    ∃ shown, d.key? kind k = some (.ok (key, shown)) := by
  cases h with
  | @name d t hname => exact ⟨t, if_pos hname⟩
  | spelled n =>
    by_cases hn : Text.HasDigits n
    · exact ⟨_, integerKey?_ofInt hn⟩
    · exact absurd (integerKey?_ofInt_long hn) (hlong _)
  | native n =>
    by_cases hn : Text.HasDigits n
    · exact ⟨_, integerKey?_int hn⟩
    · exact absurd (integerKey?_int_long hn) (hlong _)

end Direction

end DocShape
