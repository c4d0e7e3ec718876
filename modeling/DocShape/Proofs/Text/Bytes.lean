import DocShape.Proofs.Text.Surrogates

/-!
# Texts as bytes

`Encoding.Scheme.bytes` is a text in one of the encodings, and a byte order mark is one more character in
front. Reading the bytes gives the text back, and no place in the document matters for that
(`decodeUtf8_bytes`, `decodeUtf16_bytes`, `decodeUtf32_bytes`). Which encoding it is shows in the first four
bytes, if the text begins with an ASCII character and holds no NUL (`detect_bytes`). So the bytes are read as
the text whatever the encoding is (`decode_bytes`).
-/

namespace DocShape

/-- The encoding of a text shows in its first bytes: it begins with an ASCII character and holds no NUL. -/
structure Text.ShowsEncoding (t : Text) : Prop where
  ascii : ∃ c ∈ t.head?, c.val < 0x80
  noNul : ∀ c ∈ t, c.val ≠ 0

namespace Encoding

/-! ## The bytes of a text -/

/-- The two bytes of a number below 65536. -/
def pairBytes (bigEndian : Bool) (n : Nat) : List UInt8 :=
  let high := (n / 0x100).toUInt8
  let low := (n % 0x100).toUInt8
  if bigEndian then [high, low] else [low, high]

/-- The UTF-16 bytes of a code point: one unit, or the two of a surrogate pair. -/
def utf16Bytes (bigEndian : Bool) (c : CodePoint) : List UInt8 :=
  if c.val < 0x10000 then pairBytes bigEndian c.val
  else
    pairBytes bigEndian (0xD800 + (c.val - 0x10000) / 0x400) ++
      pairBytes bigEndian (0xDC00 + (c.val - 0x10000) % 0x400)

/-- The UTF-32 bytes of a code point. -/
def utf32Bytes (bigEndian : Bool) (c : CodePoint) : List UInt8 :=
  let high := pairBytes bigEndian (c.val / 0x10000)
  let low := pairBytes bigEndian (c.val % 0x10000)
  if bigEndian then high ++ low else low ++ high

/-- How the code points of a text become bytes. -/
inductive Scheme where
  | utf8
  | utf16 (bigEndian : Bool)
  | utf32 (bigEndian : Bool)

namespace Scheme

/-- The bytes of a code point. -/
def bytesOf : Scheme → CodePoint → List UInt8
  | utf8 => utf8Bytes
  | utf16 bigEndian => utf16Bytes bigEndian
  | utf32 bigEndian => utf32Bytes bigEndian

/-- The bytes of a text, with a byte order mark in front if it is marked. -/
def bytes (scheme : Scheme) (marked : Bool) (t : Text) : List UInt8 :=
  (if marked then CodePoint.byteOrderMark :: t else t).flatMap scheme.bytesOf

/-- The encoding of the bytes. -/
def encoding : Scheme → (marked : Bool) → Encoding
  | utf8, false => .utf8
  | utf8, true => .utf8Marked
  | utf16 bigEndian, marked => .utf16 bigEndian (if marked then 2 else 0)
  | utf32 bigEndian, marked => .utf32 bigEndian (if marked then 4 else 0)

end Scheme

variable {a b c d : UInt8} {bytes rest : List UInt8} {n offset : Nat} {bigEndian : Bool}

theorem toNat_toUInt8 (h : n < 0x100) : n.toUInt8.toNat = n := by
  rw [UInt8.toNat_ofNat', Nat.mod_eq_of_lt h]

theorem toUInt8_ne_zero (h : n < 0x100) (hn : n ≠ 0) : n.toUInt8 ≠ 0 := by
  intro hzero
  have hval := toNat_toUInt8 h
  rw [hzero] at hval
  exact hn hval.symm

/-! ## UTF-8 -/

theorem isTail_iff : isTail b = true ↔ 0x80 ≤ b.toNat ∧ b.toNat ≤ 0xBF := by
  simp only [isTail, Bool.and_eq_true, decide_eq_true_eq, UInt8.le_iff_toNat_le, UInt8.reduceToNat]

theorem isTail_toUInt8 (n : Nat) : isTail (0x80 + n % 64).toUInt8 = true := by
  have hval : (0x80 + n % 64).toUInt8.toNat = 0x80 + n % 64 := toNat_toUInt8 (by omega)
  refine isTail_iff.2 ?_
  rw [hval]
  omega

theorem tail_toUInt8 (n : Nat) : tail (0x80 + n % 64).toUInt8 = n % 64 := by
  have hval : (0x80 + n % 64).toUInt8.toNat = 0x80 + n % 64 := toNat_toUInt8 (by omega)
  unfold tail
  rw [hval]
  omega

theorem utf8Front_one (ha : a.toNat < 0x80) :
    utf8Front (a :: rest) = .ok (CodePoint.ofNat a.toNat, 1) := by
  simp only [utf8Front, UInt8.lt_iff_toNat_lt, UInt8.reduceToNat, ha, if_true]

theorem utf8Front_two (ha : 0xC2 ≤ a.toNat) (ha' : a.toNat < 0xE0) (hb : isTail b = true) :
    utf8Front (a :: b :: rest) = .ok (CodePoint.ofNat ((a.toNat - 0xC0) * 64 + tail b), 2) := by
  have hmore : ¬ a.toNat < 0x80 ∧ ¬ a.toNat < 0xC2 := by omega
  simp only [utf8Front, UInt8.lt_iff_toNat_lt, UInt8.reduceToNat, hmore, ha', hb, if_false, if_true]

theorem utf8Front_three (ha : 0xE0 ≤ a.toNat) (ha' : a.toNat < 0xF0) (hb : isTail b = true)
    (hlow : a = 0xE0 → 0xA0 ≤ b.toNat) (hc : isTail c = true) :
    utf8Front (a :: b :: c :: rest) =
      .ok (CodePoint.ofNat ((a.toNat - 0xE0) * 4096 + tail b * 64 + tail c), 3) := by
  have hmore : ¬ a.toNat < 0x80 ∧ ¬ a.toNat < 0xC2 ∧ ¬ a.toNat < 0xE0 := by omega
  have hrange : ¬ (a = 0xE0 ∧ b.toNat < 0xA0) := fun h => absurd (hlow h.1) (Nat.not_le.2 h.2)
  simp only [utf8Front, UInt8.lt_iff_toNat_lt, UInt8.reduceToNat, hmore, ha', hb, hrange, hc, if_false,
    if_true, Bool.not_true, Bool.false_eq_true, false_or]

theorem utf8Front_four (ha : 0xF0 ≤ a.toNat) (ha' : a.toNat < 0xF5) (hb : isTail b = true)
    (hlow : a = 0xF0 → 0x90 ≤ b.toNat) (hhigh : a = 0xF4 → b.toNat < 0x90) (hc : isTail c = true)
    (hd : isTail d = true) :
    utf8Front (a :: b :: c :: d :: rest) = .ok (CodePoint.ofNat
      ((a.toNat - 0xF0) * 262144 + tail b * 4096 + tail c * 64 + tail d), 4) := by
  have hmore : ¬ a.toNat < 0x80 ∧ ¬ a.toNat < 0xC2 ∧ ¬ a.toNat < 0xE0 ∧ ¬ a.toNat < 0xF0 := by omega
  have hrange : ¬ (a = 0xF0 ∧ b.toNat < 0x90 ∨ a = 0xF4 ∧ 0x90 ≤ b.toNat) := by
    rintro (⟨h, hb⟩ | ⟨h, hb⟩)
    · exact absurd (hlow h) (Nat.not_le.2 hb)
    · exact absurd (hhigh h) (Nat.not_lt.2 hb)
  simp only [utf8Front, UInt8.lt_iff_toNat_lt, UInt8.le_iff_toNat_le, UInt8.reduceToNat, hmore, ha', hb,
    hrange, hc, hd, if_false, if_true, Bool.not_true, Bool.false_eq_true, false_or]

/-- The bytes of a code point are read as it, whatever follows. -/
theorem utf8Front_utf8Bytes (c : CodePoint) (rest : List UInt8) :
    utf8Front (utf8Bytes c ++ rest) = .ok (c, (utf8Bytes c).length) := by
  have hbound := c.isLt
  -- the last bytes hold six bits of the code point each
  have hlast := tail_toUInt8 c.val
  have hthird := tail_toUInt8 (c.val / 64)
  have hfourth := tail_toUInt8 (c.val / 4096)
  have htail := isTail_toUInt8
  have hread {m : Nat} (h : m = c.val) : CodePoint.ofNat m = c :=
    Fin.ext ((CodePoint.val_ofNat (h ▸ hbound)).trans h)
  unfold utf8Bytes
  simp only
  split
  · next h =>
    have hval := toNat_toUInt8 (n := c.val) (by omega)
    rw [List.singleton_append, utf8Front_one (by omega), hread hval]
    rfl
  split
  · next h =>
    have hval := toNat_toUInt8 (n := 0xC0 + c.val / 64) (by omega)
    rw [List.cons_append, List.singleton_append, utf8Front_two (by omega) (by omega) (htail _),
      hread (by omega)]
    rfl
  split
  · next h h' _ =>
    have hval := toNat_toUInt8 (n := 0xE0 + c.val / 4096) (by omega)
    have hsecond := toNat_toUInt8 (n := 0x80 + c.val / 64 % 64) (by omega)
    rw [List.cons_append, List.cons_append, List.singleton_append,
      utf8Front_three (by omega) (by omega) (htail _) (fun h => ?_) (htail _), hread (by omega)]
    · rfl
    · have hfirst : 0xE0 + c.val / 4096 = 0xE0 := hval.symm.trans (congrArg UInt8.toNat h)
      omega
  · next h h' h'' =>
    have hval := toNat_toUInt8 (n := 0xF0 + c.val / 262144) (by omega)
    have hsecond := toNat_toUInt8 (n := 0x80 + c.val / 4096 % 64) (by omega)
    rw [List.cons_append, List.cons_append, List.cons_append, List.singleton_append,
      utf8Front_four (by omega) (by omega) (htail _) (fun h => ?low) (fun h => ?high) (htail _) (htail _),
      hread (by omega)]
    · rfl
    case low =>
      have hfirst : 0xF0 + c.val / 262144 = 0xF0 := hval.symm.trans (congrArg UInt8.toNat h)
      omega
    case high =>
      have hfirst : 0xF0 + c.val / 262144 = 0xF4 := hval.symm.trans (congrArg UInt8.toNat h)
      omega

theorem utf8Bytes_ne_nil (c : CodePoint) : utf8Bytes c ≠ [] := by
  unfold utf8Bytes
  simp only
  split_ifs <;> exact List.cons_ne_nil _ _

theorem length_le_flatMap_utf8Bytes (t : Text) : t.length ≤ (t.flatMap utf8Bytes).length := by
  induction t with
  | nil => exact Nat.le_refl _
  | cons c t ih =>
    have hpos := List.length_pos_iff.2 (utf8Bytes_ne_nil c)
    rw [List.flatMap_cons, List.length_append, List.length_cons]
    omega

theorem decodeUtf8_of_front {encoding : Encoding} {surrogates : Bool} {fuel size : Nat} {c : CodePoint}
    (hfront : utf8Front bytes = .ok (c, size)) (hc : surrogates = false → c.isSurrogate = false) :
    decodeUtf8 encoding surrogates (fuel + 1) offset bytes =
      decodeUtf8 encoding surrogates fuel (offset + size) (bytes.drop size) >>= fun more =>
        .ok (c :: more) := by
  have hlets : ¬ (c.isSurrogate && !surrogates) = true := by
    cases surrogates with
    | false => simp [hc rfl]
    | true => simp
  cases bytes with
  | nil => cases hfront
  | cons a rest =>
    rw [decodeUtf8, hfront]
    simp only [if_neg hlets]
    rfl

/-- UTF-8 bytes are read as the text, which must have no surrogates where these are refused. -/
theorem decodeUtf8_bytes {encoding : Encoding} {surrogates : Bool} {fuel : Nat} {t : Text}
    (hfuel : t.length ≤ fuel) (ht : surrogates = false → t.NoSurrogates) :
    decodeUtf8 encoding surrogates fuel offset (t.flatMap utf8Bytes) = .ok t := by
  induction t generalizing fuel offset with
  | nil => cases fuel <;> rfl
  | cons c t ih =>
    obtain ⟨fuel, rfl⟩ : ∃ k, fuel = k + 1 := ⟨fuel - 1, by rw [List.length_cons] at hfuel; omega⟩
    have hparts (h : surrogates = false) := List.forall_mem_cons.1 (ht h)
    rw [List.flatMap_cons, decodeUtf8_of_front (utf8Front_utf8Bytes c _) fun h => (hparts h).1,
      List.drop_left, ih (Nat.le_of_succ_le_succ hfuel) fun h => (hparts h).2]
    rfl

/-- A text without surrogates is read from its UTF-8 bytes. -/
theorem utf8Text_bytes {t : Text} (ht : t.NoSurrogates) : utf8Text (t.flatMap utf8Bytes) = .ok t :=
  decodeUtf8_bytes (length_le_flatMap_utf8Bytes t) fun _ => ht

/-! ## UTF-16 -/

theorem exists_pairBytes (bigEndian : Bool) (h : n < 0x10000) :
    ∃ a b, pairBytes bigEndian n = [a, b] ∧ unit16 bigEndian a b = n := by
  have hhigh := toNat_toUInt8 (n := n / 0x100) (by omega)
  have hlow := toNat_toUInt8 (n := n % 0x100) (by omega)
  cases bigEndian with
  | true =>
    refine ⟨_, _, rfl, ?_⟩
    simp only [unit16, if_true]
    omega
  | false =>
    refine ⟨_, _, rfl, ?_⟩
    simp only [unit16, Bool.false_eq_true, if_false]
    omega

/-- A unit that is no high surrogate is a code point of its own. -/
theorem decodeUtf16_unit {encoding : Encoding} {c : CodePoint} (hc : c.val < 0x10000)
    (halone : c.isHighSurrogate = false) :
    decodeUtf16 encoding bigEndian offset (pairBytes bigEndian c.val ++ rest) =
      decodeUtf16 encoding bigEndian (offset + 2) rest >>= fun more => .ok (c :: more) := by
  obtain ⟨a, b, hbytes, hunit⟩ := exists_pairBytes bigEndian hc
  have hread : CodePoint.ofNat (unit16 bigEndian a b) = c := by
    rw [hunit]
    exact Fin.ext (CodePoint.val_ofNat c.isLt)
  rw [hbytes, List.cons_append, List.singleton_append]
  match rest with
  | [] | [_] | _ :: _ :: _ =>
    simp only [decodeUtf16, hread, halone, Bool.false_and, Bool.false_eq_true, if_false]
    rfl

/-- A high surrogate and a low one behind it are one code point. -/
theorem decodeUtf16_pair {encoding : Encoding} {high low : CodePoint}
    (hhigh : high.isHighSurrogate = true)
    (hlow : low.isLowSurrogate = true) :
    decodeUtf16 encoding bigEndian offset
        (pairBytes bigEndian high.val ++ (pairBytes bigEndian low.val ++ rest)) =
      decodeUtf16 encoding bigEndian (offset + 4) rest >>= fun more =>
        .ok (joinSurrogates high low :: more) := by
  have hread (c : CodePoint) (hc : c.val < 0x10000) : ∃ a b, pairBytes bigEndian c.val = [a, b] ∧
      CodePoint.ofNat (unit16 bigEndian a b) = c := by
    obtain ⟨a, b, hbytes, hunit⟩ := exists_pairBytes bigEndian hc
    exact ⟨a, b, hbytes, by rw [hunit]; exact Fin.ext (CodePoint.val_ofNat c.isLt)⟩
  obtain ⟨a, b, hbytes, hfirst⟩ :=
    hread high (by have := CodePoint.isHighSurrogate_iff.1 hhigh; omega)
  obtain ⟨c, d, hbytes', hsecond⟩ :=
    hread low (by have := CodePoint.isLowSurrogate_iff.1 hlow; omega)
  rw [hbytes, hbytes', List.cons_append, List.singleton_append, List.cons_append,
    List.singleton_append, decodeUtf16]
  simp only [hfirst, hsecond, hhigh, hlow, Bool.and_self, if_true]
  rfl

/-- The bytes of a code point are read as it, whatever follows. -/
theorem decodeUtf16_utf16Bytes {encoding : Encoding} {c : CodePoint} (hc : c.isSurrogate = false) :
    decodeUtf16 encoding bigEndian offset (utf16Bytes bigEndian c ++ rest) =
      decodeUtf16 encoding bigEndian (offset + (utf16Bytes bigEndian c).length) rest >>= fun more =>
        .ok (c :: more) := by
  have hlength (n : Nat) : (pairBytes bigEndian n).length = 2 := by cases bigEndian <;> rfl
  unfold utf16Bytes
  split
  · next h =>
    have halone : c.isHighSurrogate = false :=
      Bool.eq_false_iff.2 fun hhigh => by rw [CodePoint.isSurrogate_of_high hhigh] at hc; cases hc
    rw [decodeUtf16_unit h halone, hlength]
  · next h =>
    have hbound := c.isLt
    let high : CodePoint := ⟨0xD800 + (c.val - 0x10000) / 0x400, by omega⟩
    let low : CodePoint := ⟨0xDC00 + (c.val - 0x10000) % 0x400, by omega⟩
    have hhigh : high.isHighSurrogate = true := CodePoint.isHighSurrogate_iff.2 (by simp only [high]; omega)
    have hlow : low.isLowSurrogate = true := CodePoint.isLowSurrogate_iff.2 (by simp only [low]; omega)
    have hjoined : joinSurrogates high low = c := by
      apply Fin.ext
      rw [CodePoint.val_joinSurrogates hhigh hlow]
      simp only [high, low]
      omega
    rw [List.append_assoc, List.length_append, hlength, hlength]
    exact (decodeUtf16_pair hhigh hlow).trans (by rw [hjoined])

/-- UTF-16 bytes are read as the text. -/
theorem decodeUtf16_bytes {encoding : Encoding} {t : Text} (ht : t.NoSurrogates) :
    decodeUtf16 encoding bigEndian offset (t.flatMap (utf16Bytes bigEndian)) = .ok t := by
  induction t generalizing offset with
  | nil => rfl
  | cons c t ih =>
    obtain ⟨hc, ht⟩ := List.forall_mem_cons.1 ht
    rw [List.flatMap_cons, decodeUtf16_utf16Bytes hc, ih ht]
    rfl

/-! ## UTF-32 -/

/-- UTF-32 bytes are read as the text. -/
theorem decodeUtf32_bytes {encoding : Encoding} (t : Text) :
    decodeUtf32 encoding bigEndian offset (t.flatMap (utf32Bytes bigEndian)) = .ok t := by
  induction t generalizing offset with
  | nil => rfl
  | cons c t ih =>
    have hbound := c.isLt
    obtain ⟨a, b, hbytes, hhigh⟩ := exists_pairBytes (n := c.val / 0x10000) bigEndian (by omega)
    obtain ⟨x, y, hbytes', hlow⟩ := exists_pairBytes (n := c.val % 0x10000) bigEndian (by omega)
    rw [List.flatMap_cons]
    cases bigEndian with
    | true =>
      have hcode : unit16 true a b * 65536 + unit16 true x y = c.val := by omega
      simp only [utf32Bytes, hbytes, hbytes', if_true, List.cons_append, List.nil_append, decodeUtf32,
        hcode, hbound, dif_pos, ih]
      rfl
    | false =>
      have hcode : unit16 false a b * 65536 + unit16 false x y = c.val := by omega
      simp only [utf32Bytes, hbytes, hbytes', Bool.false_eq_true, if_false, List.cons_append,
        List.nil_append, decodeUtf32, hcode, hbound, dif_pos, ih]
      rfl

/-! ## Telling the encoding -/

theorem head?_utf8_ne_zero {t : Text} (ht : ∀ c ∈ t, c.val ≠ 0) :
    ∀ b ∈ (t.flatMap utf8Bytes).head?, b ≠ 0 := by
  cases t with
  | nil => exact fun b hb => by cases hb
  | cons c t =>
    have hc := ht c List.mem_cons_self
    have hbound := c.isLt
    intro b hb
    rw [List.flatMap_cons, List.head?_append_of_ne_nil _ (utf8Bytes_ne_nil c)] at hb
    unfold utf8Bytes at hb
    simp only at hb
    split_ifs at hb <;> exact Option.some.inj hb ▸ toUInt8_ne_zero (by omega) (by omega)

/-- In UTF-16 a text without NUL is empty, or its first two bytes are not both zero. -/
theorem utf16_eq_nil_or_cons {t : Text} (ht : ∀ c ∈ t, c.val ≠ 0) :
    t.flatMap (utf16Bytes bigEndian) = [] ∨
      ∃ a b rest, t.flatMap (utf16Bytes bigEndian) = a :: b :: rest ∧ (a ≠ 0 ∨ b ≠ 0) := by
  have hpair {n : Nat} (h : n < 0x10000) (hn : n ≠ 0) :
      ∃ a b, pairBytes bigEndian n = [a, b] ∧ (a ≠ 0 ∨ b ≠ 0) := by
    obtain ⟨a, b, hbytes, hunit⟩ := exists_pairBytes bigEndian h
    refine ⟨a, b, hbytes, not_and_or.1 ?_⟩
    rintro ⟨rfl, rfl⟩
    cases bigEndian <;> exact hn hunit.symm
  cases t with
  | nil => exact .inl rfl
  | cons c t =>
    have hc := ht c List.mem_cons_self
    have hbound := c.isLt
    refine .inr ?_
    rw [List.flatMap_cons, utf16Bytes]
    split
    · next h =>
      obtain ⟨a, b, hbytes, hne⟩ := hpair h hc
      exact ⟨a, b, _, by rw [hbytes]; rfl, hne⟩
    · next h =>
      obtain ⟨a, b, hbytes, hne⟩ := hpair (n := 0xD800 + (c.val - 0x10000) / 0x400) (by omega) (by omega)
      exact ⟨a, b, _, by rw [hbytes]; rfl, hne⟩

section Detect

variable (ha : a ≠ 0) (ha' : a < 0x80)

include ha ha' in
/-- A document that begins with an ASCII character, zeros before it or not, has no mark. -/
theorem detect_of_ascii (zeros : Nat) : detect (List.replicate zeros 0 ++ a :: bytes) =
    detectUnmarked (List.replicate zeros 0 ++ a :: bytes) := by
  have hmark : a ≠ 0xFF ∧ a ≠ 0xFE ∧ a ≠ 0xEF := by
    refine ⟨?_, ?_, ?_⟩ <;> rintro rfl <;> exact absurd ha' (by decide)
  have hnone : marks.find? (fun mark => mark.1.isPrefixOf (List.replicate zeros 0 ++ a :: bytes)) = none := by
    -- a mark begins with at most two zeros
    match zeros with
    | 0 | 1 | 2 | _ + 3 =>
      simp [marks, List.replicate_succ, hmark.1.symm, hmark.2.1.symm, hmark.2.2.symm, ha.symm]
  rw [detect, hnone]

include ha ha' in
theorem detect_utf8 (hb : ∀ b ∈ bytes.head?, b ≠ 0) : detect (a :: bytes) = utf8 := by
  refine (detect_of_ascii ha ha' 0).trans ?_
  show detectUnmarked (a :: bytes) = utf8
  match bytes with
  | [] | [_, _] => rfl
  | [b] | b :: _ :: _ :: _ =>
    have hb : b ≠ 0 := hb b rfl
    simp [detectUnmarked, ha, hb]

include ha ha' in
theorem detect_utf16_big (hrest : bytes = [] ∨ ∃ b c rest, bytes = b :: c :: rest ∧ (b ≠ 0 ∨ c ≠ 0)) :
    detect (0 :: a :: bytes) = utf16 true 0 := by
  refine (detect_of_ascii ha ha' 1).trans ?_
  rcases hrest with rfl | ⟨b, c, rest, rfl, -⟩
  · rfl
  · simp [detectUnmarked, ha]

include ha ha' in
theorem detect_utf16_little
    (hrest : bytes = [] ∨ ∃ b c rest, bytes = b :: c :: rest ∧ (b ≠ 0 ∨ c ≠ 0)) :
    detect (a :: 0 :: bytes) = utf16 false 0 := by
  refine (detect_of_ascii ha ha' 0).trans ?_
  rcases hrest with rfl | ⟨b, c, rest, rfl, hbc⟩
  · simp [detectUnmarked, ha]
  · simp [detectUnmarked, ha, hbc]

include ha ha' in
theorem detect_utf32_big : detect (0 :: 0 :: 0 :: a :: bytes) = utf32 true 0 :=
  detect_of_ascii ha ha' 3

include ha ha' in
theorem detect_utf32_little : detect (a :: 0 :: 0 :: 0 :: bytes) = utf32 false 0 := by
  refine (detect_of_ascii ha ha' 0).trans ?_
  simp [detectUnmarked, ha]

include ha in
theorem detect_utf16_little_marked : detect (0xFF :: 0xFE :: a :: bytes) = utf16 false 2 := by
  simp [detect, marks, ha.symm]

end Detect

/-- The first bytes tell how the text was written. -/
theorem detect_bytes (scheme : Scheme) (marked : Bool) {t : Text} (ht : t.ShowsEncoding) :
    detect (scheme.bytes marked t) = scheme.encoding marked := by
  obtain ⟨⟨c, hfirst, hascii⟩, hnul⟩ := ht
  obtain ⟨t, rfl⟩ : ∃ u, t = c :: u := by
    cases t with
    | nil => cases hfirst
    | cons d t => exact ⟨t, by rw [Option.some.inj hfirst]⟩
  obtain ⟨hc, hnul⟩ := List.forall_mem_cons.1 hnul
  have hbyte : c.val.toUInt8 ≠ 0 := toUInt8_ne_zero (by omega) hc
  have hlow : c.val.toUInt8 < 0x80 := by
    rw [UInt8.lt_iff_toNat_lt, toNat_toUInt8 (by omega)]
    exact hascii
  have hutf8 : utf8Bytes c = [c.val.toUInt8] := by simp only [utf8Bytes, hascii, if_true]
  have hpair (bigEndian : Bool) : pairBytes bigEndian c.val =
      if bigEndian then [0, c.val.toUInt8] else [c.val.toUInt8, 0] := by
    rw [pairBytes, Nat.div_eq_of_lt (by omega), Nat.mod_eq_of_lt (by omega)]
    rfl
  have hutf16 (bigEndian : Bool) : utf16Bytes bigEndian c = pairBytes bigEndian c.val := by
    rw [utf16Bytes, if_pos (by omega)]
  have hutf32 (bigEndian : Bool) : utf32Bytes bigEndian c =
      if bigEndian then [0, 0, 0, c.val.toUInt8] else [c.val.toUInt8, 0, 0, 0] := by
    rw [utf32Bytes, Nat.div_eq_of_lt (by omega), Nat.mod_eq_of_lt (by omega), hpair]
    cases bigEndian <;> rfl
  match scheme, marked with
  | .utf8, false =>
    show detect (utf8Bytes c ++ t.flatMap utf8Bytes) = _
    rw [hutf8]
    exact detect_utf8 hbyte hlow (head?_utf8_ne_zero hnul)
  | .utf8, true => exact rfl
  | .utf16 true, false =>
    show detect (utf16Bytes true c ++ t.flatMap (utf16Bytes true)) = _
    rw [hutf16, hpair]
    exact detect_utf16_big hbyte hlow (utf16_eq_nil_or_cons hnul)
  | .utf16 false, false =>
    show detect (utf16Bytes false c ++ t.flatMap (utf16Bytes false)) = _
    rw [hutf16, hpair]
    exact detect_utf16_little hbyte hlow (utf16_eq_nil_or_cons hnul)
  | .utf16 true, true => exact rfl
  | .utf16 false, true =>
    show detect (0xFF :: 0xFE :: (utf16Bytes false c ++ t.flatMap (utf16Bytes false))) = _
    rw [hutf16, hpair]
    exact detect_utf16_little_marked hbyte
  | .utf32 true, false =>
    show detect (utf32Bytes true c ++ t.flatMap (utf32Bytes true)) = _
    rw [hutf32]
    exact detect_utf32_big hbyte hlow
  | .utf32 false, false =>
    show detect (utf32Bytes false c ++ t.flatMap (utf32Bytes false)) = _
    rw [hutf32]
    exact detect_utf32_little hbyte hlow
  | .utf32 true, true => exact rfl
  | .utf32 false, true => exact rfl

/-- Bytes are read as the text that was written, in every encoding and with or without a mark. -/
theorem decode_bytes (scheme : Scheme) (marked : Bool) {t : Text} (ht : t.ShowsEncoding)
    (hscalar : t.NoSurrogates) : decode (scheme.bytes marked t) = .ok t := by
  have hread {encoding : Encoding} {fuel offset : Nat} (h : (t.flatMap utf8Bytes).length ≤ fuel) :
      decodeUtf8 encoding true fuel offset (t.flatMap utf8Bytes) = .ok t :=
    decodeUtf8_bytes ((length_le_flatMap_utf8Bytes t).trans h) fun _ => hscalar
  rw [decode, detect_bytes scheme marked ht]
  match scheme, marked with
  | .utf8, false => exact hread (Nat.le_refl _)
  | .utf8, true => exact hread (Nat.le_add_right _ 3)
  | .utf16 bigEndian, false => exact decodeUtf16_bytes hscalar
  | .utf16 true, true | .utf16 false, true => exact decodeUtf16_bytes hscalar
  | .utf32 bigEndian, false => exact decodeUtf32_bytes t
  | .utf32 true, true | .utf32 false, true => exact decodeUtf32_bytes t

end Encoding

end DocShape
