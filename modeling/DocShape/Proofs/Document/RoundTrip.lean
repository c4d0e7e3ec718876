import DocShape.Proofs.Conversion.Directions
import DocShape.Proofs.Conversion.Kept
import DocShape.Proofs.Conversion.Shapes
import DocShape.Proofs.Json.Documents
import DocShape.Proofs.Json.RoundTrip
import DocShape.Proofs.Listing.Document
import DocShape.Proofs.Reference
import DocShape.Proofs.Schema.Dumped

/-!
# Decoding undoes encoding, and encoding takes what was decoded

What an encoder accepts it writes so that a decoder gives it back, normalised along the schema
(`decode_encode`). What a decoder gives an encoder accepts as it is, and writes so that decoding gives
it back (`encode_decode`).

Both rest on the middle, a value that the encoder finds in order and leaves as it is (`Block.InOrder`):
its text is read as the value with its integer keys spelled out, and on that the decoder does what the
encoder did on the value (`Block.InOrder.decoded`).
-/

namespace DocShape

/-! ## Operations without findings -/

section

variable [Host] {S : Block} {d : Direction} {v u : Value} {t : Text} {mode : Mode}

/-- A walk whose outcome is without errors found nothing. -/
theorem convert_of_isOk {o : Outcome Value} (h : S.conversion d mode v = .ok o)
    (hok : o.isOk = true) : S.convert d [] v = ⟨o.value, []⟩ ∧ o = ⟨o.value, [], []⟩ := by
  rw [Block.conversion_eq] at h
  have hwarnings : ∀ w, Finding.warning w ∉ (S.convert d [] v).findings :=
    fun w hw => (Block.ofWalk_convert S d [] v _ hw).not_warning w rfl
  generalize S.convert d [] v = c at h hwarnings
  unfold Converted.outcome at h
  simp only at h
  split at h
  · cases h
  · next hhalted =>
    obtain rfl := Except.ok.inj h
    have herrors : (settle mode c.findings).errors = [] := List.isEmpty_iff.1 hok
    have hfindings := eq_nil_of_settle hwarnings herrors hhalted
    obtain ⟨value, findings⟩ := c
    obtain rfl : findings = [] := hfindings
    cases mode <;> exact ⟨rfl, rfl⟩

/-- A walk that finds nothing has its value for its outcome. -/
theorem conversion_of_clean (mode : Mode) (h : S.convert d [] v = ⟨u, []⟩) :
    S.conversion d mode v = .ok ⟨u, [], []⟩ := by
  rw [Block.conversion_eq, h]
  cases mode <;> rfl

/-- A document was decoded without errors: it was read, and nothing was found on what was read. -/
theorem decodeDocument_of_isOk {o : Outcome Value} (h : decodeDocument (.str t) S mode = .ok o)
    (hok : o.isOk = true) :
    ∃ w, Json.read .strict Host.nesting t = .ok w ∧ S.convert .decoding [] w = ⟨o.value, []⟩ := by
  obtain ⟨w, hw, h⟩ := Except.bind_eq_ok.1 h
  rw [parseDocument, Except.mapError_eq_ok] at hw
  exact ⟨w, hw, (convert_of_isOk h hok).1⟩

theorem decodeDocument_of_clean {w : Value} (mode : Mode)
    (hread : Json.read .strict Host.nesting t = .ok w) (hclean : S.convert .decoding [] w = ⟨u, []⟩) :
    decodeDocument (.str t) S mode = .ok ⟨u, [], []⟩ := by
  rw [decodeDocument, parseDocument, hread]
  exact conversion_of_clean mode hclean

/-- A value was encoded without errors: nothing was found on it, and what became of it was written. -/
theorem encodeDocument_of_isOk {o : Outcome (Option Text)} (h : encodeDocument v S mode = .ok o)
    (hok : o.isOk = true) :
    ∃ u t, S.convert .encoding [] v = ⟨u, []⟩ ∧ Json.write (.compact Host.nesting) u = .ok t ∧
      o = ⟨some t, [], []⟩ := by
  obtain ⟨o', ho', h⟩ := Except.bind_eq_ok.1 h
  split at h
  · obtain ⟨t, ht, h⟩ := Except.bind_eq_ok.1 h
    obtain rfl := Except.ok.inj h
    obtain ⟨hclean, hnone⟩ := convert_of_isOk ho' hok
    rw [serializeDocument, Except.mapError_eq_ok] at ht
    exact ⟨o'.value, t, hclean, ht, by rw [hnone]⟩
  · next hno =>
    obtain rfl := Except.ok.inj h
    exact absurd (.inl hok) hno

theorem encodeDocument_of_clean (mode : Mode) (hclean : S.convert .encoding [] v = ⟨u, []⟩)
    (ht : Json.write (.compact Host.nesting) u = .ok t) :
    encodeDocument v S mode = .ok ⟨some t, [], []⟩ := by
  have hwrite : serializeDocument u = .ok t := Except.mapError_eq_ok.2 ht
  rw [encodeDocument, conversion_of_clean mode hclean]
  simp only [bind, Except.bind]
  rw [if_pos (.inl rfl), hwrite]
  rfl

/-- What is written is no deeper than the host allows. -/
theorem depth_of_written (ht : Json.write (.compact Host.nesting) u = .ok t) :
    u.depth ≤ Host.nesting :=
  Json.hasRoom_compact.1 (Json.hasRoom_of_text u (fun n _ => Nat.zero_le n) ht)

end

/-! ## Values in order -/

namespace Block

variable [Host] {S : Block} {u v w : Value}

/-- A value is in order that the encoder leaves as it is, without a finding. -/
structure InOrder (S : Block) (u : Value) : Prop where
  encoded : S.convert .encoding [] u = ⟨u, []⟩
  shapes : S.Shapes u
  keyed : u.Keyed

/-- A value on which the encoder finds nothing is in order once it is normalised. -/
theorem inOrder_normalise (hS : S.FieldsApart) (hv : v.Keyed)
    (hfindings : (S.convert .encoding [] v).findings = []) : S.InOrder (S.normalise v) where
  encoded := (S.normalises_of_clean hfindings).2
  shapes := S.shapes_normalise hfindings
  keyed := Block.keyed_normalise hS hv

namespace InOrder

theorem isPlain (h : S.InOrder u) : u.IsPlain := h.shapes.isPlain h.keyed

/-- With the integer keys spelled out the decoder does what the encoder did. -/
theorem decoded (h : S.InOrder u) : S.convert .decoding [] u.spelled = ⟨u, []⟩ := by
  have hback := h.shapes.respell_spelled
  have hagree := Block.convert_respell S [] h.isPlain.isDocument_spelled
    (by rw [hback]; exact h.shapes.keyDigits)
  rw [hback, h.encoded] at hagree
  generalize S.convert .decoding [] u.spelled = c at hagree
  obtain ⟨value, findings⟩ := c
  obtain ⟨rfl, hfindings⟩ := Converted.mk.inj hagree
  have hnone : findings = [] := List.map_eq_nil_iff.1 hfindings.symm
  rw [hnone]

end InOrder

/-- What a document is decoded to without findings is the document, respelled and normalised. -/
theorem eq_normalise_of_decoded (hw : w.IsDocument) (hdecoded : S.convert .decoding [] w = ⟨u, []⟩) :
    (S.convert .encoding [] (S.respell w)).findings = [] ∧ u = S.normalise (S.respell w) := by
  -- what the decoder found on the document the encoder finds on the respelled document
  have hagree := Block.convert_respell S [] hw
    (Block.keyDigits_respell S hw (by rw [hdecoded]))
  rw [hdecoded] at hagree
  have hfindings : (S.convert .encoding [] (S.respell w)).findings = [] := by rw [hagree]; rfl
  obtain ⟨hvalue, -⟩ := S.normalises_of_clean hfindings
  exact ⟨hfindings, (Converted.mk.inj (hagree.symm.trans hvalue)).1⟩

/-- What a document is decoded to without findings is in order. -/
theorem inOrder_of_decoded (hS : S.FieldsApart) (hw : w.IsDocument)
    (hdecoded : S.convert .decoding [] w = ⟨u, []⟩) : S.InOrder u := by
  obtain ⟨hfindings, rfl⟩ := eq_normalise_of_decoded hw hdecoded
  exact inOrder_normalise hS (Block.keyed_respell S hw) hfindings

/-- What is decoded is no deeper than the document. -/
theorem depth_le_of_decoded (hw : w.IsDocument) (hdecoded : S.convert .decoding [] w = ⟨u, []⟩) :
    u.depth ≤ w.depth := by
  obtain ⟨-, rfl⟩ := eq_normalise_of_decoded hw hdecoded
  exact (depth_rewritten_le normalise_rewrites S _).trans (depth_rewritten_le respell_rewrites S w)

/-- The integers of what is decoded are within the digit limit, if those of the document are. -/
theorem intDigits_of_decoded (hw : w.IsDocument) (hints : w.IntDigits)
    (hdecoded : S.convert .decoding [] w = ⟨u, []⟩) : u.IntDigits := by
  obtain ⟨-, rfl⟩ := eq_normalise_of_decoded hw hdecoded
  -- neither respelling nor normalising makes new integers
  exact Block.everywhere_rewritten Block.normalise_rewrites trivial (fun _ => trivial)
    (fun _ => trivial) S
    (Block.everywhere_rewritten Block.respell_rewrites trivial (fun _ => trivial)
      (fun _ => trivial) S hints)

/-- The document of a value in order decodes to the value. -/
theorem InOrder.decode_written {t : Text} (h : S.InOrder u)
    (ht : Json.write (.compact Host.nesting) u = .ok t) :
    ∃ w, Json.read .strict Host.nesting t = .ok w ∧ S.convert .decoding [] w = ⟨u, []⟩ :=
  ⟨u.spelled, Json.read_write rfl h.isPlain (depth_of_written ht) ht, h.decoded⟩

end Block

/-! ## The round trips -/

/-- A schema of points by number, each with a word on it, and an optional note. -/
def pointsSchema : Block :=
  let plain : Header := ⟨.absent, .absent, none⟩
  let point := Block.tuple plain
    [.number plain none .absent .absent, .string plain .absent .absent]
  .map plain [("points", .object plain .integer point .absent),
    ("note", .string ⟨.absent, .absent, some true⟩ .absent .absent)]

/-- One point, and no note. -/
def onePoint : Value := .dict [(.str "points", .dict [(.int 5, .tuple [.int 1, .str "a"])])]

/-- One point and the note that is not there, along the schema. -/
def onePointDecoded : Value :=
  .dict [(.str "points", .dict [(.int 5, .list [.int 1, .str "a"])]), (.str "note", .null)]

/-- The text of one point. -/
def onePointText : Text := "\x7b\"points\":\x7b\"5\":[1,\"a\"]\x7d,\"note\":null\x7d"

theorem onePoint_keyed : onePoint.Keyed := by
  refine ⟨List.pairwise_singleton _ _, List.forall_mem_singleton.2 ?_⟩
  refine ⟨List.pairwise_singleton _ _, List.forall_mem_singleton.2 ?_⟩
  exact ⟨trivial, List.forall_mem_cons.2
    ⟨.leaf trivial rfl, List.forall_mem_singleton.2 (.leaf trivial rfl)⟩⟩

/-- **Decoding undoes encoding.** A native value that is encoded without errors, in either mode, has a
text from which decoding gives, again without errors, the value normalised along the schema: lists for
its tuples, null for the optional fields that a map lacks, behind the others and in the order in which
they are declared, and everything else as it was. Encoding that value gives the same text.

No map has a field twice and no dictionary a key: that is what maps and dictionaries are. -/
theorem decode_encode [Host] (S : Block) (hS : S.FieldsApart) {v : Value} (hv : v.Keyed) {mode : Mode}
    {o : Outcome (Option Text)} (h : encodeDocument v S mode = .ok o) (hok : o.isOk = true) :
    ∃ t, o.value = some t ∧
      (∀ mode, decodeDocument (.str t) S mode = .ok ⟨S.normalise v, [], []⟩) ∧
      ∀ mode, encodeDocument (S.normalise v) S mode = .ok ⟨some t, [], []⟩ := by
  obtain ⟨u, t, hclean, ht, rfl⟩ := encodeDocument_of_isOk h hok
  have hfindings : (S.convert .encoding [] v).findings = [] := by rw [hclean]
  obtain ⟨hvalue, -⟩ := S.normalises_of_clean hfindings
  obtain ⟨rfl, -⟩ := Converted.mk.inj (hclean.symm.trans hvalue)
  have horder := Block.inOrder_normalise hS hv hfindings
  obtain ⟨w, hread, hdecoded⟩ := horder.decode_written ht
  exact ⟨t, rfl, fun mode => decodeDocument_of_clean mode hread hdecoded,
    fun mode => encodeDocument_of_clean mode horder.encoded ht⟩

section

open Reference

theorem pointsSchema_fieldsApart : pointsSchema.FieldsApart :=
  fieldsApart_of_parseSchema (rfl : parseSchema pointsSchema.dump = .ok pointsSchema)

theorem decode_encode_onePoint :
    encodeDocument onePoint pointsSchema .failFast = .ok ⟨some onePointText, [], []⟩ ∧
    decodeDocument (.str onePointText) pointsSchema .collectAll = .ok ⟨onePointDecoded, [], []⟩ ∧
    encodeDocument onePointDecoded pointsSchema .failFast = .ok ⟨some onePointText, [], []⟩ := by
  have hclean : pointsSchema.convert .encoding [] onePoint = ⟨onePointDecoded, []⟩ := by cbv
  have hwrite : Json.write (.compact Host.nesting) onePointDecoded = .ok onePointText := by cbv
  have hencoded : encodeDocument onePoint pointsSchema .failFast = .ok ⟨some onePointText, [], []⟩ :=
    encodeDocument_of_clean .failFast hclean hwrite
  have hnormal : pointsSchema.normalise onePoint = onePointDecoded := by cbv
  obtain ⟨t, ht, hdecoded, hagain⟩ :=
    decode_encode pointsSchema pointsSchema_fieldsApart onePoint_keyed hencoded rfl
  obtain rfl := Option.some.inj ht
  rw [hnormal] at hdecoded hagain
  exact ⟨hencoded, hdecoded .collectAll, hagain .failFast⟩

end

/-- **Encoding takes what was decoded.** A value that a document was decoded to without errors is
encoded without errors, and the encoder leaves it as it is. From its text decoding gives the value
again, so decoding and encoding once more changes nothing. -/
theorem encode_decode [Host] (S : Block) (hS : S.FieldsApart) {d : Text} {mode : Mode}
    {o : Outcome Value}
    (h : decodeDocument (.str d) S mode = .ok o) (hok : o.isOk = true) :
    (∀ mode, S.conversion .encoding mode o.value = .ok ⟨o.value, [], []⟩) ∧
    ∃ t, (∀ mode, encodeDocument o.value S mode = .ok ⟨some t, [], []⟩) ∧
      ∀ mode, decodeDocument (.str t) S mode = .ok ⟨o.value, [], []⟩ := by
  obtain ⟨w, hread, hdecoded⟩ := decodeDocument_of_isOk h hok
  have hw := Json.isDocument_of_read hread
  have horder := Block.inOrder_of_decoded hS hw hdecoded
  have hints : o.value.IntDigits :=
    Block.intDigits_of_decoded hw ((Json.hasDigits_of_read hread).mono fun _ h => h.1) hdecoded
  have hdepth : o.value.depth ≤ Host.nesting :=
    (Block.depth_le_of_decoded hw hdecoded).trans (Json.depth_of_read hread)
  obtain ⟨t, ht⟩ := Json.text_total o.value 0 horder.isPlain (hints.and horder.shapes.keyDigits)
    (Json.hasRoom_compact.2 hdepth)
  obtain ⟨w', hread', hdecoded'⟩ := horder.decode_written ht
  exact ⟨fun mode => conversion_of_clean mode horder.encoded, t,
    fun mode => encodeDocument_of_clean mode horder.encoded ht,
    fun mode => decodeDocument_of_clean mode hread' hdecoded'⟩

section

open Reference

theorem encode_decode_onePoint :
    decodeDocument (.str "\x7b\"points\": \x7b\"5\": [1, \"a\"]\x7d\x7d") pointsSchema .failFast =
      .ok ⟨onePointDecoded, [], []⟩ ∧
    pointsSchema.conversion .encoding .collectAll onePointDecoded = .ok ⟨onePointDecoded, [], []⟩ ∧
    ∃ t, encodeDocument onePointDecoded pointsSchema .failFast = .ok ⟨some t, [], []⟩ ∧
      decodeDocument (.str t) pointsSchema .failFast = .ok ⟨onePointDecoded, [], []⟩ := by
  have hread : Json.read .strict Host.nesting "\x7b\"points\": \x7b\"5\": [1, \"a\"]\x7d\x7d" =
      .ok (.dict [(.str "points", .dict [(.str "5", .list [.int 1, .str "a"])])]) := by cbv
  have hclean : pointsSchema.convert .decoding []
      (.dict [(.str "points", .dict [(.str "5", .list [.int 1, .str "a"])])]) =
        ⟨onePointDecoded, []⟩ := by cbv
  have hdecoded := decodeDocument_of_clean .failFast hread hclean
  obtain ⟨hleft, t, hencoded, hagain⟩ :=
    encode_decode pointsSchema pointsSchema_fieldsApart hdecoded rfl
  exact ⟨hdecoded, hleft .collectAll, t, hencoded .failFast, hagain .failFast⟩

end

end DocShape
