import DocShape.Proofs.Conversion.Directions
import DocShape.Proofs.Listing.Document
import DocShape.Reference

/-!
# Decoding and encoding do not drift

A schema, a document, and the native value for it: the document with integers for the keys that spell
them, and with any of its lists as tuples. The decoder's outcome on the one and the encoder's on the
other are the same, word for word but for the five ways of saying what was expected
(`encoder_follows_decoder`).
-/

namespace DocShape

/-- An outcome as an encoder words it. -/
def Outcome.forEncoding {α : Type} (o : Outcome α) : Outcome α :=
  ⟨o.value, o.errors.map Complaint.forEncoding, o.warnings⟩

theorem settle_map_forEncoding (mode : Mode) (fs : List Finding) :
    settle mode (fs.map Finding.forEncoding) =
      { settle mode fs with errors := (settle mode fs).errors.map Complaint.forEncoding } := by
  have hmap : Finding.forEncoding = .map Complaint.forEncoding id id := by
    funext f
    cases f <;> rfl
  rw [hmap, settle_map, List.map_id, Option.map_id, id_eq]

/-- Wording findings anew does not change what a walk comes to. -/
theorem Converted.outcome_forEncoding (mode : Mode) (c : Converted) :
    c.forEncoding.outcome mode = (c.outcome mode).map Outcome.forEncoding := by
  rw [outcome, outcome, forEncoding, settle_map_forEncoding]
  cases (settle mode c.findings).halted with
  | some f => rfl
  | none =>
    cases herrors : (settle mode c.findings).errors with
    | nil => simp [Except.map, Outcome.forEncoding]
    | cons e es => cases mode <;> simp [Except.map, Outcome.forEncoding]

theorem Value.KeyDigits.listed {v : Value} (h : v.KeyDigits) : v.listed.KeyDigits := by
  induction v using Value.partsInduction with
  | step v ih =>
    cases v with
    | list xs =>
      rw [listed_list]
      refine ⟨trivial, fun x hx => ?_⟩
      obtain ⟨y, hy, rfl⟩ := List.mem_map.1 hx
      exact ih y hy (h.inside y hy)
    | tuple xs =>
      rw [listed_tuple]
      refine ⟨trivial, fun x hx => ?_⟩
      obtain ⟨y, hy, rfl⟩ := List.mem_map.1 hx
      exact ih y hy (h.inside y hy)
    | dict es =>
      rw [listed_dict]
      refine ⟨fun e' he' => ?_, fun x hx => ?_⟩
      · obtain ⟨e, he, rfl⟩ := List.mem_map.1 he'
        exact h.here e he
      · obtain ⟨e', he', rfl⟩ := List.mem_map.1 hx
        obtain ⟨e, he, rfl⟩ := List.mem_map.1 he'
        exact ih e.2 (List.mem_map_of_mem he) (h.entry he)
    | _ => exact h

/-- What an error of a decoder says is what the encoder says, but for the shape that was expected. -/
theorem message_forEncoding_of_decoding [Host] {S : Block} {w : Value} {mode : Mode}
    {o : Outcome Value} (h : S.conversion .decoding mode w = .ok o) {c : Complaint}
    (hc : c ∈ o.errors) :
    c.forEncoding.message = c.message ∨ ∃ shape : Shape,
      c.message = "was expecting " ++ shape.expected .decoding ∧
      c.forEncoding.message = "was expecting " ++ shape.expected .encoding := by
  have herrors : o.errors = (settle mode (S.convert .decoding [] w).findings).errors := by
    rw [Block.conversion_eq, Converted.outcome] at h
    simp only at h
    split at h
    · cases h
    · rw [← Except.ok.inj h]
  rw [herrors] at hc
  have hwalk := Block.ofWalk_convert S .decoding [] w _ (mem_errors_settle hc)
  rcases c.message_forEncoding with hsame | ⟨path, shape, d, rfl, hwords⟩
  · exact .inl hsame
  · right
    refine ⟨shape, ?_, by rw [hwords]; rfl⟩
    have hd : d = .decoding := by
      generalize hf : Finding.error (.mismatch path (.expected shape d)) = f at hwalk
      cases hwalk with
      | mismatch below cause hcause =>
        obtain ⟨-, rfl⟩ := Complaint.mismatch.inj (Finding.error.inj hf)
        exact hcause
      | halt f => cases hf
    rw [hd]
    rfl

/-- A schema of lists of truth values by number. -/
def marksSchema : Block :=
  let plain : Header := ⟨.absent, .absent, none⟩
  .object plain .integer (.array plain (.flag plain) .absent) .absent

/-- **Decoding and encoding do not drift.** Let `w` be a document and `w'` the same with integers for
the keys that spell them, wherever the schema has an object with integer keys, and with tuples for any
of its lists. Then `w'` is a native value, no two keys having become one, and in either mode the
encoder comes to the same on `w'` as the decoder on `w`: it breaks off for the same reason, or gives
the same value with the same errors in the same order, at the same paths and in the same words, except
that each says in its own words what it expected. -/
theorem encoder_follows_decoder [Host] (S : Block) (mode : Mode) {w w' : Value} (hw : w.IsDocument)
    (hw' : w'.listed = S.respell w) (hdigits : w'.KeyDigits) :
    w'.Keyed ∧
    S.conversion .encoding mode w' =
      (S.conversion .decoding mode w).map Outcome.forEncoding ∧
    ∀ o, S.conversion .decoding mode w = .ok o → ∀ c ∈ o.errors,
      c.forEncoding.path = c.path ∧ c.forEncoding.className = c.className ∧
      (c.forEncoding.message = c.message ∨ ∃ shape : Shape,
        c.message = "was expecting " ++ shape.expected .decoding ∧
        c.forEncoding.message = "was expecting " ++ shape.expected .encoding) := by
  refine ⟨?_, ?_, fun o ho c hc => ?_⟩
  · refine Value.keyed_of_listed ?_
    rw [hw']
    exact Block.keyed_respell S hw
  · have hkeys : (S.respell w).KeyDigits := by
      rw [← hw']
      exact hdigits.listed
    rw [Block.conversion_eq, Block.conversion_eq, ← Converted.outcome_forEncoding,
      ← Block.convert_respell S [] hw hkeys, ← hw', Block.convert_listed]
  · exact ⟨c.path_forEncoding, c.className_forEncoding, message_forEncoding_of_decoding ho hc⟩

section

open Reference

/-- A document with a value and a key out of place, and the native value for it. -/
theorem encoder_follows_decoder_marks :
    marksSchema.conversion .decoding .collectAll
        (.dict [(.str "1", .list [.bool true, .int 5]), (.str "x", .list [])]) =
      .ok ⟨.dict [(.int 1, .list [.bool true, .null])],
        [.mismatch [.entry "1", .item 1] (.expected .boolean .decoding),
          .mismatch [] (.badKey 1 .integer)], []⟩ ∧
    marksSchema.conversion .encoding .collectAll
        (.dict [(.int 1, .tuple [.bool true, .int 5]), (.str "x", .list [])]) =
      .ok ⟨.dict [(.int 1, .list [.bool true, .null])],
        [.mismatch [.entry "1", .item 1] (.expected .boolean .encoding),
          .mismatch [] (.badKey 1 .integer)], []⟩ := by
  have hw : Value.IsDocument (.dict
      [(.str "1", .list [.bool true, .int 5]), (.str "x", .list [])]) := by
    have hnames : Text.ofString "1" ≠ Text.ofString "x" := by decide
    refine ⟨⟨by simp, by simp [hnames]⟩, List.forall_mem_cons.2 ⟨⟨trivial, ?_⟩, ?_⟩⟩
    · exact List.forall_mem_cons.2
        ⟨.leaf trivial rfl, List.forall_mem_singleton.2 (.leaf trivial rfl)⟩
    · exact List.forall_mem_singleton.2 (.leaf trivial rfl)
  have hdigits : Value.KeyDigits (.dict
      [(.int 1, .tuple [.bool true, .int 5]), (.str "x", .list [])]) := by
    refine ⟨?_, List.forall_mem_cons.2 ⟨⟨trivial, ?_⟩, ?_⟩⟩
    · simp [Value.KeyDigitsNode]
      decide
    · exact List.forall_mem_cons.2
        ⟨.leaf trivial rfl, List.forall_mem_singleton.2 (.leaf trivial rfl)⟩
    · exact List.forall_mem_singleton.2 (.leaf trivial rfl)
  exact ⟨rfl, (encoder_follows_decoder marksSchema .collectAll hw rfl hdigits).2.1⟩

end

end DocShape
