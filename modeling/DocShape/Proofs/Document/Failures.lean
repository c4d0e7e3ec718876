import DocShape.Proofs.Conversion.Refusals
import DocShape.Proofs.Document.Checking
import DocShape.Proofs.Json.RoundTrip

/-!
# How decoding fails

Decoding along a checked schema gives no result for a text that is no document or nests too deep, or where
a block refuses at a node that the walk reaches (`decode_fails_only`). A refusal over a pattern is told as a
violation of the schema. The others escape as what they are (`Failure.Escapes`), such as an integer key
with too many digits (`decode_escapes_longKey`).
-/

namespace DocShape

/-- A failure that is told neither as a fault of the document nor as a violation of the schema. -/
inductive Failure.Escapes : Failure → Prop
  | tooManyDigits : Escapes (.unwritable .tooManyDigits)
  | longKey {count : Nat} (h : digitLimit < count) : Escapes (.longKey count)
  | repeatTooLarge : Escapes .repeatTooLarge
  | longRepeat (count : Nat) : Escapes (.longRepeat count)
  | exclusiveFlags : Escapes .exclusiveFlags
  | exhausted (message : Text) : Escapes (.exhausted message)

/-- A decoder refuses over a pattern, which is a violation of the schema, or for a reason that
escapes. -/
theorem Block.Refuses.badPattern_or_escapes [Host] {path : Path} {c : Block} {u : Value} {f : Failure}
    (h : c.Refuses .decoding path u f) :
    (∃ fault, f = .complaint (.violation path (.badPattern fault))) ∨ f.Escapes := by
  cases h with
  | minimum _ _ unwritable => exact .inr (unwritable.2 ▸ .tooManyDigits)
  | maximum _ _ unwritable => exact .inr (unwritable.2 ▸ .tooManyDigits)
  | text unwritable => exact .inr (unwritable.2 ▸ .tooManyDigits)
  | array _ unwritable => exact .inr (unwritable.2 ▸ .tooManyDigits)
  | object unwritable => exact .inr (unwritable.2 ▸ .tooManyDigits)
  | field _ _ _ => exact .inr .tooManyDigits
  | @pattern _ _ _ _ refusal read =>
    cases refusal with
    | fault fault => exact .inl ⟨fault, rfl⟩
    | repeatTooLarge => exact .inr .repeatTooLarge
    | longRepeat count => exact .inr (.longRepeat count)
    | exclusiveFlags => exact .inr .exclusiveFlags
    | exhausted message => exact .inr (.exhausted message)
  | key _ long =>
    obtain ⟨count, hcount, rfl⟩ := long.exists_count
    exact .inr (.longKey hcount)

/-! ## Along an accepted schema -/

section

variable [Host] {S : Block}

theorem GivenSchema.Accepted.decode_eq [LawfulHost] {schema : GivenSchema} (h : schema.Accepted S)
    {document data : Value} (hdata : parseDocument document = .ok data) (mode : Mode) :
    schema.decode document mode = (S.convert .decoding [] data).outcome mode := by
  rw [decode, h.block_eq, ← Block.conversion_eq]
  show decodeDocument document S mode = _
  rw [decodeDocument, hdata]
  rfl

theorem GivenSchema.Accepted.decode_eq_error [LawfulHost] {schema : GivenSchema}
    (h : schema.Accepted S) {document : Value} {f : Failure}
    (hdata : parseDocument document = .error f) (mode : Mode) :
    schema.decode document mode = .error f := by
  rw [decode, h.block_eq]
  show decodeDocument document S mode = _
  rw [decodeDocument, hdata]
  rfl

/-- A text, or bytes, that cannot be read is no document. -/
theorem unreadable_of_parseDocument {document : Value} {f : Failure}
    (hdocument : (∃ t, document = .str t) ∨ ∃ bytes, document = .bytes bytes)
    (h : parseDocument document = .error f) : ∃ fault, f = .unreadable fault := by
  rcases hdocument with ⟨t, rfl⟩ | ⟨bytes, rfl⟩
  · obtain ⟨fault, -, hfault⟩ := Except.mapError_eq_error.1 h
    exact ⟨fault, hfault.symm⟩
  · obtain ⟨fault, -, hfault⟩ := Except.mapError_eq_error.1 h
    exact ⟨fault, hfault.symm⟩

end

/-! ## A key that escapes -/

/-- Texts by number. -/
def numberedSchema : Block :=
  let plain : Header := ⟨.absent, .absent, none⟩
  .object plain .integer (.string plain .absent .absent) .absent

/-- The texts by number, as a caller gives the schema. -/
def numberedRaw : Value :=
  .dict [(.str "type", .str "object"), (.str "key", .str "integer"),
    (.str "value", .dict [(.str "type", .str "string")])]

/-- The digit nine so many times. -/
def nines (count : Nat) : Text := List.replicate count (CodePoint.ofChar '9')

/-- A document with one text, under the number of so many nines. -/
def ninesDocument (count : Nat) : Text := "\x7b\"" ++ nines count ++ "\":\"a\"\x7d"

theorem ofNat_nines {count : Nat} (h : count ≠ 0) : ∃ n : ℕ, Text.ofNat n = nines count := by
  refine ⟨_, Text.ofNat_toNat ⟨?_, ?_, ?_⟩⟩
  · simp [nines, h]
  · intro c hc
    rw [List.eq_of_mem_replicate hc]
    decide
  · intro hzero
    have hmem := List.eq_of_mem_replicate (List.mem_of_mem_head? hzero)
    exact absurd hmem (by decide)

theorem escape_nines (count : Nat) : (nines count).flatMap (Json.escape false) = nines count := by
  have hescape : Json.escape false (CodePoint.ofChar '9') = [CodePoint.ofChar '9'] := by decide
  induction count with
  | zero => rfl
  | succ count ih =>
    rw [nines, List.replicate_succ, List.flatMap_cons, hescape]
    exact congrArg (List.cons _) ih

theorem write_ninesDocument (nesting count : Nat) :
    Json.write (.compact (nesting + 1)) (.dict [(.str (nines count), .str "a")]) =
      .ok (ninesDocument count) := by
  have hwrite : Json.write (.compact (nesting + 1)) (.dict [(.str (nines count), .str "a")]) =
      .ok ("\x7b" ++ (Json.quote false (nines count) ++ ":" ++ Json.quote false "a") ++ "\x7d") :=
    rfl
  rw [hwrite, Json.quote, escape_nines, ninesDocument]
  simp only [List.append_assoc]
  rfl

section

open Reference

theorem accepted_numberedRaw : (GivenSchema.raw numberedRaw).Accepted numberedSchema := by
  have hwalk : settle .collectAll (Grammar.block [] numberedRaw) = ⟨[], [], none⟩ := by
    decide +kernel
  have hkeyed : numberedRaw.Keyed := by
    simp [numberedRaw, Entries.Distinct]
    decide
  exact .raw hkeyed
    (checkSchema_of_walk (rfl : parseSchema numberedRaw = .ok numberedSchema) hwalk) rfl

theorem parse_ninesDocument (count : Nat) :
    parseDocument (.str (ninesDocument count)) =
      .ok (.dict [(.str (nines count), .str "a")]) := by
  have hplain : Value.IsPlain (.dict [(.str (nines count), .str "a")]) := by
    refine ⟨⟨?_, List.nodup_singleton _⟩, List.forall_mem_singleton.2 (.leaf trivial rfl)⟩
    exact List.forall_mem_singleton.2 ⟨_, rfl⟩
  have hdepth : Value.depth (.dict [(.str (nines count), .str "a")]) ≤ Host.nesting := by
    simp only [Value.depth, Value.entriesDepth]
    decide
  rw [parseDocument, Json.read_write rfl hplain hdepth (write_ninesDocument 0 count)]
  rfl

/-- A key with more nines than the digit limit cannot be read as an integer. -/
theorem decode_ninesDocument {count : Nat} (h : digitLimit < count) (mode : Mode) :
    (GivenSchema.raw numberedRaw).decode (.str (ninesDocument count)) mode =
      .error (.longKey count) := by
  obtain ⟨n, hn⟩ := ofNat_nines (Nat.ne_zero_of_lt h)
  have hcount : (Text.ofNat n).length = count := by rw [hn, nines, List.length_replicate]
  have hlong : ¬ Text.HasDigits n := by
    rw [Text.HasDigits, Int.natAbs_natCast, hcount]
    exact Nat.not_le_of_lt h
  have hkey : Direction.decoding.key? .integer (.str (nines count)) =
      some (.error (.longKey count)) := by
    rw [← hn, ← hcount]
    exact Direction.integerKey?_ofInt_long hlong
  rw [accepted_numberedRaw.decode_eq (parse_ninesDocument count), numberedSchema,
    Block.convert_of_not_excused rfl, Block.convertNode, Block.convertObject,
    Converted.entries_of_halt hkey]
  rfl

end

/-- **How decoding fails.** Let a schema be accepted, and let the document be a text or bytes. In
collect-all mode there is a result exactly when the document can be read and no block refuses at a node
that the walk reaches. In either mode decoding fails only over a document that is not well-formed, over one
that nests too deep for the host, or over such a refusal: over a pattern, told as a violation of the schema
at its path, or for a reason that escapes. -/
theorem decode_fails_only [Host] [LawfulHost] {schema : GivenSchema} {S : Block}
    (hschema : schema.Accepted S)
    {document : Value}
    (hdocument : (∃ t, document = .str t) ∨ ∃ bytes, document = .bytes bytes) :
    ((∃ o, schema.decode document .collectAll = .ok o) ↔
      ∃ data, parseDocument document = .ok data ∧ ∀ below c u f,
        Block.Reaches .decoding S data below c u → ¬ c.Refuses .decoding below u f) ∧
    ∀ mode f, schema.decode document mode = .error f →
      (parseDocument document = .error f ∧
        (f.className = "ParseError" ∨ f.className = "RecursionError")) ∨
      ∃ data below c u, parseDocument document = .ok data ∧
        Block.Reaches .decoding S data below c u ∧ c.Refuses .decoding below u f ∧
        ((∃ fault, f = .complaint (.violation below (.badPattern fault))) ∨ f.Escapes) := by
  obtain ⟨raw, hraw⟩ := hschema.isChecked.exists_typedAs
  have hmeasured := Value.measured_of_typedAs hraw
  cases hdata : parseDocument document with
  | error g =>
    have hdecode := hschema.decode_eq_error hdata
    refine ⟨iff_of_false (fun ⟨o, ho⟩ => ?_) fun ⟨data, h, _⟩ => (by cases h), fun mode f hf => ?_⟩
    · cases (hdecode .collectAll).symm.trans ho
    · obtain rfl := Except.error.inj ((hdecode mode).symm.trans hf)
      obtain ⟨fault, rfl⟩ := unreadable_of_parseDocument hdocument hdata
      refine .inl ⟨rfl, ?_⟩
      cases fault with
      | tooDeep container => exact .inr rfl
      | _ => exact .inl rfl
  | ok data =>
    refine ⟨?_, fun mode f hf => ?_⟩
    · rw [hschema.decode_eq hdata, Converted.exists_outcome_iff]
      constructor
      · intro hfree
        refine ⟨data, rfl, fun below c u f hreach hrefuses => hfree f ?_⟩
        exact (Block.halt_mem_findings_iff hmeasured).2 ⟨below, c, u, hreach, hrefuses⟩
      · rintro ⟨data', hdata', hnone⟩ f hf
        obtain rfl := Except.ok.inj hdata'
        obtain ⟨below, c, u, hreach, hrefuses⟩ := (Block.halt_mem_findings_iff hmeasured).1 hf
        exact hnone below c u f hreach hrefuses
    · rw [hschema.decode_eq hdata] at hf
      obtain ⟨below, c, u, hreach, hrefuses⟩ :=
        (Block.halt_mem_findings_iff hmeasured).1 (Converted.halt_mem_of_outcome hf)
      exact .inr ⟨data, below, c, u, rfl, hreach, hrefuses, hrefuses.badPattern_or_escapes⟩

section

open Reference

/-- An accepted schema and a document on which decoding fails for a reason that escapes: its one key
spells an integer with a digit too many. -/
theorem decode_escapes_longKey :
    (GivenSchema.raw numberedRaw).Accepted numberedSchema ∧
      (∀ mode, (GivenSchema.raw numberedRaw).decode (.str (ninesDocument 4301)) mode =
        .error (.longKey 4301)) ∧
      (Failure.longKey 4301).className = "ValueError" :=
  ⟨accepted_numberedRaw, fun mode => decode_ninesDocument (by decide) mode, rfl⟩

/-- The same failure comes of a node at which a block refuses. -/
theorem decode_fails_only_nines :
    (GivenSchema.raw numberedRaw).Accepted numberedSchema ∧ ∃ data below c u,
      parseDocument (.str (ninesDocument 4301)) = .ok data ∧
      Block.Reaches .decoding numberedSchema data below c u ∧
      c.Refuses .decoding below u (.longKey 4301) := by
  obtain ⟨-, hfails⟩ := decode_fails_only accepted_numberedRaw
    (.inl ⟨ninesDocument 4301, rfl⟩)
  rcases hfails .failFast _ (decode_ninesDocument (by decide) .failFast) with ⟨hfault, -⟩ | h
  · cases (parse_ninesDocument 4301).symm.trans hfault
  · obtain ⟨data, below, c, u, hdata, hreach, hrefuses, -⟩ := h
    exact ⟨accepted_numberedRaw, data, below, c, u, hdata, hreach, hrefuses⟩

end

end DocShape
