import DocShape.Proofs.Command.Images

/-!
# Why a command has no result

With integers within the digit limit (`Invocation.HasShortInts`) a command fails over its schema file, over
a schema that nests too deep to be typed, over an error in the schema that it needs, over its source, or
over a pattern that cannot be used (`Invocation.Raises`), and otherwise has a result (`call_eq_error_iff`).
-/

namespace DocShape

/-! ## Integers within the digit limit -/

namespace Value

/-- The integers that the keys at one place spell are within the digit limit. -/
def SpellsShortNode : Value → Prop
  | dict es => ∀ e ∈ es, ∀ n, e.1 = str (Text.ofInt n) → Text.HasDigits n
  | _ => True

/-- The integers that the keys of a value spell are within the digit limit. -/
def SpellsShort : Value → Prop := Everywhere SpellsShortNode

theorem IsDocument.shortInts {v : Value} (h : v.IsDocument) (hints : v.IntDigits) : v.ShortInts := by
  induction v using Value.partsInduction with
  | step v ih =>
    refine ⟨hints.here, fun x hx => ?_⟩
    have hpart (hx : x ∈ v.parts) : x.ShortInts := ih x hx (h.inside x hx) (hints.inside x hx)
    cases v with
    | dict es =>
      rcases List.mem_append.1 hx with hx | hx
      · obtain ⟨e, he, rfl⟩ := List.mem_map.1 hx
        obtain ⟨t, ht⟩ := h.here.1 e he
        rw [ht]
        exact .of_str t
      · exact hpart hx
    | list xs => exact hpart hx
    | tuple xs => exact hpart hx
    | set xs => exact hpart hx
    | _ => cases hx

end Value

/-- A decoder meets the integers that the keys of the document spell, and no other keys. -/
theorem Block.keysShort_decoding [Host] {S : Block} {v : Value} (hv : v.SpellsShort) :
    S.KeysShort .decoding v := by
  intro below c u hreach
  have hu : u.SpellsShort := by
    induction hreach with
    | here => exact hv
    | inside mem _ ih => exact ih (hv.inside _ (value_mem_parts mem))
  unfold KeysShortNode
  split
  · rintro ⟨k, x⟩ he n hn
    cases hn
    exact hu.here _ he n rfl
  · trivial

/-! ## Sources -/

namespace Direction

/-- The command that converts in a direction. -/
def command : Direction → Command
  | decoding => .decode
  | encoding => .encode

theorem command_injective {d d' : Direction} (h : d.command = d'.command) : d = d' := by
  cases d <;> cases d' <;> first | rfl | cases h

theorem command_ne_validate (d : Direction) : d.command ≠ .validate := by
  cases d <;> exact fun h => by cases h

end Direction

theorem Command.validates_or_converts (c : Command) : c = .validate ∨ ∃ d : Direction, c = d.command := by
  cases c with
  | validate => exact .inl rfl
  | decode => exact .inr ⟨.decoding, rfl⟩
  | encode => exact .inr ⟨.encoding, rfl⟩

namespace Invocation

section

variable [Host]

/-- What the source gives for a conversion: the content of a document, or a native value. -/
def given (i : Invocation) (around : Surroundings) (d : Direction) : Except Failure Value := do
  let t ← i.sourceText around
  match d with
  | .decoding => parseDocument (.str t)
  | .encoding => i.sourceFormat.load t

/-- The integers in the schema file and in the source are within the digit limit. -/
structure HasShortInts (i : Invocation) (around : Surroundings) : Prop where
  schema : ∀ raw, loadSchemaFile around.files i.schema = .ok raw → raw.ShortInts
  keys : i.command = .decode → ∀ data, i.given around .decoding = .ok data → data.SpellsShort
  value : i.command = .encode → ∀ v, i.given around .encoding = .ok v → v.ShortInts

/-- Why a command has no result. -/
inductive Raises (i : Invocation) (around : Surroundings) : Failure → Prop
  /-- The schema file cannot be loaded. -/
  | loading {f : Failure} (fails : loadSchemaFile around.files i.schema = .error f) :
    Raises i around f
  /-- The schema is well-formed, but nests deeper than the host types. -/
  | deep {raw : Value} {b : Block} {f : Failure}
    (loaded : loadSchemaFile around.files i.schema = .ok raw) (form : raw.TypedAs b)
    (deep : Host.guard < b.depth) (fails : parseSchema raw = .error f) : Raises i around f
  /-- The check before a conversion finds an error, and tells the first one. -/
  | schema {d : Direction} {raw : Value} {o : Outcome (Option Block)} {c : Complaint}
    {cs : List Complaint} (converts : i.command = d.command)
    (loaded : loadSchemaFile around.files i.schema = .ok raw)
    (checked : checkSchema raw .failFast = .ok o) (found : o.errors = c :: cs) :
    Raises i around (.complaint c)
  /-- The source cannot be read, or holds no document or no native value. -/
  | source {d : Direction} {validator : Validator} {f : Failure}
    (converts : i.command = d.command)
    (schema : Validator.ofFile around.files i.schema = .ok validator)
    (fails : i.given around d = .error f) : Raises i around f
  /-- The walk reaches a text under a pattern that cannot be used, and breaks off there. -/
  | pattern {d : Direction} {validator : Validator} {v : Value} {below : Path} {h : Header}
    {length : Setting LengthRule} {p t : Text} {refusal : Pattern.Refusal}
    (converts : i.command = d.command)
    (schema : Validator.ofFile around.files i.schema = .ok validator)
    (given : i.given around d = .ok v)
    (reached : Block.Reaches d validator.schema v below (.string h length (.given p)) (.str t))
    (unusable : Pattern.compile p = .error refusal)
    (halted : (settle (i.mode around) (validator.schema.convert d [] v).findings).halted =
      some (refusal.failure below)) : Raises i around (refusal.failure below)

end

end Invocation

/-! ## Each step -/

section

variable [Host] [LawfulHost] {mode : Mode} {f : Failure}

/-- A check of a schema with short integers fails only over how deep it nests. -/
theorem checkSchema_eq_error_iff {raw : Value} (hraw : raw.Keyed) (hints : raw.ShortInts) :
    checkSchema raw mode = .error f ↔
      (∃ b, raw.TypedAs b ∧ Host.guard < b.depth) ∧ parseSchema raw = .error f := by
  constructor
  · intro hf
    have hresult := checkResult hraw mode
    rw [hf] at hresult
    cases hresult with
    | deep form deep =>
      obtain ⟨fault, hparse, hcheck⟩ := exists_checkSchema_of_deep form deep
      rw [hcheck] at hf
      exact ⟨⟨_, form, deep⟩, hparse.trans (congrArg _ (Except.error.inj hf))⟩
    | unwritable quoted long => exact absurd (Grammar.shortInts_of_quotes hints quoted) long
  · rintro ⟨⟨b, hform, hdeep⟩, hparse⟩
    rw [checkSchema_of_advice hform, hparse]
    rfl

/-- What was converted can be written, so that an encoder fails only where the walk breaks off. -/
theorem encodeDocument_eq_error_iff {S : Block} (hS : S.IsChecked) {v : Value} (hv : v.Keyed)
    (hints : v.ShortInts) :
    encodeDocument v S mode = .error f ↔ S.conversion .encoding mode v = .error f := by
  rw [encodeDocument, Except.bind_eq_error, or_iff_left]
  rintro ⟨o, ho, hwrite⟩
  split at hwrite
  · next hwritten =>
    have hvalue : o.value = S.saved .encoding v := by
      rcases hwritten with hok | rfl
      · rw [Block.conversion_eq] at ho
        exact Converted.value_of_outcome ho (List.isEmpty_iff.1 hok)
      · exact (Block.conversion_eq_saved ho).2.1
    obtain ⟨t, ht, -⟩ := hS.exists_serializeDocument_saved hv hints .encoding
    rw [hvalue, ht] at hwrite
    cases hwrite
  · cases hwrite

theorem Validator.ofFile_eq_error_iff {files : Files} {path : Text} :
    ofFile files path = .error f ↔ loadSchemaFile files path = .error f ∨
      ∃ raw, loadSchemaFile files path = .ok raw ∧ (checkSchema raw .failFast = .error f ∨
        ∃ o c cs, checkSchema raw .failFast = .ok o ∧ o.errors = c :: cs ∧ f = .complaint c) := by
  rw [ofFile, Except.bind_eq_error]
  refine or_congr_right (exists_congr fun raw => and_congr_right fun hload => ?_)
  have hkeyed := keyed_loadSchemaFile files path raw hload
  rw [ofRaw]
  cases ho : checkSchema raw .failFast with
  | error g => simp [bind, Except.bind]
  | ok o =>
    cases herrors : o.errors with
    | nil =>
      obtain ⟨S, hS⟩ := Option.isSome_iff_exists.1 ((isSome_value_iff hkeyed ho).2 herrors)
      simp [Outcome.orFirstError, herrors, hS, bind, Except.bind, pure, Except.pure]
    | cons c cs => simp [Outcome.orFirstError, herrors, bind, Except.bind, eq_comm]

end

/-! ## A whole command -/

namespace Invocation

variable [Host] {i : Invocation} {around : Surroundings} {f : Failure} {d : Direction}

theorem shortInts_given (hints : i.HasShortInts around) (hd : i.command = d.command) {v : Value}
    (hv : i.given around d = .ok v) :
    v.ShortInts ∧ ∀ S : Block, S.KeysShort d v := by
  cases d with
  | decoding =>
    obtain ⟨t, -, hparse⟩ := Except.bind_eq_ok.1 hv
    have hread := Except.mapError_eq_ok.1 hparse
    have hdigits : v.IntDigits := (Json.hasDigits_of_read hread).mono fun _ h => h.1
    exact ⟨(Json.isDocument_of_read hread).shortInts hdigits,
      fun S => Block.keysShort_decoding (hints.keys hd v hv)⟩
  | encoding =>
    have hshort := hints.value hd v hv
    exact ⟨hshort, fun S => Block.keysShort_encoding hshort⟩

/-- A check fails over loading its schema, or over how deep that nests. -/
theorem call_validate_eq_error_iff (hi : i.command = .validate) :
    i.call around = .error f ↔ loadSchemaFile around.files i.schema = .error f ∨
      ∃ raw, loadSchemaFile around.files i.schema = .ok raw ∧
        checkSchema raw (i.mode around) = .error f := by
  rw [call, hi]
  show loadSchemaFile around.files i.schema >>= _ = _ ↔ _
  rw [Except.bind_eq_error]
  refine or_congr_right (exists_congr fun raw => and_congr_right fun hload => ?_)
  rw [Except.bind_eq_error, or_iff_left]
  rintro ⟨o, -, ho⟩
  cases ho

variable [LawfulHost]

theorem keyed_given : Yields Value.Keyed (i.given around d) := by
  refine (Yields.anything _).bind fun t _ => ?_
  cases d with
  | decoding =>
    intro v hv
    exact (Json.isDocument_of_read (Except.mapError_eq_ok.1 hv)).keyed
  | encoding => exact i.sourceFormat.keyed_load t

/-- A conversion fails over its schema, over its source, or where the walk breaks off. -/
theorem call_convert_eq_error_iff (hints : i.HasShortInts around)
    (hd : i.command = d.command) :
    i.call around = .error f ↔ Validator.ofFile around.files i.schema = .error f ∨
      ∃ validator, Validator.ofFile around.files i.schema = .ok validator ∧
        (i.given around d = .error f ∨ ∃ v, i.given around d = .ok v ∧
          (settle (i.mode around) (validator.schema.convert d [] v).findings).halted = some f) := by
  have hlast {α : Type} {x : Except Failure α} {g : α → Outcome Value} :
      (x >>= fun o => .ok (g o)) = .error f ↔ x = .error f := by
    rw [Except.bind_eq_error, or_iff_left]
    rintro ⟨o, -, ho⟩
    cases ho
  cases d with
  | decoding =>
    have hcall : i.call around = Validator.ofFile around.files i.schema >>= fun validator =>
        i.given around .decoding >>= fun v =>
          validator.schema.conversion .decoding (i.mode around) v >>= fun o =>
            .ok ⟨.dict [(.str "value", o.value)], o.errors, o.warnings⟩ := by
      rw [call, hd]
      simp only [Direction.command, given, decodeDocument, bind_assoc]
      rfl
    rw [hcall, Except.bind_eq_error]
    simp only [Except.bind_eq_error, hlast, Block.conversion_eq, Converted.outcome_eq_error_iff]
  | encoding =>
    have hcall : i.call around = Validator.ofFile around.files i.schema >>= fun validator =>
        i.given around .encoding >>= fun v =>
          encodeDocument v validator.schema (i.mode around) >>= fun o =>
            .ok ⟨.dict [(.str "document", (o.value.map .str).getD .null)], o.errors, o.warnings⟩ := by
      rw [call, hd]
      simp only [Direction.command, given, bind_assoc]
      rfl
    rw [hcall]
    simp only [Except.bind_eq_error, hlast]
    refine or_congr_right (exists_congr fun validator => and_congr_right fun hvalidator => ?_)
    refine or_congr_right (exists_congr fun v => and_congr_right fun hv => ?_)
    rw [encodeDocument_eq_error_iff (Validator.isChecked hvalidator) (keyed_given v hv)
      (shortInts_given hints hd hv).1, Block.conversion_eq, Converted.outcome_eq_error_iff]

/-- With short integers a walk breaks off at a text, over a pattern that cannot be used. -/
theorem raises_of_halted (hints : i.HasShortInts around) (hd : i.command = d.command)
    {validator : Validator} (hvalidator : Validator.ofFile around.files i.schema = .ok validator)
    {v : Value} (hv : i.given around d = .ok v)
    (hhalted : (settle (i.mode around) (validator.schema.convert d [] v).findings).halted = some f) :
    i.Raises around f := by
  obtain ⟨raw, hload, hkeyed, hraw⟩ := Validator.exists_typedAs hvalidator
  have hdump := shortInts_dump_of_typedAs hraw hkeyed (hints.schema raw hload)
  obtain ⟨hshort, hkeys⟩ := shortInts_given hints hd hv
  obtain ⟨below, h, length, p, t, refusal, hreach, hread, hf⟩ :=
    Block.exists_pattern_of_halt (Value.measured_of_typedAs hraw) hdump hshort
      (hkeys validator.schema) (halt_mem_of_halted hhalted)
  rw [List.nil_append] at hf
  subst hf
  exact .pattern hd hvalidator hv hreach hread hhalted

/-- With short integers a command has no result exactly over its schema, its source, or a pattern that
cannot be used. -/
theorem call_eq_error_iff (hints : i.HasShortInts around) :
    i.call around = .error f ↔ i.Raises around f := by
  have hcheck {raw : Value} {mode : Mode} (hload : loadSchemaFile around.files i.schema = .ok raw) :
      checkSchema raw mode = .error f ↔
        (∃ b, raw.TypedAs b ∧ Host.guard < b.depth) ∧ parseSchema raw = .error f :=
    checkSchema_eq_error_iff (keyed_loadSchemaFile around.files i.schema raw hload)
      (hints.schema raw hload)
  rcases i.command.validates_or_converts with hi | ⟨d, hd⟩
  · have hnone {d : Direction} : i.command ≠ d.command := by
      rw [hi]
      exact (d.command_ne_validate).symm
    rw [call_validate_eq_error_iff hi]
    constructor
    · rintro (hload | ⟨raw, hload, hfails⟩)
      · exact .loading hload
      · obtain ⟨⟨b, hform, hdeep⟩, hparse⟩ := (hcheck hload).1 hfails
        exact .deep hload hform hdeep hparse
    · intro h
      cases h with
      | loading fails => exact .inl fails
      | deep loaded form deep fails => exact .inr ⟨_, loaded, (hcheck loaded).2 ⟨⟨_, form, deep⟩, fails⟩⟩
      | schema converts => exact absurd converts hnone
      | source converts => exact absurd converts hnone
      | pattern converts => exact absurd converts hnone
  · rw [call_convert_eq_error_iff hints hd, Validator.ofFile_eq_error_iff]
    constructor
    · rintro ((hload | ⟨raw, hload, hfails | ⟨o, c, cs, ho, herrors, rfl⟩⟩) |
        ⟨validator, hvalidator, hgiven | ⟨v, hv, hhalted⟩⟩)
      · exact .loading hload
      · obtain ⟨⟨b, hform, hdeep⟩, hparse⟩ := (hcheck hload).1 hfails
        exact .deep hload hform hdeep hparse
      · exact .schema hd hload ho herrors
      · exact .source hd hvalidator hgiven
      · exact raises_of_halted hints hd hvalidator hv hhalted
    · intro h
      cases h with
      | loading fails => exact .inl (.inl fails)
      | deep loaded form deep fails =>
        exact .inl (.inr ⟨_, loaded, .inl ((hcheck loaded).2 ⟨⟨_, form, deep⟩, fails⟩)⟩)
      | schema _ loaded checked found =>
        exact .inl (.inr ⟨_, loaded, .inr ⟨_, _, _, checked, found, rfl⟩⟩)
      | source converts schema fails =>
        obtain rfl := Direction.command_injective (hd.symm.trans converts)
        exact .inr ⟨_, schema, .inl fails⟩
      | pattern converts schema given _ _ halted =>
        obtain rfl := Direction.command_injective (hd.symm.trans converts)
        exact .inr ⟨_, schema, .inr ⟨_, given, halted⟩⟩

end Invocation

end DocShape
