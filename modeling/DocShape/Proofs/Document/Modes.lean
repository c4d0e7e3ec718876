import DocShape.Proofs.Listing.Document

/-!
# Fail-fast is collect-all cut at the first error

In fail-fast mode the first error unwinds the walk from wherever it stands; in collect-all mode the walk
goes on, and may yet be broken off. That the two runs are in step at every point before that is because
both do what telling the same findings does (`Check.block_lists`, `Convert.block_converts`, by recursion
on the schema), and an error that was reported is told from a failure that was not
(`Walk.Lists.run_eq`). `CutAtFirst` lists how the results can compare; checking a schema, decoding and
encoding all compare like that. What it comes to for a caller is `failFast_cuts_collectAll`.
-/

namespace DocShape

/-! ## Results of the two modes -/

/-- The results of an operation in fail-fast and in collect-all mode. Fail-fast stops without a value
at the first error, where collect-all goes on, and may yet break off. -/
inductive CutAtFirst {α : Type} (nothing : α) :
    Except Failure (Outcome α) → Except Failure (Outcome α) → Prop
  | failed (f : Failure) : CutAtFirst nothing (.error f) (.error f)
  | uncut (value : α) (warnings : List Warning) :
    CutAtFirst nothing (.ok ⟨value, [], warnings⟩) (.ok ⟨value, [], warnings⟩)
  | cut (c : Complaint) (before : List Warning) (value : α) (errors : List Complaint)
    (warnings : List Warning) :
    CutAtFirst nothing (.ok ⟨nothing, [c], before⟩) (.ok ⟨value, c :: errors, before ++ warnings⟩)
  | broken (c : Complaint) (before : List Warning) (f : Failure) :
    CutAtFirst nothing (.ok ⟨nothing, [c], before⟩) (.error f)

/-- What fail-fast gives where collect-all gives an outcome: the same without errors, and with errors
the first of them, the warnings up to it, and no value. -/
structure Outcome.IsCut {α : Type} (nothing : α) (fast full : Outcome α) : Prop where
  isOk : fast.isOk = full.isOk
  errors : fast.errors = full.errors.take 1
  warnings : fast.warnings <+: full.warnings
  allWarnings : full.isOk = true → fast.warnings = full.warnings
  value : fast.value = if full.isOk then full.value else nothing

/-- What fail-fast comes to, next to collect-all: its outcome where that has one is cut at the first
error, and where it fails that fails alike. -/
structure IsCutOf {α : Type} (nothing : α) (fast full : Except Failure (Outcome α)) : Prop where
  returns : ∀ R, full = .ok R → ∃ o, fast = .ok o ∧ o.IsCut nothing R
  raises : ∀ f, fast = .error f → full = .error f

namespace CutAtFirst

variable {α : Type} {nothing : α} {fast full : Except Failure (Outcome α)}

theorem returns (h : CutAtFirst nothing fast full) {R : Outcome α} (hR : full = .ok R) :
    ∃ o, fast = .ok o ∧ o.IsCut nothing R := by
  cases h with
  | failed f => cases hR
  | uncut value warnings =>
    obtain rfl := Except.ok.inj hR
    exact ⟨_, rfl, rfl, rfl, List.prefix_refl _, fun _ => rfl, rfl⟩
  | cut c before value errors warnings =>
    obtain rfl := Except.ok.inj hR
    exact ⟨_, rfl, rfl, rfl, List.prefix_append _ _, fun h => (by cases h), rfl⟩
  | broken c before f => cases hR

theorem raises (h : CutAtFirst nothing fast full) {f : Failure} (hf : fast = .error f) :
    full = .error f := by
  cases h with
  | failed g => exact hf
  | uncut value warnings => cases hf
  | cut c before value errors warnings => cases hf
  | broken c before g => cases hf

theorem isCutOf (h : CutAtFirst nothing fast full) : IsCutOf nothing fast full :=
  ⟨fun _ hR => h.returns hR, fun _ hf => h.raises hf⟩

/-- What comes before an operation is the same in both modes. -/
theorem bind {β : Type} {x : Except Failure β} {g g' : β → Except Failure (Outcome α)}
    (h : ∀ b, CutAtFirst nothing (g b) (g' b)) : CutAtFirst nothing (x >>= g) (x >>= g') := by
  cases x with
  | error f => exact .failed f
  | ok b => exact h b

end CutAtFirst

/-! ## The operations -/

section

variable [Host]

theorem cutAtFirst_conversion (S : Block) (d : Direction) (v : Value) :
    CutAtFirst .null (S.conversion d .failFast v) (S.conversion d .collectAll v) := by
  have hcut := settle_cut (S.convert d [] v).findings
  simp only [Block.conversion_eq, Converted.outcome]
  generalize settle .failFast (S.convert d [] v).findings = fast at hcut
  generalize settle .collectAll (S.convert d [] v).findings = full at hcut
  cases hcut with
  | uncut warnings halted =>
    cases halted with
    | some f => exact .failed f
    | none => exact .uncut _ _
  | first c before errors warnings halted =>
    cases halted with
    | some f => exact .broken _ _ _
    | none => exact .cut _ _ _ _ _

theorem cutAtFirst_checkSchema (raw : Value) :
    CutAtFirst none (checkSchema raw .failFast) (checkSchema raw .collectAll) := by
  have hcut := settle_cut (Grammar.block [] raw)
  simp only [checkSchema_eq, Settlement.checked]
  generalize settle .failFast (Grammar.block [] raw) = fast at hcut
  generalize settle .collectAll (Grammar.block [] raw) = full at hcut
  cases hcut with
  | uncut warnings halted =>
    cases halted with
    | some f => exact .failed f
    | none =>
      cases hparse : parseSchema raw with
      | error f => exact .failed f
      | ok b => exact .uncut _ _
  | first c before errors warnings halted =>
    cases halted with
    | some f => exact .broken _ _ _
    | none => exact .cut _ _ _ _ _

theorem cutAtFirst_decodeDocument (document : Value) (S : Block) :
    CutAtFirst .null (decodeDocument document S .failFast) (decodeDocument document S .collectAll) :=
  .bind fun v => cutAtFirst_conversion S .decoding v

/-- What was found is settled before anything is written, so a value is written in both modes, or in
collect-all mode alone. -/
theorem cutAtFirst_encodeDocument (v : Value) (S : Block) :
    CutAtFirst none (encodeDocument v S .failFast) (encodeDocument v S .collectAll) := by
  have hcut := cutAtFirst_conversion S .encoding v
  rw [encodeDocument, encodeDocument]
  generalize S.conversion .encoding .failFast v = fast at hcut
  generalize S.conversion .encoding .collectAll v = full at hcut
  cases hcut with
  | failed f => exact .failed f
  | uncut value warnings =>
    simp only [bind, Except.bind, Outcome.isOk, List.isEmpty_nil, true_or, if_true]
    cases serializeDocument value with
    | error f => exact .failed f
    | ok t => exact .uncut _ _
  | cut c before value errors warnings =>
    simp only [bind, Except.bind, Outcome.isOk, List.isEmpty_cons, Bool.false_eq_true, false_or,
      reduceCtorEq, or_true, if_true, if_false]
    cases serializeDocument value with
    | error f => exact .broken _ _ _
    | ok t => exact .cut _ _ _ _ _
  | broken c before f => exact .broken _ _ _

end

/-! ## What callers see -/

/-- A schema as a caller gives it: raw, or typed. -/
inductive GivenSchema where
  | raw (v : Value)
  | typed (b : Block)

namespace GivenSchema

variable [Host]

/-- The typed form of a schema, along which values are converted. -/
def block : GivenSchema → Except Failure Block
  | raw v => parseSchema v
  | typed b => .ok b

/-- Checks a schema in its raw form. -/
def check (schema : GivenSchema) (mode : Mode) : Except Failure (Outcome (Option Block)) :=
  match schema with
  | raw v => checkSchema v mode
  | typed b => checkSchema b.dump mode

/-- Decodes a document along a schema. -/
def decode (schema : GivenSchema) (document : Value) (mode : Mode) :
    Except Failure (Outcome Value) := do
  decodeDocument document (← schema.block) mode

/-- Encodes a value along a schema. -/
def encode (schema : GivenSchema) (v : Value) (mode : Mode) :
    Except Failure (Outcome (Option Text)) := do
  encodeDocument v (← schema.block) mode

end GivenSchema

/-- **Fail-fast is collect-all cut at the first error**, for all three operations and every schema, raw or
typed. Each runs its walk in the mode, and in fail-fast mode what the walk reports unwinds it. Where
collect-all gives an outcome, fail-fast gives one that is without errors in the same cases, and has of the
errors the first, of the warnings those before it, and the value if there are no errors; where fail-fast
fails, collect-all fails alike. -/
theorem failFast_cuts_collectAll [Host] (schema : GivenSchema) (document v : Value) :
    IsCutOf none (schema.check .failFast) (schema.check .collectAll) ∧
    IsCutOf .null (schema.decode document .failFast) (schema.decode document .collectAll) ∧
    IsCutOf none (schema.encode v .failFast) (schema.encode v .collectAll) := by
  refine ⟨?check, ?decode, ?encode⟩
  case check =>
    cases schema with
    | raw v => exact (cutAtFirst_checkSchema v).isCutOf
    | typed b => exact (cutAtFirst_checkSchema b.dump).isCutOf
  case decode => exact (CutAtFirst.bind (cutAtFirst_decodeDocument document)).isCutOf
  case encode => exact (CutAtFirst.bind (cutAtFirst_encodeDocument v)).isCutOf

end DocShape
