import DocShape.Proofs.Conversion.Reduced
import DocShape.Proofs.Conversion.WalkFindings
import DocShape.Proofs.Document.Modes
import DocShape.Proofs.Document.RoundTrip

/-!
# Numbers are judged by their values

Schemas, documents and values that differ in nothing but how numbers are represented, as integers or as
doubles, are checked, decoded and encoded alike, and the numbers that a block takes are an interval
(`numbers_judged_by_value`). Reduced forms are equal exactly if this is all the difference: finite
numbers have one reduced form if they have one exact value (`Number.reduced_eq_iff`).
-/

namespace DocShape

/-- Schemas that differ in how the numbers of their bounds and lengths are represented. -/
inductive GivenSchema.SameBounds : GivenSchema → GivenSchema → Prop
  | raw {v w : Value} (same : v.reducedBounds = w.reducedBounds) : SameBounds (.raw v) (.raw w)
  | typed {b c : Block} (same : b.reducedBounds = c.reducedBounds) :
    SameBounds (.typed b) (.typed c)

/-- Outcomes with the same errors and warnings, and with values in a relation. -/
structure Outcome.Alike {α : Type} (R : α → α → Prop) (o p : Outcome α) : Prop where
  errors : o.errors = p.errors
  warnings : o.warnings = p.warnings
  value : R o.value p.value

/-- Texts of values that differ in how their numbers are represented, or no texts. -/
inductive WrittenAlike [Host] : Option Text → Option Text → Prop
  | none : WrittenAlike none none
  | some {u w : Value} {s t : Text} (same : u.reduced = w.reduced) (first : serializeDocument u = .ok s)
    (second : serializeDocument w = .ok t) : WrittenAlike (some s) (some t)

/-! ## Schemas -/

section

variable [Host] [LawfulHost]

theorem agree_parseSchema_of_reduced {v w : Value} (h : v.reducedBounds = w.reducedBounds) :
    Agree (fun b c => b.reducedBounds = c.reducedBounds) (parseSchema v) (parseSchema w) :=
  Block.agree_parseSchema (Block.agree_ofRaw_of_mapBounds (fun left _ _ => Block.readAlike_reduced left)
    (fun left _ _ => Block.readAlike_reduced left) h)

theorem agree_checkSchema {v w : Value} (h : v.reducedBounds = w.reducedBounds) (mode : Mode) :
    Agree (Outcome.Alike fun b c => b.map Block.reducedBounds = c.map Block.reducedBounds)
      (checkSchema v mode) (checkSchema w mode) := by
  have hwalk : Grammar.block [] v = Grammar.block [] w := by
    rw [← Grammar.block_reducedBounds [] v, h, Grammar.block_reducedBounds]
  rw [checkSchema_eq, checkSchema_eq, hwalk]
  unfold Settlement.checked
  cases (settle mode (Grammar.block [] w)).halted with
  | some f => exact .error f
  | none =>
    dsimp only
    split
    · exact (agree_parseSchema_of_reduced h).bind fun b c hbc => .ok ⟨rfl, rfl, congrArg some hbc⟩
    · exact .ok ⟨rfl, rfl, rfl⟩

namespace GivenSchema.SameBounds

variable {schema schema' : GivenSchema}

theorem agree_block (h : schema.SameBounds schema') :
    Agree (fun b c => b.reducedBounds = c.reducedBounds) schema.block schema'.block := by
  cases h with
  | raw same => exact agree_parseSchema_of_reduced same
  | typed same => exact .ok same

theorem agree_check (h : schema.SameBounds schema') (mode : Mode) :
    Agree (Outcome.Alike fun b c => b.map Block.reducedBounds = c.map Block.reducedBounds)
      (schema.check mode) (schema'.check mode) := by
  cases h with
  | raw same => exact agree_checkSchema same mode
  | @typed b c same =>
    refine agree_checkSchema ?_ mode
    rw [← Block.dump_reducedBounds, same, Block.dump_reducedBounds]

end GivenSchema.SameBounds

end

/-! ## Conversions -/

/-- Walks that found the same come to outcomes alike. -/
theorem agree_outcome {x y : Converted} (h : Converted.reduced x = Converted.reduced y) (mode : Mode) :
    Agree (Outcome.Alike fun u w => u.reduced = w.reduced) (x.outcome mode) (y.outcome mode) := by
  obtain ⟨hvalue, hfindings⟩ : x.value.reduced = y.value.reduced ∧ x.findings = y.findings := by
    rwa [Converted.reduced, Converted.reduced, Converted.mk.injEq] at h
  simp only [Converted.outcome, hfindings]
  cases (settle mode y.findings).halted with
  | some f => exact .error f
  | none =>
    refine .ok ⟨rfl, rfl, ?_⟩
    dsimp only
    split
    · rfl
    · exact hvalue

section Conversions

variable [Host] {b c : Block} {v w : Value}

theorem agree_conversion (hb : b.reducedBounds = c.reducedBounds) (hv : v.reduced = w.reduced)
    (d : Direction) (mode : Mode) :
    Agree (Outcome.Alike fun u w => u.reduced = w.reduced) (b.conversion d mode v)
      (c.conversion d mode w) := by
  rw [Block.conversion_eq, Block.conversion_eq]
  exact agree_outcome (Block.reduced_convert_congr hb hv d []) mode

theorem agree_decodeDocument {document document' : Value}
    (hb : b.reducedBounds = c.reducedBounds)
    (hdocument : Agree (fun u w => u.reduced = w.reduced) (parseDocument document)
      (parseDocument document')) (mode : Mode) :
    Agree (Outcome.Alike fun u w => u.reduced = w.reduced) (decodeDocument document b mode)
      (decodeDocument document' c mode) :=
  hdocument.bind fun _ _ hdata => agree_conversion hb hdata .decoding mode

theorem agree_serializeDocument (h : v.reduced = w.reduced) :
    Agree (fun s t => WrittenAlike (some s) (some t)) (serializeDocument v) (serializeDocument w) := by
  have hwrite : Agree (fun _ _ => True) (serializeDocument v) (serializeDocument w) :=
    (Json.agree_write h).mapError _
  exact hwrite.with_results.mono fun s t hst => .some h hst.2.1 hst.2.2

theorem agree_encodeDocument (hb : b.reducedBounds = c.reducedBounds) (hv : v.reduced = w.reduced)
    (mode : Mode) :
    Agree (Outcome.Alike WrittenAlike) (encodeDocument v b mode) (encodeDocument w c mode) := by
  rw [encodeDocument, encodeDocument]
  refine (agree_conversion hb hv .encoding mode).bind fun o p hop => ?_
  have hok : o.isOk = p.isOk := by rw [Outcome.isOk, hop.errors, Outcome.isOk]
  rw [hok]
  split
  · exact (agree_serializeDocument hop.value).bind fun s t hst => .ok ⟨hop.errors, hop.warnings, hst⟩
  · exact .ok ⟨hop.errors, hop.warnings, .none⟩

end Conversions

/-- **Numbers are judged by their values.** Let the numbers of bounds and lengths of two schemas differ
in nothing but how they are represented, and so the numbers of documents and of values, keys apart. Then
checking, decoding and encoding fail alike in either mode, or give the same errors and warnings, and
blocks, values and texts of values that differ in nothing else. Along a block of numbers that allows
fractions, the numbers that are converted without errors are an interval of exact values. -/
theorem numbers_judged_by_value [Host] [LawfulHost] :
    (∀ {schema schema' : GivenSchema} (mode : Mode), schema.SameBounds schema' →
      Agree (Outcome.Alike fun b c => b.map Block.reducedBounds = c.map Block.reducedBounds)
          (schema.check mode) (schema'.check mode) ∧
        (∀ {document document' : Value},
          Agree (fun u w => u.reduced = w.reduced) (parseDocument document)
            (parseDocument document') →
          Agree (Outcome.Alike fun u w => u.reduced = w.reduced) (schema.decode document mode)
            (schema'.decode document' mode)) ∧
        ∀ {v v' : Value}, v.reduced = v'.reduced →
          Agree (Outcome.Alike WrittenAlike) (schema.encode v mode) (schema'.encode v' mode)) ∧
    ∀ {header : Header} {decimal : Option Bool} {minimum maximum : Setting Limit} {a b c : Number}
      {oa oc : Outcome Value} (d : Direction) (mode : Mode), decimal ≠ some false →
      a.isFinite = true → b.isFinite = true → c.isFinite = true →
      a.exact ≤ b.exact → b.exact ≤ c.exact →
      (Block.number header decimal minimum maximum).conversion d mode (.ofNumber a) = .ok oa →
      oa.isOk = true →
      (Block.number header decimal minimum maximum).conversion d mode (.ofNumber c) = .ok oc →
      oc.isOk = true →
      (Block.number header decimal minimum maximum).conversion d mode (.ofNumber b) =
        .ok ⟨.ofNumber b, [], []⟩ := by
  constructor
  · intro schema schema' mode hschema
    refine ⟨hschema.agree_check mode, fun hdocument => ?_, fun hv => ?_⟩
    · exact hschema.agree_block.bind fun b c hb => agree_decodeDocument hb hdocument mode
    · exact hschema.agree_block.bind fun b c hb => agree_encodeDocument hb hv mode
  · intro header decimal minimum maximum a b c oa oc d mode hdecimal ha hb hc hab hbc houta hoka
      houtc hokc
    have hnone {n : Number} {o : Outcome Value}
        (h : (Block.number header decimal minimum maximum).conversion d mode (.ofNumber n) = .ok o)
        (hok : o.isOk = true) :
        ((Block.number header decimal minimum maximum).convert d [] (.ofNumber n)).findings = [] := by
      rw [(convert_of_isOk h hok).1]
    exact conversion_of_clean mode
      (Block.convert_between hdecimal ha hb hc hab hbc (hnone houta hoka) (hnone houtc hokc))

/-- One as a double. -/
def floatOne : Binary64 := .finite false ⟨Nat.pow 2 1074, by decide +kernel⟩

/-- Two as a double. -/
def floatTwo : Binary64 := .finite false ⟨Nat.pow 2 1075, by decide +kernel⟩

/-- Numbers from a bound up to ten. -/
def upToTenRaw (least : Value) : Value :=
  .dict [(.str "type", .str "number"), (.str "minimum", least),
    (.str "maximum", .dict [(.str "value", .int 10)])]

section

open Reference

/-- A bound of two, and a document and a value of one, as integers and as doubles; and two as a double
between two and ten. -/
theorem numbers_judged_by_value_two :
    (GivenSchema.raw (upToTenRaw (.int 2))).SameBounds (.raw (upToTenRaw (.float floatTwo))) ∧
      (∃ o, (GivenSchema.raw (upToTenRaw (.float floatTwo))).decode (.str "1.0") .failFast = .ok o ∧
        o.errors = [.mismatch [] (.outOfBounds .atLeast "2")]) ∧
      (∃ o, (GivenSchema.raw (upToTenRaw (.float floatTwo))).encode (.float floatOne) .failFast =
        .ok o ∧ o.errors = [.mismatch [] (.outOfBounds .atLeast "2")]) ∧
      (Block.number ⟨.absent, .absent, none⟩ none (.given (.bare (.int 2)))
          (.given (.bound ⟨.int 10, none⟩))).conversion .decoding .collectAll
        (.ofNumber (.float floatTwo)) = .ok ⟨.ofNumber (.float floatTwo), [], []⟩ := by
  have hone : Value.reduced (.float floatOne) = .int 1 :=
    Value.reduced_float_of_int (by decide +kernel)
  have htwo : Value.reduced (.float floatTwo) = .int 2 :=
    Value.reduced_float_of_int (by decide +kernel)
  have hschema : (GivenSchema.raw (upToTenRaw (.int 2))).SameBounds
      (.raw (upToTenRaw (.float floatTwo))) := by
    have hreduced (least : Value) : (upToTenRaw least).reducedBounds =
        .dict [(.str "type", .str "number"), (.str "minimum", least.reduced),
          (.str "maximum", Value.reduced (.dict [(.str "value", .int 10)]))] := rfl
    refine .raw ?_
    rw [hreduced, hreduced, htwo]
    rfl
  have hread : parseDocument (.str "1.0") = .ok (.float floatOne) := by
    have hnumber : (parseDocument (.str "1.0")).toOption.bind Value.finiteNumber? =
        some (.float floatOne) := by decide +kernel
    cases hparse : parseDocument (.str "1.0") with
    | error f => rw [hparse] at hnumber; cases hnumber
    | ok v =>
      rw [hparse] at hnumber
      exact congrArg Except.ok (Value.finiteNumber?_eq_some.1 hnumber).1
  have hdocument : Agree (fun u w => u.reduced = w.reduced) (parseDocument (.str "1"))
      (parseDocument (.str "1.0")) := by
    rw [hread]
    exact .ok hone.symm
  obtain ⟨-, hdecode, hencode⟩ := numbers_judged_by_value.1 .failFast hschema
  have hdecoded := hdecode hdocument
  have hencoded := hencode (v := .int 1) hone.symm
  have hdecodedInt : (GivenSchema.raw (upToTenRaw (.int 2))).decode (.str "1") .failFast =
      .ok ⟨.null, [.mismatch [] (.outOfBounds .atLeast "2")], []⟩ := rfl
  have hencodedInt : (GivenSchema.raw (upToTenRaw (.int 2))).encode (.int 1) .failFast =
      .ok ⟨none, [.mismatch [] (.outOfBounds .atLeast "2")], []⟩ := rfl
  rw [hdecodedInt] at hdecoded
  rw [hencodedInt] at hencoded
  refine ⟨hschema, ?_, ?_, ?_⟩
  · generalize (GivenSchema.raw (upToTenRaw (.float floatTwo))).decode _ _ = x at hdecoded
    cases hdecoded with
    | ok h => exact ⟨_, rfl, h.errors.symm⟩
  · generalize (GivenSchema.raw (upToTenRaw (.float floatTwo))).encode _ _ = x at hencoded
    cases hencoded with
    | ok h => exact ⟨_, rfl, h.errors.symm⟩
  · have hfinite : (Number.float floatTwo).isFinite = true := rfl
    have hlow : (Number.int 2).exact ≤ (Number.float floatTwo).exact :=
      (Number.le_iff rfl hfinite).1 (by decide +kernel)
    have hhigh : (Number.float floatTwo).exact ≤ (Number.int 10).exact :=
      (Number.le_iff hfinite rfl).1 (by decide +kernel)
    exact numbers_judged_by_value.2 .decoding .collectAll nofun rfl hfinite rfl hlow hhigh rfl rfl
      rfl rfl

end

end DocShape
