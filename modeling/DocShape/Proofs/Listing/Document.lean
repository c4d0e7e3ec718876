import DocShape.Document
import DocShape.Proofs.Conversion.WalkFindings
import DocShape.Proofs.Schema.Quoting

/-!
# The operations by their findings

Checking a schema and converting a value run a walk and package what it came to. Both walks list
findings, and the failures that break them off are never among the errors that they report
(`Grammar.toldApart_block`, `Block.toldApart_convert`), so what is packaged is what counts of the
findings: `checkSchema_eq` and `Block.conversion_eq`.
-/

namespace DocShape

/-- What a conversion comes to in a mode. One that is cut short leaves null. -/
def Converted.outcome (mode : Mode) (c : Converted) : Except Failure (Outcome Value) :=
  let s := settle mode c.findings
  match s.halted with
  | some f => .error f
  | none =>
    let value := if mode = .failFast ∧ !s.errors.isEmpty then .null else c.value
    .ok ⟨value, s.errors, s.warnings⟩

namespace Converted

variable {c : Converted}

/-- A conversion fails only with what breaks its walk off. -/
theorem outcome_eq_error_iff {mode : Mode} {f : Failure} :
    c.outcome mode = .error f ↔ (settle mode c.findings).halted = some f := by
  simp only [outcome]
  cases (settle mode c.findings).halted with
  | none => exact iff_of_false (fun h => by cases h) fun h => by cases h
  | some g => rw [Except.error.injEq, Option.some.injEq]

theorem halt_mem_of_outcome {mode : Mode} {f : Failure} (h : c.outcome mode = .error f) :
    .halt f ∈ c.findings :=
  halt_mem_of_halted (outcome_eq_error_iff.1 h)

/-- A walk that is not broken off comes to its value in collect-all mode. -/
theorem outcome_of_noHalt (h : NoHalt c.findings) :
    c.outcome .collectAll = .ok ⟨c.value, (settle .collectAll c.findings).errors,
      (settle .collectAll c.findings).warnings⟩ := by
  simp only [outcome, halted_of_noHalt h]
  rfl

theorem exists_outcome_iff : (∃ o, c.outcome .collectAll = .ok o) ↔ NoHalt c.findings := by
  refine ⟨fun ⟨o, ho⟩ => halted_eq_none_iff.1 ?_, fun h => ⟨_, outcome_of_noHalt h⟩⟩
  refine Option.eq_none_iff_forall_ne_some.2 fun f hf => ?_
  cases ho.symm.trans (outcome_eq_error_iff.2 hf)

end Converted

theorem Convert.run_block [Host] (d : Direction) (path : Path) (b : Block) (mode : Mode) (v : Value) :
    (block d path b v).run mode =
      (settle mode (b.convert d path v).findings).package mode (b.convert d path v).value :=
  Walk.Lists.run_eq (block_converts d path b v) (b.toldApart_convert d path v) mode

/-- In collect-all mode a conversion that is not broken off has the listed value. -/
theorem Convert.value_of_run [Host] {d : Direction} {path : Path} {b : Block} {v : Value}
    {o : Outcome (Option Value)} (h : (block d path b v).run .collectAll = .ok o) :
    o.value = some (b.convert d path v).value := by
  rw [run_block, Settlement.package] at h
  split at h
  · cases h
  · rw [← Except.ok.inj h, if_neg (by simp)]

/-- Converting a value comes to what counts of the findings of the conversion. -/
theorem Block.conversion_eq [Host] (S : Block) (d : Direction) (mode : Mode) (v : Value) :
    S.conversion d mode v = (S.convert d [] v).outcome mode := by
  rw [Block.conversion, Convert.run_block, Converted.outcome, Settlement.package]
  cases (settle mode (S.convert d [] v).findings).halted with
  | some f => rfl
  | none =>
    simp only [bind, Except.bind, pure, Except.pure, Outcome.map]
    split <;> rfl

/-- What breaks the walk of the grammar off is none of the violations that it reports. -/
theorem Grammar.toldApart_block (path : Path) (raw : Value) : ToldApart (Grammar.block path raw) := by
  intro c hhalt
  obtain ⟨w, -, -, hf⟩ := Grammar.halt_mem_block_iff.1 hhalt
  cases hf

theorem Check.run_block (raw : Value) (mode : Mode) :
    (block [] raw).run mode = (settle mode (Grammar.block [] raw)).package mode () :=
  (block_lists [] raw).run_eq (Grammar.toldApart_block [] raw) mode

/-- What a check comes to, by what counts of the findings: a schema without errors is typed. -/
def Settlement.checked [Host] (raw : Value) (s : Settlement) :
    Except Failure (Outcome (Option Block)) :=
  match s.halted with
  | some f => .error f
  | none =>
    if s.errors.isEmpty then do return ⟨some (← parseSchema raw), s.errors, s.warnings⟩
    else .ok ⟨none, s.errors, s.warnings⟩

/-- Checking a schema comes to what counts of the findings of the walk. -/
theorem checkSchema_eq [Host] (raw : Value) (mode : Mode) :
    checkSchema raw mode = (settle mode (Grammar.block [] raw)).checked raw := by
  rw [checkSchema, Check.run_block, Settlement.checked, Settlement.package]
  cases (settle mode (Grammar.block [] raw)).halted with
  | some f => rfl
  | none => rfl

end DocShape
