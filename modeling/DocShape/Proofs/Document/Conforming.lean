import DocShape.Proofs.Conversion.Conforming
import DocShape.Proofs.Document.Checking
import DocShape.Proofs.Document.RoundTrip

/-!
# Conversion under checked schemas

Along a checked schema, with short integers and good patterns, a conversion comes to its end. It is
free of errors exactly when the value conforms, and then yields what is to become of the value
(`convert_accepts_iff`).
-/

namespace DocShape

variable {d : Direction} {S : Block} {v : Value}

/-- A walk that does not break off comes to its value, and has errors if it has findings. -/
theorem conversion_of_noHalt [Host] (hfree : NoHalt (S.convert d [] v).findings) :
    ∃ o, S.conversion d .collectAll v = .ok o ∧ o.value = (S.convert d [] v).value ∧
      (o.isOk = true ↔ (S.convert d [] v).findings = []) := by
  have hhalted : (settle .collectAll (S.convert d [] v).findings).halted = none :=
    halted_of_noHalt hfree
  refine ⟨_, (S.conversion_eq d .collectAll v).trans (Converted.outcome_of_noHalt hfree), rfl,
    fun hok => ?_, fun hclean => ?_⟩
  · refine eq_nil_of_settle (fun w hw => ?_) (List.isEmpty_iff.1 hok) hhalted
    exact (S.ofWalk_convert d [] v _ hw).not_warning w rfl
  · rw [Outcome.isOk, hclean]
    rfl

/-- Scores by number, a grade, and a note that may be missing. -/
def scoresSchema : Block :=
  let plain : Header := ⟨.absent, .absent, none⟩
  let score := Block.number plain (some false) (.given (.bound ⟨.int 0, some true⟩))
    (.given (.bare (.int 10)))
  .map plain [
    ("scores", .object plain .integer
      (.array plain score (.given (.range ⟨.absent, .given (.int 2)⟩))) .absent),
    ("grade", .string plain (.given (.exactly (.int 2))) (.given "^a")),
    ("note", .string ⟨.absent, .absent, some true⟩ .absent .absent)]

/-- The scores under one number, and a grade. -/
def sevenScores : Value :=
  .dict [(.str "grade", .str "ab"), (.str "scores", .dict [(.str "7", .list [.int 10, .int 1])])]

/-- The same with an integer for the number, and with null for the note. -/
def sevenScoresDecoded : Value :=
  .dict [(.str "grade", .str "ab"), (.str "scores", .dict [(.int 7, .list [.int 10, .int 1])]),
    (.str "note", .null)]

theorem keyed_dump_scoresSchema : scoresSchema.dump.Keyed := by
  simp [scoresSchema, Block.dump, Block.raw, Block.rawFields, Header.raw, Extent.setting,
    Extent.truth, Limit.raw, Bound.raw, LengthRule.raw, Value.ofNumber, Entries.Distinct]
  decide

theorem shortInts_dump_scoresSchema : scoresSchema.dump.ShortInts := by
  simp [scoresSchema, Block.dump, Block.raw, Block.rawFields, Header.raw, Extent.setting,
    Extent.truth, Limit.raw, Bound.raw, LengthRule.raw, Value.ofNumber]
  decide

open Reference in
theorem isChecked_scoresSchema : scoresSchema.IsChecked := by
  have hwalk : settle .collectAll (Grammar.block [] scoresSchema.dump) = ⟨[], [], none⟩ := by
    decide +kernel
  exact ⟨_, _, _, keyed_dump_scoresSchema,
    checkSchema_of_walk (rfl : parseSchema scoresSchema.dump = .ok scoresSchema) hwalk, rfl⟩

/-- **Conversion accepts exactly what conforms.** Let the schema be checked, the integers of schema and
value, and the integer keys that are met, be within the digit limit, and the patterns that are met be
usable. Then the conversion of the value, in either direction, comes to its end. It reports no error
exactly when the value conforms, and then it yields what is to become of the value. -/
theorem convert_accepts_iff [Host] [LawfulHost] (hS : S.IsChecked) (hints : S.dump.ShortInts)
    (hv : v.ShortInts)
    (hkeys : S.KeysShort d v) (hpatterns : S.PatternsUsable d v) :
    ∃ o, S.conversion d .collectAll v = .ok o ∧
      (o.isOk = true ↔ ∃ r, S.Conforms d v r) ∧ ∀ r, S.Conforms d v r → o.value = r := by
  obtain ⟨raw, hraw⟩ := hS.exists_typedAs
  have hmeasured := Value.measured_of_typedAs hraw
  have hfree : NoHalt (S.convert d [] v).findings :=
    Block.noHalt_convert hmeasured hints hv hkeys hpatterns
  obtain ⟨o, houtcome, hvalue, hok⟩ := conversion_of_noHalt hfree
  refine ⟨o, houtcome, hok.trans ⟨fun hclean => ?_, ?_⟩, fun r hr => ?_⟩
  · exact ⟨_, Block.conforms_of_clean hmeasured [] v hclean⟩
  · rintro ⟨r, hr⟩
    exact congrArg Converted.findings (Block.convert_of_conforms hmeasured hr hfree)
  · exact hvalue.trans (congrArg Converted.value (Block.convert_of_conforms hmeasured hr hfree))

section

open Reference

/-- A document that conforms, since it is decoded without errors. -/
theorem convert_accepts_scores :
    scoresSchema.IsChecked ∧ scoresSchema.KeysShort .decoding sevenScores ∧
      scoresSchema.PatternsUsable .decoding sevenScores ∧
      scoresSchema.Conforms .decoding sevenScores sevenScoresDecoded := by
  have hrun : scoresSchema.convert .decoding [] sevenScores = ⟨sevenScoresDecoded, []⟩ := rfl
  have hv : sevenScores.ShortInts := by
    simp [sevenScores]
    decide
  obtain ⟨raw, hraw⟩ := isChecked_scoresSchema.exists_typedAs
  have hmeasured := Value.measured_of_typedAs hraw
  have hfree : NoHalt (scoresSchema.convert .decoding [] sevenScores).findings := by
    rw [hrun]
    exact noHalt_nil
  have hkeys := Block.keysShort_of_noHalt hmeasured hfree
  have hpatterns := Block.patternsUsable_of_noHalt hmeasured hfree
  obtain ⟨o, ho, hok, hvalue⟩ := convert_accepts_iff isChecked_scoresSchema
    shortInts_dump_scoresSchema hv hkeys hpatterns
  rw [conversion_of_clean .collectAll hrun] at ho
  obtain rfl := Except.ok.inj ho
  obtain ⟨r, hr⟩ := hok.1 rfl
  obtain rfl : sevenScoresDecoded = r := hvalue r hr
  exact ⟨isChecked_scoresSchema, hkeys, hpatterns, hr⟩

end

end DocShape
