import DocShape.Proofs.Conversion.Looser
import DocShape.Proofs.Document.Conforming
import DocShape.Proofs.Document.RoundTrip

/-!
# Documents under looser schemas

A schema that is loosened at any number of places, at any depth, takes every document and every value
that it took before, and makes the same of them (`looser_accepts`).
-/

namespace DocShape

section

variable [Host] {S S' : Block} {mode : Mode}

theorem decodeDocument_of_keeps {document : Value} {o : Outcome Value}
    (hkeeps : S.Keeps .decoding S') (h : decodeDocument document S mode = .ok o)
    (hok : o.isOk = true) (mode' : Mode) : decodeDocument document S' mode' = .ok o := by
  obtain ⟨w, hw, h⟩ := Except.bind_eq_ok.1 h
  obtain ⟨hclean, hnone⟩ := convert_of_isOk h hok
  have hsame : S'.convert .decoding [] w = ⟨o.value, []⟩ := by
    rw [hkeeps [] w (congrArg Converted.findings hclean), hclean]
  rw [decodeDocument, hw, hnone]
  exact conversion_of_clean mode' hsame

theorem encodeDocument_of_keeps {v : Value} {o : Outcome (Option Text)}
    (hkeeps : S.Keeps .encoding S') (h : encodeDocument v S mode = .ok o) (hok : o.isOk = true)
    (mode' : Mode) : encodeDocument v S' mode' = .ok o := by
  obtain ⟨u, t, hclean, ht, rfl⟩ := encodeDocument_of_isOk h hok
  have hsame : S'.convert .encoding [] v = ⟨u, []⟩ := by
    rw [hkeeps [] v (congrArg Converted.findings hclean), hclean]
  exact encodeDocument_of_clean mode' hsame ht

/-- **A looser schema takes what was taken.** Let two schemas be checked, the second with short integers
and such as comes of the first by any number of changes that loosen it, at any depth. Then a document that
is decoded without errors along the first, in either mode, is decoded along the second, in either mode, to
the same value without errors, and a value that is encoded without errors along the first is encoded along
the second to the same text. -/
theorem looser_accepts [LawfulHost] (hS : S.IsChecked) (hS' : S'.IsChecked) (hints : S'.dump.ShortInts)
    (hlooser : Relation.ReflTransGen Block.EasesWithin S S') :
    (∀ document mode o, decodeDocument document S mode = .ok o → o.isOk = true →
      ∀ mode', decodeDocument document S' mode' = .ok o) ∧
    ∀ v mode o, encodeDocument v S mode = .ok o → o.isOk = true →
      ∀ mode', encodeDocument v S' mode' = .ok o := by
  obtain ⟨raw, hraw⟩ := hS.exists_typedAs
  obtain ⟨raw', hraw'⟩ := hS'.exists_typedAs
  have hkeeps (d : Direction) : S.Keeps d S' :=
    Block.keeps_of_looser (Block.looser_of_eases hlooser) (Value.measured_of_typedAs hraw)
      ⟨Value.measured_of_typedAs hraw', hints⟩
  exact ⟨fun document mode o h hok => decodeDocument_of_keeps (hkeeps .decoding) h hok,
    fun v mode o h hok => encodeDocument_of_keeps (hkeeps .encoding) h hok⟩

end

/-- A schema of scores by number, of a grade, and of a note that may be missing. -/
def scoresBy (score : Block) (count : LengthRule) (grade : Block) : Block :=
  let plain : Header := ⟨.absent, .absent, none⟩
  .map plain [("scores", .object plain .integer (.array plain score (.given count)) .absent),
    ("grade", grade), ("note", .string ⟨.absent, .absent, some true⟩ .absent .absent)]

/-- The schema of scores loosened: a score has another name, may be a fraction or zero and has no upper
limit, there may be a third under a number, and a grade may be shorter or longer and of any characters. -/
def scoresSchemaLoosened : Block :=
  scoresBy (.number ⟨.given "Score", .absent, none⟩ (some true)
      (.given (.bound ⟨.int 0, some false⟩)) .absent)
    (.range ⟨.absent, .given (.int 3)⟩)
    (.string ⟨.absent, .absent, none⟩ (.given (.range ⟨.given (.int 1), .given (.int 3)⟩)) .absent)

section

variable {score score' grade grade' : Block} {count count' : LengthRule}

theorem scoresBy_score (h : score.Eases score') :
    (scoresBy score count grade).EasesWithin (scoresBy score' count grade) :=
  @Block.EasesWithin.field _ [] _ _ _ _ (.values (.items (.here h)))

theorem scoresBy_count (h : count.Within count') :
    (scoresBy score count grade).EasesWithin (scoresBy score count' grade) :=
  @Block.EasesWithin.field _ [] _ _ _ _ (.values (.here (.array (.replaced h))))

theorem scoresBy_grade (h : grade.Eases grade') :
    (scoresBy score count grade).EasesWithin (scoresBy score count grade') :=
  @Block.EasesWithin.field _ [_] _ _ _ _ (.here h)

end

theorem scoresSchema_eases :
    Relation.ReflTransGen Block.EasesWithin scoresSchema scoresSchemaLoosened := by
  have hfloor (k : ℤ) : ⌊(Number.int k).exact⌋ = k := Int.floor_intCast k
  have hthree {k' : ℤ} (hk' : some ⌊(Number.int 3).exact⌋ = some k') : 2 ≤ k' := by
    rw [hfloor] at hk'
    rw [← Option.some.inj hk']
    omega
  have hcount : (LengthRule.range ⟨.absent, .given (.int 2)⟩).Within
      (.range ⟨.absent, .given (.int 3)⟩) :=
    ⟨le_rfl, fun k' hk' => ⟨2, congrArg some (hfloor 2), hthree hk'⟩⟩
  have hgrade : (LengthRule.exactly (.int 2)).Within
      (.range ⟨.given (.int 1), .given (.int 3)⟩) := by
    refine ⟨?_, fun k' hk' => ⟨2, congrArg some (hfloor 2), hthree hk'⟩⟩
    show ⌊(Number.int 1).exact⌋ ≤ ⌊(Number.int 2).exact⌋
    rw [hfloor, hfloor]
    omega
  have hzero : (Limit.bound ⟨.int 0, some true⟩).Eases (· < ·) (.bound ⟨.int 0, some false⟩) :=
    .included rfl rfl
  apply Relation.ReflTransGen.head (scoresBy_score (.header (.described _ (.given "Score") .absent)))
  apply Relation.ReflTransGen.head (scoresBy_score (@Block.Eases.decimal _ _ (some true) _ _ rfl))
  apply Relation.ReflTransGen.head (scoresBy_score (.minimum (.replaced hzero)))
  apply Relation.ReflTransGen.head (scoresBy_score (.maximum (@Setting.Eases.removed _ _ _ .absent rfl)))
  apply Relation.ReflTransGen.head (scoresBy_count hcount)
  apply Relation.ReflTransGen.head (scoresBy_grade (.text (.replaced hgrade)))
  exact .single (scoresBy_grade (.pattern rfl))

open Reference in
theorem isChecked_scoresSchemaLoosened : scoresSchemaLoosened.IsChecked := by
  have hkeyed : scoresSchemaLoosened.dump.Keyed := by
    simp [scoresSchemaLoosened, scoresBy, Block.dump, Block.raw, Block.rawFields, Header.raw,
      Extent.setting, Extent.truth, Limit.raw, Bound.raw, LengthRule.raw, Value.ofNumber,
      Entries.Distinct]
    decide
  have hwalk : settle .collectAll (Grammar.block [] scoresSchemaLoosened.dump) = ⟨[], [], none⟩ := by
    decide +kernel
  exact ⟨_, _, _, hkeyed,
    checkSchema_of_walk (rfl : parseSchema scoresSchemaLoosened.dump = .ok scoresSchemaLoosened) hwalk,
    rfl⟩

theorem shortInts_dump_scoresSchemaLoosened : scoresSchemaLoosened.dump.ShortInts := by
  simp [scoresSchemaLoosened, scoresBy, Block.dump, Block.raw, Block.rawFields, Header.raw,
    Extent.setting, Extent.truth, Limit.raw, Bound.raw, LengthRule.raw, Value.ofNumber]
  decide

/-- The text of the scores under one number. -/
def sevenScoresText : Text :=
  "\x7b\"grade\":\"ab\",\"scores\":\x7b\"7\":[10,1]\x7d,\"note\":null\x7d"

section

open Reference

/-- The scores under one number are taken by the loosened schema as they are by the schema. -/
theorem looser_accepts_scores :
    scoresSchema.IsChecked ∧ scoresSchemaLoosened.IsChecked ∧
    scoresSchemaLoosened.dump.ShortInts ∧
    Relation.ReflTransGen Block.EasesWithin scoresSchema scoresSchemaLoosened ∧
    decodeDocument (.str sevenScoresText) scoresSchemaLoosened .collectAll =
      .ok ⟨sevenScoresDecoded, [], []⟩ ∧
    encodeDocument sevenScoresDecoded scoresSchemaLoosened .collectAll =
      .ok ⟨some sevenScoresText, [], []⟩ := by
  have hread : Json.read .strict Host.nesting sevenScoresText = .ok sevenScoresDecoded.spelled := by cbv
  have hdecoded := decodeDocument_of_clean .failFast hread
    (rfl : scoresSchema.convert .decoding [] _ = ⟨sevenScoresDecoded, []⟩)
  have hwrite : Json.write (.compact Host.nesting) sevenScoresDecoded = .ok sevenScoresText := by cbv
  have hencoded := encodeDocument_of_clean .failFast
    (rfl : scoresSchema.convert .encoding [] sevenScoresDecoded = ⟨_, []⟩) hwrite
  obtain ⟨hdecode, hencode⟩ := looser_accepts isChecked_scoresSchema isChecked_scoresSchemaLoosened
    shortInts_dump_scoresSchemaLoosened scoresSchema_eases
  exact ⟨isChecked_scoresSchema, isChecked_scoresSchemaLoosened, shortInts_dump_scoresSchemaLoosened,
    scoresSchema_eases, hdecode _ _ _ hdecoded rfl .collectAll, hencode _ _ _ hencoded rfl .collectAll⟩

end

end DocShape
