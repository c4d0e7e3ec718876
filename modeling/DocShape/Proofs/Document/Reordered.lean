import DocShape.Proofs.Conversion.Reordered
import DocShape.Proofs.Document.Failures
import DocShape.Proofs.Placing
import DocShape.Proofs.Schema.Placing

/-!
# The order of members

Neither the order of the members of a raw schema nor the order of the entries of a value decides what an
operation comes to, apart from the order in which things are told (`order_never_decides`). There is one
exception: in fail-fast mode the order decides whether a check meets an error first or a value that it has
to quote and cannot (`checkSchema_failFast_by_order`). A schema that is nested too deep to be typed is so
in every order; where this is found first is told with the failure, and depends on the order.
-/

namespace DocShape

variable {raw raw' : Value} {b c : Block} {v w : Value} {d : Direction}

/-- Checks that come to the same, but for the order of errors, of warnings and of the fields of maps. -/
structure Outcome.SameCheck (o p : Outcome (Option Block)) : Prop where
  value : Option.Rel Block.Permuted o.value p.value
  errors : o.errors.Perm p.errors
  warnings : o.warnings.Perm p.warnings

/-- Conversions that come to the same, but for the order of errors and of the entries of dictionaries, and
for the indices of keys. -/
structure Outcome.SameConversion (o p : Outcome Value) : Prop where
  value : o.value.Permuted p.value
  errors : (o.errors.map Complaint.unindexed).Perm (p.errors.map Complaint.unindexed)
  warnings : o.warnings.Perm p.warnings

/-- Checks with the same verdict and the same typed form, but for the order of the fields of maps. -/
structure Outcome.SameVerdict (o p : Outcome (Option Block)) : Prop where
  isOk : o.isOk = p.isOk
  value : Option.Rel Block.Permuted o.value p.value

/-- Checks that both end with an outcome, both fail over a value that cannot be written, or both over a
schema without a typed form. -/
inductive SameEnd (R : Outcome (Option Block) → Outcome (Option Block) → Prop) :
    Except Failure (Outcome (Option Block)) → Except Failure (Outcome (Option Block)) → Prop
  | outcome {o p : Outcome (Option Block)} (related : R o p) : SameEnd R (.ok o) (.ok p)
  | unwritable : SameEnd R (.error (.unwritable .tooManyDigits)) (.error (.unwritable .tooManyDigits))
  | untyped (fault fault' : TypeFault) :
    SameEnd R (.error (.complaint (.violation [] (.untyped fault))))
      (.error (.complaint (.violation [] (.untyped fault'))))

namespace Outcome

theorem SameCheck.isOk_eq {o p : Outcome (Option Block)} (h : o.SameCheck p) : o.isOk = p.isOk :=
  h.errors.isEmpty_eq

theorem SameConversion.isOk_eq {o p : Outcome Value} (h : o.SameConversion p) : o.isOk = p.isOk := by
  have hempty := h.errors.isEmpty_eq
  rwa [List.isEmpty_map, List.isEmpty_map] at hempty

end Outcome

/-! ## Checking -/

section

variable [Host]

theorem checkSchema_of_errors {mode : Mode}
    (hhalted : (settle mode (Grammar.block [] raw)).halted = none)
    (herrors : (settle mode (Grammar.block [] raw)).errors ≠ []) :
    checkSchema raw mode = .ok ⟨none, (settle mode (Grammar.block [] raw)).errors,
      (settle mode (Grammar.block [] raw)).warnings⟩ := by
  have hempty : ¬ (settle mode (Grammar.block [] raw)).errors.isEmpty = true := fun h =>
    herrors (List.isEmpty_iff.1 h)
  rw [checkSchema_eq, Settlement.checked, hhalted]
  exact if_neg hempty

theorem accepted_iff_collectAll (raw : Value) (mode : Mode) :
    (∃ o, checkSchema raw mode = .ok o ∧ o.isOk = true) ↔
      ∃ o, checkSchema raw .collectAll = .ok o ∧ o.isOk = true := by
  cases mode with
  | collectAll => exact Iff.rfl
  | failFast =>
    have hcut := cutAtFirst_checkSchema raw
    constructor
    · rintro ⟨o, ho, hok⟩
      rw [ho] at hcut
      generalize checkSchema raw .collectAll = full at hcut
      cases hcut with
      | uncut => exact ⟨_, rfl, rfl⟩
      | cut => cases hok
      | broken => cases hok
    · rintro ⟨o, ho, hok⟩
      obtain ⟨p, hp, hsame⟩ := hcut.returns ho
      exact ⟨p, hp, hsame.isOk.trans hok⟩

variable [LawfulHost]

/-- A schema that stands for a block comes to the same in another order, in either mode. -/
theorem sameEnd_of_typedAs (h : raw.TypedAs b) (h' : raw'.TypedAs c) (hbc : b.Permuted c)
    {R : Outcome (Option Block) → Outcome (Option Block) → Prop} {mode : Mode}
    (hR : R ⟨some b, [], b.advice []⟩ ⟨some c, [], c.advice []⟩) :
    SameEnd R (checkSchema raw mode) (checkSchema raw' mode) := by
  rcases le_or_gt b.depth Host.guard with hfits | hdeep
  · rw [checkSchema_of_typedAs h hfits, checkSchema_of_typedAs h' (hbc.depth_eq ▸ hfits)]
    exact .outcome hR
  · obtain ⟨fault, -, hcheck⟩ := exists_checkSchema_of_deep h hdeep
    obtain ⟨fault', -, hcheck'⟩ := exists_checkSchema_of_deep h' (hbc.depth_eq ▸ hdeep)
    rw [hcheck, hcheck']
    exact .untyped fault fault'

/-- Where no walk breaks off, a check ends alike on a schema with its members in another order, if the
outcomes are related both with and without errors. -/
theorem sameEnd_of_noHalt {R : Outcome (Option Block) → Outcome (Option Block) → Prop} {mode : Mode}
    (hraw : raw.Keyed) (h : raw.Reordered raw') (hend : NoHalt (Grammar.block [] raw))
    (htyped : ∀ b c, raw.TypedAs b → raw'.TypedAs c → b.Permuted c →
      R ⟨some b, [], b.advice []⟩ ⟨some c, [], c.advice []⟩)
    (hrefused : (settle mode (Grammar.block [] raw)).errors ≠ [] →
      (settle mode (Grammar.block [] raw')).errors ≠ [] →
      R ⟨none, (settle mode (Grammar.block [] raw)).errors,
          (settle mode (Grammar.block [] raw)).warnings⟩
        ⟨none, (settle mode (Grammar.block [] raw')).errors,
          (settle mode (Grammar.block [] raw')).warnings⟩) :
    SameEnd R (checkSchema raw mode) (checkSchema raw' mode) := by
  have hwalk := Grammar.perm_block hraw raw' [] h
  by_cases hadvice : OnlyAdvice (Grammar.block [] raw)
  · obtain ⟨b, hb⟩ := Value.exists_typedAs (Grammar.isSchema_of_onlyAdvice hadvice) hraw
    obtain ⟨c, hc, hbc⟩ := Value.typedUpToOrder hb hraw raw' h
    exact sameEnd_of_typedAs hb hc hbc (htyped b c hb hc hbc)
  · have hhalted : (settle mode (Grammar.block [] raw)).halted = none := halted_of_noHalt hend
    have hhalted' : (settle mode (Grammar.block [] raw')).halted = none :=
      halted_of_noHalt ((noHalt_perm hwalk).1 hend)
    have herrors : (settle mode (Grammar.block [] raw)).errors ≠ [] := fun hnil =>
      hadvice (onlyAdvice_of_settle hnil hhalted)
    have herrors' : (settle mode (Grammar.block [] raw')).errors ≠ [] := fun hnil =>
      hadvice fun f hf => onlyAdvice_of_settle hnil hhalted' f (hwalk.mem_iff.1 hf)
    rw [checkSchema_of_errors hhalted herrors, checkSchema_of_errors hhalted' herrors']
    exact .outcome (hrefused herrors herrors')

/-- In collect-all mode a check comes to the same on a schema with its members in another order. -/
theorem sameEnd_checkSchema_of_reordered (hraw : raw.Keyed) (h : raw.Reordered raw') :
    SameEnd Outcome.SameCheck (checkSchema raw .collectAll) (checkSchema raw' .collectAll) := by
  have hwalk := Grammar.perm_block hraw raw' [] h
  by_cases hend : NoHalt (Grammar.block [] raw)
  · obtain ⟨herrors, hwarnings⟩ := settle_perm hwalk hend
    refine sameEnd_of_noHalt hraw h hend (fun b c hb hc hbc => ?_) fun _ _ =>
      ⟨.none, herrors, hwarnings⟩
    rw [Grammar.block_of_typedAs hb, Grammar.block_of_typedAs hc, settle_map_warning,
      settle_map_warning] at hwarnings
    exact ⟨.some hbc, List.Perm.refl _, hwarnings⟩
  · -- a walk can only break off over a value that it quotes
    have hfails {v : Value} (hv : ¬ NoHalt (Grammar.block [] v)) :
        checkSchema v .collectAll = .error (.unwritable .tooManyDigits) := by
      obtain ⟨f, hf⟩ := Option.ne_none_iff_exists'.1 fun hnone => hv (halted_eq_none_iff.1 hnone)
      obtain ⟨w, -, -, rfl⟩ := Grammar.halt_mem_block_iff.1 (halt_mem_of_halted hf)
      exact checkSchema_of_halted hf
    rw [hfails hend, hfails fun h' => hend ((noHalt_perm hwalk).2 h')]
    exact .unwritable

theorem accepted_iff_of_reordered (hraw : raw.Keyed) (h : raw.Reordered raw') (mode : Mode) :
    (∃ o, checkSchema raw mode = .ok o ∧ o.isOk = true) ↔
      ∃ o, checkSchema raw' mode = .ok o ∧ o.isOk = true := by
  rw [accepted_iff_collectAll raw, accepted_iff_collectAll raw']
  have hsame := sameEnd_checkSchema_of_reordered hraw h
  generalize checkSchema raw .collectAll = x at hsame
  generalize checkSchema raw' .collectAll = y at hsame
  cases hsame with
  | unwritable => exact iff_of_false nofun nofun
  | untyped => exact iff_of_false nofun nofun
  | @outcome o p hop =>
    constructor
    · rintro ⟨_, ho, hok⟩
      obtain rfl := Except.ok.inj ho
      exact ⟨p, rfl, hop.isOk_eq ▸ hok⟩
    · rintro ⟨_, hp, hok⟩
      obtain rfl := Except.ok.inj hp
      exact ⟨o, rfl, hop.isOk_eq ▸ hok⟩

/-- Where every quoted value can be written, a check has the same verdict in either mode. -/
theorem sameEnd_of_quotes (hraw : raw.Keyed) (h : raw.Reordered raw')
    (hquotes : ∀ u, raw.Quotes u → u.ShortInts) (mode : Mode) :
    SameEnd Outcome.SameVerdict (checkSchema raw mode) (checkSchema raw' mode) ∧
      checkSchema raw mode ≠ .error (.unwritable .tooManyDigits) := by
  constructor
  · refine sameEnd_of_noHalt hraw h ((Grammar.noHalt_block_iff []).2 hquotes)
      (fun b c _ _ hbc => ⟨rfl, .some hbc⟩) fun herrors herrors' => ⟨?_, .none⟩
    simp only [Outcome.isOk, List.isEmpty_eq_false_iff.2 herrors, List.isEmpty_eq_false_iff.2 herrors']
  · intro hfails
    have hresult := checkResult hraw mode
    rw [hfails] at hresult
    cases hresult with
    | unwritable quoted long => exact long (hquotes _ quoted)

end

/-! ## Converting -/

/-- The same findings count alike, but for their order and the indices of keys. -/
theorem SameFindings.settle {fs gs : List Finding} (h : SameFindings fs gs) (hfs : NoHalt fs) :
    ((settle .collectAll fs).errors.map Complaint.unindexed).Perm
        ((settle .collectAll gs).errors.map Complaint.unindexed) ∧
      (settle .collectAll fs).warnings.Perm (settle .collectAll gs).warnings := by
  have hmapped := settle_perm h (noHalt_map_unindexed.2 hfs)
  simpa only [Finding.unindexed, settle_map, List.map_id] using hmapped

section

variable [Host]

/-- Where collect-all gives an outcome, it gives the same with members in another order. -/
theorem exists_conversion_of_permuted {o : Outcome Value} (hb : b.FieldsApart) (hbc : b.Permuted c)
    (h : v.Permuted w) (ho : b.conversion d .collectAll v = .ok o) :
    ∃ o', c.conversion d .collectAll w = .ok o' ∧ o.SameConversion o' := by
  have hfindings := Block.sameFindings_convert (d := d) hb hbc h []
  rw [Block.conversion_eq] at ho
  have hend := Converted.exists_outcome_iff.1 ⟨o, ho⟩
  obtain ⟨herrors, hwarnings⟩ := hfindings.settle hend
  rw [Converted.outcome_of_noHalt hend] at ho
  obtain rfl := Except.ok.inj ho
  exact ⟨_, (c.conversion_eq d .collectAll w).trans
    (Converted.outcome_of_noHalt (hfindings.noHalt_iff.1 hend)),
    Block.savesAlike hb c hbc v w h, herrors, hwarnings⟩

/-- There fail-fast gives outcomes with the same verdict, and with the same value. -/
theorem exists_failFast_of_permuted {o o' : Outcome Value}
    (ho : b.conversion d .collectAll v = .ok o) (ho' : c.conversion d .collectAll w = .ok o')
    (h : o.SameConversion o') :
    ∃ p p', b.conversion d .failFast v = .ok p ∧ c.conversion d .failFast w = .ok p' ∧
      p.isOk = o.isOk ∧ p'.isOk = o.isOk ∧ p.value.Permuted p'.value := by
  obtain ⟨p, hp, hcut⟩ := (cutAtFirst_conversion b d v).returns ho
  obtain ⟨p', hp', hcut'⟩ := (cutAtFirst_conversion c d w).returns ho'
  refine ⟨p, p', hp, hp', hcut.isOk, hcut'.isOk.trans h.isOk_eq.symm, ?_⟩
  rw [hcut.value, hcut'.value, ← h.isOk_eq]
  split
  · exact h.value
  · exact .same _

end

/-! ## The order decides nothing -/

/-- **The order of members decides nothing.** Let the members of a raw schema be put in another order:
those of any blocks, of the fields of any maps, of any bounds and lengths. In collect-all mode a check
comes to the same: the same errors and warnings, in some order, and the same typed form, but for the order
of fields; or no outcome, for the same reason. In either mode it accepts the one exactly if it accepts the
other. If every value that the walk quotes can be written, it comes in either mode to outcomes with the
same verdict and the same typed form, unless the schema is too deep to be typed, which it is in every
order.

Let a conversion come to its end in collect-all mode. If the entries of any dictionaries in the value, and
the fields of any maps in the block, are put in another order, it comes to its end with the same verdict,
the same value, but for the order of entries, and the same errors in some order, but for the indices of
keys. So it does in fail-fast mode, where it stops at some error. -/
theorem order_never_decides [Host] [LawfulHost] {raw raw' : Value} {b c : Block} {v w : Value} :
    (raw.Keyed → raw.Reordered raw' →
      SameEnd Outcome.SameCheck (checkSchema raw .collectAll) (checkSchema raw' .collectAll) ∧
      ∀ mode,
        ((∃ o, checkSchema raw mode = .ok o ∧ o.isOk = true) ↔
          ∃ o, checkSchema raw' mode = .ok o ∧ o.isOk = true) ∧
        ((∀ u, raw.Quotes u → u.ShortInts) →
          SameEnd Outcome.SameVerdict (checkSchema raw mode) (checkSchema raw' mode) ∧
            checkSchema raw mode ≠ .error (.unwritable .tooManyDigits))) ∧
    (b.FieldsApart → b.Permuted c → v.Permuted w → ∀ d o,
      b.conversion d .collectAll v = .ok o →
      (∃ o', c.conversion d .collectAll w = .ok o' ∧ o.isOk = o'.isOk ∧ o.SameConversion o') ∧
      ∃ p p', b.conversion d .failFast v = .ok p ∧ c.conversion d .failFast w = .ok p' ∧
        p.isOk = o.isOk ∧ p'.isOk = o.isOk ∧ p.value.Permuted p'.value) := by
  constructor
  · intro hraw h
    exact ⟨sameEnd_checkSchema_of_reordered hraw h, fun mode =>
      ⟨accepted_iff_of_reordered hraw h mode, fun hquotes => sameEnd_of_quotes hraw h hquotes mode⟩⟩
  · intro hb hbc h d o ho
    obtain ⟨o', ho', hsame⟩ := exists_conversion_of_permuted hb hbc h ho
    exact ⟨⟨o', ho', hsame.isOk_eq, hsame⟩, exists_failFast_of_permuted ho ho' hsame⟩

/-- A number above two, whose bound has some members. -/
def aboveTwoRaw (bound : Entries) : Value :=
  .dict [(.str "type", .str "number"), (.str "minimum", .dict bound)]

/-- The members of a bound that excludes two. -/
def twoExcluded : Entries := [(.str "value", .int 2), (.str "exclusive", .bool true)]

/-- A map with a number above two and a flag, as a caller gives it. -/
def leverRaw : Value :=
  .dict [(.str "type", .str "map"), (.str "fields", .dict [
    (.str "a", aboveTwoRaw twoExcluded), (.str "b", .dict [(.str "type", .str "flag")])])]

/-- The same map with the members of all but its number in reverse order. -/
def leverRawReversed : Value :=
  .dict [(.str "fields", .dict [(.str "b", .dict [(.str "type", .str "flag")]),
    (.str "a", aboveTwoRaw twoExcluded.reverse)]), (.str "type", .str "map")]

/-- The block for a map with a number above two and a flag, with the fields in some order. -/
def leverSchema (order : List (Text × Block) → List (Text × Block)) : Block :=
  let plain : Header := ⟨.absent, .absent, none⟩
  .map plain (order [("a", .number plain none (.given (.bound ⟨.int 2, some true⟩)) .absent),
    ("b", .flag plain)])

/-- The members of a value for it. -/
def leverEntries : Entries := [(.str "a", .int 5), (.str "b", .bool true)]

theorem keyed_leverRaw : leverRaw.Keyed := by
  simp [leverRaw, aboveTwoRaw, twoExcluded, Entries.Distinct]
  decide

theorem leverRaw_reordered : leverRaw.Reordered leverRawReversed := by
  have hnumber : (aboveTwoRaw twoExcluded).Reordered (aboveTwoRaw twoExcluded.reverse) := by
    have hbound := Value.ReorderedUnder.bound (.inl rfl) (List.reverse_perm twoExcluded).symm
    refine .block ?_ ?_ (.refl _)
    · rfl
    · simpa using ⟨.same _ _, hbound⟩
  have hfields : Value.ReorderedUnder (.str "fields")
      (.dict [(.str "a", aboveTwoRaw twoExcluded), (.str "b", .dict [(.str "type", .str "flag")])])
      (.dict [(.str "b", .dict [(.str "type", .str "flag")]),
        (.str "a", aboveTwoRaw twoExcluded.reverse)]) := by
    refine .fields ?_ ?_ (.swap _ _ _)
    · rfl
    · simpa using ⟨hnumber, .same _⟩
  refine .block ?_ ?_ (.swap _ _ _)
  · rfl
  · simpa using ⟨.same _ _, hfields⟩

theorem leverSchema_permuted : (leverSchema id).Permuted (leverSchema List.reverse) := by
  refine .map rfl ?_ (List.reverse_perm _).symm
  simpa using ⟨.same _, .same _⟩

theorem leverEntries_permuted :
    (Value.dict leverEntries).Permuted (.dict leverEntries.reverse) := by
  refine .dict rfl ?_ (List.reverse_perm _).symm
  simpa [leverEntries] using ⟨.same _, .same _⟩

section

open Reference

/-- A schema and a value, and the same with their members in reverse order: both schemas are accepted in
fail-fast mode, and both values are decoded. -/
theorem order_never_decides_lever :
    leverRaw.Keyed ∧ leverRaw.Reordered leverRawReversed ∧
    (∀ u, leverRaw.Quotes u → u.ShortInts) ∧
    (∃ o', checkSchema leverRawReversed .failFast = .ok o' ∧ o'.isOk = true) ∧
    (leverSchema id).FieldsApart ∧ (leverSchema id).Permuted (leverSchema List.reverse) ∧
    (Value.dict leverEntries).Permuted (.dict leverEntries.reverse) ∧
    ∃ o', (leverSchema List.reverse).conversion .decoding .collectAll (.dict leverEntries.reverse) =
      .ok o' ∧ o'.isOk = true := by
  obtain ⟨hcheck, hconvert⟩ := @order_never_decides _ _ leverRaw leverRawReversed
    (leverSchema id) (leverSchema List.reverse) (.dict leverEntries) (.dict leverEntries.reverse)
  have hparse : parseSchema leverRaw = .ok (leverSchema id) := rfl
  have hwalk : settle .failFast (Grammar.block [] leverRaw) = ⟨[], [], none⟩ := by decide +kernel
  have hshort : ∀ u, leverRaw.Quotes u → u.ShortInts :=
    (Grammar.noHalt_block_iff []).1 (halted_eq_none_iff.1
      (by decide +kernel : (settle .collectAll (Grammar.block [] leverRaw)).halted = none))
  obtain ⟨-, hmode⟩ := hcheck keyed_leverRaw leverRaw_reordered
  obtain ⟨-, hresult⟩ := hmode .failFast
  obtain ⟨hsame, -⟩ := hresult hshort
  have haccepted : ∃ o', checkSchema leverRawReversed .failFast = .ok o' ∧ o'.isOk = true := by
    rw [checkSchema_of_walk hparse hwalk] at hsame
    generalize checkSchema leverRawReversed .failFast = reversed at hsame
    cases hsame with
    | outcome related => exact ⟨_, rfl, related.isOk.symm⟩
  have hapart := fieldsApart_of_parseSchema hparse
  obtain ⟨⟨o', ho', hok, -⟩, -⟩ := hconvert hapart leverSchema_permuted leverEntries_permuted
    .decoding ⟨.dict leverEntries, [], []⟩ rfl
  exact ⟨keyed_leverRaw, leverRaw_reordered, hshort, haccepted, hapart,
    leverSchema_permuted, leverEntries_permuted, o', ho', hok.symm⟩

end

/-! ## The exception -/

/-- A field with a value that cannot be quoted. -/
def unquotableField : Value × Value := (.str "a", powerRaw 4300)

/-- A field of no known kind. -/
def unknownField : Value × Value := (.str "b", .dict [(.str "type", .str "other")])

/-- A map of some fields, as a caller gives it. -/
def mapRaw (fields : Entries) : Value :=
  .dict [(.str "type", .str "map"), (.str "fields", .dict fields)]

theorem mapRaw_swap (e f : Value × Value) : (mapRaw [e, f]).Reordered (mapRaw [f, e]) := by
  have hfields : Value.ReorderedUnder (.str "fields") (.dict [e, f]) (.dict [f, e]) := by
    refine .fields rfl ?_ (.swap f e [])
    simpa using ⟨.same _, .same _⟩
  refine .block ?_ ?_ (.refl _)
  · rfl
  · simpa using ⟨.same _ _, hfields⟩

theorem block_mapRaw (e : Value × Value) (fields : Entries) :
    Grammar.block [] (mapRaw (e :: fields)) = Grammar.fieldBlocks [] (e :: fields) := by
  have hwalk : Grammar.block [] (mapRaw (e :: fields)) =
      [] ++ Grammar.fieldBlocks [] (e :: fields) ++ [] := rfl
  rw [hwalk, List.nil_append, List.append_nil]

theorem fieldBlocks_unquotableField (fields : Entries) :
    Grammar.fieldBlocks [] (unquotableField :: fields) =
      .halt (.unwritable .tooManyDigits) :: Grammar.fieldBlocks [] fields := by
  have hfield : Grammar.fieldBlocks [] (unquotableField :: fields) =
      Grammar.block [.field "a"] (powerRaw 4300) ++ Grammar.fieldBlocks [] fields := rfl
  rw [hfield, Grammar.block_eq_map_under, block_powerRaw (by decide)]
  rfl

section

open Reference

/-- In fail-fast mode the order of fields decides whether a check meets the wrong kind, and gives a result
with this error, or meets the value that it has to quote and cannot. -/
theorem checkSchema_failFast_by_order :
    (mapRaw [unknownField, unquotableField]).Keyed ∧
    (mapRaw [unknownField, unquotableField]).Reordered (mapRaw [unquotableField, unknownField]) ∧
    (∃ o, checkSchema (mapRaw [unknownField, unquotableField]) .failFast = .ok o ∧ o.isOk = false) ∧
    checkSchema (mapRaw [unquotableField, unknownField]) .failFast =
      .error (.unwritable .tooManyDigits) ∧
    (Failure.unwritable .tooManyDigits).className = "ValueError" := by
  have hkeyed : (mapRaw [unknownField, unquotableField]).Keyed := by
    simp [mapRaw, unknownField, unquotableField, keyed_powerRaw, Entries.Distinct]
    decide
  refine ⟨hkeyed, mapRaw_swap _ _, ?_, ?_, rfl⟩
  · have hfirst : Grammar.block [] (mapRaw [unknownField, unquotableField]) =
        .violation [.field "b"] .unknownKind :: Grammar.fieldBlocks [] [unquotableField] := by
      rw [block_mapRaw]
      rfl
    have hsettle : settle .failFast (Grammar.block [] (mapRaw [unknownField, unquotableField])) =
        ⟨[.violation [.field "b"] .unknownKind], [], none⟩ := by
      rw [hfirst]
      rfl
    refine ⟨_, checkSchema_of_errors (by rw [hsettle]) (by rw [hsettle]; exact List.cons_ne_nil _ _), ?_⟩
    simp only [hsettle]
    rfl
  · refine checkSchema_of_halted ?_
    rw [block_mapRaw, fieldBlocks_unquotableField]
    rfl

end

end DocShape
