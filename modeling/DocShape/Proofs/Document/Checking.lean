import DocShape.Proofs.Document.Modes
import DocShape.Proofs.Reference
import DocShape.Proofs.Schema.Advice
import DocShape.Proofs.Schema.Arranged
import DocShape.Proofs.Schema.Room

/-!
# Checking schemas

What a check comes to is one of four things (`CheckResult`). It accepts a well-formed schema, and gives
the block that the schema stands for; it fails on a well-formed schema that stands for a deeper block
than the host types; it refuses a schema that is not well-formed; or it fails over a value that it
quotes and that holds an integer beyond the digit limit. From it follow what a check accepts
(`checkSchema_accepts_iff`), what checking the typed form again comes to (`recheck_of_accepted`), and
how a check fails (`checkSchema_fails_only`).
-/

namespace DocShape

section

variable {raw : Value} {b : Block}

/-- Only well-formed schemas stand for blocks. -/
theorem Value.TypedAs.isSchema (h : raw.TypedAs b) : raw.IsSchema := by
  have hadvice : OnlyAdvice (Grammar.block [] raw) := by
    rw [Grammar.block_of_typedAs h]
    exact fun f hf => (List.mem_map.1 hf).imp fun w hw => hw.2.symm
  exact Grammar.isSchema_of_onlyAdvice hadvice

/-- The walk of a schema that stands for a block is not broken off. -/
theorem Value.TypedAs.noHalt (h : raw.TypedAs b) : NoHalt (Grammar.block [] raw) := by
  rw [Grammar.block_of_typedAs h]
  intro f hf
  obtain ⟨w, -, hw⟩ := List.mem_map.1 hf
  cases hw

end

section

variable [Host] {mode : Mode} {raw : Value}

theorem checkSchema_of_halted {f : Failure}
    (h : (settle mode (Grammar.block [] raw)).halted = some f) : checkSchema raw mode = .error f := by
  rw [checkSchema_eq, Settlement.checked, h]

/-- What the walk of the grammar finds only advice on is accepted with that advice, if it is typed. -/
theorem checkSchema_of_walk {b : Block} {ws : List Warning} (hparse : parseSchema raw = .ok b)
    (hwalk : settle mode (Grammar.block [] raw) = ⟨[], ws, none⟩) :
    checkSchema raw mode = .ok ⟨some b, [], ws⟩ := by
  rw [checkSchema_eq, hwalk, Settlement.checked, hparse]
  rfl

/-- A schema in which there is nothing but advice on a block comes to its typed form. -/
theorem checkSchema_of_advice {b : Block} (h : raw.TypedAs b) (mode : Mode) :
    checkSchema raw mode = (parseSchema raw).map fun c => ⟨some c, [], b.advice []⟩ := by
  rw [checkSchema_eq, Grammar.block_of_typedAs h, settle_map_warning]
  rfl

section

variable [LawfulHost] {b : Block}

/-- A schema that stands for a block within the guard is accepted with the advice that the block
deserves. -/
theorem checkSchema_of_typedAs (h : raw.TypedAs b) (hdepth : b.depth ≤ Host.guard) (mode : Mode) :
    checkSchema raw mode = .ok ⟨some b, [], b.advice []⟩ := by
  rw [checkSchema_of_advice h, parseSchema_of_typedAs h hdepth]
  rfl

/-- A check fails on a schema that stands for a deeper block, in either mode alike. -/
theorem exists_checkSchema_of_deep (h : raw.TypedAs b) (hdepth : Host.guard < b.depth) :
    ∃ fault, parseSchema raw = .error (.complaint (.violation [] (.untyped fault))) ∧
      ∀ mode, checkSchema raw mode = .error (.complaint (.violation [] (.untyped fault))) := by
  obtain ⟨fault, hparse⟩ := exists_parseSchema_of_deep h hdepth
  refine ⟨fault, hparse, fun mode => ?_⟩
  rw [checkSchema_of_advice h, hparse]
  rfl

end

/-- What a check of a schema comes to in a mode. -/
inductive CheckResult (raw : Value) (mode : Mode) : Except Failure (Outcome (Option Block)) → Prop
  | typed {b : Block} (form : raw.TypedAs b) (fits : b.depth ≤ Host.guard) :
    CheckResult raw mode (.ok ⟨some b, [], b.advice []⟩)
  | deep {b : Block} {fault : TypeFault} (form : raw.TypedAs b) (deep : Host.guard < b.depth) :
    CheckResult raw mode (.error (.complaint (.violation [] (.untyped fault))))
  | refused {c : Complaint} {cs : List Complaint} {ws : List Warning} (refused : ¬ raw.IsSchema)
    (ends : (settle mode (Grammar.block [] raw)).halted = none) :
    CheckResult raw mode (.ok ⟨none, c :: cs, ws⟩)
  | unwritable {w : Value} (quoted : raw.Quotes w) (long : ¬ w.ShortInts)
    (breaks : (settle mode (Grammar.block [] raw)).halted ≠ none) :
    CheckResult raw mode (.error (.unwritable .tooManyDigits))

theorem checkResult [LawfulHost] (hraw : raw.Keyed) (mode : Mode) :
    CheckResult raw mode (checkSchema raw mode) := by
  cases hhalted : (settle mode (Grammar.block [] raw)).halted with
  | some f =>
    rw [checkSchema_of_halted hhalted]
    obtain ⟨w, hquotes, hlong, rfl⟩ := Grammar.halt_mem_block_iff.1 (halt_mem_of_halted hhalted)
    exact .unwritable hquotes hlong (by simp [hhalted])
  | none =>
    cases herrors : (settle mode (Grammar.block [] raw)).errors with
    | nil =>
      obtain ⟨b, hb⟩ := Value.exists_typedAs
        (Grammar.isSchema_of_onlyAdvice (onlyAdvice_of_settle herrors hhalted)) hraw
      rcases le_or_gt b.depth Host.guard with hfits | hdeep
      · rw [checkSchema_of_typedAs hb hfits]
        exact .typed hb hfits
      · obtain ⟨fault, -, hcheck⟩ := exists_checkSchema_of_deep hb hdeep
        rw [hcheck]
        exact .deep hb hdeep
    | cons c cs =>
      have hrefused : ¬ raw.IsSchema := fun hschema => by
        obtain ⟨b, hb⟩ := Value.exists_typedAs hschema hraw
        rw [Grammar.block_of_typedAs hb, settle_map_warning] at herrors
        cases herrors
      rw [checkSchema_eq, Settlement.checked, hhalted, herrors]
      exact .refused hrefused hhalted

end

/-! ## Acceptance -/

/-- One half. -/
def half : Binary64 := .finite false ⟨Nat.pow 2 1073, by decide +kernel⟩

/-- A tuple with one text, whose length is bounded by a fraction. -/
def halvesRaw : Value :=
  .dict [(.str "items", .tuple
      [.dict [(.str "length", .dict [(.str "maximum", .int 3), (.str "minimum", .float half)]),
        (.str "type", .str "string")]]),
    (.str "type", .str "tuple")]

/-- The tuple with one text, typed. -/
def halvesBlock : Block :=
  let plain : Header := ⟨.absent, .absent, none⟩
  .tuple plain [.string plain (.given (.range ⟨.given (.float half), .given (.int 3)⟩)) .absent]

/-- The advice against the fraction. -/
def halvesAdvice : List Warning :=
  [⟨[.position 0, .property "length", .property "minimum"], .fractionalLength⟩]

theorem keyed_halvesRaw : halvesRaw.Keyed := by
  simp [halvesRaw, Entries.Distinct]
  decide

theorem shortInts_halvesRaw : halvesRaw.ShortInts := by
  simp [halvesRaw]
  decide

section

variable [Host] [LawfulHost] {mode : Mode} {raw : Value}

/-- **The grammar of schemas.** Where a check has a result, in either mode, it accepts exactly the
well-formed schemas. It has one for every schema with short integers, but for those that stand for a
block deeper than the host types; on these it fails with what the host finds. -/
theorem checkSchema_accepts_iff (hraw : raw.Keyed) (hints : raw.ShortInts) (mode : Mode) :
    (∀ o, checkSchema raw mode = .ok o → (o.isOk = true ↔ raw.IsSchema)) ∧
      ((∃ o, checkSchema raw mode = .ok o) ↔ ∀ b, raw.TypedAs b → b.depth ≤ Host.guard) ∧
      ∀ f, checkSchema raw mode = .error f →
        raw.IsSchema ∧ ∃ fault, f = .complaint (.violation [] (.untyped fault)) := by
  have hresult := checkResult hraw mode
  generalize checkSchema raw mode = result at hresult
  cases hresult with
  | typed form fits =>
    refine ⟨fun o ho => ?_, iff_of_true ⟨_, rfl⟩ fun c hc => form.unique hc ▸ fits, nofun⟩
    rw [← Except.ok.inj ho]
    exact iff_of_true rfl form.isSchema
  | deep form deep =>
    refine ⟨nofun, iff_of_false nofun fun hfits => absurd (hfits _ form) deep.not_ge, ?_⟩
    intro f hf
    exact ⟨form.isSchema, _, (Except.error.inj hf).symm⟩
  | refused refused _ =>
    refine ⟨fun o ho => ?_, iff_of_true ⟨_, rfl⟩ fun b hb => absurd hb.isSchema refused, nofun⟩
    rw [← Except.ok.inj ho]
    exact iff_of_false Bool.false_ne_true refused
  | unwritable quoted long _ => exact absurd (Grammar.shortInts_of_quotes hints quoted) long

end

section

open Reference

/-- A schema that is well-formed because a check accepts it. -/
theorem checkSchema_accepts_halves :
    halvesRaw.Keyed ∧ halvesRaw.ShortInts ∧ halvesRaw.IsSchema := by
  have hrun : (checkSchema halvesRaw .collectAll).toOption.map Outcome.isOk = some true := by
    decide +kernel
  obtain ⟨hiff, -, -⟩ := checkSchema_accepts_iff keyed_halvesRaw shortInts_halvesRaw .collectAll
  cases hcheck : checkSchema halvesRaw .collectAll with
  | error f =>
    rw [hcheck] at hrun
    cases hrun
  | ok o =>
    rw [hcheck] at hrun
    exact ⟨keyed_halvesRaw, shortInts_halvesRaw, (hiff o hcheck).1 (Option.some.inj hrun)⟩

end

/-- A flag in so many arrays. -/
def nestedRaw (n : Nat) : Value := Value.inArrays (.dict [(.str "type", .str "flag")]) n

/-- The flag in its arrays, typed. -/
def nestedBlock (n : Nat) : Block := Block.inArrays (.flag ⟨.absent, .absent, none⟩) n

theorem keyed_nestedRaw (n : Nat) : (nestedRaw n).Keyed :=
  Value.keyed_inArrays (by simp [Entries.Distinct]) n

theorem shortInts_nestedRaw (n : Nat) : (nestedRaw n).ShortInts :=
  Value.shortInts_inArrays (by simp) n

theorem typedAs_nestedRaw (n : Nat) : (nestedRaw n).TypedAs (nestedBlock n) :=
  Value.TypedAs.inArrays (.flag ⟨rfl, by simp [Entries.Only]; decide, .absent, .absent, rfl⟩) n

/-- There is nothing to advise. -/
theorem advice_nestedBlock (n : Nat) (path : Path) : (nestedBlock n).advice path = [] := by
  induction n generalizing path with
  | zero => rfl
  | succ n ih => exact List.append_eq_nil_iff.2 ⟨ih _, rfl⟩

theorem depth_nestedBlock (n : Nat) : (nestedBlock n).depth = n + 1 := by
  rw [nestedBlock, Block.depth_inArrays, Block.depth, Nat.add_comm]

section

open Reference

/-- A well-formed schema on which a check fails in either mode: its arrays are deeper than the host
types. -/
theorem checkSchema_escapes_nested :
    (nestedRaw 254).Keyed ∧ (nestedRaw 254).ShortInts ∧ (nestedRaw 254).IsSchema ∧
      ∃ fault, ∀ mode,
        checkSchema (nestedRaw 254) mode = .error (.complaint (.violation [] (.untyped fault))) := by
  obtain ⟨fault, -, hcheck⟩ :=
    exists_checkSchema_of_deep (typedAs_nestedRaw 254) (by rw [depth_nestedBlock]; decide)
  exact ⟨keyed_nestedRaw 254, shortInts_nestedRaw 254, (typedAs_nestedRaw 254).isSchema, fault, hcheck⟩

end

/-! ## Failures -/

section

variable [Host] [LawfulHost] {mode : Mode} {raw : Value}

end

/-- An enumeration with a power of ten among its values. -/
def powerRaw (k : Nat) : Value :=
  .dict [(.str "type", .str "enum"), (.str "values", .list [.str "a", .int (10 ^ k)])]

theorem keyed_powerRaw (k : Nat) : (powerRaw k).Keyed := by
  simp [powerRaw, Entries.Distinct]
  decide

theorem block_powerRaw {k : Nat} (hk : digitLimit ≤ k) :
    Grammar.block [] (powerRaw k) = [.halt (.unwritable .tooManyDigits)] := by
  have hlong : (Value.int (10 ^ k)).display? = none := by
    rw [Value.display?_eq_none_iff, Value.ShortInts.int_iff, Text.hasDigits_pow, not_lt]
    exact hk
  show Grammar.enumValues [.property "values"] ["a"] [.int (10 ^ k)] = _
  rw [Grammar.enumValues]
  simp [Finding.quoting, hlong, Value.text?, Grammar.enumValues]

section

open Reference

end

/-! ## Checked blocks -/

theorem Value.SameContent.shortInts {v w : Value} (h : SameContent v w) (hv : v.ShortInts) :
    w.ShortInts := by
  induction h with
  | refl v => exact hv
  | sequence items count _ ih =>
    refine Value.ShortInts.list_iff.2 fun y hy => ?_
    obtain ⟨x, hx⟩ := exists_zip_of_right count hy
    exact ih _ hx (hv.part (items.parts ▸ (List.of_mem_zip hx).1))
  | entries order keys _ ih =>
    refine Value.ShortInts.dict_iff.2 fun e he => ⟨?key, ?value⟩
    case key =>
      have hmem := List.mem_map_of_mem (f := Prod.fst) he
      rw [← keys] at hmem
      obtain ⟨e', he', hkey⟩ := List.mem_map.1 hmem
      exact hkey ▸ hv.key (order.mem_iff.2 he')
    case value =>
      have hcount := congrArg List.length keys
      rw [List.length_map, List.length_map] at hcount
      obtain ⟨e', he'⟩ := exists_zip_of_right hcount he
      exact ih _ he' (hv.value (order.mem_iff.2 (List.of_mem_zip he').1))

/-- A block is dumped without huge integers if it comes of a schema without them. -/
theorem shortInts_dump_of_typedAs {raw : Value} {b : Block} (h : raw.TypedAs b) (hraw : raw.Keyed)
    (hints : raw.ShortInts) : b.dump.ShortInts := by
  rw [Value.dump_of_typedAs h]
  exact (Value.sameContent_arranged h hraw).shortInts hints

section

variable [Host] [LawfulHost] {mode : Mode} {raw : Value}

/-- A schema to which a check gives a typed form stands for it, and it is no deeper than the guard. -/
theorem typedAs_of_checkSchema (hraw : raw.Keyed) {o : Outcome (Option Block)} {b : Block}
    (ho : checkSchema raw mode = .ok o) (hb : o.value = some b) :
    raw.TypedAs b ∧ b.depth ≤ Host.guard := by
  have hresult := checkResult hraw mode
  generalize checkSchema raw mode = result at hresult ho
  cases hresult with
  | typed form fits =>
    rw [← Except.ok.inj ho] at hb
    obtain rfl := Option.some.inj hb
    exact ⟨form, fits⟩
  | deep form deep => cases ho
  | refused refused ends =>
    rw [← Except.ok.inj ho] at hb
    cases hb
  | unwritable quoted long breaks => cases ho

theorem isSome_value_iff {o : Outcome (Option Block)} (hraw : raw.Keyed)
    (ho : checkSchema raw mode = .ok o) : o.value.isSome = true ↔ o.errors = [] := by
  have hresult := checkResult hraw mode
  generalize checkSchema raw mode = result at hresult ho
  cases hresult with
  | typed form fits =>
    rw [← Except.ok.inj ho]
    exact iff_of_true rfl rfl
  | deep form deep => cases ho
  | refused refused ends =>
    rw [← Except.ok.inj ho]
    exact iff_of_false Bool.false_ne_true (List.cons_ne_nil _ _)
  | unwritable quoted long breaks => cases ho

end

/-- A block is what a check makes of some schema. -/
def Block.IsChecked [Host] (b : Block) : Prop :=
  ∃ (raw : Value) (mode : Mode) (o : Outcome (Option Block)),
    raw.Keyed ∧ checkSchema raw mode = .ok o ∧ o.value = some b

namespace Block.IsChecked

variable [Host] [LawfulHost] {b : Block}

theorem exists_typedAs (h : b.IsChecked) : ∃ raw : Value, raw.TypedAs b := by
  obtain ⟨raw, mode, o, hraw, ho, hb⟩ := h
  exact ⟨raw, (typedAs_of_checkSchema hraw ho hb).1⟩

/-- A checked block is no deeper than the host types. -/
theorem depth_le (h : b.IsChecked) : b.depth ≤ Host.guard := by
  obtain ⟨raw, mode, o, hraw, ho, hb⟩ := h
  exact (typedAs_of_checkSchema hraw ho hb).2

end Block.IsChecked

/-- A schema as a caller gives it is accepted: the raw form that a check accepts, or the typed form
that a check gives. -/
inductive GivenSchema.Accepted [Host] : GivenSchema → Block → Prop
  | raw {v : Value} {mode : Mode} {o : Outcome (Option Block)} {b : Block} (keyed : v.Keyed)
    (checked : checkSchema v mode = .ok o) (typed : o.value = some b) : Accepted (.raw v) b
  | typed {b : Block} (checked : b.IsChecked) : Accepted (.typed b) b

namespace GivenSchema.Accepted

variable [Host] {schema : GivenSchema} {b : Block}

theorem isChecked (h : schema.Accepted b) : b.IsChecked := by
  cases h with
  | raw keyed checked typed => exact ⟨_, _, _, keyed, checked, typed⟩
  | typed checked => exact checked

theorem block_eq [LawfulHost] (h : schema.Accepted b) : schema.block = .ok b := by
  cases h with
  | raw keyed checked typed =>
    obtain ⟨hform, hfits⟩ := typedAs_of_checkSchema keyed checked typed
    exact parseSchema_of_typedAs hform hfits
  | typed _ => rfl

end GivenSchema.Accepted

/-! ## Rechecking -/

section

variable {mode : Mode} {raw : Value}

/-- A walk without errors leaves the advice that a block deserves. -/
theorem exists_typedAs_of_walk {o : Outcome (Option Unit)} (hraw : raw.Keyed)
    (hwalk : (Check.block [] raw).run mode = .ok o) (herrors : o.errors = []) :
    ∃ b, raw.TypedAs b ∧ o.warnings = b.advice [] := by
  rw [Check.run_block, Settlement.package] at hwalk
  split at hwalk
  · cases hwalk
  · next hhalted =>
    obtain rfl := Except.ok.inj hwalk
    obtain ⟨b, hb⟩ := Value.exists_typedAs
      (Grammar.isSchema_of_onlyAdvice (onlyAdvice_of_settle herrors hhalted)) hraw
    refine ⟨b, hb, ?_⟩
    rw [Grammar.block_of_typedAs hb, settle_map_warning]

/-- **Checking and typing agree, and rechecking changes nothing.** Let the walk of the grammar find no
error in a raw schema. Then the schema stands for a block, which is dumped as the schema itself, but for
the order of properties and for lists in place of tuples. If it is no deeper than the host types, it is
the typed form of the schema, and checking the schema or its typed form, in either mode, gives this typed
form, no error, and the same warnings as the walk. If it is deeper, typing the schema fails, and so does
every check of it. -/
theorem recheck_of_accepted [Host] [LawfulHost] {o : Outcome (Option Unit)} (hraw : raw.Keyed)
    (hwalk : (Check.block [] raw).run mode = .ok o) (herrors : o.errors = []) :
    ∃ b : Block, raw.TypedAs b ∧ b.dump = raw.arranged ∧ raw.SameContent b.dump ∧
      (b.depth ≤ Host.guard → parseSchema raw = .ok b ∧
        ∀ m, (GivenSchema.raw raw).check m = .ok ⟨some b, [], o.warnings⟩ ∧
          (GivenSchema.typed b).check m = .ok ⟨some b, [], o.warnings⟩) ∧
      (Host.guard < b.depth →
        ∃ fault, parseSchema raw = .error (.complaint (.violation [] (.untyped fault))) ∧
          ∀ m, (GivenSchema.raw raw).check m =
            .error (.complaint (.violation [] (.untyped fault)))) := by
  obtain ⟨b, hb, hwarnings⟩ := exists_typedAs_of_walk hraw hwalk herrors
  have hdump := Value.dump_of_typedAs hb
  have hdumped : b.dump.TypedAs b := hdump ▸ Value.typedAs_arranged hb
  refine ⟨b, hb, hdump, hdump ▸ Value.sameContent_arranged hb hraw, fun hfits => ?fits,
    fun hdeep => exists_checkSchema_of_deep hb hdeep⟩
  rw [hwarnings]
  exact ⟨parseSchema_of_typedAs hb hfits,
    fun m => ⟨checkSchema_of_typedAs hb hfits m, checkSchema_of_typedAs hdumped hfits m⟩⟩

end

section

open Reference

/-- A schema whose properties are not in the declared order, with a tuple and a warning. -/
theorem recheck_of_accepted_halves :
    (Check.block [] halvesRaw).run .failFast = .ok ⟨some (), [], halvesAdvice⟩ ∧
      halvesBlock.dump = halvesRaw.arranged ∧
      ∀ m, (GivenSchema.typed halvesBlock).check m = .ok ⟨some halvesBlock, [], halvesAdvice⟩ := by
  have hwalk : (Check.block [] halvesRaw).run .failFast = .ok ⟨some (), [], halvesAdvice⟩ := by
    have hsettle : settle .failFast (Grammar.block [] halvesRaw) = ⟨[], halvesAdvice, none⟩ := by
      decide +kernel
    rw [Check.run_block, hsettle]
    rfl
  have hparse : parseSchema halvesRaw = .ok halvesBlock := rfl
  obtain ⟨b, hb, hdump, -, hfits, -⟩ := recheck_of_accepted keyed_halvesRaw hwalk rfl
  have hdepth : b.depth ≤ Host.guard := by
    by_contra hdeep
    obtain ⟨fault, hfault⟩ := exists_parseSchema_of_deep hb (not_le.1 hdeep)
    cases hparse.symm.trans hfault
  obtain ⟨hform, hcheck⟩ := hfits hdepth
  obtain rfl := Except.ok.inj (hparse.symm.trans hform)
  exact ⟨hwalk, hdump, fun m => (hcheck m).2⟩

/-- A schema in which the walk finds nothing and that has no typed form: its arrays are deeper than the
host types. -/
theorem parseSchema_escapes_nested :
    (nestedRaw 254).Keyed ∧
      (∀ mode, (Check.block [] (nestedRaw 254)).run mode = .ok ⟨some (), [], []⟩) ∧
      ∃ fault, parseSchema (nestedRaw 254) = .error (.complaint (.violation [] (.untyped fault))) := by
  refine ⟨keyed_nestedRaw 254, fun mode => ?_,
    exists_parseSchema_of_deep (typedAs_nestedRaw 254) (by rw [depth_nestedBlock]; decide)⟩
  rw [Check.run_block, Grammar.block_of_typedAs (typedAs_nestedRaw 254), settle_map_warning,
    advice_nestedBlock, Settlement.package]
  simp

end

end DocShape
