import DocShape.Proofs.Conversion.Shorthand
import DocShape.Proofs.Document.Checking

/-!
# Shorthand and object forms are interchangeable

A bound may be a number or an object, and so may a length. Which of them stands in a raw schema makes no
difference to whether it is accepted, nor to what documents are decoded to and values are encoded to, if
the host has room for both (`spellings_interchangeable`). An object takes more room than a number: it is a
typed model of its own, so just within the guard the one may be typed and the other not
(`checkSchema_spellings_apart`).
-/

namespace DocShape

/-- Raw schemas that differ in how bounds are put: any number of bare bounds, at any depth, have become
objects. -/
def Value.BoundsSpelled : Value → Value → Prop :=
  Relation.ReflTransGen (Respelled SpellsBound fun _ _ => False)

/-- Raw schemas that differ in how bounds and lengths are put. -/
def Value.Spelled : Value → Value → Prop :=
  Relation.ReflTransGen (Respelled SpellsBound SpellsLength)

/-- Checks that accept or reject alike, and that give advice in the same places where they accept. -/
structure Outcome.OneVerdict (o p : Outcome (Option Block)) : Prop where
  isOk_eq : o.isOk = p.isOk
  value_isSome : o.value.isSome = p.value.isSome
  advised : o.isOk = true → ∀ q, (∃ w ∈ o.warnings, w.place = q) ↔ ∃ w ∈ p.warnings, w.place = q

/-- Outcomes that differ in nothing but the words that errors have for a length. -/
structure Outcome.Reworded {α : Type} (o p : Outcome α) : Prop where
  value : o.value = p.value
  errors : o.errors.map Complaint.asExact = p.errors.map Complaint.asExact
  warnings : o.warnings = p.warnings

namespace Outcome.Reworded

variable {α : Type} {o p : Outcome α}

theorem isOk_eq (h : o.Reworded p) : o.isOk = p.isOk := by
  rw [Bool.eq_iff_iff, isOk, isOk, List.isEmpty_iff, List.isEmpty_iff,
    ← List.map_eq_nil_iff (f := Complaint.asExact), h.errors, List.map_eq_nil_iff]

/-- The errors are in the same places, in the same order. -/
theorem paths (h : o.Reworded p) : o.errors.map Complaint.path = p.errors.map Complaint.path := by
  have hpath : Complaint.path = Complaint.path ∘ Complaint.asExact :=
    funext fun c => c.path_asExact.symm
  rw [hpath, ← List.map_map, ← List.map_map, h.errors]

end Outcome.Reworded

/-! ## Raw schemas -/

namespace Value

variable {v w : Value}

theorem BoundsSpelled.short_eq (h : v.BoundsSpelled w) :
    v.mapBounds shortBound id = w.mapBounds shortBound id :=
  mapBounds_of_respellings (fun _ _ => shortBound_of_spells) nofun h

theorem Spelled.short_eq (h : v.Spelled w) :
    v.mapBounds shortBound shortLength = w.mapBounds shortBound shortLength :=
  mapBounds_of_respellings (fun _ _ => shortBound_of_spells) (fun _ _ => shortLength_of_spells) h

theorem BoundsSpelled.spelled (h : v.BoundsSpelled w) : v.Spelled w := by
  have hstep {v w : Value} (h : Respelled SpellsBound (fun _ _ => False) v w) :
      Respelled SpellsBound SpellsLength v w := by
    induction h with
    | bound before after bound spelled => exact .bound before after bound spelled
    | length before after spelled => exact spelled.elim
    | value before after _ ih => exact .value before after ih
    | listed before after above below _ ih => exact .listed before after above below ih
    | tupled before after above below _ ih => exact .tupled before after above below ih
    | field before after above below _ ih => exact .field before after above below ih
  exact Relation.ReflTransGen.mono (fun _ _ => hstep) _ _ h

end Value

/-- Findings with one verdict come to one verdict in either mode. -/
theorem SameVerdict.inMode {fs gs : List Finding} (h : SameVerdict fs gs) (mode : Mode) :
    (settle mode fs).halted = (settle mode gs).halted ∧
      ((settle mode fs).errors = [] ↔ (settle mode gs).errors = []) := by
  cases mode with
  | collectAll => exact ⟨h.halted, h.errors⟩
  | failFast =>
    have hcut := settle_cut fs
    have hcut' := settle_cut gs
    have hhalted := h.halted
    have herrors := h.errors
    generalize settle .failFast fs = s at hcut ⊢
    generalize settle .failFast gs = s' at hcut' ⊢
    generalize settle .collectAll fs = t at hcut hhalted herrors
    generalize settle .collectAll gs = t' at hcut' hhalted herrors
    cases hcut with
    | uncut =>
      cases hcut' with
      | uncut => exact ⟨hhalted, herrors⟩
      | first => exact absurd (herrors.1 rfl) nofun
    | first =>
      cases hcut' with
      | uncut => exact absurd (herrors.2 rfl) nofun
      | first => exact ⟨rfl, iff_of_false nofun nofun⟩

/-- The host has room for a raw schema: with more room it would be read no differently. So it is with a
schema that has a typed form, and with whatever nests no deeper than the host types. -/
def Value.WithinGuard [Host] (v : Value) : Prop :=
  ∀ room, Host.guard ≤ room → Block.ofRaw room v = Block.ofRaw Host.guard v

section

variable [Host] {v w : Value}

/-- The host has room for what it types. -/
theorem Value.withinGuard_of_parseSchema {b : Block} (h : parseSchema v = .ok b) : v.WithinGuard :=
  fun room hroom => by
    have hread := ofRaw_of_parseSchema h
    rw [hread, Block.ofRaw_mono hread hroom]

theorem Value.withinGuard_of_depth (h : v.depth ≤ Host.guard) : v.WithinGuard :=
  fun _ hroom => Block.ofRaw_eq_of_depth_le (h.trans hroom) h

/-- Schemas with room for objects are typed alike, if they are rewritten to one by what the reader does not
tell apart where it has room for objects. -/
theorem agree_parseSchema_of_withinGuard {onBound onLength : Value → Value} {onLimit : Limit → Limit}
    {onRule : LengthRule → LengthRule}
    (hread : ∀ left, left ≠ 0 → Block.ReadAlike left onBound onLength onLimit onRule)
    (hv : v.WithinGuard) (hw : w.WithinGuard)
    (h : v.mapBounds onBound onLength = w.mapBounds onBound onLength) :
    Agree (fun b c => b.mapBounds onLimit onRule = c.mapBounds onLimit onRule) (parseSchema v)
      (parseSchema w) := by
  -- so much room that some is left wherever an object may stand
  obtain ⟨room, hroom⟩ : ∃ room, room = Host.guard + (v.depth + w.depth) + 1 := ⟨_, rfl⟩
  have hagree : Agree (fun b c => b.mapBounds onLimit onRule = c.mapBounds onLimit onRule)
      (Block.ofRaw room v) (Block.ofRaw room w) :=
    Block.agree_ofRaw_of_mapBounds (fun left _ hleft => hread left (by omega))
      (fun left _ hleft => hread left (by omega)) h
  rw [hv room (by omega), hw room (by omega)] at hagree
  exact Block.agree_parseSchema hagree

theorem agree_checkSchema_of_spelled [LawfulHost] (hv : v.WithinGuard) (hw : w.WithinGuard)
    (h : v.Spelled w) (mode : Mode) :
    Agree Outcome.OneVerdict (checkSchema v mode) (checkSchema w mode) := by
  have hwalk : SameVerdict (Grammar.block [] v) (Grammar.block [] w) := by
    have hshort (v : Value) := Grammar.block_mapBounds SameVerdict.piecewise Grammar.unnoticed_short v []
    have hv := hshort v
    rw [h.short_eq] at hv
    exact hv.symm.trans (hshort w)
  obtain ⟨hhalted, herrors⟩ := hwalk.inMode mode
  rw [checkSchema_eq, checkSchema_eq, Settlement.checked, Settlement.checked, hhalted]
  cases hend : (settle mode (Grammar.block [] w)).halted with
  | some f => exact .error f
  | none =>
    dsimp only
    by_cases hnone : (settle mode (Grammar.block [] w)).errors = []
    · rw [if_pos (List.isEmpty_iff.2 (herrors.2 hnone)), if_pos (List.isEmpty_iff.2 hnone)]
      have htyped := agree_parseSchema_of_withinGuard (fun left => Block.readAlike_short) hv hw h.short_eq
      refine htyped.bind fun b c _ =>
        .ok ⟨?_, rfl, fun _ q => ?_⟩
      · simp only [Outcome.isOk, herrors.2 hnone, hnone]
      · simp only [mem_warnings_settle (onlyAdvice_of_settle (herrors.2 hnone) (hhalted.trans hend)),
          mem_warnings_settle (onlyAdvice_of_settle hnone hend)]
        exact hwalk.advised q
    · have hsome : (settle mode (Grammar.block [] v)).errors ≠ [] := fun h => hnone (herrors.1 h)
      rw [if_neg fun h => hsome (List.isEmpty_iff.1 h), if_neg fun h => hnone (List.isEmpty_iff.1 h)]
      refine .ok ⟨?_, rfl, fun hok => absurd (List.isEmpty_iff.1 hok) hsome⟩
      simp only [Outcome.isOk, List.isEmpty_eq_false_iff.2 hsome, List.isEmpty_eq_false_iff.2 hnone]

end

/-! ## Conversions -/

theorem agree_outcome_of_reworded {x y : Converted} (h : x.SameUpTo Reworded y) (mode : Mode) :
    Agree Outcome.Reworded (x.outcome mode) (y.outcome mode) := by
  have hsettle := congrArg (settle mode) h.findings
  rw [Finding.asExact, settle_map, settle_map, Settlement.mk.injEq, List.map_id, List.map_id,
    Option.map_id, id_eq, id_eq] at hsettle
  obtain ⟨herrors, hwarnings, hhalted⟩ := hsettle
  have hnone : (settle mode x.findings).errors.isEmpty = (settle mode y.findings).errors.isEmpty := by
    rw [Bool.eq_iff_iff, List.isEmpty_iff, List.isEmpty_iff,
      ← List.map_eq_nil_iff (f := Complaint.asExact), herrors, List.map_eq_nil_iff]
  simp only [Converted.outcome, hhalted]
  cases (settle mode y.findings).halted with
  | some f => exact .error f
  | none =>
    refine .ok ⟨?_, herrors, hwarnings⟩
    simp only [hnone, h.value]

section Conversions

variable [Host] {b c : Block}

theorem agree_conversion_of_short
    (h : b.mapBounds Limit.short LengthRule.short = c.mapBounds Limit.short LengthRule.short)
    (d : Direction) (mode : Mode) (v : Value) :
    Agree Outcome.Reworded (b.conversion d mode v) (c.conversion d mode v) := by
  rw [Block.conversion_eq, Block.conversion_eq]
  exact agree_outcome_of_reworded (Block.convert_of_short h d [] v) mode

theorem agree_decodeDocument_of_short
    (h : b.mapBounds Limit.short LengthRule.short = c.mapBounds Limit.short LengthRule.short)
    (document : Value) (mode : Mode) :
    Agree Outcome.Reworded (decodeDocument document b mode) (decodeDocument document c mode) :=
  Agree.bind_same fun data => agree_conversion_of_short h .decoding mode data

theorem agree_encodeDocument_of_short
    (h : b.mapBounds Limit.short LengthRule.short = c.mapBounds Limit.short LengthRule.short)
    (x : Value) (mode : Mode) :
    Agree Outcome.Reworded (encodeDocument x b mode) (encodeDocument x c mode) := by
  refine (agree_conversion_of_short h .encoding mode x).bind fun o p hop => ?_
  rw [hop.isOk_eq, hop.value]
  split
  · exact Agree.bind_same fun t => .ok ⟨rfl, hop.errors, hop.warnings⟩
  · exact .ok ⟨rfl, hop.errors, hop.warnings⟩

end Conversions

/-- **Shorthand and object forms are interchangeable.** Let the host have room for two raw schemas. If the
one is the other with any number of bare bounds, at any depth, put as objects that hold the number and do
not exclude it, then it is accepted or rejected like the other, and along it every document is decoded and
every value encoded, in either mode, with the same outcome or the same failure.

If any number of bare lengths are put as objects with the number at both ends as well, then too it is
accepted or rejected like the other, with advice in the same places if it is accepted. Along it every
document is decoded and every value encoded to the same value or text, with the same errors, or with the
same failure, but for the words that an error has for a length. -/
theorem spellings_interchangeable [Host] [LawfulHost] {v w : Value} (hv : v.WithinGuard)
    (hw : w.WithinGuard) (mode : Mode) :
    (v.BoundsSpelled w →
      Agree Outcome.OneVerdict (checkSchema v mode) (checkSchema w mode) ∧
        (∀ document, (GivenSchema.raw v).decode document mode =
          (GivenSchema.raw w).decode document mode) ∧
        ∀ x, (GivenSchema.raw v).encode x mode = (GivenSchema.raw w).encode x mode) ∧
    (v.Spelled w →
      Agree Outcome.OneVerdict (checkSchema v mode) (checkSchema w mode) ∧
        (∀ document, Agree (fun o p => o.Reworded p ∧
            o.errors.map Complaint.path = p.errors.map Complaint.path)
          ((GivenSchema.raw v).decode document mode) ((GivenSchema.raw w).decode document mode)) ∧
        ∀ x, Agree (fun o p => o.Reworded p ∧
            o.errors.map Complaint.path = p.errors.map Complaint.path)
          ((GivenSchema.raw v).encode x mode) ((GivenSchema.raw w).encode x mode)) := by
  constructor
  · intro h
    have hblock :=
      agree_parseSchema_of_withinGuard (fun left => Block.readAlike_shortBounds) hv hw h.short_eq
    have hconvert {b c : Block} (h : b.mapBounds Limit.short id = c.mapBounds Limit.short id)
        (d : Direction) : b.conversion d mode = c.conversion d mode := by
      funext x
      rw [Block.conversion_eq, Block.conversion_eq, Block.convert_of_shortBounds h d [] x]
    refine ⟨agree_checkSchema_of_spelled hv hw h.spelled mode, fun document => ?_, fun x => ?_⟩
    · refine Agree.eq (hblock.bind fun b c hbc => ?_)
      rw [decodeDocument, decodeDocument, hconvert hbc]
      exact .of_eq (fun _ => rfl) rfl
    · refine Agree.eq (hblock.bind fun b c hbc => ?_)
      rw [encodeDocument, encodeDocument, hconvert hbc]
      exact .of_eq (fun _ => rfl) rfl
  · intro h
    have hblock := agree_parseSchema_of_withinGuard (fun left => Block.readAlike_short) hv hw h.short_eq
    refine ⟨agree_checkSchema_of_spelled hv hw h mode, fun document => ?_, fun x => ?_⟩
    · refine (hblock.bind fun b c hbc => agree_decodeDocument_of_short hbc document mode).mono ?_
      exact fun o p hop => ⟨hop, hop.paths⟩
    · refine (hblock.bind fun b c hbc => agree_encodeDocument_of_short hbc x mode).mono ?_
      exact fun o p hop => ⟨hop, hop.paths⟩

/-- Lists of a length, of numbers from a bound up. -/
def listsRaw (length least : Value) : Value :=
  .dict [(.str "type", .str "array"), (.str "length", length),
    (.str "value", .dict [(.str "type", .str "number"), (.str "minimum", least)])]

/-- Two as a bound in the form of an object. -/
def twoAsBound : Value := .dict [(.str "value", .int 2), (.str "exclusive", .bool false)]

/-- Two as a length in the form of an object. -/
def twoAsLength : Value := .dict [(.str "minimum", .int 2), (.str "maximum", .int 2)]

theorem respelled_least {onBound onLength : Value → Value → Prop} {length least least' : Value}
    (h : onBound least least') :
    Value.Respelled onBound onLength (listsRaw length least) (listsRaw length least') :=
  .value [(.str "type", .str "array"), (.str "length", length)] []
    (.bound [(.str "type", .str "number")] [] (.inl rfl) h)

theorem respelled_length {onBound onLength : Value → Value → Prop} {length length' least : Value}
    (h : onLength length length') :
    Value.Respelled onBound onLength (listsRaw length least) (listsRaw length' least) :=
  .length [(.str "type", .str "array")] _ h

section

open Reference

/-- Lists of two numbers from two up, with shorthand and with objects, and a list of one number too
small. -/
theorem spellings_interchangeable_two :
    (listsRaw (.int 2) (.int 2)).BoundsSpelled (listsRaw (.int 2) twoAsBound) ∧
      (listsRaw (.int 2) (.int 2)).Spelled (listsRaw twoAsLength twoAsBound) ∧
      (∃ o, checkSchema (listsRaw twoAsLength twoAsBound) .failFast = .ok o ∧ o.isOk = true) ∧
      (GivenSchema.raw (listsRaw (.int 2) twoAsBound)).decode (.str "[1]") .collectAll =
        .ok ⟨.list [.null], [.mismatch [] (.lengthNot "2"),
          .mismatch [.item 0] (.outOfBounds .atLeast "2")], []⟩ ∧
      ∃ o, (GivenSchema.raw (listsRaw twoAsLength twoAsBound)).decode (.str "[1]") .collectAll = .ok o ∧
        o.value = .list [.null] ∧ o.errors.map Complaint.path = [[], [.item 0]] := by
  have hbounds : (listsRaw (.int 2) (.int 2)).BoundsSpelled (listsRaw (.int 2) twoAsBound) :=
    .single (respelled_least (.inclusive (.int 2)))
  have hboth : (listsRaw (.int 2) (.int 2)).Spelled (listsRaw twoAsLength twoAsBound) :=
    .head (respelled_least (.inclusive (.int 2))) (.single (respelled_length (.range (.int 2))))
  have hroom {length least : Value} {b : Block} (h : parseSchema (listsRaw length least) = .ok b) :
      (listsRaw length least).WithinGuard := Value.withinGuard_of_parseSchema h
  have hshort : (listsRaw (.int 2) (.int 2)).WithinGuard := hroom rfl
  have hlong : (listsRaw twoAsLength twoAsBound).WithinGuard := hroom rfl
  have hcheck : ∃ b, checkSchema (listsRaw (.int 2) (.int 2)) .failFast = .ok ⟨some b, [], []⟩ :=
    ⟨_, rfl⟩
  have hdecode : (GivenSchema.raw (listsRaw (.int 2) (.int 2))).decode (.str "[1]") .collectAll =
      .ok ⟨.list [.null], [.mismatch [] (.lengthNot "2"),
        .mismatch [.item 0] (.outOfBounds .atLeast "2")], []⟩ := rfl
  obtain ⟨-, hsame, -⟩ := (spellings_interchangeable hshort (hroom rfl) .collectAll).1 hbounds
  obtain ⟨hverdict, -, -⟩ := (spellings_interchangeable hshort hlong .failFast).2 hboth
  obtain ⟨-, halike, -⟩ := (spellings_interchangeable hshort hlong .collectAll).2 hboth
  refine ⟨hbounds, hboth, ?_, (hsame _).symm.trans hdecode, ?_⟩
  · obtain ⟨b, hb⟩ := hcheck
    rw [hb] at hverdict
    generalize checkSchema (listsRaw twoAsLength twoAsBound) .failFast = x at hverdict
    cases hverdict with
    | ok h => exact ⟨_, rfl, h.isOk_eq.symm⟩
  · have halike := halike (.str "[1]")
    rw [hdecode] at halike
    generalize (GivenSchema.raw (listsRaw twoAsLength twoAsBound)).decode _ _ = x at halike
    cases halike with
    | ok h => exact ⟨_, rfl, h.1.value.symm, h.2.symm⟩

end

/-! ## Just within the guard -/

/-- Numbers from a bound up, in so many arrays. -/
def deepNumbers (least : Value) (n : Nat) : Value :=
  Value.inArrays (.dict [(.str "type", .str "number"), (.str "minimum", least)]) n

/-- The numbers in their arrays, typed. -/
def deepNumbersBlock (least : Limit) (n : Nat) : Block :=
  Block.inArrays (.number ⟨.absent, .absent, none⟩ none (.given least) .absent) n

theorem boundsSpelled_deepNumbers {least least' : Value} (h : Value.SpellsBound least least')
    (n : Nat) :
    (deepNumbers least n).BoundsSpelled (deepNumbers least' n) := by
  refine .single ?_
  induction n with
  | zero => exact .bound [(.str "type", .str "number")] [] (.inl rfl) h
  | succ n ih => exact .value [(.str "type", .str "array")] [] ih

theorem typedAs_deepNumbers {least : Value} {limit : Limit} (h : least.LimitAs limit) (n : Nat) :
    (deepNumbers least n).TypedAs (deepNumbersBlock limit n) := by
  have header : Header.Heads ⟨.absent, .absent, none⟩
      [(.str "type", .str "number"), (.str "minimum", least)] .number :=
    ⟨rfl, by simp [Entries.Only]; decide, .absent, .absent, rfl⟩
  exact Value.TypedAs.inArrays (.number header rfl (.given h) .absent
    fun _ _ _ hmaximum => by cases hmaximum) n

section

open Reference

/-- Two schemas that differ in how one bound is put, and of which a check accepts one and fails on the
other. -/
theorem checkSchema_spellings_apart :
    (deepNumbers (.int 1) 253).BoundsSpelled (deepNumbers (.dict [(.str "value", .int 1)]) 253) ∧
      (∀ mode, ∃ o, checkSchema (deepNumbers (.int 1) 253) mode = .ok o ∧ o.isOk = true) ∧
      ∃ fault, ∀ mode, checkSchema (deepNumbers (.dict [(.str "value", .int 1)]) 253) mode =
        .error (.complaint (.violation [] (.untyped fault))) := by
  have hone : (Value.int 1).IsNumber (.int 1) := ⟨rfl, rfl⟩
  have hbare : (Value.int 1).LimitAs (.bare (.int 1)) := .bare hone
  have hobject : (Value.dict [(.str "value", .int 1)]).LimitAs (.bound ⟨.int 1, none⟩) :=
    .bound (by simp [Entries.Only]) rfl hone rfl
  refine ⟨boundsSpelled_deepNumbers (.value (.int 1)) 253, fun mode => ?_, ?_⟩
  · have hfits : (deepNumbersBlock (.bare (.int 1)) 253).depth ≤ Host.guard := by
      rw [deepNumbersBlock, Block.depth_inArrays]
      decide
    exact ⟨_, checkSchema_of_typedAs (typedAs_deepNumbers hbare 253) hfits mode, rfl⟩
  · have hdeep : Host.guard < (deepNumbersBlock (.bound ⟨.int 1, none⟩) 253).depth := by
      rw [deepNumbersBlock, Block.depth_inArrays]
      decide
    obtain ⟨fault, -, hcheck⟩ :=
      exists_checkSchema_of_deep (typedAs_deepNumbers hobject 253) hdeep
    exact ⟨fault, hcheck⟩

end

end DocShape
