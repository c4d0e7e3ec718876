import DocShape.Proofs.Schema.Bounds
import DocShape.Proofs.Value.Reduced

/-!
# Schemas with their bounds in reduced form

`Value.reducedBounds` and `Block.reducedBounds` put the numbers of bounds and of constraints on lengths
into their reduced form. The walk of the grammar finds the same on the reduced form of a raw schema
(`Grammar.block_reducedBounds`), the lenient reader reads it alike (`Block.readAlike_reduced`),
and the raw form of a block is reduced with the block (`Block.dump_reducedBounds`).
-/

namespace DocShape

/-- A limit with its number in reduced form. -/
def Limit.reduced : Limit → Limit
  | bare n => bare n.reduced
  | bound b => bound { b with value := b.value.reduced }

/-- A constraint on a length with its numbers in reduced form. -/
def LengthRule.reduced : LengthRule → LengthRule
  | exactly n => exactly n.reduced
  | range r => range ⟨r.minimum.map Number.reduced, r.maximum.map Number.reduced⟩

/-- A raw schema with the numbers of its bounds and of its constraints on lengths in reduced form. -/
def Value.reducedBounds (raw : Value) : Value := raw.mapBounds Value.reduced Value.reduced

/-- A block with the numbers of its bounds and of its constraints on lengths in reduced form. -/
def Block.reducedBounds (b : Block) : Block := b.mapBounds Limit.reduced LengthRule.reduced

theorem Entries.keys_map_reduced (es : Entries) :
    (es.map fun e => (e.1, e.2.reduced)).map Prod.fst = es.map Prod.fst := by
  rw [List.map_map]
  rfl

/-! ## The walk of the grammar -/

namespace Grammar

variable (path : Path)

theorem isBool_reduced (v : Value) : isBool v.reduced = isBool v := by
  cases v with
  | float x => exact Value.reducedFloatCases rfl fun _ => rfl
  | _ => rfl

theorem boundObject_reduced (es : Entries) :
    boundObject path (es.map fun e => (e.1, e.2.reduced)) =
      ((boundObject path es).1, (boundObject path es).2.map Number.reduced) := by
  have hexclusive : optional path "exclusive" .bool isBool (es.map fun e => (e.1, e.2.reduced)) =
      optional path "exclusive" .bool isBool es := by
    rw [optional, optional, Entries.get?_map_values]
    cases es.get? "exclusive" with
    | none => rfl
    | some v => rw [Option.map_some]; simp only [isBool_reduced]
  simp only [boundObject, unexpected_eq_keys, Entries.keys_map_reduced, hexclusive,
    Entries.get?_map_values]
  split
  · cases es.get? "value" with
    | none => rfl
    | some v =>
      simp only [Option.map_some, Value.finiteNumber?_reduced]
      cases v.finiteNumber? <;> rfl
  · rfl

theorem bound_reduced (v : Value) :
    bound path v.reduced = ((bound path v).1, (bound path v).2.map Number.reduced) := by
  unfold bound
  rw [Value.finiteNumber?_reduced]
  cases v.finiteNumber? with
  | some n => rfl
  | none =>
    cases v with
    | dict es =>
      rw [Value.reduced_dict]
      exact boundObject_reduced path es
    | float x => exact Value.reducedFloatCases rfl fun _ => rfl
    | _ => rfl

theorem crossing_reduced (low high : Option Number) :
    crossing path (low.map Number.reduced) (high.map Number.reduced) = crossing path low high := by
  cases low with
  | none => rfl
  | some m =>
    cases high with
    | none => rfl
    | some n => simp only [Option.map_some, crossing, Number.lt_reduced_left, Number.lt_reduced_right]

theorem lengthNumber_reduced (n : Number) : lengthNumber path n.reduced = lengthNumber path n := by
  simp only [lengthNumber, Number.isIntegral_reduced, Number.lt_reduced_left]

theorem lengthObject_reduced (es : Entries) :
    lengthObject path (es.map fun e => (e.1, e.2.reduced)) = lengthObject path es := by
  have hbound (name : Text) : lengthBound path name (es.map fun e => (e.1, e.2.reduced)) =
      ((lengthBound path name es).1, (lengthBound path name es).2.map Number.reduced) := by
    rw [lengthBound, lengthBound, Entries.get?_map_values]
    cases es.get? name with
    | none => rfl
    | some v =>
      simp only [Option.map_some, Value.finiteNumber?_reduced]
      cases v.finiteNumber? with
      | none => rfl
      | some n => simp only [Option.map_some, lengthNumber_reduced]
  simp only [lengthObject, unexpected_eq_keys, Entries.keys_map_reduced, hbound, crossing_reduced]

theorem unnoticed_reduced : Unnoticed Eq Value.reduced Value.reduced where
  number path es := by
    have hbound {name : Text}
        (hname : Value.mapProperty Value.reduced Value.reduced name = Value.reduced) :
        optionalBound path name (Value.mapProperties Value.reduced Value.reduced es) =
          ((optionalBound path name es).1, (optionalBound path name es).2.map Number.reduced) := by
      rw [optionalBound, optionalBound, Value.get?_mapProperties, hname]
      cases Entries.get? name es with
      | none => rfl
      | some v => exact bound_reduced _ v
    rw [number, number, hbound rfl, hbound rfl, crossing_reduced,
      optional_congr (Value.get?_mapProperties_of_other (by decide) es)]
  length path es := by
    have hlength : Value.mapProperty Value.reduced Value.reduced "length" = Value.reduced := rfl
    rw [length, length, Value.get?_mapProperties, hlength]
    cases Entries.get? "length" es with
    | none => rfl
    | some v =>
      simp only [Option.map_some, Value.finiteNumber?_reduced]
      cases v.finiteNumber? with
      | some n => exact lengthNumber_reduced _ n
      | none =>
        cases v with
        | dict fs =>
          rw [Value.reduced_dict]
          exact lengthObject_reduced _ fs
        | float x => exact Value.reducedFloatCases rfl fun _ => rfl
        | _ => rfl

/-- The walk finds the same on raw schemas whose reduced forms are equal. -/
theorem block_reducedBounds (v : Value) : block path v.reducedBounds = block path v :=
  block_mapBounds piecewise_eq unnoticed_reduced v path

end Grammar

/-! ## The lenient reader -/

namespace Value

theorem flag_reduced [Host] [LawfulHost] (v : Value) : Host.flag v.reduced = Host.flag v := by
  have hcontainer {u v : Value} (hu : u.IsContainer) (hv : v.IsContainer) : Host.flag u = Host.flag v := by
    rw [LawfulHost.flag_container hu, LawfulHost.flag_container hv]
  cases v with
  | float x =>
    cases hx : x.isIntegral with
    | false => rw [reduced, Number.reduced_of_fraction hx]; rfl
    | true =>
      obtain ⟨negative, m, rfl, -, hreduced⟩ := Number.exists_of_isIntegral hx
      rw [reduced, hreduced]
      refine (LawfulHost.flag_integral hx ?_).symm
      cases negative <;> rfl
  | list xs => rw [reduced_list]; exact hcontainer trivial trivial
  | tuple xs => rw [reduced_tuple]; exact hcontainer trivial trivial
  | set xs => rw [reduced_set]; exact hcontainer trivial trivial
  | dict es => rw [reduced_dict]; exact hcontainer trivial trivial
  | _ => rfl

theorem agree_number_reduced [Host] [LawfulHost] (v : Value) :
    Agree (fun m n => m.reduced = n.reduced) (Host.number v.reduced) (Host.number v) := by
  have hcontainer {u v : Value} (hu : u.IsContainer) (hv : v.IsContainer) :
      Agree (fun m n => m.reduced = n.reduced) (Host.number u) (Host.number v) := by
    rw [LawfulHost.number_container hu, LawfulHost.number_container hv]
    exact .error _
  cases v with
  | float x =>
    have hread : Host.number (.float x) = .ok (.float x) := LawfulHost.number_ofNumber (.float x)
    rw [reduced, LawfulHost.number_ofNumber, hread]
    exact .ok (Number.reduced_reduced _)
  | list xs => rw [reduced_list]; exact hcontainer trivial trivial
  | tuple xs => rw [reduced_tuple]; exact hcontainer trivial trivial
  | set xs => rw [reduced_set]; exact hcontainer trivial trivial
  | dict es => rw [reduced_dict]; exact hcontainer trivial trivial
  | _ => exact .of_eq (fun _ => rfl) rfl

end Value

namespace Block

/-- The object form of a bound is read alike, up to the representation of its number. -/
theorem map_boundOf?_reduced [Host] [LawfulHost] (es : Entries) :
    (boundOf? (es.map fun e => (e.1, e.2.reduced))).map (fun b => (Limit.bound b).reduced) =
      (boundOf? es).map fun b => (Limit.bound b).reduced := by
  simp only [boundOf?, Entries.get?_map_values, checkExtras_congr (Entries.keys_map_reduced es),
    Option.bind_eq_bind]
  cases es.get? "value" with
  | none => rfl
  | some v =>
    simp only [Option.map_some, Option.bind_some]
    have hnumber := v.agree_number_reduced
    generalize Host.number v.reduced = x at hnumber
    generalize Host.number v = y at hnumber
    cases hnumber with
    | error e => rfl
    | @ok m n hmn =>
      have hbound (exclusive : Option Bool) :
          (Limit.bound ⟨m, exclusive⟩).reduced = (Limit.bound ⟨n, exclusive⟩).reduced := by
        rw [Limit.reduced, Limit.reduced, hmn]
      cases es.get? "exclusive" with
      | none =>
        cases checkExtras ["value", "exclusive"] es with
        | error f => rfl
        | ok u => exact congrArg some (hbound none)
      | some w =>
        simp only [Option.map_some, Value.flag_reduced]
        cases Host.flag w with
        | error p => rfl
        | ok b =>
          cases checkExtras ["value", "exclusive"] es with
          | error f => rfl
          | ok u => exact congrArg some (hbound (some b))

/-- A bound on a length is read as an optional property is, but for the reason of a refusal. -/
theorem lengthBoundOf?_eq_readSetting [Host] (name : Text) (es : Entries) :
    lengthBoundOf? name es =
      (readSetting name (fun v => atProperty name (Host.number v)) es).toOption := by
  unfold lengthBoundOf? readSetting
  split
  · rfl
  · rfl
  · next v _ _ =>
    dsimp only
    cases Host.number v <;> rfl

theorem map_lengthBoundOf?_reduced [Host] [LawfulHost] (name : Text) (es : Entries) :
    (lengthBoundOf? name (es.map fun e => (e.1, e.2.reduced))).map (Setting.map Number.reduced) =
      (lengthBoundOf? name es).map (Setting.map Number.reduced) := by
  rw [lengthBoundOf?_eq_readSetting, lengthBoundOf?_eq_readSetting]
  refine Agree.map_toOption ?_
  refine agree_readSetting (Entries.get?_map_values Value.reduced name es)
    (fun _ => Value.reduced_eq_null) fun v _ => ?_
  have hnumber := v.agree_number_reduced
  generalize Host.number v.reduced = x at hnumber
  generalize Host.number v = y at hnumber
  cases hnumber with
  | error problem => exact .error _
  | ok h => exact .ok h

theorem map_lengthRangeOf?_reduced [Host] [LawfulHost] (es : Entries) :
    (lengthRangeOf? (es.map fun e => (e.1, e.2.reduced))).map (fun r => (LengthRule.range r).reduced) =
      (lengthRangeOf? es).map fun r => (LengthRule.range r).reduced := by
  have hminimum := map_lengthBoundOf?_reduced "minimum" es
  have hmaximum := map_lengthBoundOf?_reduced "maximum" es
  simp only [lengthRangeOf?, checkExtras_congr (Entries.keys_map_reduced es), Option.bind_eq_bind]
  generalize lengthBoundOf? "minimum" (es.map fun e => (e.1, e.2.reduced)) = least' at hminimum ⊢
  generalize lengthBoundOf? "minimum" es = least at hminimum ⊢
  generalize lengthBoundOf? "maximum" (es.map fun e => (e.1, e.2.reduced)) = most' at hmaximum ⊢
  generalize lengthBoundOf? "maximum" es = most at hmaximum ⊢
  cases least with
  | none => rw [Option.map_eq_none_iff.1 hminimum]; rfl
  | some m =>
    obtain ⟨m', rfl, hm⟩ := Option.map_eq_some_iff.1 hminimum
    cases most with
    | none => rw [Option.map_eq_none_iff.1 hmaximum]; rfl
    | some n =>
      obtain ⟨n', rfl, hn⟩ := Option.map_eq_some_iff.1 hmaximum
      cases checkExtras ["minimum", "maximum"] es with
      | error f => rfl
      | ok u =>
        show some (LengthRule.range _) = some (LengthRule.range _)
        rw [hm, hn]

section Containers

variable {α : Type} {name : Text} {bare : Number → α} {object : Entries → Option α}

theorem numberOr_list [Host] [LawfulHost] (xs : List Value) :
    numberOr name bare object (.list xs) = .error ⟨[name, "int"], .notInteger⟩ := by
  simp only [numberOr, LawfulHost.number_container (v := .list xs) trivial]

theorem numberOr_tuple [Host] [LawfulHost] (xs : List Value) :
    numberOr name bare object (.tuple xs) = .error ⟨[name, "int"], .notInteger⟩ := by
  simp only [numberOr, LawfulHost.number_container (v := .tuple xs) trivial]

theorem numberOr_set [Host] [LawfulHost] (xs : List Value) :
    numberOr name bare object (.set xs) = .error ⟨[name, "int"], .notInteger⟩ := by
  simp only [numberOr, LawfulHost.number_container (v := .set xs) trivial]

end Containers

/-- A number, or an object of another form, is read alike if the object is. -/
theorem agree_numberOr_reduced [Host] [LawfulHost] {α β : Type} {g : α → β} {name : Text}
    {bare : Number → α}
    {object : Entries → Option α} (hbare : ∀ m n, m.reduced = n.reduced → g (bare m) = g (bare n))
    (hobject : ∀ es : Entries,
      (object (es.map fun e => (e.1, e.2.reduced))).map g = (object es).map g) (v : Value) :
    Agree (fun a b => g a = g b) (numberOr name bare object v.reduced) (numberOr name bare object v) := by
  cases v with
  | dict es =>
    have hes := hobject es
    rw [Value.reduced_dict, numberOr, numberOr]
    generalize object (es.map fun e => (e.1, e.2.reduced)) = a? at hes
    generalize object es = b? at hes
    cases a? with
    | none =>
      rw [Option.map_eq_none_iff.1 hes.symm]
      exact .error _
    | some a =>
      obtain ⟨b, rfl, hb⟩ := Option.map_eq_some_iff.1 hes.symm
      exact .ok hb.symm
  | float x =>
    have hread : numberOr name bare object (.float x) = .ok (bare (.float x)) :=
      numberOr_ofNumber bare object (.float x)
    rw [Value.reduced, numberOr_ofNumber, hread]
    exact .ok (hbare _ _ (Number.reduced_reduced _))
  | list xs => rw [Value.reduced_list, numberOr_list, numberOr_list]; exact .error _
  | tuple xs => rw [Value.reduced_tuple, numberOr_tuple, numberOr_tuple]; exact .error _
  | set xs => rw [Value.reduced_set, numberOr_set, numberOr_set]; exact .error _
  | _ => exact .of_eq (fun _ => rfl) rfl

/-- With any room the lenient reader takes reduced bounds for reduced limits and reduced constraints for
reduced rules. -/
theorem readAlike_reduced [Host] [LawfulHost] (room : Nat) :
    ReadAlike room Value.reduced Value.reduced Limit.reduced LengthRule.reduced where
  limit {name} hname es := by
    have hbound : Value.mapProperty Value.reduced Value.reduced name = Value.reduced := by
      rcases hname with rfl | rfl <;> rfl
    have hget : Entries.get? name (Value.mapProperties Value.reduced Value.reduced es) =
        (es.get? name).map Value.reduced := by
      rw [Value.get?_mapProperties, hbound]
    refine agree_readSetting hget (fun _ => Value.reduced_eq_null) fun v _ =>
      agree_numberOr_reduced (fun m n h => ?_) (fun es => ?_) v
    · rw [Limit.reduced, Limit.reduced, h]
    · split
      · rfl
      · rw [Option.map_map, Option.map_map]
        exact map_boundOf?_reduced es
  length es := by
    refine agree_readSetting (Value.get?_mapProperties "length" es)
      (fun _ => Value.reduced_eq_null) fun v _ =>
        agree_numberOr_reduced (fun m n h => ?_) (fun es => ?_) v
    · rw [LengthRule.reduced, LengthRule.reduced, h]
    · split
      · rfl
      · rw [Option.map_map, Option.map_map]
        exact map_lengthRangeOf?_reduced es

theorem rawAlike_reduced :
    RawAlike Value.reduced Value.reduced Limit.reduced LengthRule.reduced where
  limit l := by
    cases l with
    | bare n => exact Value.reduced_ofNumber n
    | bound b =>
      obtain ⟨n, exclusive⟩ := b
      have hvalue := Value.reduced_ofNumber n
      have hexclusive : (Extent.given.truth "exclusive" false exclusive).map
          (fun e => (e.1, e.2.reduced)) = Extent.given.truth "exclusive" false exclusive := by
        cases exclusive <;> rfl
      rw [Limit.raw, Bound.raw, Value.reduced_dict, List.map_append, hexclusive, List.map_singleton,
        hvalue]
      rfl
  rule r := by
    cases r with
    | exactly n => exact Value.reduced_ofNumber n
    | range r =>
      have hsetting (name : Text) (s : Setting Number) :
          (Extent.setting .given name .ofNumber s).map (fun e => (e.1, e.2.reduced)) =
            Extent.setting .given name .ofNumber (s.map Number.reduced) := by
        cases s with
        | absent => rfl
        | null => rfl
        | given n => exact congrArg (fun v => [(Value.str name, v)]) (Value.reduced_ofNumber n)
      rw [LengthRule.raw, Value.reduced_dict, List.map_append, hsetting, hsetting]
      rfl
  noBound := rfl
  noLength := rfl

theorem dump_reducedBounds (b : Block) : b.reducedBounds.dump = b.dump.reducedBounds :=
  dump_mapBounds rawAlike_reduced b

end Block

end DocShape
