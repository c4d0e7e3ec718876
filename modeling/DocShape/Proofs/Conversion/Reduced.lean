import DocShape.Proofs.Conversion.Bounds
import DocShape.Proofs.Schema.Reduced

/-!
# Conversions along reduced bounds and of reduced values

A conversion asks of bounds and lengths what does not tell a number from its reduced form, so it makes
the same of a value along a block and along its reduced form (`Block.convert_mapBounds`). The same
findings are made on a value and on its reduced form, and what is made of the one is the reduced form of
what is made of the other (`Block.convert_reduced`). The numbers that a block takes are an interval
(`Block.convert_between`).
-/

namespace DocShape

/-! ## Rules -/

section Rules

variable (path : Path) (n : Number)

@[simp] theorem Limit.value_reduced (l : Limit) : l.reduced.value = l.value.reduced := by
  cases l <;> rfl

@[simp] theorem Limit.isExclusive_reduced (l : Limit) : l.reduced.isExclusive = l.isExclusive := by
  cases l <;> rfl

theorem Limit.checkLeast_reduced (l : Limit) :
    l.reduced.checkLeast path n = l.checkLeast path n := by
  simp only [checkLeast, value_reduced, isExclusive_reduced, Number.shown?_reduced,
    Number.lt_reduced_left, Number.le_reduced_left]

theorem Limit.checkMost_reduced (l : Limit) :
    l.reduced.checkMost path n = l.checkMost path n := by
  simp only [checkMost, value_reduced, isExclusive_reduced, Number.shown?_reduced,
    Number.lt_reduced_right, Number.le_reduced_right]

theorem Limit.checkLeast_node_reduced (l : Limit) :
    l.checkLeast path n.reduced = l.checkLeast path n := by
  simp only [checkLeast, Number.lt_reduced_right, Number.le_reduced_right]

theorem Limit.checkMost_node_reduced (l : Limit) :
    l.checkMost path n.reduced = l.checkMost path n := by
  simp only [checkMost, Number.lt_reduced_left, Number.le_reduced_left]

theorem LengthRule.check_reduced (size : Nat) (rule : LengthRule) :
    rule.reduced.check path size = rule.check path size := by
  have hbound (bound : Number) (test : Int → Bool) (finding : Text → Finding) :
      checkLengthBound bound.reduced test finding = checkLengthBound bound test finding := by
    rw [checkLengthBound, checkLengthBound, Number.truncate_reduced]
  have hoptional (bound : Setting Number) (test : Int → Bool) (finding : Text → Finding) :
      checkOptionalBound (bound.map Number.reduced) test finding =
        checkOptionalBound bound test finding := by
    cases bound with
    | given n => exact hbound n test finding
    | _ => rfl
  cases rule with
  | exactly n => exact hbound _ _ _
  | range r => simp only [reduced, check, hoptional]

end Rules

theorem checksAlike_reduced : ChecksAlike Eq Limit.reduced LengthRule.reduced :=
  ⟨Limit.checkLeast_reduced, Limit.checkMost_reduced, LengthRule.check_reduced⟩

/-! ## Reduced values -/

/-- A converted value with its numbers in reduced form. -/
def Converted.reduced (c : Converted) : Converted := ⟨c.value.reduced, c.findings⟩

namespace Converted

theorem reduced_leaf (v : Value) (fs : List Finding) :
    (leaf v fs).reduced = leaf v.reduced fs := by
  cases fs <;> rfl

theorem reduced_ofItems (before : List Finding) (parts : List Converted) :
    (ofItems before parts).reduced = ofItems before (parts.map reduced) := by
  rw [ofItems, reduced, Value.reduced_list, ofItems, List.map_map, List.map_map, List.flatMap_map]
  rfl

theorem reduced_ofEntries (before : List Finding) (es : Entries) (fs : List Finding) :
    (ofEntries before (es, fs)).reduced = ofEntries before (es.map (fun e => (e.1, e.2.reduced)), fs) := by
  rw [ofEntries, reduced, Value.reduced_dict]
  rfl

/-- What entries become shows in their values, and not in what is found. -/
theorem entries_reduced (d : Direction) (path : Path) (kind : KeyKind)
    (convert : Path → Value → Converted) (index : Nat) (es : Entries) :
    entries d path kind (fun p x => (convert p x).reduced) index es =
      ((entries d path kind convert index es).1.map (fun e => (e.1, e.2.reduced)),
        (entries d path kind convert index es).2) := by
  induction es generalizing index with
  | nil => rfl
  | cons e es ih =>
    obtain ⟨k, v⟩ := e
    cases hk : d.key? kind k with
    | none => rw [entries_of_bad hk, entries_of_bad hk, ih]
    | some r =>
      cases r with
      | error f => rw [entries_of_halt hk, entries_of_halt hk, ih]
      | ok r =>
        obtain ⟨key, shown⟩ := r
        rw [entries_of_key hk, entries_of_key hk, ih]
        rfl

end Converted

theorem Direction.items?_reduced (d : Direction) (v : Value) :
    d.items? v.reduced = (d.items? v).map (List.map Value.reduced) := by
  cases v with
  | float x =>
    exact Value.reducedFloatCases (by cases d <;> rfl) fun _ => by cases d <;> rfl
  | list xs => rw [Value.reduced_list]; cases d <;> rfl
  | tuple xs => rw [Value.reduced_tuple]; cases d <;> rfl
  | _ => cases d <;> rfl

theorem Header.excuses_reduced (h : Header) (v : Value) : h.excuses v.reduced = h.excuses v := by
  rw [Bool.eq_iff_iff, Block.excuses_eq_true, Block.excuses_eq_true, Value.reduced_eq_null]

theorem missingFields_reduced (path : Path) (es : Entries) (fields : List (Text × Block)) :
    missingFields path (es.map fun e => (e.1, e.2.reduced)) fields = missingFields path es fields := by
  induction fields with
  | nil => rfl
  | cons f fields ih => rw [missingFields, missingFields, ih, Entries.has_map_values]

/-- The fields that are missing become null, which has no numbers. -/
theorem map_reduced_missingFields (path : Path) (es : Entries) (fields : List (Text × Block)) :
    (missingFields path es fields).1.map (fun e => (e.1, e.2.reduced)) =
      (missingFields path es fields).1 := by
  induction fields with
  | nil => rfl
  | cons f fields ih =>
    cases hhas : es.has f.1 with
    | true => rw [missingFields_of_has hhas, ih]
    | false =>
      cases hoption : f.2.isOptional with
      | true => rw [missingFields_of_optional hhas hoption, List.map_cons, ih]; rfl
      | false => rw [missingFields_of_missing hhas hoption, ih]

namespace Block

section Values

variable {d : Direction}

/-- What is made of the reduced form of a value is the reduced form of what is made of it. -/
def Reduces [Host] (d : Direction) (b : Block) : Prop :=
  ∀ path v, b.convert d path v.reduced = (b.convert d path v).reduced

theorem convertFlag_reduced (path : Path) (v : Value) :
    convertFlag d path v.reduced = (convertFlag d path v).reduced := by
  cases v with
  | float x => exact Value.reducedFloatCases rfl fun _ => rfl
  | _ => rfl

theorem convertNumber_reduced (path : Path) (decimal : Bool) (minimum maximum : Setting Limit)
    (v : Value) :
    convertNumber d path decimal minimum maximum v.reduced =
      (convertNumber d path decimal minimum maximum v).reduced := by
  unfold convertNumber
  rw [Value.finiteNumber?_reduced]
  cases v.finiteNumber? with
  | none => rfl
  | some n =>
    simp only [Option.map_some, Number.isIntegral_reduced, Limit.checkLeast_node_reduced,
      Limit.checkMost_node_reduced]
    split
    · rfl
    · rw [Converted.reduced_leaf]

theorem convertString_reduced [Host] (path : Path) (length : Setting LengthRule)
    (pattern : Setting Text) (v : Value) :
    convertString d path length pattern v.reduced = (convertString d path length pattern v).reduced := by
  cases v with
  | float x => exact Value.reducedFloatCases rfl fun _ => rfl
  | str t => exact (Converted.reduced_leaf _ _).symm
  | _ => rfl

theorem convertEnum_reduced (path : Path) (values : List Text) (v : Value) :
    convertEnum d path values v.reduced = (convertEnum d path values v).reduced := by
  cases v with
  | float x => exact Value.reducedFloatCases rfl fun _ => rfl
  | str t => exact (Converted.reduced_leaf _ _).symm
  | _ => rfl

theorem convertArray_reduced [Host] {value : Block} (hvalue : value.Reduces d) (path : Path)
    (length : Setting LengthRule) (v : Value) :
    convertArray d path value length v.reduced = (convertArray d path value length v).reduced := by
  rw [convertArray, convertArray, Direction.items?_reduced]
  cases d.items? v with
  | none => rfl
  | some xs =>
    simp only [Option.map_some, Converted.reduced_ofItems, Converted.map_items, Converted.items_map,
      List.length_map, hvalue _]

theorem convertObject_reduced [Host] {value : Block} (hvalue : value.Reduces d) (path : Path)
    (key : KeyKind) (length : Setting LengthRule) (v : Value) :
    convertObject d path key value length v.reduced =
      (convertObject d path key value length v).reduced := by
  cases v with
  | dict es =>
    have hentries : Converted.entries d path key (fun p x => value.convert d p x) 0
          (es.map fun e => (e.1, e.2.reduced)) =
        Converted.entries d path key (fun p x => (value.convert d p x).reduced) 0 es :=
      Converted.entries_map fun e _ p => hvalue p e.2
    rw [Value.reduced_dict, convertObject, convertObject, hentries, Converted.entries_reduced,
      List.length_map, Converted.reduced_ofEntries]
  | float x => exact Value.reducedFloatCases rfl fun _ => rfl
  | _ => rfl

theorem convertPositions_reduced [Host] {bs : List Block} (hbs : ∀ b ∈ bs, b.Reduces d) (path : Path)
    (index : Nat) (xs : List Value) :
    convertPositions d path index bs (xs.map Value.reduced) =
      (convertPositions d path index bs xs).map Converted.reduced := by
  induction bs generalizing index xs with
  | nil => rfl
  | cons b bs ih =>
    obtain ⟨hb, hbs⟩ := List.forall_mem_cons.1 hbs
    cases xs with
    | nil => rfl
    | cons x xs => rw [List.map_cons, convertPositions, convertPositions, hb, ih hbs, List.map_cons]

theorem convertTuple_reduced [Host] {items : List Block} (hitems : ∀ b ∈ items, b.Reduces d)
    (path : Path) (v : Value) :
    convertTuple d path items v.reduced = (convertTuple d path items v).reduced := by
  rw [convertTuple, convertTuple, Direction.items?_reduced]
  cases d.items? v with
  | none => rfl
  | some xs =>
    simp only [Option.map_some, List.length_map, convertPositions_reduced hitems]
    split
    · rw [Converted.reduced_ofItems]
    · rfl

theorem fieldEntries_reduced [Host] {fields : List (Text × Block)}
    (hfields : ∀ f ∈ fields, f.2.Reduces d)
    (path : Path) (es : Entries) :
    fieldEntries d path fields (es.map fun e => (e.1, e.2.reduced)) =
      ((fieldEntries d path fields es).1.map (fun e => (e.1, e.2.reduced)),
        (fieldEntries d path fields es).2) := by
  induction es with
  | nil => rfl
  | cons e es ih =>
    obtain ⟨k, v⟩ := e
    rw [List.map_cons]
    cases hb : fieldOf? fields k with
    | none => rw [fieldEntries_of_unexpected hb, fieldEntries_of_unexpected hb, ih]
    | some b =>
      obtain ⟨name, rfl, hname⟩ := fieldOf?_eq_some.1 hb
      rw [fieldEntries_of_field hname, fieldEntries_of_field hname, ih,
        hfields _ (mem_of_lookup hname)]
      rfl

theorem convertMap_reduced [Host] {fields : List (Text × Block)} (hfields : ∀ f ∈ fields, f.2.Reduces d)
    (path : Path) (v : Value) :
    convertMap d path fields v.reduced = (convertMap d path fields v).reduced := by
  cases v with
  | dict es =>
    rw [Value.reduced_dict, convertMap, convertMap, fieldEntries_reduced hfields,
      missingFields_reduced]
    simp only [Converted.reduced, Value.reduced_dict, List.map_append, map_reduced_missingFields]
  | float x => exact Value.reducedFloatCases rfl fun _ => rfl
  | _ => rfl

/-- A conversion does not tell a value from its reduced form. -/
theorem convert_reduced [Host] (b : Block) (d : Direction) : b.Reduces d := by
  induction b using Block.partsInduction with
  | step b ih =>
    intro path v
    cases hexcused : b.header.excuses v with
    | true =>
      rw [convert_of_excused hexcused, convert_of_excused (by rwa [Header.excuses_reduced])]
      rfl
    | false =>
      rw [convert_of_not_excused hexcused, convert_of_not_excused (by rwa [Header.excuses_reduced])]
      cases b with
      | flag header => exact convertFlag_reduced path v
      | number header decimal minimum maximum => exact convertNumber_reduced path _ minimum maximum v
      | string header length pattern => exact convertString_reduced path length pattern v
      | enum header values => exact convertEnum_reduced path values v
      | array header value length =>
        exact convertArray_reduced (ih value List.mem_cons_self) path length v
      | object header key value length =>
        exact convertObject_reduced (ih value List.mem_cons_self) path key length v
      | tuple header items => exact convertTuple_reduced ih path v
      | map header fields =>
        exact convertMap_reduced (fun f hf => ih f.2 (List.mem_map_of_mem hf)) path v

end Values

/-- Values that differ in how their numbers are represented are converted alike along blocks that
differ in how the numbers of their bounds are represented. -/
theorem reduced_convert_congr [Host] {b c : Block} {v w : Value}
    (hb : b.reducedBounds = c.reducedBounds)
    (hv : v.reduced = w.reduced) (d : Direction) (path : Path) :
    (b.convert d path v).reduced = (c.convert d path w).reduced := by
  have hbounds (b : Block) (v : Value) :
      (b.convert d path v).reduced = b.reducedBounds.convert d path v.reduced := by
    rw [reducedBounds, (convert_mapBounds revealing_eq checksAlike_reduced b _ _).eq, convert_reduced]
  rw [hbounds, hbounds, hb, hv]

end Block

/-! ## Numbers between numbers -/

section Between

variable {path : Path} {a b n : Number} {l : Limit} {bound : Setting Limit}

theorem Limit.checkLeast_eq_nil : l.checkLeast path n = [] ↔
    l.value.shown?.isSome = true ∧
      (if l.isExclusive = true then l.value.lt n else l.value.le n) = true := by
  unfold checkLeast
  cases l.value.shown? with
  | none => simp
  | some shown => cases l.isExclusive <;> simp

theorem Limit.checkMost_eq_nil : l.checkMost path n = [] ↔
    l.value.shown?.isSome = true ∧
      (if l.isExclusive = true then n.lt l.value else n.le l.value) = true := by
  unfold checkMost
  cases l.value.shown? with
  | none => simp
  | some shown => cases l.isExclusive <;> simp

theorem leastFindings_eq_nil_of_le (hab : a.le b = true) (h : leastFindings path a bound = []) :
    leastFindings path b bound = [] := by
  unfold leastFindings at h ⊢
  split
  · rfl
  · next l hl =>
    rw [hl] at h
    obtain ⟨hshown, htest⟩ := Limit.checkLeast_eq_nil.1 h
    refine Limit.checkLeast_eq_nil.2 ⟨hshown, ?_⟩
    split at htest
    · next hexclusive =>
      rw [if_pos hexclusive]
      exact Number.lt_of_lt_of_le htest hab
    · next hinclusive =>
      rw [if_neg hinclusive]
      exact Number.le_trans htest hab

theorem mostFindings_eq_nil_of_le (hab : a.le b = true) (h : mostFindings path b bound = []) :
    mostFindings path a bound = [] := by
  unfold mostFindings at h ⊢
  split
  · rfl
  · next l hl =>
    rw [hl] at h
    obtain ⟨hshown, htest⟩ := Limit.checkMost_eq_nil.1 h
    refine Limit.checkMost_eq_nil.2 ⟨hshown, ?_⟩
    split at htest
    · next hexclusive =>
      rw [if_pos hexclusive]
      exact Number.lt_of_le_of_lt hab htest
    · next hinclusive =>
      rw [if_neg hinclusive]
      exact Number.le_trans hab htest

end Between

namespace Block

variable {d : Direction} {path : Path} {header : Header} {decimal : Option Bool}
  {minimum maximum : Setting Limit}

/-- A number along a block that allows fractions is held against the bounds. -/
theorem convert_ofNumber [Host] {n : Number} (hdecimal : decimal ≠ some false)
    (hn : n.isFinite = true) :
    (number header decimal minimum maximum).convert d path (.ofNumber n) =
      .leaf (.ofNumber n) (leastFindings path n minimum ++ mostFindings path n maximum) := by
  have hexcused : (number header decimal minimum maximum).header.excuses (.ofNumber n) = false := by
    cases n <;> rfl
  have hvalue : (Value.ofNumber n).finiteNumber? = some n :=
    Value.finiteNumber?_eq_some.2 ⟨rfl, hn⟩
  have hfraction : decimal.getD true = true := by
    cases decimal with
    | none => rfl
    | some b =>
      cases b with
      | true => rfl
      | false => exact absurd rfl hdecimal
  rw [convert_of_not_excused hexcused]
  refine convertNumber_of_number hvalue fun hwhole => ?_
  rw [hfraction] at hwhole
  cases hwhole

/-- The numbers that a block takes without a finding are an interval. -/
theorem convert_between [Host] {a b c : Number} (hdecimal : decimal ≠ some false)
    (ha : a.isFinite = true) (hb : b.isFinite = true) (hc : c.isFinite = true)
    (hab : a.exact ≤ b.exact) (hbc : b.exact ≤ c.exact)
    (hleast : ((number header decimal minimum maximum).convert d path (.ofNumber a)).findings = [])
    (hmost : ((number header decimal minimum maximum).convert d path (.ofNumber c)).findings = []) :
    (number header decimal minimum maximum).convert d path (.ofNumber b) = ⟨.ofNumber b, []⟩ := by
  rw [convert_ofNumber hdecimal ha, Converted.leaf] at hleast
  rw [convert_ofNumber hdecimal hc, Converted.leaf] at hmost
  rw [convert_ofNumber hdecimal hb,
    leastFindings_eq_nil_of_le ((Number.le_iff ha hb).2 hab) (List.append_eq_nil_iff.1 hleast).1,
    mostFindings_eq_nil_of_le ((Number.le_iff hb hc).2 hbc) (List.append_eq_nil_iff.1 hmost).2]
  rfl

end Block

end DocShape
