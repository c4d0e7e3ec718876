import DocShape.Proofs.Conversion.Keys
import DocShape.Proofs.Conversion.Walk
import DocShape.Proofs.Placing

/-!
# Conversions seen from further out

The path at which a walk starts shows in the paths of its findings and nowhere else: what is made of a
value does not depend on it, and the findings are those of a walk that starts further in, with the rest
of the path in front (`convert_append`).
-/

namespace DocShape

/-- A converted value whose findings are seen from further out. -/
def Converted.under (path : Path) (c : Converted) : Converted :=
  ⟨c.value, c.findings.map (.under path)⟩

/-! ## Rules -/

section Rules

variable (path below : Path)

theorem Limit.checkLeast_append (node : Number) (limit : Limit) :
    limit.checkLeast (path ++ below) node = (limit.checkLeast below node).map (.under path) := by
  unfold checkLeast
  cases limit.value.shown? with
  | none => rfl
  | some shown =>
    dsimp only
    split
    · split <;> rfl
    · split <;> rfl

theorem Limit.checkMost_append (node : Number) (limit : Limit) :
    limit.checkMost (path ++ below) node = (limit.checkMost below node).map (.under path) := by
  unfold checkMost
  cases limit.value.shown? with
  | none => rfl
  | some shown =>
    dsimp only
    split
    · split <;> rfl
    · split <;> rfl

theorem Number.under_truncate {n : Number} {f : Failure} (h : n.truncate = .error f) :
    f.under path = f := by
  unfold Number.truncate at h
  split at h <;> cases h <;> rfl

theorem checkLengthBound_append (bound : Number) (test : Int → Bool) (cause : Text → Mismatch) :
    checkLengthBound bound test (fun shown => .mismatch (path ++ below) (cause shown)) =
      (checkLengthBound bound test fun shown => .mismatch below (cause shown)).map
        (.under path) := by
  unfold checkLengthBound
  cases htruncate : bound.truncate with
  | error f =>
    simp only [List.map_cons, List.map_nil, Finding.under_halt, Number.under_truncate path htruncate]
  | ok n =>
    dsimp only
    split
    · rfl
    · simp only [List.map_cons, List.map_nil, Finding.under_quotingInt, Finding.under_mismatch]

theorem checkOptionalBound_append (bound : Setting Number) (test : Int → Bool)
    (cause : Text → Mismatch) :
    checkOptionalBound bound test (fun shown => .mismatch (path ++ below) (cause shown)) =
      (checkOptionalBound bound test fun shown => .mismatch below (cause shown)).map
        (.under path) := by
  unfold checkOptionalBound
  cases bound.value? with
  | none => rfl
  | some n => exact checkLengthBound_append path below n test cause

theorem checkLength_append (size : Nat) (rule : Setting LengthRule) :
    checkLength (path ++ below) size rule = (checkLength below size rule).map (.under path) := by
  unfold checkLength
  cases rule.value? with
  | none => rfl
  | some r =>
    cases r with
    | exactly n => exact checkLengthBound_append path below n _ .lengthNot
    | range r =>
      simp only [LengthRule.check, List.isEmpty_map,
        checkOptionalBound_append path below _ _ (Mismatch.lengthOutOfBounds _)]
      split <;> rfl

theorem checkPattern_append [Host] (t : Text) (pattern : Setting Text) :
    checkPattern (path ++ below) t pattern = (checkPattern below t pattern).map (.under path) := by
  unfold checkPattern
  cases pattern.value? with
  | none => rfl
  | some p =>
    cases hread : Pattern.compile p with
    | error refusal =>
      dsimp only
      rw [hread]
      cases refusal <;> rfl
    | ok node =>
      dsimp only
      rw [hread]
      dsimp only
      split <;> rfl

end Rules

/-! ## Nodes -/

namespace Converted

variable (path : Path)

theorem under_leaf (v : Value) (fs : List Finding) :
    (leaf v fs).under path = leaf v (fs.map (.under path)) := by
  rw [leaf, leaf, under, List.isEmpty_map]

theorem under_ofItems (before : List Finding) (parts : List Converted) :
    (ofItems before parts).under path = ofItems (before.map (.under path)) (parts.map (under path)) := by
  simp only [ofItems, under, List.map_append, List.map_map, Function.comp_def, List.map_flatMap,
    List.flatMap_map]

theorem entries_append {d : Direction} {kind : KeyKind} {convert : Path → Value → Converted}
    (below : Path) (h : ∀ below v, convert (path ++ below) v = (convert below v).under path)
    (index : Nat) (es : Entries) :
    entries d (path ++ below) kind convert index es =
      ((entries d below kind convert index es).1,
        (entries d below kind convert index es).2.map (.under path)) := by
  induction es generalizing index with
  | nil => rfl
  | cons e es ih =>
    obtain ⟨k, v⟩ := e
    cases hk : d.key? kind k with
    | none =>
      rw [entries_of_bad hk, entries_of_bad hk, ih]
      rfl
    | some r =>
      cases r with
      | error f =>
        -- the failure tells of the key alone
        have hf : f.under path = f := by
          cases Direction.key?_eq_error_iff.1 hk <;> rfl
        rw [entries_of_halt hk, entries_of_halt hk, ih, List.map_cons, Finding.under_halt, hf]
      | ok key =>
        rw [entries_of_key hk, entries_of_key hk, ih, List.append_assoc, h, List.map_append]
        rfl

end Converted

theorem missingFields_append (path below : Path) (es : Entries) (fields : List (Text × Block)) :
    missingFields (path ++ below) es fields =
      ((missingFields below es fields).1, (missingFields below es fields).2.map (.under path)) := by
  induction fields with
  | nil => rfl
  | cons f fields ih =>
    cases hhas : es.has f.1 with
    | true => rw [missingFields_of_has hhas, missingFields_of_has hhas, ih]
    | false =>
      cases hoption : f.2.isOptional with
      | true => rw [missingFields_of_optional hhas hoption, missingFields_of_optional hhas hoption, ih]
      | false =>
        rw [missingFields_of_missing hhas hoption, missingFields_of_missing hhas hoption, ih]
        rfl

namespace Block

/-- The walk along a block does not depend on where it starts. -/
def Placed [Host] (b : Block) (d : Direction) : Prop :=
  ∀ path below v, b.convert d (path ++ below) v = (b.convert d below v).under path

variable {d : Direction} (path below : Path)

theorem fieldEntries_path_append [Host] {fields : List (Text × Block)}
    (hfields : ∀ f ∈ fields, f.2.Placed d) (es : Entries) :
    fieldEntries d (path ++ below) fields es =
      ((fieldEntries d below fields es).1, (fieldEntries d below fields es).2.map (.under path)) := by
  induction es with
  | nil => rfl
  | cons e es ih =>
    obtain ⟨k, v⟩ := e
    cases hb : fieldOf? fields k with
    | none =>
      rw [fieldEntries_of_unexpected hb, fieldEntries_of_unexpected hb, ih, List.map_cons,
        Finding.under_quoting]
      rfl
    | some b =>
      obtain ⟨name, rfl, hname⟩ := fieldOf?_eq_some.1 hb
      rw [fieldEntries_of_field hname, fieldEntries_of_field hname, ih, List.append_assoc,
        hfields _ (mem_of_lookup hname), List.map_append]
      rfl

theorem convertPositions_append [Host] {bs : List Block} (hbs : ∀ b ∈ bs, b.Placed d) (index : Nat)
    (xs : List Value) :
    convertPositions d (path ++ below) index bs xs =
      (convertPositions d below index bs xs).map (.under path) := by
  induction bs generalizing index xs with
  | nil => rfl
  | cons b bs ih =>
    cases xs with
    | nil => rfl
    | cons x xs =>
      rw [convertPositions, convertPositions, List.append_assoc, hbs b List.mem_cons_self,
        ih (fun c hc => hbs c (List.mem_cons_of_mem _ hc)), List.map_cons]

theorem convertNumber_append (decimal : Bool) (minimum maximum : Setting Limit) (v : Value) :
    convertNumber d (path ++ below) decimal minimum maximum v =
      (convertNumber d below decimal minimum maximum v).under path := by
  unfold convertNumber
  cases v.finiteNumber? with
  | none => rfl
  | some n =>
    dsimp only
    split
    · rfl
    · rw [Converted.under_leaf, List.map_append]
      cases minimum.value? <;> cases maximum.value? <;>
        simp only [List.map_nil, Limit.checkLeast_append, Limit.checkMost_append]

theorem convertString_append [Host] (length : Setting LengthRule) (pattern : Setting Text) (v : Value) :
    convertString d (path ++ below) length pattern v =
      (convertString d below length pattern v).under path := by
  cases v with
  | str t =>
    simp only [convertString, Converted.under_leaf, List.map_append, checkLength_append,
      checkPattern_append]
  | _ => rfl

theorem convertEnum_append (values : List Text) (v : Value) :
    convertEnum d (path ++ below) values v = (convertEnum d below values v).under path := by
  cases v with
  | str t =>
    simp only [convertEnum, Converted.under_leaf]
    split <;> rfl
  | _ => rfl

theorem convertArray_append [Host] {value : Block} (hvalue : value.Placed d)
    (length : Setting LengthRule) (v : Value) :
    convertArray d (path ++ below) value length v = (convertArray d below value length v).under path := by
  unfold convertArray
  cases d.items? v with
  | none => rfl
  | some xs =>
    simp only [Converted.under_ofItems, Converted.map_items, checkLength_append, List.append_assoc,
      hvalue path]

theorem convertObject_append [Host] {value : Block} (hvalue : value.Placed d) (kind : KeyKind)
    (length : Setting LengthRule) (v : Value) :
    convertObject d (path ++ below) kind value length v =
      (convertObject d below kind value length v).under path := by
  cases v with
  | dict es =>
    have hentries : Converted.entries d (path ++ below) kind (fun p x => value.convert d p x) 0 es = _ :=
      Converted.entries_append path below (hvalue path) 0 es
    simp only [convertObject, Converted.ofEntries, Converted.under, List.map_append,
      checkLength_append, hentries]
  | _ => rfl

theorem convertTuple_append [Host] {items : List Block} (hitems : ∀ b ∈ items, b.Placed d) (v : Value) :
    convertTuple d (path ++ below) items v = (convertTuple d below items v).under path := by
  unfold convertTuple
  cases d.items? v with
  | none => rfl
  | some xs =>
    dsimp only
    split
    · rw [convertPositions_append path below hitems, Converted.under_ofItems, List.map_nil]
    · rfl

theorem convertMap_append [Host] {fields : List (Text × Block)} (hfields : ∀ f ∈ fields, f.2.Placed d)
    (v : Value) :
    convertMap d (path ++ below) fields v = (convertMap d below fields v).under path := by
  cases v with
  | dict es =>
    simp only [convertMap, Converted.under, List.map_append, missingFields_append,
      fieldEntries_path_append path below hfields]
  | _ => rfl

/-- A walk that starts further out makes the same of a value, and finds the same with the rest of the
path in front. -/
theorem convert_append [Host] (b : Block) (d : Direction) : b.Placed d := by
  induction b using Block.partsInduction with
  | step b ih =>
    intro path below v
    by_cases hexcused : b.header.excuses v = true
    · rw [convert_of_excused hexcused, convert_of_excused hexcused]
      rfl
    have hexcused := Bool.eq_false_iff.2 hexcused
    rw [convert_of_not_excused hexcused, convert_of_not_excused hexcused]
    cases b with
    | flag h => cases v <;> rfl
    | number h decimal minimum maximum => exact convertNumber_append path below _ minimum maximum v
    | string h length pattern => exact convertString_append path below length pattern v
    | enum h values => exact convertEnum_append path below values v
    | array h value length =>
      exact convertArray_append path below (ih value List.mem_cons_self) length v
    | object h kind value length =>
      exact convertObject_append path below (ih value List.mem_cons_self) kind length v
    | tuple h items => exact convertTuple_append path below ih v
    | map h fields =>
      exact convertMap_append path below (fun f hf => ih f.2 (List.mem_map_of_mem hf)) v

/-- What is found on a node, seen from the root. -/
theorem findings_convert [Host] (b : Block) (d : Direction) (path : Path) (v : Value) :
    (b.convert d path v).findings = (b.convert d [] v).findings.map (.under path) := by
  have h := b.convert_append d path [] v
  rw [List.append_nil] at h
  rw [h]
  rfl

end Block

end DocShape
