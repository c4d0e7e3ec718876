import DocShape.Proofs.Conversion.Located
import DocShape.Proofs.Conversion.Refusals

/-!
# Where a value is found at fault

A conversion puts positions, field names and keys into the paths of its findings: a field name that its
map declares, and a key only after it has passed as a name or as an integer, which is written as a name
too (`Block.isNamed_of_reaches`). Along a checked block all its findings are at paths of names
(`Block.allNamed_convert`).
-/

namespace DocShape

/-- The text that names a key in paths is a name. -/
theorem Direction.isName_of_key? {d : Direction} {kind : KeyKind} {k key : Value} {shown : Text}
    (h : d.key? kind k = some (.ok (key, shown))) : shown.isName = true := by
  cases kind with
  | integer =>
    obtain ⟨n, -, -, -, rfl⟩ := exists_int_of_integerKey?_ok h
    exact Text.isName_ofInt n
  | string =>
    cases k with
    | str t =>
      rw [key?] at h
      split at h
      · next hname =>
        rw [← (Prod.mk.inj (Except.ok.inj (Option.some.inj h))).2]
        exact hname
      · cases h
    | _ => cases h

namespace Block

/-- The fields of every map in a block have names for names. -/
def WellNamed : Block → Prop := Everywhere fun b => ∀ name ∈ b.fieldNames, name.isName = true

end Block

namespace Value

theorem wellNamed_of_typedAs {v : Value} {b : Block} (h : v.TypedAs b) : b.WellNamed := by
  have hnone : ∀ name ∈ ([] : List Text), name.isName = true := fun _ h => by cases h
  induction h with
  | flag _ => exact .leaf hnone rfl
  | number _ _ _ _ _ => exact .leaf hnone rfl
  | string _ _ _ => exact .leaf hnone rfl
  | array _ _ _ _ ih => exact ⟨hnone, List.forall_mem_singleton.2 ih⟩
  | object _ _ _ _ _ ih => exact ⟨hnone, List.forall_mem_singleton.2 ih⟩
  | tuple _ _ _ _ count _ ih =>
    refine ⟨hnone, fun c hc => ?_⟩
    obtain ⟨x, hx⟩ := exists_zip_of_right count hc
    exact ih _ hx
  | map _ _ _ keys names _ _ ih =>
    constructor
    · intro name hname
      obtain ⟨f, hf, rfl⟩ := List.mem_map.1 hname
      exact names f hf
    · intro c hc
      obtain ⟨f, hf, rfl⟩ := List.mem_map.1 hc
      have hcount := congrArg List.length keys
      rw [List.length_map, List.length_map] at hcount
      obtain ⟨e, he⟩ := exists_zip_of_right hcount hf
      exact ih _ he
  | enum _ _ _ _ _ _ => exact .leaf hnone rfl

end Value

namespace Block

variable {d : Direction} {path below : Path} {b c : Block} {v u : Value} {f : Finding}

/-- What leads to a part of a node has a name for its name. -/
theorem isNamed_segment (hb : ∀ name ∈ b.fieldNames, name.isName = true) {part : Part}
    (h : part ∈ b.partsIn d v) : part.segment.IsNamed := by
  cases b with
  | array h' value length =>
    obtain ⟨i, -, hi⟩ := (numberedFrom_items value 0 _).numbered part h
    rw [hi]
    exact Segment.isNamed_item i
  | object h' kind value length =>
    cases v with
    | dict es =>
      obtain ⟨e, -, he⟩ := List.mem_filterMap.1 h
      obtain ⟨key, shown, hkey, rfl⟩ := entry?_eq_some.1 he
      exact Segment.isNamed_entry (Direction.isName_of_key? hkey)
    | _ => cases h
  | tuple h' items =>
    simp only [partsIn] at h
    split at h
    · split at h
      · obtain ⟨i, -, hi⟩ := (numberedFrom_positions 0 items _).numbered part h
        rw [hi]
        exact Segment.isNamed_position i
      · cases h
    · cases h
  | map h' fields =>
    cases v with
    | dict es =>
      obtain ⟨e, -, he⟩ := List.mem_filterMap.1 h
      obtain ⟨name, c, -, hc, rfl⟩ := field?_eq_some.1 he
      exact Segment.isNamed_field (hb name (List.mem_map_of_mem (mem_of_lookup hc)))
    | _ => cases h
  | _ => cases h

theorem isNamed_of_reaches (h : Reaches d b v below c u) (hb : b.WellNamed) :
    Path.IsNamed below := by
  induction h with
  | here => exact Path.isNamed_nil
  | inside mem _ ih =>
    exact List.forall_mem_cons.2
      ⟨isNamed_segment hb.here mem, ih (hb.inside _ (block_mem_parts mem))⟩

/-- A refusal that is an error is one over a pattern, at the node that has it. -/
theorem Refuses.path_of_complaint [Host] {complaint : Complaint}
    (h : b.Refuses d path v (.complaint complaint)) : complaint.path = path := by
  have hkey {kind : KeyKind} {k : Value} : ¬ d.KeyTooLong kind k (.complaint complaint) :=
    fun hlong => by cases hlong
  generalize hf : Failure.complaint complaint = f at h
  cases h with
  | minimum _ _ unwritable => cases hf.trans unwritable.2
  | maximum _ _ unwritable => cases hf.trans unwritable.2
  | text unwritable => cases hf.trans unwritable.2
  | @pattern _ _ _ _ refusal read =>
    cases refusal with
    | fault fault =>
      rw [Failure.complaint.inj hf]
      rfl
    | _ => cases hf
  | array _ unwritable => cases hf.trans unwritable.2
  | object unwritable => cases hf.trans unwritable.2
  | key _ long => exact absurd (hf ▸ long) hkey
  | field _ _ _ => cases hf

/-- Along a block with names for names and finite numbers, findings are at paths of names. -/
theorem allNamed_convert [Host] (hnames : b.WellNamed) (hb : b.Measured) (d : Direction) (v : Value) :
    AllNamed (b.convert d [] v).findings := by
  intro f hf
  obtain ⟨below, c, u, hreach, hown⟩ := mem_findings_iff.1 hf
  rw [List.nil_append] at hown
  have hbelow := isNamed_of_reaches hreach hnames
  cases isAt_ownFindings hown with
  | mismatch cause => exact Finding.isNamed_mismatch hbelow cause
  | halt failure =>
    have hrefuses := (halt_mem_ownFindings_iff (hreach.measured hb).here).1 hown
    intro p hp
    cases failure with
    | complaint complaint =>
      rw [← Option.some.inj hp, hrefuses.path_of_complaint]
      exact hbelow
    | _ => cases hp

end Block

end DocShape
