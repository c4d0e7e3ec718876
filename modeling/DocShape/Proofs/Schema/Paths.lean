import DocShape.Proofs.Paths
import DocShape.Proofs.Schema.GrammarWalk

/-!
# Where a schema is found at fault

The walk over a raw schema puts property names, positions and field names into the paths of its
findings, and a field name only after it has passed as a name (`Grammar.allNamed_block`). A key that is
no name stands in a message, never in a path.
-/

namespace DocShape

namespace Grammar

section Properties

variable {path : Path} {es : Entries} {name : Text}

theorem allNamed_require (h : path.IsNamed) (requirement : Requirement) (holds : Bool) :
    AllNamed (require path requirement holds) := by
  unfold require
  split
  · exact allNamed_nil
  · exact allNamed_violation h _

theorem allNamed_optional (h : path.IsNamed) (hname : name.isName = true)
    (requirement : Requirement) (test : Value → Bool) :
    AllNamed (optional path name requirement test es) := by
  unfold optional
  split
  · exact allNamed_nil
  · exact allNamed_require (h.concat (Segment.isNamed_property hname)) _ _

/-- A property that is none of its kind is reported on the block that has it. -/
theorem allNamed_unexpected (h : path.IsNamed) (legal : List Text) :
    AllNamed (unexpected path legal es) := by
  intro f hf
  obtain ⟨e, -, rfl⟩ := List.mem_map.1 hf
  exact Finding.isNamed_quoting h e.1 _

theorem allNamed_common (h : path.IsNamed) : AllNamed (common path es) := by
  rw [common, allNamed_append, allNamed_append]
  exact ⟨⟨allNamed_optional h (by decide) _ _, allNamed_optional h (by decide) _ _⟩,
    allNamed_optional h (by decide) _ _⟩

/-! ### Bounds -/

theorem allNamed_boundObject (h : path.IsNamed) : AllNamed (boundObject path es).1 := by
  have hexclusive : AllNamed (optional path "exclusive" .bool isBool es) :=
    allNamed_optional h (by decide) _ _
  unfold boundObject
  dsimp only
  split
  · split
    · exact allNamed_append.2 ⟨hexclusive, allNamed_violation h _⟩
    · split
      · exact hexclusive
      · have hvalue : Path.IsNamed (path ++ [Segment.property "value"]) :=
          h.concat (Segment.isNamed_property (by decide))
        exact allNamed_append.2 ⟨hexclusive, allNamed_violation hvalue _⟩
  · exact allNamed_unexpected h _

theorem allNamed_bound (h : path.IsNamed) (v : Value) : AllNamed (bound path v).1 := by
  unfold bound
  split
  · exact allNamed_nil
  · split
    · exact allNamed_boundObject h
    · exact allNamed_violation h _

theorem allNamed_optionalBound (h : path.IsNamed) (hname : name.isName = true) :
    AllNamed (optionalBound path name es).1 := by
  unfold optionalBound
  split
  · exact allNamed_nil
  · exact allNamed_bound (h.concat (Segment.isNamed_property hname)) _

theorem allNamed_crossing (h : path.IsNamed) (low high : Option Number) :
    AllNamed (crossing path low high) := by
  unfold crossing
  split
  · split
    · exact allNamed_violation h _
    · exact allNamed_nil
  · exact allNamed_nil

theorem allNamed_number (h : path.IsNamed) : AllNamed (number path es) := by
  simp only [number, allNamed_append]
  exact ⟨⟨⟨allNamed_optional h (by decide) _ _, allNamed_optionalBound h (by decide)⟩,
    allNamed_optionalBound h (by decide)⟩, allNamed_crossing h _ _⟩

/-! ### Lengths -/

theorem allNamed_lengthNumber (h : path.IsNamed) (n : Number) : AllNamed (lengthNumber path n) := by
  rw [lengthNumber, allNamed_append]
  constructor
  · split
    · exact allNamed_nil
    · exact List.forall_mem_singleton.2 (Finding.isNamed_warning h _)
  · split
    · exact allNamed_violation h _
    · exact allNamed_nil

theorem allNamed_lengthBound (h : path.IsNamed) (hname : name.isName = true) :
    AllNamed (lengthBound path name es).1 := by
  have hbound : Path.IsNamed (path ++ [Segment.property name]) :=
    h.concat (Segment.isNamed_property hname)
  unfold lengthBound
  split
  · exact allNamed_nil
  · dsimp only
    split
    · exact allNamed_lengthNumber hbound _
    · exact allNamed_violation hbound _

theorem allNamed_lengthObject (h : path.IsNamed) : AllNamed (lengthObject path es) := by
  unfold lengthObject
  dsimp only
  split
  · simp only [allNamed_append]
    exact ⟨⟨allNamed_lengthBound h (by decide), allNamed_lengthBound h (by decide)⟩,
      allNamed_crossing h _ _⟩
  · exact allNamed_unexpected h _

theorem allNamed_length (h : path.IsNamed) : AllNamed (length path es) := by
  have hlength : Path.IsNamed (path ++ [Segment.property "length"]) :=
    h.concat (Segment.isNamed_property (by decide))
  unfold length
  dsimp only
  split
  · exact allNamed_nil
  · split
    · exact allNamed_lengthNumber hlength _
    · split
      · exact allNamed_lengthObject hlength
      · exact allNamed_violation hlength _

/-! ### Keys and enumerations -/

theorem allNamed_keyKind (h : path.IsNamed) : AllNamed (keyKind path es) := by
  unfold keyKind
  split
  · exact allNamed_violation h _
  · split
    · split
      · exact allNamed_nil
      · exact allNamed_violation h _
    · exact allNamed_violation h _

theorem allNamed_enumValues (h : path.IsNamed) (seen : List Text) (xs : List Value) :
    AllNamed (enumValues path seen xs) := by
  induction xs generalizing seen with
  | nil => exact allNamed_nil
  | cons x xs ih =>
    rw [enumValues]
    split
    · exact allNamed_cons.2 ⟨Finding.isNamed_quoting h x _, ih seen⟩
    · split
      · exact allNamed_cons.2 ⟨Finding.isNamed_violation h _, ih seen⟩
      · exact ih _

theorem allNamed_enumeration (h : path.IsNamed) : AllNamed (enumeration path es) := by
  have hvalues : Path.IsNamed (path ++ [Segment.property "values"]) :=
    h.concat (Segment.isNamed_property (by decide))
  unfold enumeration
  split
  · exact allNamed_violation h _
  · dsimp only
    split
    · exact allNamed_violation hvalues _
    · exact allNamed_violation hvalues _
    · exact allNamed_enumValues hvalues _ _

theorem allNamed_kind (h : path.IsNamed) {fs : List Finding} (hkind : kind path es = .error fs) :
    AllNamed fs := by
  unfold kind at hkind
  split at hkind
  · cases hkind
    exact allNamed_violation h _
  · split at hkind
    · cases hkind
    · cases hkind
      exact allNamed_violation h _

end Properties

/-! ## Blocks -/

/-- Wherever the walk over a raw block starts, its paths have names in their segments if that one
has. -/
def KeepsNames (v : Value) : Prop := ∀ path : Path, path.IsNamed → AllNamed (block path v)

section Blocks

variable {path : Path} {es : Entries}

theorem allNamed_blocks (h : path.IsNamed) {xs : List Value} (hxs : ∀ x ∈ xs, KeepsNames x)
    (index : Nat) : AllNamed (blocks path index xs) := by
  induction xs generalizing index with
  | nil => exact allNamed_nil
  | cons x xs ih =>
    obtain ⟨hx, hxs⟩ := List.forall_mem_cons.1 hxs
    rw [blocks, allNamed_append]
    exact ⟨hx _ (h.concat (Segment.isNamed_position index)), ih hxs (index + 1)⟩

theorem allNamed_itemList (h : path.IsNamed) {v : Value} (hv : ∀ x ∈ v.parts, KeepsNames x) :
    AllNamed (itemList path v) := by
  have hitems : Path.IsNamed (path ++ [Segment.property "items"]) :=
    h.concat (Segment.isNamed_property (by decide))
  unfold itemList
  split
  · exact allNamed_violation hitems _
  · exact allNamed_violation hitems _
  · exact allNamed_blocks h hv 0
  · exact allNamed_blocks h hv 0
  · exact allNamed_violation hitems _

/-- The name of a field goes into paths only if it is a name. -/
theorem allNamed_fieldBlocks (h : path.IsNamed) {fs : Entries}
    (hfs : ∀ e ∈ fs, KeepsNames e.2) : AllNamed (fieldBlocks path fs) := by
  induction fs with
  | nil => exact allNamed_nil
  | cons e fs ih =>
    obtain ⟨k, v⟩ := e
    obtain ⟨hv, hfs⟩ := List.forall_mem_cons.1 hfs
    rw [fieldBlocks, allNamed_append]
    refine ⟨?_, ih hfs⟩
    split
    · next name hname =>
      obtain ⟨-, hname⟩ := filter_isName_eq_some.1 hname
      exact hv _ (h.concat (Segment.isNamed_field hname))
    · have hfields : Path.IsNamed (path ++ [Segment.property "fields"]) :=
        h.concat (Segment.isNamed_property (by decide))
      exact List.forall_mem_singleton.2 (Finding.isNamed_quoting hfields k _)

theorem allNamed_fieldDict (h : path.IsNamed) {v : Value} (hv : ∀ x ∈ v.parts, KeepsNames x) :
    AllNamed (fieldDict path v) := by
  have hfields : Path.IsNamed (path ++ [Segment.property "fields"]) :=
    h.concat (Segment.isNamed_property (by decide))
  unfold fieldDict
  split
  · exact allNamed_violation hfields _
  · exact allNamed_fieldBlocks h fun e he => hv e.2 (List.mem_map_of_mem he)
  · exact allNamed_violation hfields _

theorem allNamed_requiredValue (h : path.IsNamed) {inner : Path} (hinner : inner.IsNamed)
    (hes : ∀ x ∈ (Value.dict es).parts, KeepsNames x) :
    AllNamed (requiredValue path inner es) := by
  unfold requiredValue
  split
  · exact allNamed_violation h _
  · next v hv => exact hes v (Entries.mem_parts_of_get? hv) inner hinner

theorem allNamed_body (h : path.IsNamed) {k : Kind}
    (hes : ∀ x ∈ (Value.dict es).parts, KeepsNames x ∧ ∀ y ∈ x.parts, KeepsNames y) :
    AllNamed (body path es k) := by
  have hvalue : ∀ x ∈ (Value.dict es).parts, KeepsNames x := fun x hx => (hes x hx).1
  have hinner {name : Text} {v : Value} (hv : es.get? name = some v) : ∀ y ∈ v.parts, KeepsNames y :=
    (hes v (Entries.mem_parts_of_get? hv)).2
  cases k with
  | flag => exact allNamed_nil
  | number => exact allNamed_number h
  | string =>
    exact allNamed_append.2 ⟨allNamed_length h, allNamed_optional h (by decide) _ _⟩
  | array =>
    refine allNamed_append.2 ⟨allNamed_requiredValue h (h.concat Segment.isNamed_items) hvalue, ?_⟩
    split
    · exact allNamed_length h
    · exact allNamed_nil
  | object =>
    simp only [body, allNamed_append]
    exact ⟨⟨allNamed_requiredValue h (h.concat Segment.isNamed_values) hvalue, allNamed_keyKind h⟩,
      allNamed_length h⟩
  | tuple =>
    rw [body, items_eq]
    cases hv : es.get? "items" with
    | none => exact allNamed_violation h _
    | some v => exact allNamed_itemList h (hinner hv)
  | map =>
    rw [body, fields_eq]
    cases hv : es.get? "fields" with
    | none => exact allNamed_violation h _
    | some v => exact allNamed_fieldDict h (hinner hv)
  | enum => exact allNamed_enumeration h

end Blocks

/-- The findings of a walk over a raw schema are at paths of names. -/
theorem allNamed_block (v : Value) : KeepsNames v := by
  induction v using Value.innerInduction with
  | step v ih =>
    intro path h
    cases v with
    | dict es =>
      cases hkind : kind path es with
      | error fs =>
        rw [block_unknown hkind]
        exact allNamed_kind h hkind
      | ok k =>
        rw [block_dict (kind_eq_ok.1 hkind), allNamed_append, allNamed_append]
        exact ⟨⟨allNamed_unexpected h _, allNamed_body h ih⟩, allNamed_common h⟩
    | _ => exact allNamed_violation h _

end Grammar

end DocShape
