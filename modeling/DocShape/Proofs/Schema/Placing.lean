import DocShape.Proofs.Placing
import DocShape.Proofs.Schema.GrammarWalk

/-!
# Schema walks seen from further out

The path at which the walk over a raw schema starts is only put in front of the paths of its findings
(`Grammar.block_append`). What is found on a block inside a schema (`Value.Nests`) stands in one piece
among the findings on the schema (`Grammar.infix_of_nests`).
-/

namespace DocShape

namespace Grammar

section Properties

variable (path below : Path) {es : Entries}

theorem require_append (requirement : Requirement) (holds : Bool) :
    require (path ++ below) requirement holds =
      (require below requirement holds).map (.under path) := by
  cases holds <;> rfl

theorem violation_append (segment : Segment) (cause : Violation) :
    [Finding.violation (path ++ below ++ [segment]) cause] =
      [Finding.violation (below ++ [segment]) cause].map (.under path) := by
  rw [List.append_assoc]
  rfl

theorem optional_append (name : Text) (requirement : Requirement) (test : Value → Bool) :
    optional (path ++ below) name requirement test es =
      (optional below name requirement test es).map (.under path) := by
  unfold optional
  cases es.get? name with
  | none => rfl
  | some v =>
    dsimp only
    rw [List.append_assoc, require_append]

theorem unexpected_append (legal : List Text) :
    unexpected (path ++ below) legal es = (unexpected below legal es).map (.under path) := by
  simp only [unexpected, List.map_map, Function.comp_def, Finding.under_quoting,
    Finding.under_violation]

theorem common_append : common (path ++ below) es = (common below es).map (.under path) := by
  simp only [common, optional_append, List.map_append]

/-! ### Bounds -/

theorem boundObject_append :
    boundObject (path ++ below) es =
      ((boundObject below es).1.map (.under path), (boundObject below es).2) := by
  simp only [boundObject, unexpected_append, optional_append, List.isEmpty_map, List.append_assoc]
  split
  · split
    · simp
    · split <;> simp
  · rfl

theorem bound_append (v : Value) :
    bound (path ++ below) v = ((bound below v).1.map (.under path), (bound below v).2) := by
  unfold bound
  cases v.finiteNumber? with
  | some n => rfl
  | none =>
    cases v with
    | dict es => exact boundObject_append path below
    | _ => rfl

theorem optionalBound_append (name : Text) :
    optionalBound (path ++ below) name es =
      ((optionalBound below name es).1.map (.under path), (optionalBound below name es).2) := by
  unfold optionalBound
  cases es.get? name with
  | none => rfl
  | some v =>
    dsimp only
    rw [List.append_assoc, bound_append]

theorem crossing_append (low high : Option Number) :
    crossing (path ++ below) low high = (crossing below low high).map (.under path) := by
  unfold crossing
  split
  · split <;> rfl
  · rfl

theorem number_append : number (path ++ below) es = (number below es).map (.under path) := by
  simp only [number, optional_append, optionalBound_append, crossing_append, List.map_append]

/-! ### Lengths -/

theorem lengthNumber_append (n : Number) :
    lengthNumber (path ++ below) n = (lengthNumber below n).map (.under path) := by
  unfold lengthNumber
  split <;> split <;> rfl

theorem lengthBound_append (name : Text) :
    lengthBound (path ++ below) name es =
      ((lengthBound below name es).1.map (.under path), (lengthBound below name es).2) := by
  unfold lengthBound
  cases es.get? name with
  | none => rfl
  | some v =>
    dsimp only
    rw [List.append_assoc]
    cases v.finiteNumber? with
    | none => rfl
    | some n =>
      dsimp only
      rw [lengthNumber_append]

theorem lengthObject_append :
    lengthObject (path ++ below) es = (lengthObject below es).map (.under path) := by
  simp only [lengthObject, unexpected_append, lengthBound_append, crossing_append, List.isEmpty_map]
  split <;> simp

theorem length_append : length (path ++ below) es = (length below es).map (.under path) := by
  simp only [length, List.append_assoc]
  cases es.get? "length" with
  | none => rfl
  | some v =>
    dsimp only
    cases v.finiteNumber? with
    | some n => exact lengthNumber_append path _ n
    | none =>
      cases v with
      | dict es => exact lengthObject_append path _
      | _ => rfl

/-! ### Keys and enumerations -/

theorem keyKind_append : keyKind (path ++ below) es = (keyKind below es).map (.under path) := by
  unfold keyKind
  split
  · rfl
  · split
    · split <;> rfl
    · rfl

theorem enumValues_append (seen : List Text) (xs : List Value) :
    enumValues (path ++ below) seen xs = (enumValues below seen xs).map (.under path) := by
  induction xs generalizing seen with
  | nil => rfl
  | cons x xs ih =>
    simp only [enumValues]
    split
    · rw [ih, List.map_cons, Finding.under_quoting]
      rfl
    · split
      · rw [ih]
        rfl
      · exact ih _

theorem enumeration_append :
    enumeration (path ++ below) es = (enumeration below es).map (.under path) := by
  simp only [enumeration, List.append_assoc]
  split
  · rfl
  · split
    · rfl
    · rfl
    · exact enumValues_append path _ [] _

theorem kind_append :
    kind (path ++ below) es = (kind below es).mapError (List.map (.under path)) := by
  unfold kind
  split
  · rfl
  · split <;> rfl

end Properties

/-! ## Blocks -/

/-- The walk over a raw block does not depend on where it starts. -/
def Placed (v : Value) : Prop :=
  ∀ path below, block (path ++ below) v = (block below v).map (.under path)

section Blocks

variable (path below : Path) {es : Entries}

theorem blocks_append {xs : List Value} (hxs : ∀ x ∈ xs, Placed x) (index : Nat) :
    blocks (path ++ below) index xs = (blocks below index xs).map (.under path) := by
  induction xs generalizing index with
  | nil => rfl
  | cons x xs ih =>
    obtain ⟨hx, hxs⟩ := List.forall_mem_cons.1 hxs
    rw [blocks, blocks, List.append_assoc, hx, ih hxs, List.map_append]

theorem itemList_append {v : Value} (hv : ∀ x ∈ v.parts, Placed x) :
    itemList (path ++ below) v = (itemList below v).map (.under path) := by
  cases v with
  | list xs =>
    cases xs with
    | nil => exact violation_append path below _ _
    | cons x xs => exact blocks_append path below hv 0
  | tuple xs =>
    cases xs with
    | nil => exact violation_append path below _ _
    | cons x xs => exact blocks_append path below hv 0
  | _ => exact violation_append path below _ _

theorem fieldBlocks_append {fs : Entries} (hfs : ∀ e ∈ fs, Placed e.2) :
    fieldBlocks (path ++ below) fs = (fieldBlocks below fs).map (.under path) := by
  induction fs with
  | nil => rfl
  | cons e fs ih =>
    obtain ⟨k, v⟩ := e
    obtain ⟨hv, hfs⟩ := List.forall_mem_cons.1 hfs
    rw [fieldBlocks, fieldBlocks, List.map_append, ih hfs]
    congr 1
    split
    · rw [List.append_assoc, hv]
    · rw [List.map_singleton, Finding.under_quoting, List.append_assoc]
      rfl

theorem fieldDict_append {v : Value} (hv : ∀ x ∈ v.parts, Placed x) :
    fieldDict (path ++ below) v = (fieldDict below v).map (.under path) := by
  cases v with
  | dict fs =>
    cases fs with
    | nil => exact violation_append path below _ _
    | cons e fs =>
      exact fieldBlocks_append path below fun e he => hv e.2 (List.mem_map_of_mem he)
  | _ => exact violation_append path below _ _

theorem requiredValue_append (segment : Segment)
    (hes : ∀ x ∈ (Value.dict es).parts, Placed x) :
    requiredValue (path ++ below) (path ++ below ++ [segment]) es =
      (requiredValue below (below ++ [segment]) es).map (.under path) := by
  unfold requiredValue
  cases h : es.get? "value" with
  | none => rfl
  | some v =>
    dsimp only
    rw [List.append_assoc, hes v (Entries.mem_parts_of_get? h)]

theorem body_append {k : Kind}
    (hes : ∀ x ∈ (Value.dict es).parts, Placed x ∧ ∀ y ∈ x.parts, Placed y) :
    body (path ++ below) es k = (body below es k).map (.under path) := by
  have hvalue : ∀ x ∈ (Value.dict es).parts, Placed x := fun x hx => (hes x hx).1
  have hinner {name : Text} {v : Value} (h : es.get? name = some v) : ∀ y ∈ v.parts, Placed y :=
    (hes v (Entries.mem_parts_of_get? h)).2
  cases k with
  | flag => rfl
  | number => exact number_append path below
  | string => simp only [body, length_append, optional_append, List.map_append]
  | array =>
    rw [body, body, requiredValue_append path below _ hvalue, List.map_append]
    split
    · rw [length_append]
    · rfl
  | object =>
    simp only [body, requiredValue_append path below _ hvalue, keyKind_append, length_append,
      List.map_append]
  | tuple =>
    rw [body, body, items_eq, items_eq]
    cases h : es.get? "items" with
    | none => rfl
    | some v => exact itemList_append path below (hinner h)
  | map =>
    rw [body, body, fields_eq, fields_eq]
    cases h : es.get? "fields" with
    | none => rfl
    | some v => exact fieldDict_append path below (hinner h)
  | enum => exact enumeration_append path below

end Blocks

/-- A walk over a raw schema that starts further out finds the same with the rest of the path in
front. -/
theorem block_append (v : Value) : Placed v := by
  induction v using Value.innerInduction with
  | step v ih =>
    intro path below
    cases v with
    | dict es =>
      cases hkind : kind below es with
      | error fs =>
        have hplaced : kind (path ++ below) es = .error (fs.map (.under path)) := by
          rw [kind_append, hkind]
          rfl
        rw [block_unknown hkind, block_unknown hplaced]
      | ok k =>
        have htype := kind_eq_ok.1 hkind
        rw [block_dict htype, block_dict htype, unexpected_append, body_append path below ih,
          common_append, List.map_append, List.map_append]
    | _ => rfl

/-- What is found on a raw block, seen from the root. -/
theorem block_eq_map_under (path : Path) (v : Value) :
    block path v = (block [] v).map (.under path) := by
  have h := block_append v path []
  rwa [List.append_nil] at h

/-! ## Blocks inside blocks -/

end Grammar

/-- The raw blocks directly inside a block of some kind, each with its segment. -/
inductive Entries.HoldsAt (es : Entries) : Kind → Segment → Value → Prop
  | items {x : Value} (given : es.get? "value" = some x) : HoldsAt es .array .items x
  | values {x : Value} (given : es.get? "value" = some x) : HoldsAt es .object .values x
  | position {v x : Value} {xs : List Value} {index : Nat} (given : es.get? "items" = some v)
    (sequence : v.IsSequence xs) (stands : xs[index]? = some x) :
    HoldsAt es .tuple (.position index) x
  | field {fs : Entries} {name : Text} {x : Value} (given : es.get? "fields" = some (.dict fs))
    (mem : (.str name, x) ∈ fs) (isName : name.isName = true) : HoldsAt es .map (.field name) x

/-- The raw blocks that the walk over a raw schema enters, each with its path. -/
inductive Value.Nests : Value → Path → Value → Prop
  | here (v : Value) : Nests v [] v
  | inside {es : Entries} {k : Kind} {segment : Segment} {x inner : Value} {below : Path}
    (kind : es.get? "type" = some (.str k.name)) (holds : es.HoldsAt k segment x)
    (rest : Nests x below inner) : Nests (.dict es) (segment :: below) inner

namespace Grammar

variable {path : Path} {es : Entries} {x : Value}

theorem infix_blocks {xs : List Value} {position : Nat} (h : xs[position]? = some x) (index : Nat) :
    block (path ++ [.position (index + position)]) x <:+: blocks path index xs := by
  induction xs generalizing index position with
  | nil => cases h
  | cons y xs ih =>
    rw [blocks]
    cases position with
    | zero =>
      obtain rfl := Option.some.inj h
      exact (List.prefix_append _ _).isInfix
    | succ position =>
      rw [Nat.add_comm position, ← Nat.add_assoc]
      exact (ih h (index + 1)).trans (List.suffix_append _ _).isInfix

theorem infix_fieldBlocks {fs : Entries} {name : Text} (h : (.str name, x) ∈ fs)
    (hname : name.isName = true) :
    block (path ++ [.field name]) x <:+: fieldBlocks path fs := by
  induction fs with
  | nil => cases h
  | cons e fs ih =>
    obtain ⟨k, v⟩ := e
    rw [fieldBlocks]
    rcases List.mem_cons.1 h with h | h
    · obtain ⟨rfl, rfl⟩ := Prod.mk.inj h
      simp only [filter_isName_eq_some.2 ⟨rfl, hname⟩]
      exact (List.prefix_append _ _).isInfix
    · exact (ih h).trans (List.suffix_append _ _).isInfix

theorem infix_body {k : Kind} {segment : Segment} (h : es.HoldsAt k segment x) :
    block (path ++ [segment]) x <:+: body path es k := by
  cases h with
  | items given =>
    simp only [body, requiredValue, given]
    exact (List.prefix_append _ _).isInfix
  | values given =>
    simp only [body, requiredValue, given, List.append_assoc]
    exact (List.prefix_append _ _).isInfix
  | @position v _ xs index given sequence stands =>
    have hblocks : items path es = blocks path 0 xs := by
      rw [items_eq, given, Option.elim_some]
      cases xs with
      | nil => cases stands
      | cons y ys => rcases sequence with rfl | rfl <;> rfl
    rw [body, hblocks]
    simpa using infix_blocks stands 0
  | @field fs name _ given mem isName =>
    have hfields : fields path es = fieldBlocks path fs := by
      rw [fields_eq, given, Option.elim_some]
      cases fs with
      | nil => cases mem
      | cons e fs => rfl
    rw [body, hfields]
    exact infix_fieldBlocks mem isName

/-- What is found on a block that the walk enters stands in one piece among what is found on the
whole. -/
theorem infix_of_nests {v inner : Value} {below : Path} (h : v.Nests below inner) (path : Path) :
    block (path ++ below) inner <:+: block path v := by
  induction h generalizing path with
  | here v =>
    have hpath : block (path ++ []) v = block path v := by rw [List.append_nil]
    exact hpath ▸ List.infix_rfl
  | @inside es k segment x inner below kind holds rest ih =>
    have hrest := ih (path ++ [segment])
    rw [List.append_assoc] at hrest
    rw [block_dict kind]
    exact hrest.trans ((infix_body holds).trans (List.infix_append _ _ _))

end Grammar

end DocShape
