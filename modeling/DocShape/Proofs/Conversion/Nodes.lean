import DocShape.Proofs.Conversion.Walk
import DocShape.Proofs.Value.Parts

/-!
# The nodes of a walk

What a walk finds at one node, apart from what it finds inside (`Block.ownFindings`), and the parts of
the node that it goes on to (`Block.partsIn`). A node's findings are its own and those of its parts,
in some order (`findings_perm`); so whatever a walk finds it finds at one of the nodes that it reaches
(`mem_findings_iff`).
-/

namespace DocShape

/-- A part of a node: its segment in paths, its block and its value. -/
structure Part where
  segment : Segment
  block : Block
  value : Value

/-! ## Parts -/

namespace Part

/-- What a walk finds inside a part of the node at a path. -/
def findings [Host] (d : Direction) (path : Path) (part : Part) : List Finding :=
  (part.block.convert d (path ++ [part.segment]) part.value).findings

/-- The items of an array. -/
def items (b : Block) (index : Nat) : List Value → List Part
  | [] => []
  | x :: xs => ⟨.item index, b, x⟩ :: items b (index + 1) xs

/-- The items of a tuple. -/
def positions (index : Nat) : List Block → List Value → List Part
  | b :: bs, x :: xs => ⟨.position index, b, x⟩ :: positions (index + 1) bs xs
  | _, _ => []

/-- The entry of an object, if it has a valid key. -/
def entry? (d : Direction) (kind : KeyKind) (b : Block) (e : Value × Value) : Option Part :=
  match d.key? kind e.1 with
  | some (.ok (_, shown)) => some ⟨.entry shown, b, e.2⟩
  | _ => none

/-- The field of a map, if it is declared. -/
def field? (fields : List (Text × Block)) (e : Value × Value) : Option Part :=
  e.1.text?.bind fun name => (fields.lookup name).map fun b => ⟨.field name, b, e.2⟩

end Part

namespace Block

/-- The parts of a node that a walk goes on to. -/
def partsIn (d : Direction) : Block → Value → List Part
  | array _ value _, v => Part.items value 0 ((d.items? v).getD [])
  | object _ kind value _, .dict es => es.filterMap (Part.entry? d kind value)
  | tuple _ items, v =>
    match d.items? v with
    | some xs => if xs.length = items.length then Part.positions 0 items xs else []
    | none => []
  | map _ fields, .dict es => es.filterMap (Part.field? fields)
  | _, _ => []

/-! ## Findings at one node -/

/-- What is found on the keys of an object. -/
def keyFindings (d : Direction) (path : Path) (kind : KeyKind) (index : Nat) :
    Entries → List Finding
  | [] => []
  | (k, _) :: rest =>
    match d.key? kind k with
    | none => .mismatch path (.badKey index kind) :: keyFindings d path kind (index + 1) rest
    | some (.error f) => .halt f :: keyFindings d path kind (index + 1) rest
    | some (.ok _) => keyFindings d path kind (index + 1) rest

/-- What is found on a key of a map. -/
def fieldFinding? (path : Path) (fields : List (Text × Block)) (e : Value × Value) :
    Option Finding :=
  match fieldOf? fields e.1 with
  | none => some (Finding.quoting e.1 fun shown => .mismatch path (.unexpectedField shown))
  | some _ => none

/-- What is found at a node that is not excused, apart from its parts. -/
def ownNodeFindings [Host] (d : Direction) (path : Path) : Block → Value → List Finding
  | flag _, v => (convertFlag d path v).findings
  | number _ decimal minimum maximum, v =>
    (convertNumber d path (decimal.getD true) minimum maximum v).findings
  | string _ length pattern, v => (convertString d path length pattern v).findings
  | array _ _ length, v =>
    match d.items? v with
    | none => [.mismatch path (.expected .array d)]
    | some xs => checkLength path xs.length length
  | object _ kind _ length, v =>
    match v with
    | .dict es => checkLength path es.length length ++ keyFindings d path kind 0 es
    | _ => [.mismatch path (.expected .object d)]
  | tuple _ items, v =>
    match d.items? v with
    | none => [.mismatch path (.expected .array d)]
    | some xs => if xs.length = items.length then [] else [.mismatch path (.tupleLength items.length)]
  | map _ fields, v =>
    match v with
    | .dict es => es.filterMap (fieldFinding? path fields) ++ (missingFields path es fields).2
    | _ => [.mismatch path (.expected .object d)]
  | enum _ values, v => (convertEnum d path values v).findings

/-- What is found at a node, apart from its parts. -/
def ownFindings [Host] (d : Direction) (path : Path) (b : Block) (v : Value) : List Finding :=
  if b.header.excuses v then [] else b.ownNodeFindings d path v

variable {d : Direction} {path : Path} {b : Block} {v : Value}

/-! ## A node and its parts -/

theorem findings_items [Host] (value : Block) (index : Nat) (xs : List Value) :
    (Converted.items (fun i x => value.convert d (path ++ [.item i]) x) index xs).flatMap
        Converted.findings =
      (Part.items value index xs).flatMap (Part.findings d path) := by
  induction xs generalizing index with
  | nil => rfl
  | cons x xs ih =>
    rw [Converted.items, Part.items, List.flatMap_cons, List.flatMap_cons, ih]
    rfl

theorem findings_positions [Host] (index : Nat) (bs : List Block) (xs : List Value) :
    (convertPositions d path index bs xs).flatMap Converted.findings =
      (Part.positions index bs xs).flatMap (Part.findings d path) := by
  induction bs generalizing index xs with
  | nil => rfl
  | cons b bs ih =>
    cases xs with
    | nil => rfl
    | cons x xs =>
      rw [convertPositions, Part.positions, List.flatMap_cons, List.flatMap_cons, ih]
      rfl

theorem findings_entries [Host] (kind : KeyKind) (value : Block) (index : Nat) (es : Entries) :
    (Converted.entries d path kind (fun p x => value.convert d p x) index es).2.Perm
      (keyFindings d path kind index es ++
        (es.filterMap (Part.entry? d kind value)).flatMap (Part.findings d path)) := by
  induction es generalizing index with
  | nil => exact List.Perm.refl _
  | cons e es ih =>
    obtain ⟨k, x⟩ := e
    cases hk : d.key? kind k with
    | none =>
      have hpart : Part.entry? d kind value (k, x) = none := by simp only [Part.entry?, hk]
      rw [Converted.entries_of_bad hk, List.filterMap_cons_none hpart]
      simp only [keyFindings, hk]
      exact (ih (index + 1)).cons _
    | some r =>
      cases r with
      | error f =>
        have hpart : Part.entry? d kind value (k, x) = none := by simp only [Part.entry?, hk]
        rw [Converted.entries_of_halt hk, List.filterMap_cons_none hpart]
        simp only [keyFindings, hk]
        exact (ih (index + 1)).cons _
      | ok key =>
        obtain ⟨key, shown⟩ := key
        have hpart : Part.entry? d kind value (k, x) = some ⟨.entry shown, value, x⟩ := by
          simp only [Part.entry?, hk]
        rw [Converted.entries_of_key hk, List.filterMap_cons_some hpart, List.flatMap_cons]
        simp only [keyFindings, hk]
        exact ((ih (index + 1)).append_left _).trans (List.perm_append_comm_assoc _ _ _)

theorem findings_fieldEntries [Host] (fields : List (Text × Block)) (es : Entries) :
    (fieldEntries d path fields es).2.Perm
      (es.filterMap (fieldFinding? path fields) ++
        (es.filterMap (Part.field? fields)).flatMap (Part.findings d path)) := by
  induction es with
  | nil => exact List.Perm.refl _
  | cons e es ih =>
    obtain ⟨k, x⟩ := e
    cases hb : fieldOf? fields k with
    | none =>
      have hpart : Part.field? fields (k, x) = none := by
        rw [fieldOf?, Option.bind_eq_none_iff] at hb
        rw [Part.field?, Option.bind_eq_none_iff]
        exact fun name hname => by rw [hb name hname, Option.map_none]
      have hfinding : fieldFinding? path fields (k, x) =
          some (Finding.quoting k fun shown => .mismatch path (.unexpectedField shown)) := by
        simp only [fieldFinding?, hb]
      rw [fieldEntries_of_unexpected hb, List.filterMap_cons_none hpart,
        List.filterMap_cons_some hfinding]
      exact ih.cons _
    | some b =>
      have hfinding : fieldFinding? path fields (k, x) = none := by simp only [fieldFinding?, hb]
      obtain ⟨name, rfl, hname⟩ := fieldOf?_eq_some.1 hb
      have hpart : Part.field? fields (.str name, x) = some ⟨.field name, b, x⟩ := by
        rw [Part.field?, Value.text?, Option.bind_some, hname, Option.map_some]
      rw [fieldEntries_of_field hname, List.filterMap_cons_none hfinding,
        List.filterMap_cons_some hpart, List.flatMap_cons]
      exact (ih.append_left _).trans (List.perm_append_comm_assoc _ _ _)

theorem partsIn_null (d : Direction) (b : Block) : b.partsIn d .null = [] := by
  cases b <;> cases d <;> rfl

/-- What a walk finds on a node are the findings at the node itself and those on its parts. -/
theorem findings_perm [Host] (d : Direction) (path : Path) (b : Block) (v : Value) :
    (b.convert d path v).findings.Perm
      (b.ownFindings d path v ++ (b.partsIn d v).flatMap (Part.findings d path)) := by
  by_cases hv : b.header.excuses v = true
  · obtain ⟨rfl, -⟩ := excuses_eq_true.1 hv
    rw [convert_of_excused hv, ownFindings, if_pos hv, partsIn_null]
    exact List.Perm.refl _
  rw [convert_of_not_excused (Bool.eq_false_iff.2 hv), ownFindings, if_neg hv]
  cases b with
  | flag h => exact .of_eq (List.append_nil _).symm
  | number h decimal minimum maximum => exact .of_eq (List.append_nil _).symm
  | string h length pattern => exact .of_eq (List.append_nil _).symm
  | enum h values => exact .of_eq (List.append_nil _).symm
  | array h value length =>
    refine .of_eq ?_
    simp only [convertNode, convertArray, ownNodeFindings, partsIn]
    cases hitems : d.items? v with
    | none => rfl
    | some xs =>
      rw [Option.getD_some, ← findings_items]
      rfl
  | tuple h items =>
    refine .of_eq ?_
    simp only [convertNode, convertTuple, ownNodeFindings, partsIn]
    cases hitems : d.items? v with
    | none => rfl
    | some xs =>
      dsimp only
      split
      · rw [← findings_positions]
        rfl
      · rfl
  | object h kind value length =>
    cases v with
    | dict es =>
      show (checkLength path es.length length ++ _).Perm (_ ++ _ ++ _)
      rw [List.append_assoc]
      exact (findings_entries kind value 0 es).append_left _
    | _ => exact List.Perm.refl _
  | map h fields =>
    cases v with
    | dict es =>
      show (_ ++ (missingFields path es fields).2).Perm (_ ++ _ ++ _)
      refine ((findings_fieldEntries fields es).append_right _).trans ?_
      rw [List.append_assoc, List.append_assoc]
      exact List.perm_append_comm.append_left _
    | _ => exact List.Perm.refl _

/-! ## Nodes that a walk reaches -/

/-- A walk along a block through a value reaches a node at a path below. -/
inductive Reaches (d : Direction) : Block → Value → Path → Block → Value → Prop
  | here (b : Block) (v : Value) : Reaches d b v [] b v
  | inside {b c : Block} {v u : Value} {part : Part} {below : Path} (mem : part ∈ b.partsIn d v)
    (rest : Reaches d part.block part.value below c u) :
    Reaches d b v (part.segment :: below) c u

theorem mem_parts_items {value : Block} {index : Nat} {xs : List Value} {part : Part}
    (h : part ∈ Part.items value index xs) : part.block = value ∧ part.value ∈ xs := by
  induction xs generalizing index with
  | nil => cases h
  | cons x xs ih =>
    rcases List.mem_cons.1 h with rfl | h
    · exact ⟨rfl, List.mem_cons_self⟩
    · exact (ih h).imp_right (List.mem_cons_of_mem _)

theorem mem_parts_positions {index : Nat} {bs : List Block} {xs : List Value} {part : Part}
    (h : part ∈ Part.positions index bs xs) : (part.block, part.value) ∈ bs.zip xs := by
  induction bs generalizing index xs with
  | nil => cases h
  | cons b bs ih =>
    cases xs with
    | nil => cases h
    | cons x xs =>
      rcases List.mem_cons.1 h with rfl | h
      · exact List.mem_cons_self
      · exact List.mem_cons_of_mem _ (ih h)

theorem entry?_eq_some {kind : KeyKind} {value : Block} {e : Value × Value} {part : Part} :
    Part.entry? d kind value e = some part ↔
      ∃ key shown, d.key? kind e.1 = some (.ok (key, shown)) ∧
        part = ⟨.entry shown, value, e.2⟩ := by
  unfold Part.entry?
  split
  · next key shown hk => simp [hk, eq_comm]
  · next hk =>
    refine ⟨fun h => (by cases h), ?_⟩
    rintro ⟨key, shown, hkey, -⟩
    exact absurd hkey (hk key shown)

theorem field?_eq_some {fields : List (Text × Block)} {e : Value × Value} {part : Part} :
    Part.field? fields e = some part ↔
      ∃ name b, e.1 = .str name ∧ fields.lookup name = some b ∧ part = ⟨.field name, b, e.2⟩ := by
  obtain ⟨k, x⟩ := e
  rw [Part.field?, Option.bind_eq_some_iff]
  cases k <;> simp [Value.text?, @eq_comm _ part]

/-- A part of a node is along a part of its block. -/
theorem block_mem_parts {part : Part} (h : part ∈ b.partsIn d v) : part.block ∈ b.parts := by
  cases b with
  | array h' value length =>
    rw [(mem_parts_items h).1]
    exact List.mem_cons_self
  | object h' kind value length =>
    cases v with
    | dict es =>
      obtain ⟨e, -, he⟩ := List.mem_filterMap.1 h
      obtain ⟨key, shown, -, rfl⟩ := entry?_eq_some.1 he
      exact List.mem_cons_self
    | _ => cases h
  | tuple h' items =>
    simp only [partsIn] at h
    split at h
    · split at h
      · exact (List.of_mem_zip (mem_parts_positions h)).1
      · cases h
    · cases h
  | map h' fields =>
    cases v with
    | dict es =>
      obtain ⟨e, -, he⟩ := List.mem_filterMap.1 h
      obtain ⟨name, c, -, hc, rfl⟩ := field?_eq_some.1 he
      exact List.mem_map_of_mem (mem_of_lookup hc)
    | _ => cases h
  | _ => cases h

theorem parts_of_items? {xs : List Value} (h : d.items? v = some xs) : v.parts = xs := by
  cases v with
  | list ys => cases d <;> exact Option.some.inj h
  | tuple ys =>
    cases d with
    | decoding => cases h
    | encoding => exact Option.some.inj h
  | _ => cases d <;> cases h

/-- A part of a node stands inside its value. -/
theorem value_mem_parts {part : Part} (h : part ∈ b.partsIn d v) : part.value ∈ v.parts := by
  cases b with
  | array h' value length =>
    rw [partsIn] at h
    cases hitems : d.items? v with
    | none => rw [hitems] at h; cases h
    | some xs =>
      rw [hitems] at h
      rw [parts_of_items? hitems]
      exact (mem_parts_items h).2
  | object h' kind value length =>
    cases v with
    | dict es =>
      obtain ⟨e, hmem, he⟩ := List.mem_filterMap.1 h
      obtain ⟨key, shown, -, rfl⟩ := entry?_eq_some.1 he
      exact List.mem_map_of_mem hmem
    | _ => cases h
  | tuple h' items =>
    simp only [partsIn] at h
    split at h
    · next xs hitems =>
      split at h
      · rw [parts_of_items? hitems]
        exact (List.of_mem_zip (mem_parts_positions h)).2
      · cases h
    · cases h
  | map h' fields =>
    cases v with
    | dict es =>
      obtain ⟨e, hmem, he⟩ := List.mem_filterMap.1 h
      obtain ⟨name, c, -, -, rfl⟩ := field?_eq_some.1 he
      exact List.mem_map_of_mem hmem
    | _ => cases h
  | _ => cases h

/-- Whatever a walk finds it finds at one of the nodes that it reaches. -/
theorem mem_findings_iff [Host] {f : Finding} :
    f ∈ (b.convert d path v).findings ↔
      ∃ below c u, Reaches d b v below c u ∧ f ∈ c.ownFindings d (path ++ below) u := by
  induction b using Block.partsInduction generalizing path v with
  | step b ih =>
    rw [(findings_perm d path b v).mem_iff, List.mem_append, List.mem_flatMap]
    constructor
    · rintro (hf | ⟨part, hpart, hf⟩)
      · exact ⟨[], b, v, .here b v, by rwa [List.append_nil]⟩
      · obtain ⟨below, c, u, hreach, hf⟩ := (ih part.block (block_mem_parts hpart)).1 hf
        refine ⟨part.segment :: below, c, u, .inside hpart hreach, ?_⟩
        rwa [List.append_assoc] at hf
    · rintro ⟨below, c, u, hreach, hf⟩
      cases hreach with
      | here => exact .inl (by rwa [List.append_nil] at hf)
      | @inside _ _ _ _ part below hpart hreach =>
        refine .inr ⟨part, hpart, (ih part.block (block_mem_parts hpart)).2
          ⟨below, c, u, hreach, ?_⟩⟩
        rwa [List.append_assoc]

end Block

end DocShape
