import DocShape.Proofs.Schema.Arranged
import DocShape.Proofs.Schema.GrammarWalk
import DocShape.Proofs.Value.Depth

/-!
# Schemas with their bounds rewritten

`Value.mapBounds` rewrites every bound on numbers and every constraint on a length in a raw schema, and
`Block.mapBounds` does so in a block. What goes unnoticed where bounds and constraints are looked at
goes unnoticed on the whole schema: by the walk of the grammar (`Grammar.block_mapBounds`, up to any
relation of findings that holds piece by piece), by the lenient reader (`Block.agree_ofRaw`), and in the
raw form of a block (`Block.dump_mapBounds`).
-/

namespace DocShape

/-- A property's value, if it is there and not null, put through a function. -/
def Setting.map {α β : Type} (f : α → β) : Setting α → Setting β
  | absent => .absent
  | null => .null
  | given a => .given (f a)

namespace Value

variable (onBound onLength : Value → Value)

mutual

/-- A raw schema with its bounds on numbers and its constraints on lengths rewritten. -/
def mapBounds : Value → Value
  | dict es => dict (mapProperties es)
  | v => v
termination_by structural v => v

/-- Properties with what they hold of bounds and constraints rewritten. -/
def mapProperties : List (Value × Value) → List (Value × Value)
  | [] => []
  | (str name, v) :: rest =>
    (str name,
      if name = "value" then mapBounds v
      else if name = "items" then mapItems v
      else if name = "fields" then mapFields v
      else if name = "length" then onLength v
      else if name = "minimum" ∨ name = "maximum" then onBound v
      else v) :: mapProperties rest
  | e :: rest => e :: mapProperties rest
termination_by structural v => v

/-- The schemas in a sequence, each rewritten. -/
def mapItems : Value → Value
  | list xs => list (mapList xs)
  | tuple xs => tuple (mapList xs)
  | set xs => set (mapList xs)
  | v => v
termination_by structural v => v

/-- Schemas, each rewritten. -/
def mapList : List Value → List Value
  | [] => []
  | v :: vs => mapBounds v :: mapList vs
termination_by structural v => v

/-- The schemas of fields, each rewritten. -/
def mapFields : Value → Value
  | dict es => dict (mapEntries es)
  | v => v
termination_by structural v => v

/-- Schemas under keys, each rewritten. -/
def mapEntries : List (Value × Value) → List (Value × Value)
  | [] => []
  | (k, v) :: rest => (k, mapBounds v) :: mapEntries rest
termination_by structural v => v

end

/-- What a property of a schema becomes. -/
def mapProperty (name : Text) (v : Value) : Value :=
  if name = "value" then mapBounds onBound onLength v
  else if name = "items" then mapItems onBound onLength v
  else if name = "fields" then mapFields onBound onLength v
  else if name = "length" then onLength v
  else if name = "minimum" ∨ name = "maximum" then onBound v
  else v

variable {onBound onLength}

theorem mapList_eq (xs : List Value) :
    mapList onBound onLength xs = xs.map (mapBounds onBound onLength) := by
  induction xs with
  | nil => rfl
  | cons x xs ih => rw [mapList, ih, List.map_cons]

theorem mapEntries_eq (es : Entries) :
    mapEntries onBound onLength es = es.map fun e => (e.1, e.2.mapBounds onBound onLength) := by
  induction es with
  | nil => rfl
  | cons e es ih => rw [mapEntries, ih, List.map_cons]

theorem get?_mapProperties (name : Text) (es : Entries) :
    Entries.get? name (mapProperties onBound onLength es) =
      (Entries.get? name es).map (mapProperty onBound onLength name) := by
  induction es with
  | nil => rfl
  | cons e es ih =>
    obtain ⟨k, v⟩ := e
    cases k with
    | str t =>
      rw [mapProperties, Entries.get?, Entries.get?]
      split
      · next h => rw [h]; rfl
      · exact ih
    | _ => exact ih

/-- The properties that are rewritten, or hold what is. -/
def rewritten : List Text := ["value", "items", "fields", "length", "minimum", "maximum"]

theorem mapProperty_of_other {name : Text} (h : name ∉ rewritten) (v : Value) :
    mapProperty onBound onLength name v = v := by
  simp only [rewritten, List.mem_cons, List.not_mem_nil, or_false, not_or] at h
  simp only [mapProperty, h, or_self, if_false]

theorem get?_mapProperties_of_other {name : Text} (h : name ∉ rewritten) (es : Entries) :
    Entries.get? name (mapProperties onBound onLength es) = Entries.get? name es := by
  have hname : mapProperty onBound onLength name = id := funext (mapProperty_of_other h)
  rw [get?_mapProperties, hname, Option.map_id, id_eq]

theorem keys_mapProperties (es : Entries) :
    (mapProperties onBound onLength es).map Prod.fst = es.map Prod.fst := by
  induction es with
  | nil => rfl
  | cons e es ih =>
    obtain ⟨k, v⟩ := e
    cases k <;> exact congrArg (List.cons _) ih

theorem mapProperties_append (es fs : Entries) :
    mapProperties onBound onLength (es ++ fs) =
      mapProperties onBound onLength es ++ mapProperties onBound onLength fs := by
  induction es with
  | nil => rfl
  | cons e es ih =>
    obtain ⟨k, v⟩ := e
    cases k <;> exact congrArg (List.cons _) ih

end Value

/-! ## The walk of the grammar -/

namespace Grammar

open Value (mapProperties get?_mapProperties get?_mapProperties_of_other)

variable {onBound onLength : Value → Value} {path : Path} {es : Entries}

theorem unexpected_eq_keys (legal : List Text) (es : Entries) :
    unexpected path legal es =
      ((es.map Prod.fst).filter (isExtra legal)).map fun k =>
        Finding.quoting k fun shown => .violation path (.unexpectedProperty shown) := by
  rw [unexpected, List.filter_map, List.map_map]
  rfl

theorem optional_congr {name : Text} {requirement : Requirement} {test : Value → Bool}
    {fs : Entries} (h : es.get? name = fs.get? name) :
    optional path name requirement test es = optional path name requirement test fs := by
  rw [optional, optional, h]

/-- The walk over the properties of a block does not notice that bounds and constraints are rewritten,
up to a relation of what is found. -/
structure Unnoticed (R : List Finding → List Finding → Prop) (onBound onLength : Value → Value) :
    Prop where
  number (path : Path) (es : Entries) :
    R (Grammar.number path (mapProperties onBound onLength es)) (Grammar.number path es)
  length (path : Path) (es : Entries) :
    R (Grammar.length path (mapProperties onBound onLength es)) (Grammar.length path es)

section Walk

theorem common_mapProperties (path : Path) (es : Entries) :
    common path (mapProperties onBound onLength es) = common path es := by
  have hother {name : Text} (h : name ∉ Value.rewritten) :
      Entries.get? name (mapProperties onBound onLength es) = Entries.get? name es :=
    get?_mapProperties_of_other h es
  rw [common, common, optional_congr (hother (by decide)), optional_congr (hother (by decide)),
    optional_congr (hother (by decide))]

variable {R : List Finding → List Finding → Prop} (hR : Piecewise R)
  (h : Unnoticed R onBound onLength)

/-- Rewriting what stands in a raw schema does not change what is found, up to a relation. -/
def Same (R : List Finding → List Finding → Prop) (onBound onLength : Value → Value) (v : Value) :
    Prop :=
  ∀ path, R (block path (v.mapBounds onBound onLength)) (block path v)

include hR in
theorem blocks_map {xs : List Value} (hxs : ∀ x ∈ xs, Same R onBound onLength x) (path : Path)
    (index : Nat) :
    R (blocks path index (xs.map (Value.mapBounds onBound onLength))) (blocks path index xs) := by
  induction xs generalizing index with
  | nil => exact hR.refl _
  | cons x xs ih =>
    obtain ⟨hx, hxs⟩ := List.forall_mem_cons.1 hxs
    rw [List.map_cons, blocks, blocks]
    exact hR.append (hx _) (ih hxs _)

include hR in
theorem itemList_mapItems {v : Value} (hv : ∀ x ∈ v.parts, Same R onBound onLength x) (path : Path) :
    R (itemList path (v.mapItems onBound onLength)) (itemList path v) := by
  cases v with
  | list xs =>
    rw [Value.mapItems, Value.mapList_eq]
    cases xs with
    | nil => exact hR.refl _
    | cons x xs => exact blocks_map hR hv path 0
  | tuple xs =>
    rw [Value.mapItems, Value.mapList_eq]
    cases xs with
    | nil => exact hR.refl _
    | cons x xs => exact blocks_map hR hv path 0
  | _ => exact hR.refl _

include hR in
theorem fieldBlocks_map {fs : Entries} (hfs : ∀ e ∈ fs, Same R onBound onLength e.2) (path : Path) :
    R (fieldBlocks path (fs.map fun e => (e.1, e.2.mapBounds onBound onLength)))
      (fieldBlocks path fs) := by
  induction fs with
  | nil => exact hR.refl _
  | cons e fs ih =>
    obtain ⟨k, v⟩ := e
    obtain ⟨hv, hfs⟩ := List.forall_mem_cons.1 hfs
    rw [List.map_cons, fieldBlocks, fieldBlocks]
    refine hR.append ?_ (ih hfs)
    cases k.text?.filter Text.isName with
    | some name => exact hv _
    | none => exact hR.refl _

include hR in
theorem fieldDict_mapFields {v : Value} (hv : ∀ x ∈ v.parts, Same R onBound onLength x) (path : Path) :
    R (fieldDict path (v.mapFields onBound onLength)) (fieldDict path v) := by
  cases v with
  | dict fs =>
    rw [Value.mapFields, Value.mapEntries_eq]
    cases fs with
    | nil => exact hR.refl _
    | cons e fs => exact fieldBlocks_map hR (fun e he => hv e.2 (List.mem_map_of_mem he)) path
  | _ => exact hR.refl _

include hR in
theorem requiredValue_mapProperties (hes : ∀ x ∈ (Value.dict es).parts, Same R onBound onLength x)
    (path inner : Path) :
    R (requiredValue path inner (mapProperties onBound onLength es)) (requiredValue path inner es) := by
  rw [requiredValue, requiredValue, get?_mapProperties]
  cases hv : es.get? "value" with
  | none => exact hR.refl _
  | some v => exact hes v (Entries.mem_parts_of_get? hv) inner

include hR h in
theorem body_mapProperties {k : Kind}
    (hes : ∀ x ∈ (Value.dict es).parts,
      Same R onBound onLength x ∧ ∀ y ∈ x.parts, Same R onBound onLength y)
    (path : Path) : R (body path (mapProperties onBound onLength es) k) (body path es k) := by
  have hother {name : Text} (h : name ∉ Value.rewritten) :
      Entries.get? name (mapProperties onBound onLength es) = Entries.get? name es :=
    get?_mapProperties_of_other h es
  have hvalue : ∀ x ∈ (Value.dict es).parts, Same R onBound onLength x := fun x hx => (hes x hx).1
  have hinner {name : Text} {v : Value} (h : es.get? name = some v) :
      ∀ y ∈ v.parts, Same R onBound onLength y :=
    (hes v (Entries.mem_parts_of_get? h)).2
  cases k with
  | flag => exact hR.refl _
  | number => exact h.number path es
  | string =>
    rw [body, body, optional_congr (hother (by decide))]
    exact hR.append (h.length path es) (hR.refl _)
  | array =>
    rw [body, body, Entries.has, Entries.has, get?_mapProperties, Option.isSome_map]
    refine hR.append (requiredValue_mapProperties hR hvalue _ _) ?_
    split
    · exact h.length path es
    · exact hR.refl _
  | object =>
    rw [body, body, keyKind, keyKind, hother (by decide)]
    exact hR.append (hR.append (requiredValue_mapProperties hR hvalue _ _) (hR.refl _))
      (h.length path es)
  | tuple =>
    rw [body, body, items_eq, items_eq, get?_mapProperties]
    cases hv : es.get? "items" with
    | none => exact hR.refl _
    | some v => exact itemList_mapItems hR (hinner hv) path
  | map =>
    rw [body, body, fields_eq, fields_eq, get?_mapProperties]
    cases hv : es.get? "fields" with
    | none => exact hR.refl _
    | some v => exact fieldDict_mapFields hR (hinner hv) path
  | enum =>
    rw [body, body, enumeration, enumeration, hother (by decide)]
    exact hR.refl _

include hR h in
/-- What is unnoticed where bounds and constraints are checked is unnoticed on the whole schema. -/
theorem block_mapBounds (v : Value) : Same R onBound onLength v := by
  induction v using Value.innerInduction with
  | step v ih =>
    intro path
    cases v with
    | dict es =>
      have htype : Entries.get? "type" (mapProperties onBound onLength es) = Entries.get? "type" es :=
        get?_mapProperties_of_other (by decide) es
      have hkind : kind path (mapProperties onBound onLength es) = kind path es := by
        rw [kind, kind, htype]
      rw [Value.mapBounds]
      cases hk : kind path es with
      | error fs =>
        rw [block_unknown hk, block_unknown (hkind.trans hk)]
        exact hR.refl _
      | ok k =>
        have hname := kind_eq_ok.1 hk
        rw [block_dict hname, block_dict (htype.trans hname), common_mapProperties,
          unexpected_eq_keys, unexpected_eq_keys, Value.keys_mapProperties]
        exact hR.append (hR.append (hR.refl _) (body_mapProperties hR h ih path)) (hR.refl _)
    | _ => exact hR.refl _

end Walk

end Grammar

/-! ## Blocks -/

namespace Block

section MapBounds

variable (onLimit : Limit → Limit) (onRule : LengthRule → LengthRule)

mutual

/-- A block with its bounds on numbers and its constraints on lengths rewritten. -/
def mapBounds : Block → Block
  | flag h => flag h
  | number h decimal minimum maximum =>
    number h decimal (minimum.map onLimit) (maximum.map onLimit)
  | string h length pattern => string h (length.map onRule) pattern
  | array h value length => array h (mapBounds value) (length.map onRule)
  | object h key value length => object h key (mapBounds value) (length.map onRule)
  | tuple h items => tuple h (mapItems items)
  | map h fields => map h (mapFields fields)
  | enum h values => enum h values
termination_by structural b => b

/-- Blocks, each rewritten. -/
def mapItems : List Block → List Block
  | [] => []
  | b :: bs => mapBounds b :: mapItems bs
termination_by structural b => b

/-- Fields, each with its block rewritten. -/
def mapFields : List (Text × Block) → List (Text × Block)
  | [] => []
  | (name, b) :: rest => (name, mapBounds b) :: mapFields rest
termination_by structural b => b

end

variable {onLimit onRule}

theorem mapItems_eq (bs : List Block) :
    mapItems onLimit onRule bs = bs.map (mapBounds onLimit onRule) := by
  induction bs with
  | nil => rfl
  | cons b bs ih => rw [mapItems, ih, List.map_cons]

theorem mapFields_eq (fields : List (Text × Block)) :
    mapFields onLimit onRule fields = fields.map fun f => (f.1, f.2.mapBounds onLimit onRule) := by
  induction fields with
  | nil => rfl
  | cons f fields ih => rw [mapFields, ih, List.map_cons]

@[simp] theorem header_mapBounds (b : Block) : (b.mapBounds onLimit onRule).header = b.header := by
  cases b <;> rfl

end MapBounds

/-! ### Reading -/

open Value (mapProperties get?_mapProperties get?_mapProperties_of_other)

variable {onBound onLength : Value → Value} {onLimit : Limit → Limit}
  {onRule : LengthRule → LengthRule} {es : Entries}

theorem checkNames_congr {fs : Entries} (h : es.map Prod.fst = fs.map Prod.fst) :
    checkNames es = checkNames fs := by
  induction es generalizing fs with
  | nil => rw [List.map_eq_nil_iff.1 h.symm]
  | cons e es ih =>
    obtain ⟨f, fs, rfl, hkey, hrest⟩ := List.map_eq_cons_iff.1 h.symm
    obtain ⟨k, v⟩ := e
    obtain ⟨l, w⟩ := f
    obtain rfl : l = k := hkey
    rw [checkNames, checkNames, ih hrest.symm]

theorem checkExtras_congr {legal : List Text} {fs : Entries}
    (h : es.map Prod.fst = fs.map Prod.fst) : checkExtras legal es = checkExtras legal fs := by
  induction es generalizing fs with
  | nil => rw [List.map_eq_nil_iff.1 h.symm]
  | cons e es ih =>
    obtain ⟨f, fs, rfl, hkey, hrest⟩ := List.map_eq_cons_iff.1 h.symm
    obtain ⟨k, v⟩ := e
    obtain ⟨l, w⟩ := f
    obtain rfl : l = k := hkey
    cases l with
    | str t => rw [checkExtras, checkExtras, ih hrest.symm]
    | _ => rfl

theorem readFlag_congr [Host] {name : Text} {fs : Entries} (h : es.get? name = fs.get? name) :
    readFlag name es = readFlag name fs := by
  rw [readFlag, readFlag, h]

theorem readText_congr [Host] {name : Text} {fs : Entries} (h : es.get? name = fs.get? name) :
    readText name es = readText name fs := by
  rw [readText, readSetting, readSetting, h]

theorem agree_inside {α β : Type} {R : α → β → Prop} {x : Except TypeFault α}
    {y : Except TypeFault β} (part : Text) (h : Agree R x y) :
    Agree R (inside part x) (inside part y) := by
  cases h with
  | error e => exact .error _
  | ok h => exact .ok h

/-- A property whose value is replaced, null by null only, is read as the value is. -/
theorem agree_readSetting {α β : Type} {g : α → β} {read : Value → Except TypeFault α}
    {f : Value → Value} {name : Text} {fs : Entries} (hget : fs.get? name = (es.get? name).map f)
    (hnull : ∀ v, f v = .null ↔ v = .null)
    (hread : ∀ v, v ≠ .null → Agree (fun a b => g a = g b) (read (f v)) (read v)) :
    Agree (fun s t => s.map g = t.map g) (readSetting name read fs) (readSetting name read es) := by
  have hgiven {w : Value} {hs : Entries} (hw : w ≠ .null) (hs' : hs.get? name = some w) :
      readSetting name read hs = (read w >>= fun a => .ok (.given a)) := by
    rw [readSetting, hs']
    split
    · next h => cases h
    · next h => exact absurd (Option.some.inj h) hw
    · next h => rw [← Option.some.inj h]; rfl
  cases hv : es.get? name with
  | none =>
    rw [hv] at hget
    rw [readSetting, readSetting, hget, hv]
    exact .ok rfl
  | some v =>
    rw [hv, Option.map_some] at hget
    by_cases hcase : v = .null
    · subst hcase
      rw [(hnull _).2 rfl] at hget
      rw [readSetting, readSetting, hget, hv]
      exact .ok rfl
    · rw [hgiven (fun h => hcase ((hnull v).1 h)) hget, hgiven hcase hv]
      exact (hread v hcase).bind fun a b hab => .ok (congrArg Setting.given hab)

/-- With some room the lenient reader takes bounds and constraints that were rewritten for the rewritten
limits and rules, where it takes them at all. -/
structure ReadAlike [Host] (room : Nat) (onBound onLength : Value → Value) (onLimit : Limit → Limit)
    (onRule : LengthRule → LengthRule) : Prop where
  limit {name : Text} (bound : name = "minimum" ∨ name = "maximum") (es : Entries) :
    Agree (fun s t => s.map onLimit = t.map onLimit)
      (readLimit room name (mapProperties onBound onLength es)) (readLimit room name es)
  length (es : Entries) :
    Agree (fun s t => s.map onRule = t.map onRule)
      (readLength room (mapProperties onBound onLength es)) (readLength room es)

section Reading

variable {room : Nat}

/-- Rewriting what stands in a raw schema comes to rewriting its typed form. -/
def Alike [Host] (room : Nat) (onBound onLength : Value → Value) (onLimit : Limit → Limit)
    (onRule : LengthRule → LengthRule) (v : Value) : Prop :=
  Agree (fun b c => b.mapBounds onLimit onRule = c.mapBounds onLimit onRule)
    (ofRaw room (v.mapBounds onBound onLength)) (ofRaw room v)

theorem agree_blocksOf [Host] {xs : List Value}
    (hxs : ∀ x ∈ xs, Alike room onBound onLength onLimit onRule x) (index : Nat) :
    Agree (fun bs cs => bs.map (mapBounds onLimit onRule) = cs.map (mapBounds onLimit onRule))
      (blocksOf room index (xs.map (Value.mapBounds onBound onLength))) (blocksOf room index xs) := by
  induction xs generalizing index with
  | nil => exact .ok rfl
  | cons x xs ih =>
    obtain ⟨hx, hxs⟩ := List.forall_mem_cons.1 hxs
    rw [List.map_cons, blocksOf, blocksOf]
    refine (agree_inside _ hx).bind fun b c hbc => ?_
    refine (ih hxs _).bind fun bs cs hrest => .ok ?_
    rw [List.map_cons, List.map_cons, hbc, hrest]

theorem agree_blockList [Host] {v : Value}
    (hv : ∀ x ∈ v.parts, Alike room onBound onLength onLimit onRule x) :
    Agree (fun bs cs => bs.map (mapBounds onLimit onRule) = cs.map (mapBounds onLimit onRule))
      (blockList room (v.mapItems onBound onLength)) (blockList room v) := by
  have hitems (xs : List Value) (hxs : ∀ x ∈ xs, Alike room onBound onLength onLimit onRule x)
      (wrap : List Value → Value) (hnil : blockList room (wrap []) = .error ⟨[], .emptyList⟩)
      (hcons : ∀ x xs, blockList room (wrap (x :: xs)) = blocksOf room 0 (x :: xs)) :
      Agree (fun bs cs => bs.map (mapBounds onLimit onRule) = cs.map (mapBounds onLimit onRule))
        (blockList room (wrap (Value.mapList onBound onLength xs))) (blockList room (wrap xs)) := by
    rw [Value.mapList_eq]
    cases xs with
    | nil =>
      rw [List.map_nil, hnil]
      exact .error _
    | cons x xs =>
      rw [List.map_cons, hcons, hcons]
      exact agree_blocksOf hxs 0
  cases v with
  | list xs => exact hitems xs hv .list rfl fun _ _ => rfl
  | tuple xs => exact hitems xs hv .tuple rfl fun _ _ => rfl
  | set xs => exact hitems xs hv .set rfl fun _ _ => rfl
  | _ => exact .error _

theorem map_putField (g : Block → Block) (name : Text) (b : Block) (fields : List (Text × Block)) :
    (putField name b fields).map (fun f => (f.1, g f.2)) =
      putField name (g b) (fields.map fun f => (f.1, g f.2)) := by
  induction fields with
  | nil => rfl
  | cons f fields ih =>
    obtain ⟨n, c⟩ := f
    rw [putField, List.map_cons, putField]
    split
    · rfl
    · rw [List.map_cons, ih]

theorem agree_fieldBlocks [Host] {fs : Entries}
    (hfs : ∀ e ∈ fs, Alike room onBound onLength onLimit onRule e.2) {before before' : List (Text × Block)}
    (hbefore : before.map (fun f => (f.1, f.2.mapBounds onLimit onRule)) =
      before'.map fun f => (f.1, f.2.mapBounds onLimit onRule)) :
    Agree (fun ds es => ds.map (fun f => (f.1, f.2.mapBounds onLimit onRule)) =
        es.map fun f => (f.1, f.2.mapBounds onLimit onRule))
      (fieldBlocks room before (fs.map fun e => (e.1, e.2.mapBounds onBound onLength)))
      (fieldBlocks room before' fs) := by
  induction fs generalizing before before' with
  | nil => exact .ok hbefore
  | cons e fs ih =>
    obtain ⟨k, v⟩ := e
    obtain ⟨hv, hfs⟩ := List.forall_mem_cons.1 hfs
    rw [List.map_cons, fieldBlocks, fieldBlocks]
    refine Agree.bind_same fun name => ?_
    refine (agree_inside _ hv).bind fun b c hbc => ih hfs ?_
    rw [map_putField (mapBounds onLimit onRule), map_putField (mapBounds onLimit onRule), hbefore, hbc]

theorem agree_fieldDict [Host] {v : Value}
    (hv : ∀ x ∈ v.parts, Alike room onBound onLength onLimit onRule x) :
    Agree (fun ds es => ds.map (fun f => (f.1, f.2.mapBounds onLimit onRule)) =
        es.map fun f => (f.1, f.2.mapBounds onLimit onRule))
      (fieldDict room (v.mapFields onBound onLength)) (fieldDict room v) := by
  cases v with
  | dict fs =>
    rw [Value.mapFields, Value.mapEntries_eq]
    cases fs with
    | nil => exact .error _
    | cons e fs => exact agree_fieldBlocks (fun e he => hv e.2 (List.mem_map_of_mem he)) rfl
  | _ => exact .error _

theorem agree_valueOf [Host]
    (hes : ∀ x ∈ (Value.dict es).parts, Alike room onBound onLength onLimit onRule x) :
    Agree (fun b c => b.mapBounds onLimit onRule = c.mapBounds onLimit onRule)
      (valueOf room (mapProperties onBound onLength es)) (valueOf room es) := by
  rw [valueOf_eq, valueOf_eq, get?_mapProperties]
  cases hv : es.get? "value" with
  | none => exact .error _
  | some v => exact agree_inside _ (hes v (Entries.mem_parts_of_get? hv))

theorem readHeader_mapProperties [Host] (es : Entries) :
    readHeader (mapProperties onBound onLength es) = readHeader es := by
  have hother {name : Text} (h : name ∉ Value.rewritten) :
      Entries.get? name (mapProperties onBound onLength es) = es.get? name :=
    get?_mapProperties_of_other h es
  rw [readHeader, readHeader, readText_congr (hother (by decide)),
    readText_congr (hother (by decide)), readFlag_congr (hother (by decide))]

theorem agree_readBody [Host] (h : ReadAlike room onBound onLength onLimit onRule) (header : Header)
    (k : Kind)
    (hes : ∀ x ∈ (Value.dict es).parts, Alike room onBound onLength onLimit onRule x ∧
      ∀ y ∈ x.parts, Alike room onBound onLength onLimit onRule y) :
    Agree (fun b c => b.mapBounds onLimit onRule = c.mapBounds onLimit onRule)
      (readBody room (mapProperties onBound onLength es) header k) (readBody room es header k) := by
  have hother {name : Text} (h : name ∉ Value.rewritten) :
      Entries.get? name (mapProperties onBound onLength es) = es.get? name :=
    get?_mapProperties_of_other h es
  have hvalue := agree_valueOf fun x hx => (hes x hx).1
  have hinner {name : Text} {v : Value} (h : es.get? name = some v) :
      ∀ y ∈ v.parts, Alike room onBound onLength onLimit onRule y :=
    (hes v (Entries.mem_parts_of_get? h)).2
  cases k with
  | flag => exact .ok rfl
  | number =>
    rw [readBody, readBody, readFlag_congr (hother (by decide))]
    refine Agree.bind_same fun decimal => ?_
    refine (h.limit (.inl rfl) es).bind fun _ _ hminimum => ?_
    refine (h.limit (.inr rfl) es).bind fun _ _ hmaximum => .ok ?_
    rw [mapBounds, mapBounds, hminimum, hmaximum]
  | string =>
    rw [readBody, readBody, readText_congr (hother (by decide))]
    refine (h.length es).bind fun _ _ hlength => ?_
    refine Agree.bind_same fun pattern => .ok ?_
    rw [mapBounds, mapBounds, hlength]
  | array =>
    refine hvalue.bind fun _ _ hvalue => ?_
    refine (h.length es).bind fun _ _ hlength => .ok ?_
    rw [mapBounds, mapBounds, hvalue, hlength]
  | object =>
    rw [readBody, readBody, readKeyKind, readKeyKind, hother (by decide)]
    refine Agree.bind_same fun key => ?_
    refine hvalue.bind fun _ _ hvalue => ?_
    refine (h.length es).bind fun _ _ hlength => .ok ?_
    rw [mapBounds, mapBounds, hvalue, hlength]
  | tuple =>
    rw [readBody, readBody, itemsOf_eq, itemsOf_eq, get?_mapProperties]
    cases hv : es.get? "items" with
    | none => exact .error _
    | some v =>
      refine (agree_inside _ (agree_blockList (hinner hv))).bind fun bs cs hitems => .ok ?_
      rw [mapBounds, mapBounds, mapItems_eq, mapItems_eq, hitems]
  | map =>
    rw [readBody, readBody, fieldsOf_eq, fieldsOf_eq, get?_mapProperties]
    cases hv : es.get? "fields" with
    | none => exact .error _
    | some v =>
      refine (agree_inside _ (agree_fieldDict (hinner hv))).bind fun bs cs hfields => .ok ?_
      rw [mapBounds, mapBounds, mapFields_eq, mapFields_eq, hfields]
  | enum =>
    rw [readBody, readBody, readValues, readValues, hother (by decide)]
    exact Agree.bind_same fun values => .ok rfl

/-- A raw schema whose bounds and constraints are rewritten is read as its typed form is rewritten, or
refused for the same reason, if that is so of the bounds and constraints with the room that is left where
they may stand. -/
theorem agree_ofRaw [Host] {v : Value}
    (h : ∀ left < room, room ≤ left + v.depth → ReadAlike left onBound onLength onLimit onRule) :
    Alike room onBound onLength onLimit onRule v := by
  induction v using Value.innerInduction generalizing room with
  | step v ih =>
    cases v with
    | dict es =>
      have hkeys : (mapProperties onBound onLength es).map Prod.fst = es.map Prod.fst :=
        Value.keys_mapProperties es
      have hkind : readKind (mapProperties onBound onLength es) = readKind es := by
        rw [readKind, readKind, get?_mapProperties_of_other (by decide)]
      cases room with
      | zero =>
        rw [Alike, Value.mapBounds, ofRaw_zero, ofRaw_zero, hkind]
        exact Agree.bind_same fun kind => .error _
      | succ room =>
        have hinner {x : Value} (hx : x.depth < (Value.dict es).depth) :
            ∀ left < room, room ≤ left + x.depth → ReadAlike left onBound onLength onLimit onRule :=
          fun left hleft hroom => h left (Nat.lt_succ_of_lt hleft) (by omega)
        have hparts : ∀ x ∈ (Value.dict es).parts, Alike room onBound onLength onLimit onRule x ∧
            ∀ y ∈ x.parts, Alike room onBound onLength onLimit onRule y := fun x hx =>
          have hx' := Value.depth_lt_of_mem_parts hx
          ⟨(ih x hx).1 (hinner hx'), fun y hy =>
            (ih x hx).2 y hy (hinner ((Value.depth_lt_of_mem_parts hy).trans hx'))⟩
        have hread := h room (Nat.lt_succ_self _)
          (Nat.add_le_add_left Value.depth_dict_pos room)
        rw [Alike, Value.mapBounds, ofRaw_dict, ofRaw_dict, hkind, readHeader_mapProperties,
          checkNames_congr hkeys]
        refine Agree.bind_same fun kind => agree_inside _ ?_
        rw [checkExtras_congr hkeys]
        refine Agree.bind_same fun _ => Agree.bind_same fun header => ?_
        refine (agree_readBody hread header kind hparts).bind fun b c hbc => ?_
        exact Agree.bind_same fun _ => .ok hbc
    | _ => exact .error _

/-- Raw schemas that are rewritten to one have typed forms that are rewritten to one, or are refused for
the same reason. -/
theorem agree_ofRaw_of_mapBounds [Host] {v w : Value}
    (hv : ∀ left < room, room ≤ left + v.depth → ReadAlike left onBound onLength onLimit onRule)
    (hw : ∀ left < room, room ≤ left + w.depth → ReadAlike left onBound onLength onLimit onRule)
    (h : v.mapBounds onBound onLength = w.mapBounds onBound onLength) :
    Agree (fun b c => b.mapBounds onLimit onRule = c.mapBounds onLimit onRule) (ofRaw room v)
      (ofRaw room w) := by
  have hleft := (agree_ofRaw hv).symm
  rw [h] at hleft
  exact hleft.trans (agree_ofRaw hw) fun _ _ _ hb hc => hb.symm.trans hc

end Reading

/-- Schemas that are read alike with the room that the host gives have typed forms alike. -/
theorem agree_parseSchema [Host] {R : Block → Block → Prop} {v w : Value}
    (h : Agree R (ofRaw Host.guard v) (ofRaw Host.guard w)) :
    Agree R (parseSchema v) (parseSchema w) := by
  unfold parseSchema
  generalize ofRaw Host.guard v = x at h
  generalize ofRaw Host.guard w = y at h
  cases h with
  | error fault => exact .error _
  | ok h => exact .ok h

/-! ### Raw forms -/

/-- The raw forms of rewritten limits and rules are the rewritten raw forms. -/
structure RawAlike (onBound onLength : Value → Value) (onLimit : Limit → Limit)
    (onRule : LengthRule → LengthRule) : Prop where
  limit (l : Limit) : onBound (l.raw .given) = (onLimit l).raw .given
  rule (r : LengthRule) : onLength (r.raw .given) = (onRule r).raw .given
  noBound : onBound .null = .null
  noLength : onLength .null = .null

theorem mapProperties_setting {α : Type} {f : α → α} {raw : α → Value} {name : Text}
    (h : ∀ a, Value.mapProperty onBound onLength name (raw a) = raw (f a))
    (hnull : Value.mapProperty onBound onLength name .null = .null) (s : Setting α) :
    mapProperties onBound onLength (Extent.setting .given name raw s) =
      Extent.setting .given name raw (s.map f) := by
  cases s with
  | absent => rfl
  | null => exact congrArg (fun v => [(Value.str name, v)]) hnull
  | given a => exact congrArg (fun v => [(Value.str name, v)]) (h a)

theorem mapProperties_truth {name : Text} (h : name ∉ Value.rewritten) (default : Bool)
    (b : Option Bool) :
    mapProperties onBound onLength (Extent.truth .given name default b) =
      Extent.truth .given name default b := by
  cases b with
  | none => rfl
  | some b =>
    exact congrArg (fun v => [(Value.str name, v)]) (Value.mapProperty_of_other h _)

theorem mapProperties_header (header : Header) (k : Kind) :
    mapProperties onBound onLength (header.raw .given k) = header.raw .given k := by
  have htext {name : Text} (hname : name ∉ Value.rewritten) (s : Setting Text) :
      mapProperties onBound onLength (Extent.setting .given name .str s) =
        Extent.setting .given name .str s := by
    cases s with
    | absent => rfl
    | _ => exact congrArg (fun v => [(Value.str name, v)]) (Value.mapProperty_of_other hname _)
  have hkind : mapProperties onBound onLength [(.str "type", .str k.name)] =
      [(.str "type", .str k.name)] :=
    congrArg (fun v => [(Value.str "type", v)]) (Value.mapProperty_of_other (by decide) _)
  rw [Header.raw, Value.mapProperties_append, Value.mapProperties_append, Value.mapProperties_append,
    hkind, htext (by decide), htext (by decide), mapProperties_truth (by decide)]

section Dumping

variable (h : RawAlike onBound onLength onLimit onRule)

include h in
theorem mapProperties_limit {name : Text} (hname : name = "minimum" ∨ name = "maximum")
    (s : Setting Limit) :
    mapProperties onBound onLength (Extent.setting .given name (Limit.raw .given) s) =
      Extent.setting .given name (Limit.raw .given) (s.map onLimit) := by
  have hbound : Value.mapProperty onBound onLength name = onBound := by
    rcases hname with rfl | rfl <;> rfl
  refine mapProperties_setting (fun l => ?_) ?_ s
  · rw [hbound, h.limit]
  · rw [hbound, h.noBound]

include h in
theorem mapProperties_length (s : Setting LengthRule) :
    mapProperties onBound onLength (Extent.setting .given "length" (LengthRule.raw .given) s) =
      Extent.setting .given "length" (LengthRule.raw .given) (s.map onRule) := by
  have hlength : Value.mapProperty onBound onLength "length" = onLength := rfl
  refine mapProperties_setting (fun r => ?_) ?_ s
  · rw [hlength, h.rule]
  · rw [hlength, h.noLength]

include h in
/-- The raw form of a rewritten block is the rewritten raw form. -/
theorem dump_mapBounds (b : Block) :
    (b.mapBounds onLimit onRule).dump = b.dump.mapBounds onBound onLength := by
  induction b using Block.partsInduction with
  | step b ih =>
    have hvalue {v : Value} : mapProperties onBound onLength [(.str "value", v)] =
        [(.str "value", v.mapBounds onBound onLength)] := rfl
    simp only [dump]
    cases b with
    | flag header => rw [mapBounds, raw, Value.mapBounds, mapProperties_header]
    | number header decimal minimum maximum =>
      rw [mapBounds, raw, raw, Value.mapBounds]
      simp only [Value.mapProperties_append, mapProperties_header,
        mapProperties_limit h (.inl rfl), mapProperties_limit h (.inr rfl)]
      rw [mapProperties_truth (by decide)]
    | string header length pattern =>
      rw [mapBounds, raw, raw, Value.mapBounds]
      simp only [Value.mapProperties_append, mapProperties_header, mapProperties_length h]
      rw [mapProperties_setting (f := id) (fun t => Value.mapProperty_of_other (by decide) _)
        (Value.mapProperty_of_other (by decide) _)]
      cases pattern <;> rfl
    | array header value length =>
      have hinner : (value.mapBounds onLimit onRule).raw .given =
          (value.raw .given).mapBounds onBound onLength := ih value List.mem_cons_self
      rw [mapBounds, raw, raw, Value.mapBounds]
      simp only [Value.mapProperties_append, mapProperties_header, mapProperties_length h, hvalue,
        hinner]
    | object header key value length =>
      have hinner : (value.mapBounds onLimit onRule).raw .given =
          (value.raw .given).mapBounds onBound onLength := ih value List.mem_cons_self
      rw [mapBounds, raw, raw, Value.mapBounds]
      simp only [Value.mapProperties_append, mapProperties_header, mapProperties_length h]
      rw [hinner]
      rfl
    | tuple header items =>
      have hitems : (items.map (mapBounds onLimit onRule)).map dump =
          (items.map dump).map (Value.mapBounds onBound onLength) := by
        rw [List.map_map, List.map_map]
        exact List.map_congr_left ih
      rw [mapBounds, raw, raw, Value.mapBounds, mapItems_eq, rawItems_eq, rawItems_eq, hitems,
        Value.mapProperties_append, mapProperties_header, ← Value.mapList_eq]
      rfl
    | map header fields =>
      have hfields : rawFields .given (mapFields onLimit onRule fields) =
          Value.mapEntries onBound onLength (rawFields .given fields) := by
        rw [rawFields_eq, rawFields_eq, mapFields_eq, Value.mapEntries_eq, List.map_map, List.map_map]
        refine List.map_congr_left fun f hf => ?_
        exact congrArg (Prod.mk (Value.str f.1)) (ih f.2 (List.mem_map_of_mem hf))
      rw [mapBounds, raw, raw, Value.mapBounds, hfields, Value.mapProperties_append,
        mapProperties_header]
      rfl
    | enum header values =>
      rw [mapBounds, raw, Value.mapBounds, Value.mapProperties_append, mapProperties_header]
      rfl

end Dumping

end Block

end DocShape
