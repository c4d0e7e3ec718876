import DocShape.Proofs.Listing.Conversion
import DocShape.Proofs.Schema.Parts

/-!
# The walk along a schema

What `Block.convert` does at one node, kind by kind, in a form that later proofs rewrite with: an
excused node comes to null (`convert_of_excused`), any other to what its kind makes of it
(`convert_of_not_excused` and `Block.convertNode`). Entries and fields go one at a time
(`entries_of_key`, `fieldEntries_of_field`, ...), a field along the block that the map has under its
name (`convertField_eq`).
-/

namespace DocShape

/-! ## One step along the entries -/

namespace Converted

variable {d : Direction} {path : Path} {kind : KeyKind} {convert : Path → Value → Converted}
  {index : Nat} {k v key : Value} {shown : Text} {rest : Entries}

theorem entries_of_bad (h : d.key? kind k = none) :
    entries d path kind convert index ((k, v) :: rest) =
      ((entries d path kind convert (index + 1) rest).1,
        .mismatch path (.badKey index kind) ::
          (entries d path kind convert (index + 1) rest).2) := by
  rw [entries]
  simp only [h]

theorem entries_of_halt {f : Failure} (h : d.key? kind k = some (.error f)) :
    entries d path kind convert index ((k, v) :: rest) =
      ((entries d path kind convert (index + 1) rest).1,
        .halt f :: (entries d path kind convert (index + 1) rest).2) := by
  rw [entries]
  simp only [h]

theorem entries_of_key (h : d.key? kind k = some (.ok (key, shown))) :
    entries d path kind convert index ((k, v) :: rest) =
      ((key, (convert (path ++ [.entry shown]) v).value) ::
          (entries d path kind convert (index + 1) rest).1,
        (convert (path ++ [.entry shown]) v).findings ++
          (entries d path kind convert (index + 1) rest).2) := by
  rw [entries]
  simp only [h]

/-- Where nothing is found on entries, nothing is found on the first of them: its key is taken, and its
value is clean. -/
theorem exists_key_of_clean (hclean : (entries d path kind convert index ((k, v) :: rest)).2 = []) :
    ∃ key shown, d.key? kind k = some (.ok (key, shown)) ∧
      (convert (path ++ [.entry shown]) v).findings = [] ∧
      (entries d path kind convert (index + 1) rest).2 = [] := by
  cases hk : d.key? kind k with
  | none =>
    rw [entries_of_bad hk] at hclean
    cases hclean
  | some r =>
    cases r with
    | error f =>
      rw [entries_of_halt hk] at hclean
      cases hclean
    | ok key =>
      rw [entries_of_key hk, List.append_eq_nil_iff] at hclean
      exact ⟨key.1, key.2, rfl, hclean⟩

/-- Entries whose values were replaced are converted as another walk converts the values there were. -/
theorem entries_map {convert convert' : Path → Value → Converted} {g : Value → Value}
    {es : Entries} (h : ∀ e ∈ es, ∀ p, convert p (g e.2) = convert' p e.2) :
    entries d path kind convert index (es.map fun e => (e.1, g e.2)) =
      entries d path kind convert' index es := by
  induction es generalizing index with
  | nil => rfl
  | cons e es ih =>
    obtain ⟨k, v⟩ := e
    rw [List.map_cons, entries, entries, ih fun e he => h e (List.mem_cons_of_mem _ he)]
    simp only [h _ List.mem_cons_self]

theorem items_map (convert : Nat → Value → Converted) (g : Value → Value) (index : Nat)
    (xs : List Value) :
    items convert index (xs.map g) = items (fun i x => convert i (g x)) index xs := by
  induction xs generalizing index with
  | nil => rfl
  | cons x xs ih => rw [List.map_cons, items, items, ih]

theorem map_items (f : Converted → Converted) (convert : Nat → Value → Converted) (index : Nat)
    (xs : List Value) :
    (items convert index xs).map f = items (fun i x => f (convert i x)) index xs := by
  induction xs generalizing index with
  | nil => rfl
  | cons x xs ih => rw [items, items, List.map_cons, ih]

theorem items_congr {f g : Nat → Value → Converted} {xs : List Value} (index : Nat)
    (h : ∀ i, ∀ x ∈ xs, f i x = g i x) : items f index xs = items g index xs := by
  induction xs generalizing index with
  | nil => rfl
  | cons x xs ih =>
    rw [items, items, h index x List.mem_cons_self,
      ih (index + 1) fun i y hy => h i y (List.mem_cons_of_mem _ hy)]

end Converted

section Fields

variable {path : Path} {field? : Text → Option (Value → Converted)} {k v : Value} {rest : Entries}

theorem presentFields_of_field {g : Value → Converted} (h : k.text?.bind field? = some g) :
    presentFields path field? ((k, v) :: rest) =
      ((k, (g v).value) :: (presentFields path field? rest).1,
        (g v).findings ++ (presentFields path field? rest).2) := by
  rw [presentFields]
  simp only [h]

theorem presentFields_of_unexpected (h : k.text?.bind field? = none) :
    presentFields path field? ((k, v) :: rest) =
      ((presentFields path field? rest).1,
        Finding.quoting k (fun shown => .mismatch path (.unexpectedField shown)) ::
          (presentFields path field? rest).2) := by
  rw [presentFields]
  simp only [h]

variable {es : Entries} {name : Text} {b : Block} {fields : List (Text × Block)}

theorem missingFields_of_has (h : es.has name = true) :
    missingFields path es ((name, b) :: fields) = missingFields path es fields := by
  rw [missingFields]
  simp only [h, ↓reduceIte]

theorem missingFields_of_optional (h : es.has name = false) (hb : b.isOptional = true) :
    missingFields path es ((name, b) :: fields) =
      ((.str name, .null) :: (missingFields path es fields).1,
        (missingFields path es fields).2) := by
  rw [missingFields]
  simp only [h, hb, ↓reduceIte, Bool.false_eq_true]

theorem missingFields_of_missing (h : es.has name = false) (hb : b.isOptional = false) :
    missingFields path es ((name, b) :: fields) =
      ((missingFields path es fields).1,
        .mismatch path (.missingField name) :: (missingFields path es fields).2) := by
  rw [missingFields]
  simp only [h, hb, ↓reduceIte, Bool.false_eq_true]

end Fields

/-- The entries of a dictionary with their findings, after earlier ones. -/
def Converted.ofEntries (before : List Finding) (parts : List (Value × Value) × List Finding) :
    Converted :=
  ⟨.dict parts.1, before ++ parts.2⟩

namespace Block

variable {d : Direction} {path : Path} {v : Value}

/-! ## The walk at one node -/

/-- A truth value against its block. -/
def convertFlag (d : Direction) (path : Path) : Value → Converted
  | .bool b => .leaf (.bool b) []
  | _ => .failed [.mismatch path (.expected .boolean d)]

/-- An array against its block. -/
def convertArray [Host] (d : Direction) (path : Path) (value : Block) (length : Setting LengthRule)
    (v : Value) : Converted :=
  match d.items? v with
  | none => .failed [.mismatch path (.expected .array d)]
  | some xs => .ofItems (checkLength path xs.length length)
      (Converted.items (fun i x => value.convert d (path ++ [.item i]) x) 0 xs)

/-- A tuple against its block. -/
def convertTuple [Host] (d : Direction) (path : Path) (items : List Block) (v : Value) : Converted :=
  match d.items? v with
  | none => .failed [.mismatch path (.expected .array d)]
  | some xs =>
    if xs.length = items.length then .ofItems [] (convertPositions d path 0 items xs)
    else .failed [.mismatch path (.tupleLength items.length)]

/-- An object against its block. -/
def convertObject [Host] (d : Direction) (path : Path) (key : KeyKind) (value : Block)
    (length : Setting LengthRule) : Value → Converted
  | .dict es => .ofEntries (checkLength path es.length length)
      (Converted.entries d path key (fun p x => value.convert d p x) 0 es)
  | _ => .failed [.mismatch path (.expected .object d)]

/-- The fields of a map that a dictionary has, along their blocks. -/
def fieldEntries [Host] (d : Direction) (path : Path) (fields : List (Text × Block)) (es : Entries) :
    List (Value × Value) × List Finding :=
  presentFields path (fun name => convertField d path name fields) es

/-- A map against its block: the fields that are there, then those that are not. -/
def convertMap [Host] (d : Direction) (path : Path) (fields : List (Text × Block)) : Value → Converted
  | .dict es =>
    let present := fieldEntries d path fields es
    let missing := missingFields path es fields
    ⟨.dict (present.1 ++ missing.1), present.2 ++ missing.2⟩
  | _ => .failed [.mismatch path (.expected .object d)]

/-- What the walk does at a node that is not excused. -/
def convertNode [Host] (d : Direction) (path : Path) : Block → Value → Converted
  | flag _ => convertFlag d path
  | number _ decimal minimum maximum =>
    convertNumber d path (decimal.getD true) minimum maximum
  | string _ length pattern => convertString d path length pattern
  | array _ value length => convertArray d path value length
  | object _ key value length => convertObject d path key value length
  | tuple _ items => convertTuple d path items
  | map _ fields => convertMap d path fields
  | enum _ values => convertEnum d path values

theorem excuses_eq_true {h : Header} :
    h.excuses v = true ↔ v = .null ∧ h.option.getD false = true := by
  cases v with
  | null => exact ⟨fun h => ⟨rfl, h⟩, fun h => h.2⟩
  | _ => exact ⟨fun h => (by cases h), fun h => (by cases h.1)⟩

theorem convert_of_excused [Host] {b : Block} (hv : b.header.excuses v = true) :
    b.convert d path v = ⟨.null, []⟩ := by
  rw [convert.eq_def, if_pos hv]

theorem convert_of_not_excused [Host] {b : Block} (hv : b.header.excuses v = false) :
    b.convert d path v = b.convertNode d path v := by
  rw [convert.eq_def, hv]
  cases b with
  | flag h => cases v <;> rfl
  | object h key value length => cases v <;> rfl
  | map h fields => cases v <;> rfl
  | _ => rfl

/-! ## The fields of a map -/

theorem convertField_eq [Host] (name : Text) (fields : List (Text × Block)) :
    convertField d path name fields =
      (fields.lookup name).map fun b v => b.convert d (path ++ [.field name]) v := by
  induction fields with
  | nil => rfl
  | cons f fields ih =>
    obtain ⟨n, b⟩ := f
    rw [convertField, List.lookup_cons]
    by_cases h : n = name
    · rw [if_pos h, beq_iff_eq.2 h.symm]
      rfl
    · rw [if_neg h, beq_eq_false_iff_ne.2 fun e => h e.symm, ih]

/-- The block of the field that a key names. -/
def fieldOf? (fields : List (Text × Block)) (key : Value) : Option Block :=
  key.text?.bind fun name => fields.lookup name

theorem fieldOf?_eq_some {fields : List (Text × Block)} {key : Value} {b : Block} :
    fieldOf? fields key = some b ↔ ∃ name, key = .str name ∧ fields.lookup name = some b := by
  rw [fieldOf?, Option.bind_eq_some_iff]
  cases key with
  | str t =>
    exact ⟨fun ⟨_, ht, hb⟩ => ⟨t, rfl, by rw [Option.some.inj ht]; exact hb⟩,
      fun ⟨_, ht, hb⟩ => ⟨t, rfl, by rw [Value.str.inj ht]; exact hb⟩⟩
  | _ => exact ⟨fun ⟨_, ht, _⟩ => (by cases ht), fun ⟨_, ht, _⟩ => (by cases ht)⟩

theorem mem_of_lookup {name : Text} {fields : List (Text × Block)} {b : Block}
    (h : fields.lookup name = some b) : (name, b) ∈ fields := by
  induction fields with
  | nil => cases h
  | cons f fields ih =>
    obtain ⟨n, c⟩ := f
    rw [List.lookup_cons] at h
    split at h
    · next hn =>
      rw [eq_of_beq hn, Option.some.inj h]
      exact List.mem_cons_self
    · exact List.mem_cons_of_mem _ (ih h)

theorem fieldEntries_of_field [Host] {fields : List (Text × Block)} {name : Text} {b : Block}
    (h : fields.lookup name = some b) (v : Value) (rest : Entries) :
    fieldEntries d path fields ((.str name, v) :: rest) =
      ((.str name, (b.convert d (path ++ [.field name]) v).value) ::
          (fieldEntries d path fields rest).1,
        (b.convert d (path ++ [.field name]) v).findings ++
          (fieldEntries d path fields rest).2) := by
  have hfield : (Value.str name).text?.bind (fun name => convertField d path name fields) =
      some fun v => b.convert d (path ++ [.field name]) v := by
    rw [Value.text?, Option.bind_some, convertField_eq, h, Option.map_some]
  exact presentFields_of_field hfield

theorem fieldEntries_of_unexpected [Host] {fields : List (Text × Block)} {k : Value}
    (h : fieldOf? fields k = none) (v : Value) (rest : Entries) :
    fieldEntries d path fields ((k, v) :: rest) =
      ((fieldEntries d path fields rest).1,
        Finding.quoting k (fun shown => .mismatch path (.unexpectedField shown)) ::
          (fieldEntries d path fields rest).2) := by
  refine presentFields_of_unexpected ?_
  rw [fieldOf?, Option.bind_eq_none_iff] at h
  rw [Option.bind_eq_none_iff]
  intro name hname
  rw [convertField_eq, h name hname, Option.map_none]

/-- Where nothing is found on the fields that are there, the first of them is declared, and its value is
clean. A field that is not declared is found, also if it cannot be shown. -/
theorem exists_field_of_clean [Host] {fields : List (Text × Block)} {k v : Value} {rest : Entries}
    (hclean : (fieldEntries d path fields ((k, v) :: rest)).2 = []) :
    ∃ name b, k = .str name ∧ fields.lookup name = some b ∧
      (b.convert d (path ++ [.field name]) v).findings = [] ∧
      (fieldEntries d path fields rest).2 = [] := by
  cases hb : fieldOf? fields k with
  | none =>
    rw [fieldEntries_of_unexpected hb] at hclean
    cases hclean
  | some b =>
    obtain ⟨name, rfl, hname⟩ := fieldOf?_eq_some.1 hb
    rw [fieldEntries_of_field hname, List.append_eq_nil_iff] at hclean
    exact ⟨name, b, rfl, hname, hclean⟩

end Block

end DocShape
