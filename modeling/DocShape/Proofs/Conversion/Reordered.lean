import DocShape.Proofs.Conversion.Saved
import DocShape.Proofs.Schema.Reordered

/-!
# Conversions of values with their entries in another order

`Value.Permuted` relates values that differ in the order of the entries of dictionaries. Along a block, or
along the block with the fields of its maps in another order, a conversion makes of both the same value,
but for that order (`Block.savesAlike`), and finds the same, but for the order of findings and for the
index that a finding has for a key (`Block.sameFindings_convert`).
-/

namespace DocShape

/-! ## Values -/

namespace Value

/-- A value with the entries of its dictionaries in another order, at any depth. -/
inductive Permuted : Value → Value → Prop
  | same (v : Value) : Permuted v v
  | list {vs ws : List Value} (count : vs.length = ws.length)
    (items : ∀ p ∈ vs.zip ws, Permuted p.1 p.2) : Permuted (.list vs) (.list ws)
  | tuple {vs ws : List Value} (count : vs.length = ws.length)
    (items : ∀ p ∈ vs.zip ws, Permuted p.1 p.2) : Permuted (.tuple vs) (.tuple ws)
  | dict {es fs gs : List (Value × Value)} (keys : es.map Prod.fst = fs.map Prod.fst)
    (values : ∀ p ∈ es.zip fs, Permuted p.1.2 p.2.2) (order : fs.Perm gs) :
    Permuted (.dict es) (.dict gs)

/-- An entry under the same key, with the entries inside in another order. -/
def EntryPermuted (e f : Value × Value) : Prop := e.1 = f.1 ∧ e.2.Permuted f.2

namespace Permuted

variable {v w : Value} {d : Direction}

theorem of_items {vs ws : List Value} (h : List.Forall₂ Permuted vs ws) :
    (Value.list vs).Permuted (.list ws) :=
  .list h.length_eq fun _ hp => (List.forall₂_iff_zip.1 h).2 hp

theorem of_entries {es gs : Entries} (h : Rearranged EntryPermuted es gs) :
    (Value.dict es).Permuted (.dict gs) := by
  obtain ⟨mid, hmid, horder⟩ := h
  exact .dict (images_of_forall₂ hmid) (fun p hp => ((List.forall₂_iff_zip.1 hmid).2 hp).2) horder

/-- Dictionaries are related to dictionaries. -/
theorem cases_dict (h : v.Permuted w) :
    (∃ es gs, v = .dict es ∧ w = .dict gs ∧ Rearranged EntryPermuted es gs) ∨
      (∀ es, v ≠ .dict es) ∧ ∀ es, w ≠ .dict es := by
  cases h with
  | same =>
    by_cases hv : ∃ es, v = .dict es
    · obtain ⟨es, rfl⟩ := hv
      exact .inl ⟨es, es, rfl, rfl, .of_forall₂ (List.forall₂_same.2 fun e _ => ⟨rfl, .same e.2⟩)⟩
    · exact .inr ⟨fun es hes => hv ⟨es, hes⟩, fun es hes => hv ⟨es, hes⟩⟩
  | list => exact .inr ⟨nofun, nofun⟩
  | tuple => exact .inr ⟨nofun, nofun⟩
  | dict keys values order => exact .inl ⟨_, _, rfl, rfl, _, forall₂_of_images keys values, order⟩

/-- Arrays are related to arrays, item by item. -/
theorem items? (h : v.Permuted w) (d : Direction) :
    Option.Rel (List.Forall₂ Permuted) (d.items? v) (d.items? w) := by
  have hsome {vs ws : List Value} (count : vs.length = ws.length)
      (items : ∀ p ∈ vs.zip ws, p.1.Permuted p.2) :
      Option.Rel (List.Forall₂ Permuted) (some vs) (some ws) :=
    .some (List.forall₂_iff_zip.2 ⟨count, fun hp => items _ hp⟩)
  cases h with
  | same =>
    cases d.items? v with
    | none => exact .none
    | some vs => exact .some (List.forall₂_same.2 fun x _ => .same x)
  | list count items => cases d <;> exact hsome count items
  | tuple count items =>
    cases d with
    | decoding => exact .none
    | encoding => exact hsome count items
  | dict => cases d <;> exact .none

theorem excuses_eq (h : v.Permuted w) (header : Header) : header.excuses v = header.excuses w := by
  cases h <;> rfl

end Permuted

end Value

/-! ## Findings -/

/-- A mismatch without the index that it has for a key. -/
def Mismatch.unindexed : Mismatch → Mismatch
  | badKey _ kind => badKey 0 kind
  | m => m

/-- An error without the index that it has for a key. -/
def Complaint.unindexed : Complaint → Complaint
  | mismatch path cause => mismatch path cause.unindexed
  | c => c

/-- A finding without the index that it has for a key. -/
def Finding.unindexed : Finding → Finding := .map Complaint.unindexed id id

/-- The same findings in some order, but for the indices of keys. -/
def SameFindings (fs gs : List Finding) : Prop :=
  (fs.map Finding.unindexed).Perm (gs.map Finding.unindexed)

theorem noHalt_map_unindexed {fs : List Finding} :
    NoHalt (fs.map Finding.unindexed) ↔ NoHalt fs := by
  refine forall_congr' fun f => not_congr ?_
  rw [List.mem_map]
  constructor
  · rintro ⟨g, hg, hf⟩
    cases g with
    | halt g => rwa [← show Finding.halt g = .halt f from hf]
    | error c => cases hf
    | warning w => cases hf
  · exact fun hf => ⟨_, hf, rfl⟩

namespace SameFindings

variable {fs fs' gs gs' : List Finding}

theorem refl (fs : List Finding) : SameFindings fs fs := List.Perm.refl _

theorem of_perm (h : fs.Perm gs) : SameFindings fs gs := h.map _

theorem append (h : SameFindings fs gs) (h' : SameFindings fs' gs') :
    SameFindings (fs ++ fs') (gs ++ gs') := by
  rw [SameFindings, List.map_append, List.map_append]
  exact List.Perm.append h h'

theorem trans {hs : List Finding} (h : SameFindings fs gs) (h' : SameFindings gs hs) :
    SameFindings fs hs :=
  List.Perm.trans h h'

theorem noHalt_iff (h : SameFindings fs gs) : NoHalt fs ↔ NoHalt gs := by
  have hmapped : NoHalt (fs.map Finding.unindexed) ↔ NoHalt (gs.map Finding.unindexed) :=
    noHalt_perm h
  rwa [noHalt_map_unindexed, noHalt_map_unindexed] at hmapped

end SameFindings

/-! ## Blocks -/

/-- Kinds of blocks that take dictionaries. -/
def Kind.takesDict : Kind → Bool
  | object | map => true
  | _ => false

namespace Block

namespace Permuted

variable {b c : Block} {h : Header} {length : Setting LengthRule} {kind : KeyKind}

theorem header_eq (hbc : b.Permuted c) : c.header = b.header := by
  cases hbc <;> rfl

theorem exists_array (hbc : (Block.array h b length).Permuted c) :
    ∃ b', c = .array h b' length ∧ b.Permuted b' := by
  cases hbc with
  | same => exact ⟨b, rfl, .same b⟩
  | array value => exact ⟨_, rfl, value⟩

theorem exists_object (hbc : (Block.object h kind b length).Permuted c) :
    ∃ b', c = .object h kind b' length ∧ b.Permuted b' := by
  cases hbc with
  | same => exact ⟨b, rfl, .same b⟩
  | object value => exact ⟨_, rfl, value⟩

theorem exists_tuple {items : List Block} (hbc : (Block.tuple h items).Permuted c) :
    ∃ items', c = .tuple h items' ∧ List.Forall₂ Permuted items items' := by
  cases hbc with
  | same => exact ⟨items, rfl, List.forall₂_same.2 fun b _ => .same b⟩
  | tuple count inner => exact ⟨_, rfl, List.forall₂_iff_zip.2 ⟨count, fun hp => inner _ hp⟩⟩

theorem exists_map {fields : List (Text × Block)} (hbc : (Block.map h fields).Permuted c) :
    ∃ fields', c = .map h fields' ∧ Rearranged FieldPermuted fields fields' := by
  cases hbc with
  | same =>
    exact ⟨fields, rfl, .of_forall₂ (List.forall₂_same.2 fun f _ => ⟨rfl, .same f.2⟩)⟩
  | map names inner order => exact ⟨_, rfl, _, forall₂_of_images names inner, order⟩

theorem eq_of_leaf (hb : b.kind.isLeaf = true) (hbc : b.Permuted c) : c = b := by
  cases hbc with
  | same => rfl
  | _ => cases hb

end Permuted

variable {d : Direction} {path : Path} {v w : Value} {b : Block}

/-- A block without parts does not look into containers. -/
theorem convert_leaf_of_permuted [Host] (hb : b.kind.isLeaf = true) (h : v.Permuted w) :
    b.convert d path v = b.convert d path w := by
  cases h with
  | same => rfl
  | _ =>
    cases b with
    | flag => rfl
    | number => rfl
    | string => rfl
    | enum => rfl
    | _ => cases hb

theorem ownNodeFindings_leaf_of_permuted [Host] (hb : b.kind.isLeaf = true) (h : v.Permuted w) :
    b.ownNodeFindings d path v = b.ownNodeFindings d path w := by
  cases h with
  | same => rfl
  | _ =>
    cases b with
    | flag => rfl
    | number => rfl
    | string => rfl
    | enum => rfl
    | _ => cases hb

theorem fieldOf?_of_permuted {fields fields' : List (Text × Block)}
    (hfields : (fields.map Prod.fst).Nodup) (h : Rearranged FieldPermuted fields fields') (k : Value) :
    Option.Rel Permuted (fieldOf? fields k) (fieldOf? fields' k) := by
  unfold fieldOf?
  cases k.text? with
  | none => exact .none
  | some name => exact Rearranged.lookup (R := Permuted) hfields h name

end Block

/-! ## Parts -/

/-- A part in the same place, with the members of its block and of its value in another order. -/
structure Part.Permuted (p q : Part) : Prop where
  segment : p.segment = q.segment
  block : p.block.Permuted q.block
  value : p.value.Permuted q.value

namespace Part

variable {d : Direction}

theorem forall₂_items {b c : Block} {vs ws : List Value} (hbc : b.Permuted c)
    (h : List.Forall₂ Value.Permuted vs ws) (index : Nat) :
    List.Forall₂ Permuted (items b index vs) (items c index ws) := by
  induction h generalizing index with
  | nil => exact .nil
  | cons hvw _ ih => exact .cons ⟨rfl, hbc, hvw⟩ (ih _)

theorem forall₂_positions {bs cs : List Block} {vs ws : List Value}
    (hblocks : List.Forall₂ Block.Permuted bs cs) (h : List.Forall₂ Value.Permuted vs ws)
    (index : Nat) : List.Forall₂ Permuted (positions index bs vs) (positions index cs ws) := by
  induction hblocks generalizing index vs ws with
  | nil => exact .nil
  | cons hbc _ ih =>
    cases h with
    | nil => exact .nil
    | cons hvw hrest => exact .cons ⟨rfl, hbc, hvw⟩ (ih hrest _)

theorem rel_entry? {b c : Block} {e f : Value × Value} (hbc : b.Permuted c)
    (h : Value.EntryPermuted e f) (kind : KeyKind) :
    Option.Rel Permuted (Part.entry? d kind b e) (Part.entry? d kind c f) := by
  rw [Part.entry?, Part.entry?, h.1]
  split
  · exact .some ⟨rfl, hbc, h.2⟩
  · exact .none

theorem rel_field? {fields fields' : List (Text × Block)} {e f : Value × Value}
    (hfields : (fields.map Prod.fst).Nodup) (hall : Rearranged Block.FieldPermuted fields fields')
    (h : Value.EntryPermuted e f) : Option.Rel Permuted (field? fields e) (field? fields' f) := by
  rw [field?, field?, h.1]
  cases f.1.text? with
  | none => exact .none
  | some name =>
    have hlookup := Rearranged.lookup (R := Block.Permuted) hfields hall name
    rw [Option.bind_some, Option.bind_some]
    cases hb : fields.lookup name with
    | none =>
      rw [none_of_rel hlookup hb]
      exact .none
    | some b =>
      obtain ⟨c, hc, hbc⟩ := exists_of_rel hlookup hb
      rw [hc]
      exact .some ⟨rfl, hbc, h.2⟩

end Part

namespace Block

variable {d : Direction} {path : Path} {v w : Value} {b c : Block}

theorem partsIn_of_no_dict (hb : b.kind.takesDict = true) (hv : ∀ es, v ≠ .dict es) :
    b.partsIn d v = [] := by
  cases v with
  | dict es => exact absurd rfl (hv es)
  | _ =>
    cases b with
    | object | map => rfl
    | _ => cases hb

theorem ownNodeFindings_of_no_dict [Host] (hb : b.kind.takesDict = true) (hv : ∀ es, v ≠ .dict es) :
    b.ownNodeFindings d path v = [.mismatch path (.expected .object d)] := by
  cases v with
  | dict es => exact absurd rfl (hv es)
  | _ =>
    cases b with
    | object | map => rfl
    | _ => cases hb

/-- A node goes on to the same parts, but for the order of entries and fields. -/
theorem rearranged_partsIn (hb : b.FieldsApart) (hbc : b.Permuted c) (h : v.Permuted w) :
    Rearranged Part.Permuted (b.partsIn d v) (c.partsIn d w) := by
  have hitems := h.items? d
  cases b with
  | flag | number | string | enum =>
    rw [hbc.eq_of_leaf rfl]
    exact .of_forall₂ .nil
  | array header value length =>
    obtain ⟨value', rfl, hvalue⟩ := hbc.exists_array
    rw [partsIn, partsIn]
    generalize d.items? v = vs? at hitems
    generalize d.items? w = ws? at hitems
    cases hitems with
    | none => exact .of_forall₂ .nil
    | some hitems => exact .of_forall₂ (Part.forall₂_items hvalue hitems 0)
  | object header kind value length =>
    obtain ⟨value', rfl, hvalue⟩ := hbc.exists_object
    rcases h.cases_dict with ⟨es, gs, rfl, rfl, hentries⟩ | ⟨hv, hw⟩
    · exact hentries.filterMap fun e _ f hef => Part.rel_entry? hvalue hef kind
    · rw [partsIn_of_no_dict rfl hv, partsIn_of_no_dict rfl hw]
      exact .of_forall₂ .nil
  | tuple header items =>
    obtain ⟨items', rfl, hblocks⟩ := hbc.exists_tuple
    rw [partsIn, partsIn]
    generalize d.items? v = vs? at hitems
    generalize d.items? w = ws? at hitems
    cases hitems with
    | none => exact .of_forall₂ .nil
    | some hitems =>
      dsimp only
      rw [hitems.length_eq, hblocks.length_eq]
      split
      · exact .of_forall₂ (Part.forall₂_positions hblocks hitems 0)
      · exact .of_forall₂ .nil
  | map header fields =>
    obtain ⟨fields', rfl, hfields⟩ := hbc.exists_map
    rcases h.cases_dict with ⟨es, gs, rfl, rfl, hentries⟩ | ⟨hv, hw⟩
    · exact hentries.filterMap fun e _ f hef => Part.rel_field? hb.here hfields hef
    · rw [partsIn_of_no_dict rfl hv, partsIn_of_no_dict rfl hw]
      exact .of_forall₂ .nil

/-! ## Findings at one node -/

/-- What is found on a key of an object, without its index. -/
def keyFinding? (d : Direction) (path : Path) (kind : KeyKind) (e : Value × Value) : Option Finding :=
  match d.key? kind e.1 with
  | none => some (.mismatch path (.badKey 0 kind))
  | some (.error f) => some (.halt f)
  | some (.ok _) => none

theorem unindexed_keyFindings (kind : KeyKind) (index : Nat) (es : Entries) :
    (keyFindings d path kind index es).map Finding.unindexed =
      es.filterMap (keyFinding? d path kind) := by
  induction es generalizing index with
  | nil => rfl
  | cons e es ih =>
    obtain ⟨k, x⟩ := e
    rw [keyFindings, List.filterMap_cons, keyFinding?]
    dsimp only
    cases d.key? kind k with
    | none => rw [List.map_cons, ih]; rfl
    | some r =>
      cases r with
      | error f => rw [List.map_cons, ih]; rfl
      | ok key => exact ih _

/-- What is found on a field of a map that a dictionary lacks. -/
def missing? (path : Path) (es : Entries) (f : Text × Block) : Option Finding :=
  if es.has f.1 || f.2.isOptional then none else some (.mismatch path (.missingField f.1))

theorem snd_missingFields (es : Entries) (fields : List (Text × Block)) :
    (missingFields path es fields).2 = fields.filterMap (missing? path es) := by
  induction fields with
  | nil => rfl
  | cons f fields ih =>
    rw [List.filterMap_cons, missing?]
    cases hhas : es.has f.1 with
    | true => rw [missingFields_of_has hhas, ih]; rfl
    | false =>
      cases hoption : f.2.isOptional with
      | true => rw [missingFields_of_optional hhas hoption, ih]; rfl
      | false => rw [missingFields_of_missing hhas hoption, ih]; rfl

theorem has_of_permuted {es gs : Entries} (h : Rearranged Value.EntryPermuted es gs) (name : Text) :
    es.has name = gs.has name := by
  have hkeys (es : Entries) : es.has name = true ↔ Value.str name ∈ es.map Prod.fst := by
    rw [Entries.has_iff]
    simp
  have hperm : (es.map Prod.fst).Perm (gs.map Prod.fst) := h.images
  rw [Bool.eq_iff_iff, hkeys, hkeys]
  exact hperm.mem_iff

theorem isOptional_of_permuted (hbc : b.Permuted c) : c.isOptional = b.isOptional := by
  rw [isOptional, isOptional, hbc.header_eq]

/-- The same is found at a node itself. -/
theorem sameFindings_own [Host] (hb : b.FieldsApart) (hbc : b.Permuted c) (h : v.Permuted w)
    (path : Path) :
    SameFindings (b.ownFindings d path v) (c.ownFindings d path w) := by
  rw [ownFindings, ownFindings, hbc.header_eq, h.excuses_eq]
  split
  · exact .refl _
  have hitems := h.items? d
  cases b with
  | flag | number | string | enum =>
    rw [hbc.eq_of_leaf rfl, ownNodeFindings_leaf_of_permuted rfl h]
    exact .refl _
  | array header value length =>
    obtain ⟨value', rfl, -⟩ := hbc.exists_array
    rw [ownNodeFindings, ownNodeFindings]
    generalize d.items? v = vs? at hitems
    generalize d.items? w = ws? at hitems
    cases hitems with
    | none => exact .refl _
    | some hitems =>
      dsimp only
      rw [hitems.length_eq]
      exact .refl _
  | object header kind value length =>
    obtain ⟨value', rfl, -⟩ := hbc.exists_object
    rcases h.cases_dict with ⟨es, gs, rfl, rfl, hentries⟩ | ⟨hv, hw⟩
    · rw [ownNodeFindings, ownNodeFindings, hentries.length_eq]
      refine (SameFindings.refl _).append ?_
      rw [SameFindings, unindexed_keyFindings, unindexed_keyFindings]
      refine hentries.filterMap_perm fun e _ f hef => ?_
      rw [keyFinding?, keyFinding?, hef.1]
    · rw [ownNodeFindings_of_no_dict rfl hv, ownNodeFindings_of_no_dict rfl hw]
      exact .refl _
  | tuple header items =>
    obtain ⟨items', rfl, hblocks⟩ := hbc.exists_tuple
    rw [ownNodeFindings, ownNodeFindings]
    generalize d.items? v = vs? at hitems
    generalize d.items? w = ws? at hitems
    cases hitems with
    | none => exact .refl _
    | some hitems =>
      dsimp only
      rw [hitems.length_eq, hblocks.length_eq]
      exact .refl _
  | map header fields =>
    obtain ⟨fields', rfl, hfields⟩ := hbc.exists_map
    rcases h.cases_dict with ⟨es, gs, rfl, rfl, hentries⟩ | ⟨hv, hw⟩
    · rw [ownNodeFindings, ownNodeFindings, snd_missingFields, snd_missingFields]
      refine .of_perm (.append ?_ ?_)
      · refine hentries.filterMap_perm fun e _ f hef => ?_
        have hfield := fieldOf?_of_permuted hb.here hfields f.1
        rw [fieldFinding?, fieldFinding?, hef.1]
        generalize fieldOf? fields f.1 = b? at hfield
        generalize fieldOf? fields' f.1 = c? at hfield
        cases hfield <;> rfl
      · refine hfields.filterMap_perm fun f _ g hfg => ?_
        rw [missing?, missing?, hfg.1, has_of_permuted hentries, isOptional_of_permuted hfg.2]
    · rw [ownNodeFindings_of_no_dict rfl hv, ownNodeFindings_of_no_dict rfl hw]
      exact .refl _

/-- A conversion finds the same, but for the order of findings and the indices of keys. -/
theorem sameFindings_convert [Host] (hb : b.FieldsApart) (hbc : b.Permuted c) (h : v.Permuted w)
    (path : Path) : SameFindings (b.convert d path v).findings (c.convert d path w).findings := by
  induction b using Block.partsInduction generalizing c v w path with
  | step b ih =>
    refine (SameFindings.of_perm (findings_perm d path b v)).trans
      (.trans ?_ (.of_perm (findings_perm d path c w).symm))
    refine (sameFindings_own hb hbc h path).append ?_
    rw [SameFindings, List.map_flatMap, List.map_flatMap]
    refine (rearranged_partsIn hb hbc h).flatMap_perm fun p hp q hpq => ?_
    have hblock := block_mem_parts hp
    rw [Part.findings, Part.findings, hpq.segment]
    exact ih p.block hblock (hb.inside p.block hblock) hpq.block hpq.value _

/-! ## Values -/

/-- The same value is made along a block, in whatever order its fields are, but for the order of
entries. -/
def SavesAlike [Host] (d : Direction) (b : Block) : Prop :=
  ∀ c, b.Permuted c → ∀ v w, v.Permuted w → (b.saved d v).Permuted (c.saved d w)

theorem rel_savedPair? [Host] {value value' : Block} {e f : Value × Value} (kind : KeyKind)
    (hvalue : value.SavesAlike d) (hpermuted : value.Permuted value')
    (h : Value.EntryPermuted e f) :
    Option.Rel Value.EntryPermuted (savedPair? d kind value e) (savedPair? d kind value' f) := by
  rw [savedPair?, savedPair?, h.1]
  split
  · exact .some ⟨rfl, hvalue _ hpermuted _ _ h.2⟩
  · exact .none

theorem rel_savedField? [Host] {fields fields' : List (Text × Block)} {e f : Value × Value}
    (hnames : (fields.map Prod.fst).Nodup) (hall : Rearranged FieldPermuted fields fields')
    (hfields : ∀ g ∈ fields, g.2.SavesAlike d) (h : Value.EntryPermuted e f) :
    Option.Rel Value.EntryPermuted (savedField? d fields e) (savedField? d fields' f) := by
  have hfield := fieldOf?_of_permuted hnames hall f.1
  rw [savedField?, savedField?, h.1]
  cases hb : fieldOf? fields f.1 with
  | none =>
    rw [none_of_rel hfield hb]
    exact .none
  | some b =>
    obtain ⟨name, -, hname⟩ := fieldOf?_eq_some.1 hb
    obtain ⟨c, hc, hbc⟩ := exists_of_rel hfield hb
    rw [hc]
    exact .some ⟨rfl, hfields _ (mem_of_lookup hname) c hbc _ _ h.2⟩

theorem forall₂_zipWith_saved [Host] {bs cs : List Block} {vs ws : List Value}
    (hbs : ∀ b ∈ bs, b.SavesAlike d) (hblocks : List.Forall₂ Permuted bs cs)
    (h : List.Forall₂ Value.Permuted vs ws) :
    List.Forall₂ Value.Permuted (List.zipWith (saved d) bs vs) (List.zipWith (saved d) cs ws) := by
  induction hblocks generalizing vs ws with
  | nil => exact .nil
  | cons hbc _ ih =>
    obtain ⟨hb, hrest⟩ := List.forall_mem_cons.1 hbs
    cases h with
    | nil => exact .nil
    | cons hvw hall => exact .cons (hb _ hbc _ _ hvw) (ih hrest hall)

/-- What stands for a field that a dictionary lacks, if it may be missing. -/
def absent? (es : Entries) (f : Text × Block) : Option (Value × Value) :=
  if !es.has f.1 && f.2.isOptional then some (.str f.1, .null) else none

theorem absentFields_eq (fields : List (Text × Block)) (es : Entries) :
    absentFields fields es = fields.filterMap (absent? es) := by
  induction fields with
  | nil => rfl
  | cons f fields ih =>
    rw [absentFields_cons, List.filterMap_cons, absent?, ih]
    cases !es.has f.1 && f.2.isOptional <;> rfl

/-- A conversion makes the same value, but for the order of entries. -/
theorem savesAlike [Host] (hb : b.FieldsApart) : b.SavesAlike d := by
  induction b using Block.partsInduction with
  | step b ih =>
    intro c hbc v w h
    have hparts (p : Block) (hp : p ∈ b.parts) : p.SavesAlike d := ih p hp (hb.inside p hp)
    have hitems := h.items? d
    cases b with
    | flag | number | string | enum =>
      rw [hbc.eq_of_leaf rfl, saved, convert_leaf_of_permuted rfl h]
      exact .same _
    | array header value length =>
      obtain ⟨value', rfl, hvalue⟩ := hbc.exists_array
      cases hvs : d.items? v with
      | none =>
        rw [saved_array_of_no_items hvs, saved_array_of_no_items (none_of_rel hitems hvs)]
        exact .same _
      | some vs =>
        obtain ⟨ws, hws, hall⟩ := exists_of_rel hitems hvs
        rw [saved_array hvs, saved_array hws]
        refine .of_items (List.forall₂_map_left_iff.2 (List.forall₂_map_right_iff.2 ?_))
        exact hall.imp fun x y hxy => hparts value List.mem_cons_self _ hvalue x y hxy
    | object header kind value length =>
      obtain ⟨value', rfl, hvalue⟩ := hbc.exists_object
      rcases h.cases_dict with ⟨es, gs, rfl, rfl, hentries⟩ | ⟨hv, hw⟩
      · rw [saved_object, saved_object]
        exact .of_entries (hentries.filterMap fun e _ f hef =>
          rel_savedPair? kind (hparts value List.mem_cons_self) hvalue hef)
      · rw [saved_object_of_no_dict hv, saved_object_of_no_dict hw]
        exact .same _
    | tuple header items =>
      obtain ⟨items', rfl, hblocks⟩ := hbc.exists_tuple
      cases hvs : d.items? v with
      | none =>
        have hws := none_of_rel hitems hvs
        rw [saved_tuple_of_no_items (by simp [hvs]), saved_tuple_of_no_items (by simp [hws])]
        exact .same _
      | some vs =>
        obtain ⟨ws, hws, hall⟩ := exists_of_rel hitems hvs
        have hcounts : ws.length = items'.length ↔ vs.length = items.length := by
          rw [← hall.length_eq, ← hblocks.length_eq]
        by_cases hcount : vs.length = items.length
        · rw [saved_tuple hvs hcount, saved_tuple hws (hcounts.2 hcount)]
          exact .of_items (forall₂_zipWith_saved hparts hblocks hall)
        · have hcount' : ws.length ≠ items'.length := fun h => hcount (hcounts.1 h)
          rw [saved_tuple_of_no_items (by simpa [hvs] using hcount),
            saved_tuple_of_no_items (by simpa [hws] using hcount')]
          exact .same _
    | map header fields =>
      obtain ⟨fields', rfl, hfields⟩ := hbc.exists_map
      rcases h.cases_dict with ⟨es, gs, rfl, rfl, hentries⟩ | ⟨hv, hw⟩
      · rw [saved_map, saved_map, absentFields_eq, absentFields_eq]
        refine .of_entries (.append ?_ ?_)
        · exact hentries.filterMap fun e _ f hef => rel_savedField? hb.here hfields
            (fun g hg => hparts g.2 (List.mem_map_of_mem hg)) hef
        · refine hfields.filterMap fun f _ g hfg => ?_
          rw [absent?, absent?, hfg.1, has_of_permuted hentries, isOptional_of_permuted hfg.2]
          split
          · exact .some ⟨rfl, .same _⟩
          · exact .none
      · rw [saved_map_of_no_dict hv, saved_map_of_no_dict hw]
        exact .same _

end Block

end DocShape
