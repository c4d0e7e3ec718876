import DocShape.Proofs.Reordering
import DocShape.Proofs.Schema.Bounds

/-!
# Schemas with their members in another order

`Value.Reordered` relates raw schemas that differ in the order of members: of the properties of blocks, of
the fields of maps, and of what bounds and lengths are given by. The walk of the grammar finds the same on
both, in another order (`Grammar.perm_block`), and both stand for the same block, but for the order of the
fields of maps (`Value.typedUpToOrder`).
-/

namespace DocShape

namespace Value

mutual

/-- A raw schema with its members in another order, at any depth. -/
inductive Reordered : Value → Value → Prop
  | same (v : Value) : Reordered v v
  | block {es fs gs : List (Value × Value)} (keys : es.map Prod.fst = fs.map Prod.fst)
    (members : ∀ p ∈ es.zip fs, ReorderedUnder p.1.1 p.1.2 p.2.2) (order : fs.Perm gs) :
    Reordered (dict es) (dict gs)

/-- What stands under a key of a block, with its members in another order. -/
inductive ReorderedUnder : Value → Value → Value → Prop
  | same (key v : Value) : ReorderedUnder key v v
  | bound {name : Text} {es fs : List (Value × Value)}
    (bound : name = "minimum" ∨ name = "maximum" ∨ name = "length") (order : es.Perm fs) :
    ReorderedUnder (str name) (dict es) (dict fs)
  | value {v w : Value} (inner : Reordered v w) : ReorderedUnder (str "value") v w
  | listed {vs ws : List Value} (count : vs.length = ws.length)
    (inner : ∀ p ∈ vs.zip ws, Reordered p.1 p.2) : ReorderedUnder (str "items") (list vs) (list ws)
  | tupled {vs ws : List Value} (count : vs.length = ws.length)
    (inner : ∀ p ∈ vs.zip ws, Reordered p.1 p.2) : ReorderedUnder (str "items") (tuple vs) (tuple ws)
  | fields {es fs gs : List (Value × Value)} (keys : es.map Prod.fst = fs.map Prod.fst)
    (inner : ∀ p ∈ es.zip fs, Reordered p.1.2 p.2.2) (order : fs.Perm gs) :
    ReorderedUnder (str "fields") (dict es) (dict gs)

end

namespace ReorderedUnder

variable {name : Text} {v w : Value}

theorem eq (hname : name ∉ rewritten) (h : ReorderedUnder (str name) v w) : v = w := by
  simp only [rewritten, List.mem_cons, List.not_mem_nil, or_false, not_or] at hname
  cases h with
  | same => rfl
  | bound bound _ => rcases bound with rfl | rfl | rfl <;> simp at hname
  | _ => simp at hname

theorem of_bound (hname : name = "minimum" ∨ name = "maximum" ∨ name = "length")
    (h : ReorderedUnder (str name) v w) :
    v = w ∨ ∃ es fs, v = dict es ∧ w = dict fs ∧ es.Perm fs := by
  cases h with
  | same => exact .inl rfl
  | bound _ order => exact .inr ⟨_, _, rfl, rfl, order⟩
  | _ => exact absurd hname (by decide)

theorem of_value (h : ReorderedUnder (str "value") v w) : v.Reordered w := by
  cases h with
  | same => exact .same v
  | value inner => exact inner
  | bound bound _ => exact absurd bound (by decide)

theorem of_items (h : ReorderedUnder (str "items") v w) :
    v = w ∨ ∃ vs ws, v.IsSequence vs ∧ w.IsSequence ws ∧ List.Forall₂ Reordered vs ws := by
  cases h with
  | same => exact .inl rfl
  | listed count inner =>
    exact .inr ⟨_, _, .inl rfl, .inl rfl, List.forall₂_iff_zip.2 ⟨count, fun hp => inner _ hp⟩⟩
  | tupled count inner =>
    exact .inr ⟨_, _, .inr rfl, .inr rfl, List.forall₂_iff_zip.2 ⟨count, fun hp => inner _ hp⟩⟩
  | bound bound _ => exact absurd bound (by decide)

theorem of_fields (h : ReorderedUnder (str "fields") v w) :
    v = w ∨ ∃ es gs, v = dict es ∧ w = dict gs ∧
      Rearranged (fun e f => e.1 = f.1 ∧ e.2.Reordered f.2) es gs := by
  cases h with
  | same => exact .inl rfl
  | fields keys inner order =>
    exact .inr ⟨_, _, rfl, rfl, _, forall₂_of_images keys inner, order⟩
  | bound bound _ => exact absurd bound (by decide)

end ReorderedUnder

end Value

/-! ## Members -/

namespace Entries

variable {es fs : Entries} {name : Text}

theorem get?_perm (hes : es.Distinct) (h : es.Perm fs) (name : Text) :
    es.get? name = fs.get? name := by
  cases hv : fs.get? name with
  | some v => exact get?_of_mem hes (h.mem_iff.2 (mem_of_get? hv))
  | none =>
    cases hw : es.get? name with
    | none => rfl
    | some w =>
      obtain ⟨x, hx⟩ := Option.isSome_iff_exists.1 (has_iff.2 ⟨w, h.mem_iff.1 (mem_of_get? hw)⟩)
      rw [hv] at hx
      cases hx

theorem distinct_of_keys (h : es.map Prod.fst = fs.map Prod.fst) (hes : es.Distinct) :
    fs.Distinct := by
  have hpairs : (es.map Prod.fst).Pairwise fun a b => a.equals b = false := List.pairwise_map.2 hes
  rw [h] at hpairs
  exact List.pairwise_map.1 hpairs

/-- The members of a block in another order: what stands under each name is what stood there, but for the
order of its own members. -/
structure Reordered (es gs : Entries) : Prop where
  keys : (es.map Prod.fst).Perm (gs.map Prod.fst)
  under (name : Text) : Option.Rel (Value.ReorderedUnder (.str name)) (es.get? name) (gs.get? name)

theorem get?_forall₂ {R : Value → Value → Value → Prop}
    (h : List.Forall₂ (fun e f => e.1 = f.1 ∧ R e.1 e.2 f.2) es fs) (name : Text) :
    Option.Rel (R (.str name)) (es.get? name) (fs.get? name) := by
  induction h with
  | nil => exact .none
  | @cons e f es fs hef _ ih =>
    obtain ⟨k, v⟩ := e
    obtain ⟨l, w⟩ := f
    obtain ⟨rfl, hvw⟩ := hef
    cases k with
    | str t =>
      rw [get?, get?]
      split
      · next ht => exact .some (ht ▸ hvw)
      · exact ih
    | _ => exact ih

theorem reordered_of_block {gs : Entries} (hes : es.Distinct) (keys : es.map Prod.fst = fs.map Prod.fst)
    (members : ∀ p ∈ es.zip fs, Value.ReorderedUnder p.1.1 p.1.2 p.2.2) (order : fs.Perm gs) :
    es.Reordered gs := by
  refine ⟨keys ▸ order.map Prod.fst, fun name => ?_⟩
  rw [← get?_perm (distinct_of_keys keys hes) order]
  exact get?_forall₂ (R := Value.ReorderedUnder) (forall₂_of_images keys members) name

namespace Reordered

variable {gs : Entries} (h : es.Reordered gs)

include h

theorem exists_get? {v : Value} (hv : es.get? name = some v) :
    ∃ w, gs.get? name = some w ∧ Value.ReorderedUnder (.str name) v w :=
  exists_of_rel (h.under name) hv

theorem get?_none (hv : es.get? name = none) : gs.get? name = none := none_of_rel (h.under name) hv

theorem get?_eq (hname : name ∉ Value.rewritten) : es.get? name = gs.get? name := by
  cases hv : es.get? name with
  | none => exact (h.get?_none hv).symm
  | some v =>
    obtain ⟨w, hw, hvw⟩ := h.exists_get? hv
    rw [hw, hvw.eq hname]

theorem has_eq (name : Text) : es.has name = gs.has name := by
  cases hv : es.get? name with
  | none => rw [has, has, hv, h.get?_none hv]
  | some v =>
    obtain ⟨w, hw, -⟩ := h.exists_get? hv
    rw [has_of_get? hv, has_of_get? hw]

theorem only {names : List Text} (hes : es.Only names) : gs.Only names := by
  intro e he
  obtain ⟨f, hf, hkey⟩ := List.mem_map.1 (h.keys.mem_iff.2 (List.mem_map_of_mem he))
  rw [← hkey]
  exact hes f hf

end Reordered

end Entries

/-! ## The walk of the grammar -/

namespace Grammar

variable {path : Path} {es fs gs : Entries} {name : Text}

theorem perm_unexpected (h : (es.map Prod.fst).Perm (gs.map Prod.fst)) (path : Path)
    (legal : List Text) : (unexpected path legal es).Perm (unexpected path legal gs) := by
  rw [unexpected_eq_keys, unexpected_eq_keys]
  exact (h.filter _).map _

theorem boundObject_perm (hes : es.Distinct) (order : es.Perm fs) (path : Path) :
    (boundObject path es).1.Perm (boundObject path fs).1 ∧
      (boundObject path es).2 = (boundObject path fs).2 := by
  have hextras := perm_unexpected (order.map Prod.fst) path ["exclusive", "value"]
  simp only [boundObject, hextras.isEmpty_eq, optional_congr (Entries.get?_perm hes order _),
    Entries.get?_perm hes order]
  split
  · exact ⟨List.Perm.refl _, rfl⟩
  · exact ⟨hextras, rfl⟩

theorem lengthObject_perm (hes : es.Distinct) (order : es.Perm fs) (path : Path) :
    (lengthObject path es).Perm (lengthObject path fs) := by
  have hextras := perm_unexpected (order.map Prod.fst) path ["minimum", "maximum"]
  have hbound (name : Text) : lengthBound path name es = lengthBound path name fs := by
    rw [lengthBound, lengthBound, Entries.get?_perm hes order]
  simp only [lengthObject, hextras.isEmpty_eq, hbound]
  split
  · exact List.Perm.refl _
  · exact hextras

/-- The order of the members of a raw schema does not show in what is found. -/
def OrderFree (v : Value) : Prop := ∀ w path, v.Reordered w → (block path v).Perm (block path w)

theorem blocks_perm {vs ws : List Value} (hvs : ∀ v ∈ vs, OrderFree v)
    (h : List.Forall₂ Value.Reordered vs ws) (path : Path) (index : Nat) :
    (blocks path index vs).Perm (blocks path index ws) := by
  induction h generalizing index with
  | nil => exact List.Perm.refl _
  | cons hvw _ ih =>
    obtain ⟨hv, hrest⟩ := List.forall_mem_cons.1 hvs
    rw [blocks, blocks]
    exact (hv _ _ hvw).append (ih hrest _)

theorem itemList_perm {v w : Value} {vs ws : List Value} (hv : v.IsSequence vs) (hw : w.IsSequence ws)
    (hvs : ∀ x ∈ vs, OrderFree x) (h : List.Forall₂ Value.Reordered vs ws) (path : Path) :
    (itemList path v).Perm (itemList path w) := by
  have hblocks := blocks_perm hvs h path 0
  cases h with
  | nil => rcases hv with rfl | rfl <;> rcases hw with rfl | rfl <;> exact List.Perm.refl _
  | cons => rcases hv with rfl | rfl <;> rcases hw with rfl | rfl <;> exact hblocks

/-- What is found on a field. -/
def fieldBlock (path : Path) (e : Value × Value) : List Finding :=
  match e.1.text?.filter Text.isName with
  | some name => block (path ++ [.field name]) e.2
  | none =>
    [Finding.quoting e.1 fun shown => .violation (path ++ [.property "fields"]) (.badFieldName shown)]

theorem fieldBlocks_eq (path : Path) (es : Entries) :
    fieldBlocks path es = es.flatMap (fieldBlock path) := by
  induction es with
  | nil => rfl
  | cons e es ih => rw [fieldBlocks, ih]; rfl

theorem fieldDict_perm (hes : ∀ e ∈ es, OrderFree e.2)
    (h : Rearranged (fun e f => e.1 = f.1 ∧ e.2.Reordered f.2) es gs) (path : Path) :
    (fieldDict path (.dict es)).Perm (fieldDict path (.dict gs)) := by
  have hblocks : (fieldBlocks path es).Perm (fieldBlocks path gs) := by
    rw [fieldBlocks_eq, fieldBlocks_eq]
    refine h.flatMap_perm fun e he f hef => ?_
    rw [fieldBlock, fieldBlock, hef.1]
    split
    · exact hes e he _ _ hef.2
    · exact List.Perm.refl _
  have hlength := h.length_eq
  cases es with
  | nil =>
    cases gs with
    | nil => exact List.Perm.refl _
    | cons g gs => cases hlength
  | cons e es =>
    cases gs with
    | nil => cases hlength
    | cons g gs => exact hblocks

section Block

variable (h : es.Reordered gs)

include h

theorem perm_optionalBound (hname : name = "minimum" ∨ name = "maximum")
    (hes : ∀ v, es.get? name = some v → v.Keyed) (path : Path) :
    (optionalBound path name es).1.Perm (optionalBound path name gs).1 ∧
      (optionalBound path name es).2 = (optionalBound path name gs).2 := by
  cases hv : es.get? name with
  | none =>
    rw [optionalBound_of_absent hv, optionalBound_of_absent (h.get?_none hv)]
    exact ⟨List.Perm.refl _, rfl⟩
  | some v =>
    obtain ⟨w, hw, hvw⟩ := h.exists_get? hv
    rw [optionalBound_of_get? hv, optionalBound_of_get? hw]
    rcases hvw.of_bound (hname.imp_right .inl) with rfl | ⟨es', fs', rfl, rfl, order⟩
    · exact ⟨List.Perm.refl _, rfl⟩
    · exact boundObject_perm (hes _ hv).here order _

theorem perm_length (hes : ∀ v, es.get? "length" = some v → v.Keyed) (path : Path) :
    (length path es).Perm (length path gs) := by
  cases hv : es.get? "length" with
  | none => simp only [length, hv, h.get?_none hv, List.Perm.refl]
  | some v =>
    obtain ⟨w, hw, hvw⟩ := h.exists_get? hv
    simp only [length, hv, hw]
    rcases hvw.of_bound (.inr (.inr rfl)) with rfl | ⟨es', fs', rfl, rfl, order⟩
    · exact List.Perm.refl _
    · exact lengthObject_perm (hes _ hv).here order _

theorem perm_number (hes : ∀ name v, es.get? name = some v → v.Keyed) (path : Path) :
    (number path es).Perm (number path gs) := by
  obtain ⟨hminimum, hleast⟩ := perm_optionalBound h (.inl rfl) (hes "minimum") path
  obtain ⟨hmaximum, hmost⟩ := perm_optionalBound h (.inr rfl) (hes "maximum") path
  rw [number, number, hleast, hmost, optional_congr (h.get?_eq (by decide))]
  exact ((hminimum.append_left _).append hmaximum).append_right _

theorem perm_requiredValue (hes : ∀ v, es.get? "value" = some v → OrderFree v) (path inner : Path) :
    (requiredValue path inner es).Perm (requiredValue path inner gs) := by
  cases hv : es.get? "value" with
  | none => simp only [requiredValue, hv, h.get?_none hv, List.Perm.refl]
  | some v =>
    obtain ⟨w, hw, hvw⟩ := h.exists_get? hv
    simp only [requiredValue, hv, hw]
    exact hes v hv w _ hvw.of_value

theorem perm_items (hes : ∀ v, es.get? "items" = some v → ∀ x ∈ v.parts, OrderFree x) (path : Path) :
    (items path es).Perm (items path gs) := by
  rw [items_eq, items_eq]
  cases hv : es.get? "items" with
  | none => rw [h.get?_none hv]
  | some v =>
    obtain ⟨w, hw, hvw⟩ := h.exists_get? hv
    rw [hw]
    rcases hvw.of_items with rfl | ⟨vs, ws, hvs, hws, hall⟩
    · exact List.Perm.refl _
    · exact itemList_perm hvs hws (hvs.parts ▸ hes v hv) hall path

theorem perm_fields (hes : ∀ v, es.get? "fields" = some v → ∀ x ∈ v.parts, OrderFree x)
    (path : Path) : (fields path es).Perm (fields path gs) := by
  rw [fields_eq, fields_eq]
  cases hv : es.get? "fields" with
  | none => rw [h.get?_none hv]
  | some v =>
    obtain ⟨w, hw, hvw⟩ := h.exists_get? hv
    rw [hw]
    rcases hvw.of_fields with rfl | ⟨es', gs', rfl, rfl, hall⟩
    · exact List.Perm.refl _
    · exact fieldDict_perm (fun e he => hes _ hv e.2 (List.mem_map_of_mem he)) hall path

theorem perm_body (hes : (Value.dict es).Keyed)
    (hfree : ∀ x ∈ (Value.dict es).parts, OrderFree x ∧ ∀ y ∈ x.parts, OrderFree y) (path : Path)
    (k : Kind) : (body path es k).Perm (body path gs k) := by
  have hkeyed (name : Text) (v : Value) (hv : es.get? name = some v) : v.Keyed :=
    hes.inside v (Entries.mem_parts_of_get? hv)
  have hvalue (v : Value) (hv : es.get? "value" = some v) : OrderFree v :=
    (hfree v (Entries.mem_parts_of_get? hv)).1
  have hinner {name : Text} (v : Value) (hv : es.get? name = some v) : ∀ x ∈ v.parts, OrderFree x :=
    (hfree v (Entries.mem_parts_of_get? hv)).2
  have hlength := perm_length h (hkeyed "length") path
  cases k with
  | flag => exact List.Perm.refl _
  | number => exact perm_number h hkeyed path
  | string =>
    rw [body, body, optional_congr (h.get?_eq (by decide))]
    exact hlength.append_right _
  | array =>
    rw [body, body, h.has_eq]
    refine (perm_requiredValue h hvalue _ _).append ?_
    split
    · exact hlength
    · exact List.Perm.refl _
  | object =>
    rw [body, body, keyKind, keyKind, h.get?_eq (by decide)]
    exact ((perm_requiredValue h hvalue _ _).append_right _).append hlength
  | tuple => exact perm_items h hinner path
  | map => exact perm_fields h hinner path
  | enum => rw [body, body, enumeration, enumeration, h.get?_eq (by decide)]

end Block

/-- The walk finds the same on a raw schema with its members in another order, in another order. -/
theorem perm_block {v : Value} (hv : v.Keyed) : OrderFree v := by
  induction v using Value.innerInduction with
  | step v ih =>
    intro w path hvw
    cases hvw with
    | same => exact List.Perm.refl _
    | @block es fs gs keys members order =>
      have h := Entries.reordered_of_block hv.here keys members order
      have hfree : ∀ x ∈ (Value.dict es).parts, OrderFree x ∧ ∀ y ∈ x.parts, OrderFree y :=
        fun x hx => ⟨(ih x hx).1 (hv.inside x hx), fun y hy =>
          (ih x hx).2 y hy ((hv.inside x hx).inside y hy)⟩
      have hkind : kind path gs = kind path es := by rw [kind, kind, h.get?_eq (by decide)]
      cases hk : kind path es with
      | error findings =>
        rw [block_unknown hk, block_unknown (hkind.trans hk)]
      | ok k =>
        have hname := kind_eq_ok.1 hk
        rw [block_dict hname, block_dict (kind_eq_ok.1 (hkind.trans hk)), common, common,
          optional_congr (h.get?_eq (by decide)), optional_congr (h.get?_eq (by decide)),
          optional_congr (h.get?_eq (by decide))]
        exact ((perm_unexpected h.keys path _).append (perm_body h hv hfree path k)).append_right _

end Grammar

/-! ## The typed form -/

/-- A block with the fields of its maps in another order, at any depth. -/
inductive Block.Permuted : Block → Block → Prop
  | same (b : Block) : Permuted b b
  | array {h : Header} {b c : Block} {length : Setting LengthRule} (value : Permuted b c) :
    Permuted (.array h b length) (.array h c length)
  | object {h : Header} {kind : KeyKind} {b c : Block} {length : Setting LengthRule}
    (value : Permuted b c) : Permuted (.object h kind b length) (.object h kind c length)
  | tuple {h : Header} {bs cs : List Block} (count : bs.length = cs.length)
    (items : ∀ p ∈ bs.zip cs, Permuted p.1 p.2) : Permuted (.tuple h bs) (.tuple h cs)
  | map {h : Header} {bs cs ds : List (Text × Block)} (names : bs.map Prod.fst = cs.map Prod.fst)
    (fields : ∀ p ∈ bs.zip cs, Permuted p.1.2 p.2.2) (order : cs.Perm ds) :
    Permuted (.map h bs) (.map h ds)

namespace Block

theorem itemsDepth_eq {bs cs : List Block} (h : List.Forall₂ (fun b c => b.depth = c.depth) bs cs) :
    itemsDepth bs = itemsDepth cs := by
  induction h with
  | nil => rfl
  | cons hbc _ ih => rw [itemsDepth, itemsDepth, hbc, ih]

theorem fieldsDepth_eq {fs gs : List (Text × Block)}
    (h : List.Forall₂ (fun f g => f.2.depth = g.2.depth) fs gs) : fieldsDepth fs = fieldsDepth gs := by
  induction h with
  | nil => rfl
  | cons hfg _ ih => rw [fieldsDepth, fieldsDepth, hfg, ih]

theorem fieldsDepth_perm {fs gs : List (Text × Block)} (h : fs.Perm gs) :
    fieldsDepth fs = fieldsDepth gs := by
  refine eq_of_forall_ge_iff fun n => ?_
  rw [fieldsDepth_le_iff, fieldsDepth_le_iff]
  exact forall_congr' fun b => imp_congr_left (h.map Prod.snd).mem_iff

/-- A field of the same name, with the fields inside in another order. -/
def FieldPermuted (f g : Text × Block) : Prop := f.1 = g.1 ∧ f.2.Permuted g.2

theorem Permuted.of_fields {h : Header} {fields fields' : List (Text × Block)}
    (hfields : Rearranged FieldPermuted fields fields') :
    (Block.map h fields).Permuted (.map h fields') := by
  obtain ⟨mid, hmid, horder⟩ := hfields
  exact .map (images_of_forall₂ hmid) (fun p hp => ((List.forall₂_iff_zip.1 hmid).2 hp).2) horder

/-- The order of fields does not make a block deeper. -/
theorem Permuted.depth_eq {b c : Block} (h : b.Permuted c) : b.depth = c.depth := by
  induction h with
  | same b => rfl
  | array _ ih => rw [depth, depth, ih]
  | object _ ih => rw [depth, depth, ih]
  | tuple count _ ih =>
    rw [depth, depth, itemsDepth_eq (List.forall₂_iff_zip.2 ⟨count, fun hp => ih _ hp⟩)]
  | @map _ bs cs ds names _ order ih =>
    have hcount : bs.length = cs.length := by simpa using congrArg List.length names
    rw [depth, depth, fieldsDepth_eq (List.forall₂_iff_zip.2 ⟨hcount, fun hp => ih _ hp⟩),
      fieldsDepth_perm order]

end Block

namespace Value

section Forms

variable {es gs : Entries} {name : Text}

theorem limitAs_perm {fs : Entries} {l : Limit} (hes : es.Distinct) (order : es.Perm fs)
    (h : (dict es).LimitAs l) : (dict fs).LimitAs l := by
  cases h with
  | bare number => exact absurd number not_isNumber_dict
  | bound only value number excluded =>
    refine .bound (fun e he => only e (order.mem_iff.2 he)) ?_ number ?_ <;>
      rwa [← Entries.get?_perm hes order]

theorem lengthAs_perm {fs : Entries} {rule : LengthRule} (hes : es.Distinct) (order : es.Perm fs)
    (h : (dict es).LengthAs rule) : (dict fs).LengthAs rule := by
  cases h with
  | exactly number => exact absurd number.1 not_isNumber_dict
  | range only least greatest horder =>
    refine .range (fun e he => only e (order.mem_iff.2 he)) ?_ ?_ horder <;>
      rwa [← Entries.get?_perm hes order]

variable (h : es.Reordered gs)

include h

theorem stands_reordered {α : Type} {form : Value → α → Prop} {s : Setting α}
    (hname : name = "minimum" ∨ name = "maximum" ∨ name = "length")
    (hes : ∀ v, Entries.get? name es = some v → v.Keyed)
    (hform : ∀ {es fs : Entries} {a}, es.Distinct → es.Perm fs → form (dict es) a → form (dict fs) a)
    (hs : Setting.Stands form (Entries.get? name es) s) :
    Setting.Stands form (Entries.get? name gs) s := by
  cases hv : Entries.get? name es with
  | none =>
    rw [h.get?_none hv]
    rwa [hv] at hs
  | some v =>
    obtain ⟨w, hw, hvw⟩ := h.exists_get? hv
    rw [hv] at hs
    rw [hw]
    rcases hvw.of_bound hname with rfl | ⟨es', fs', rfl, rfl, order⟩
    · exact hs
    · cases hs with
      | given fits => exact .given (hform (hes _ hv).here order fits)

theorem heads_reordered {header : Header} {k : Kind} (hh : header.Heads es k) :
    header.Heads gs k := by
  have hget {name : Text} (hname : name ∉ rewritten) : Entries.get? name gs = Entries.get? name es :=
    (h.get?_eq hname).symm
  refine ⟨?_, h.only hh.only, ?_, ?_, ?_⟩
  · rw [hget (by decide)]
    exact hh.kind
  · rw [hget (by decide)]
    exact hh.name
  · rw [hget (by decide)]
    exact hh.description
  · rw [hget (by decide)]
    exact hh.option

theorem size_reordered {s : Setting LengthRule} (hes : (dict es).Keyed)
    (hs : Setting.Stands LengthAs (Entries.get? "length" es) s) :
    Setting.Stands LengthAs (Entries.get? "length" gs) s :=
  stands_reordered h (.inr (.inr rfl)) (fun v hv => hes.inside v (Entries.mem_parts_of_get? hv))
    lengthAs_perm hs

end Forms

theorem exists_dict_reordered {es : Entries} {w : Value} (hes : (dict es).Keyed)
    (h : (dict es).Reordered w) : ∃ gs, w = dict gs ∧ es.Reordered gs := by
  cases h with
  | same =>
    refine ⟨es, rfl, List.Perm.refl _, fun name => ?_⟩
    cases Entries.get? name es with
    | none => exact .none
    | some v => exact .some (.same _ v)
  | block keys members order =>
    exact ⟨_, rfl, Entries.reordered_of_block hes.here keys members order⟩

theorem exists_sequence_reordered {v w : Value} {vs : List Value} (hvs : v.IsSequence vs)
    (h : ReorderedUnder (str "items") v w) :
    ∃ ws, w.IsSequence ws ∧ List.Forall₂ Reordered vs ws := by
  rcases h.of_items with rfl | ⟨vs', ws, hvs', hws, hall⟩
  · exact ⟨vs, hvs, List.forall₂_same.2 fun x _ => .same x⟩
  · obtain rfl : vs' = vs := hvs'.parts.symm.trans hvs.parts
    exact ⟨ws, hws, hall⟩

theorem exists_fields_reordered {fs : Entries} {w : Value}
    (h : ReorderedUnder (str "fields") (dict fs) w) :
    ∃ gs, w = dict gs ∧ Rearranged (fun e f => e.1 = f.1 ∧ e.2.Reordered f.2) fs gs := by
  rcases h.of_fields with rfl | ⟨fs', gs, hfs, rfl, hall⟩
  · exact ⟨fs, rfl, .of_forall₂ (List.forall₂_same.2 fun e _ => ⟨rfl, .same e.2⟩)⟩
  · obtain rfl := Value.dict.inj hfs
    exact ⟨gs, rfl, hall⟩

/-- In whatever order the members of a raw schema are, it stands for the same block, but for the order of
the fields. -/
def TypedUpToOrder (v : Value) (b : Block) : Prop :=
  ∀ w, v.Reordered w → ∃ c, w.TypedAs c ∧ b.Permuted c

/-- A key and a raw schema stand for a field. -/
def FieldAs (e : Value × Value) (f : Text × Block) : Prop := e.1 = str f.1 ∧ e.2.TypedAs f.2

theorem exists_fieldAs_reordered {fs gs : Entries} {fields : List (Text × Block)}
    (hfields : List.Forall₂ (fun e f => e.1 = str f.1 ∧ e.2.TypedUpToOrder f.2) fs fields)
    (h : Rearranged (fun e f => e.1 = f.1 ∧ e.2.Reordered f.2) fs gs) :
    ∃ fields', List.Forall₂ FieldAs gs fields' ∧ Rearranged Block.FieldPermuted fields fields' := by
  obtain ⟨mid, hmid, horder⟩ := h
  have hstep (e : Value × Value) (f : Text × Block) (e' : Value × Value)
      (hf : e.1 = str f.1 ∧ e.2.TypedUpToOrder f.2)
      (he : e.1 = e'.1 ∧ e.2.Reordered e'.2) : ∃ g, FieldAs e' g ∧ Block.FieldPermuted f g := by
    obtain ⟨c, hc, hfc⟩ := hf.2 _ he.2
    exact ⟨(f.1, c), ⟨he.1.symm.trans hf.1, hc⟩, rfl, hfc⟩
  obtain ⟨ds, htyped, hpermuted⟩ := exists_completion hfields hmid hstep
  -- the fields are put in the order in which the dictionary has them now
  obtain ⟨fields', htyped', horder'⟩ := List.perm_comp_forall₂ horder.symm htyped
  exact ⟨fields', htyped', ds, hpermuted, horder'.symm⟩

theorem typedUpToOrder {v : Value} {b : Block} (h : v.TypedAs b) (hv : v.Keyed) :
    v.TypedUpToOrder b := by
  induction h with
  | @flag es header hh =>
    intro w hvw
    obtain ⟨gs, rfl, hgs⟩ := exists_dict_reordered hv hvw
    exact ⟨_, .flag (heads_reordered hgs hh), .same _⟩
  | @number es header decimal minimum maximum hh fraction least greatest order =>
    intro w hvw
    obtain ⟨gs, rfl, hgs⟩ := exists_dict_reordered hv hvw
    have hkeyed {name : Text} (v : Value) (h : Entries.get? name es = some v) : v.Keyed :=
      hv.inside v (Entries.mem_parts_of_get? h)
    refine ⟨_, .number (heads_reordered hgs hh) ?_ ?_ ?_ order, .same _⟩
    · rw [← hgs.get?_eq (by decide), fraction]
    · exact stands_reordered hgs (.inl rfl) hkeyed limitAs_perm least
    · exact stands_reordered hgs (.inr (.inl rfl)) hkeyed limitAs_perm greatest
  | @string es header length pattern hh size search =>
    intro w hvw
    obtain ⟨gs, rfl, hgs⟩ := exists_dict_reordered hv hvw
    refine ⟨_, .string (heads_reordered hgs hh) (size_reordered hgs hv size) ?_, .same _⟩
    rwa [← hgs.get?_eq (by decide)]
  | @array es header v b length hh value _ size ih =>
    intro w hvw
    obtain ⟨gs, rfl, hgs⟩ := exists_dict_reordered hv hvw
    obtain ⟨w, hw, hvw⟩ := hgs.exists_get? value
    obtain ⟨c, hc, hbc⟩ := ih (hv.inside v (Entries.mem_parts_of_get? value)) w hvw.of_value
    exact ⟨_, .array (heads_reordered hgs hh) hw hc (size_reordered hgs hv size), .array hbc⟩
  | @object es header kind v b length hh key value _ size ih =>
    intro w hvw
    obtain ⟨gs, rfl, hgs⟩ := exists_dict_reordered hv hvw
    obtain ⟨w, hw, hvw⟩ := hgs.exists_get? value
    obtain ⟨c, hc, hbc⟩ := ih (hv.inside v (Entries.mem_parts_of_get? value)) w hvw.of_value
    refine ⟨_, .object (heads_reordered hgs hh) ?_ hw hc (size_reordered hgs hv size), .object hbc⟩
    rwa [← hgs.get?_eq (by decide)]
  | @tuple es header v vs bs hh items sequence nonempty count _ ih =>
    intro w hvw
    obtain ⟨gs, rfl, hgs⟩ := exists_dict_reordered hv hvw
    obtain ⟨w, hw, hvw⟩ := hgs.exists_get? items
    obtain ⟨ws, hws, hall⟩ := exists_sequence_reordered sequence hvw
    have hitems : List.Forall₂ TypedUpToOrder vs bs := by
      refine List.forall₂_iff_zip.2 ⟨count, fun {v b} hp => ih (v, b) hp ?_⟩
      refine (hv.inside _ (Entries.mem_parts_of_get? items)).inside v ?_
      rw [sequence.parts]
      exact (List.of_mem_zip hp).1
    obtain ⟨cs, htyped, hpermuted⟩ := exists_completion hitems hall fun v b w hb hvw => hb w hvw
    obtain ⟨hcount, htyped⟩ := List.forall₂_iff_zip.1 htyped
    obtain ⟨hcount', hpermuted⟩ := List.forall₂_iff_zip.1 hpermuted
    refine ⟨.tuple header cs, .tuple (heads_reordered hgs hh) hw hws ?_ hcount fun p hp => htyped hp,
      .tuple hcount' fun p hp => hpermuted hp⟩
    exact List.ne_nil_of_length_pos (hall.length_eq ▸ List.length_pos_of_ne_nil nonempty)
  | @map es fs header fields hh entries nonempty keys names distinct _ ih =>
    intro w hvw
    obtain ⟨gs, rfl, hgs⟩ := exists_dict_reordered hv hvw
    obtain ⟨w, hw, hvw⟩ := hgs.exists_get? entries
    obtain ⟨fs', rfl, hall⟩ := exists_fields_reordered hvw
    have hfields := forall₂_of_images keys (R := fun e f => e.2.TypedUpToOrder f.2) fun p hp =>
      ih p hp ((hv.inside _ (Entries.mem_parts_of_get? entries)).entry (List.of_mem_zip hp).1)
    obtain ⟨fields', htyped, hpermuted⟩ := exists_fieldAs_reordered hfields hall
    have hnames : (fields.map Prod.fst).Perm (fields'.map Prod.fst) := hpermuted.images
    refine ⟨.map header fields', .map (heads_reordered hgs hh) hw ?_ (images_of_forall₂ htyped)
      (fun f hf => ?_) (hnames.nodup_iff.1 distinct) fun p hp => ?_, .of_fields hpermuted⟩
    · exact List.ne_nil_of_length_pos (hall.length_eq ▸ List.length_pos_of_ne_nil nonempty)
    · obtain ⟨g, hg, hname⟩ := List.mem_map.1 (hnames.mem_iff.2 (List.mem_map_of_mem hf))
      rw [← hname]
      exact names g hg
    · exact ((List.forall₂_iff_zip.1 htyped).2 hp).2
  | @enum es header v values hh items sequence nonempty names distinct =>
    intro w hvw
    obtain ⟨gs, rfl, hgs⟩ := exists_dict_reordered hv hvw
    refine ⟨_, .enum (heads_reordered hgs hh) ?_ sequence nonempty names distinct, .same _⟩
    rwa [← hgs.get?_eq (by decide)]

end Value

end DocShape
