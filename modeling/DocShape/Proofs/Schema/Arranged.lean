import DocShape.Proofs.Schema.TypedForm

/-!
# Schemas in declared order

`Value.arranged` puts the properties of a raw schema in the order in which the kinds declare them,
nested blocks, bounds and lengths included, and writes lists for tuples. It is what the block that the
schema stands for is dumped as (`dump_of_typedAs`), and it stands for the same block
(`typedAs_arranged`). Nothing in it is new or lost (`sameContent_arranged`).
-/

namespace DocShape

/-! ## Entries in the order of some names -/

namespace Entries

/-- The entry for a property, if it is there. -/
def entry (name : Text) (v? : Option Value) : Entries := (v?.map fun v => (.str name, v)).toList

/-- The entries under some names, in the order of the names. -/
def pick (names : List Text) (es : Entries) : Entries :=
  names.flatMap fun name => entry name (es.get? name)

variable {names : List Text} {es : Entries} {name : Text} {v : Value}

theorem pick_nil (es : Entries) : pick [] es = [] := rfl

theorem pick_cons (name : Text) (names : List Text) (es : Entries) :
    pick (name :: names) es = entry name (es.get? name) ++ pick names es := rfl

theorem key_of_mem_entry {v? : Option Value} {e : Value × Value} (h : e ∈ entry name v?) :
    e.1 = .str name := by
  rw [entry, Option.mem_toList, Option.map_eq_some_iff] at h
  obtain ⟨v, -, rfl⟩ := h
  rfl

theorem mem_pick {e : Value × Value} :
    e ∈ pick names es ↔ ∃ name ∈ names, es.get? name = some e.2 ∧ e.1 = .str name := by
  obtain ⟨k, v⟩ := e
  simp only [pick, entry, List.mem_flatMap, Option.mem_toList, Option.map_eq_some_iff,
    Prod.mk.injEq]
  refine exists_congr fun name => and_congr_right fun _ => ?_
  exact ⟨fun ⟨w, hw, hk, hv⟩ => ⟨hv ▸ hw, hk.symm⟩, fun ⟨hv, hk⟩ => ⟨v, hv, hk.symm, rfl⟩⟩

theorem only_pick (names : List Text) (es : Entries) : (pick names es).Only names := fun e he => by
  obtain ⟨name, hname, -, hkey⟩ := mem_pick.1 he
  exact ⟨name, hname, hkey⟩

theorem get?_append (name : Text) (es fs : Entries) :
    get? name (es ++ fs) = (get? name es).or (get? name fs) := by
  induction es with
  | nil => rfl
  | cons e es ih =>
    obtain ⟨k, v⟩ := e
    cases k with
    | str t =>
      rw [List.cons_append, get?, get?]
      split
      · rfl
      · exact ih
    | _ => exact ih

theorem get?_entry_self (name : Text) (v? : Option Value) : get? name (entry name v?) = v? := by
  cases v? with
  | none => rfl
  | some v => exact if_pos rfl

theorem get?_entry_of_ne {t : Text} (h : t ≠ name) (v? : Option Value) :
    get? name (entry t v?) = none := by
  cases v? with
  | none => rfl
  | some v => exact if_neg h

theorem get?_pick (h : name ∈ names) : get? name (pick names es) = es.get? name := by
  induction names with
  | nil => cases h
  | cons t names ih =>
    rw [pick_cons, get?_append]
    by_cases ht : t = name
    · rw [ht, get?_entry_self]
      cases hv : es.get? name with
      | some v => rfl
      | none =>
        rw [Option.none_or]
        by_cases hmem : name ∈ names
        · rw [ih hmem, hv]
        · cases hw : get? name (pick names es) with
          | none => rfl
          | some w =>
            obtain ⟨s, hs, -, hkey⟩ := mem_pick.1 (mem_of_get? hw)
            exact absurd (Value.str.inj hkey ▸ hs) hmem
    · rw [get?_entry_of_ne ht, Option.none_or, ih ((List.mem_cons.1 h).resolve_left (Ne.symm ht))]

theorem get?_of_mem (hes : es.Distinct) (h : (Value.str name, v) ∈ es) : es.get? name = some v := by
  induction es with
  | nil => cases h
  | cons e es ih =>
    obtain ⟨hapart, hrest⟩ := List.pairwise_cons.1 hes
    rcases List.mem_cons.1 h with rfl | hmem
    · exact if_pos rfl
    · obtain ⟨k, w⟩ := e
      have hne := hapart _ hmem
      cases k with
      | str t =>
        rw [get?, if_neg, ih hrest hmem]
        rintro rfl
        simp at hne
      | _ => exact ih hrest hmem

/-- Of a dictionary with nothing but some keys, picking these keys leaves all entries. -/
theorem pick_perm (hes : es.Distinct) (honly : es.Only names) (hnames : names.Nodup) :
    es.Perm (pick names es) := by
  have hapart : es.Nodup := by
    refine List.Pairwise.imp_of_mem (fun {a b} ha _ hab => ?_) hes
    rintro rfl
    obtain ⟨t, -, ht⟩ := honly a ha
    rw [ht, Value.equals_str, beq_self_eq_true] at hab
    cases hab
  have hpicked : (pick names es).Nodup := by
    refine List.nodup_flatMap.2 ⟨fun t _ => ?_, hnames.imp fun {s t} hst e hs ht => ?_⟩
    · rw [entry]
      cases es.get? t <;> simp
    · exact hst (Value.str.inj ((key_of_mem_entry hs).symm.trans (key_of_mem_entry ht)))
  refine (List.perm_ext_iff_of_nodup hapart hpicked).2 fun e => ?_
  rw [mem_pick]
  constructor
  · intro he
    obtain ⟨t, ht, hkey⟩ := honly e he
    obtain ⟨k, v⟩ := e
    obtain rfl : k = .str t := hkey
    exact ⟨t, ht, get?_of_mem hes he, rfl⟩
  · rintro ⟨t, -, hv, hkey⟩
    obtain ⟨k, v⟩ := e
    obtain rfl : k = .str t := hkey
    exact mem_of_get? hv

end Entries

/-! ## Properties in declared order -/

namespace Value

/-- A list for a tuple. -/
def untupled : Value → Value
  | tuple xs => list xs
  | v => v

/-- A dictionary with the entries under some names, in the order of the names. -/
def picked (names : List Text) : Value → Value
  | dict es => dict (Entries.pick names es)
  | v => v

/-- A property without blocks in it, in declared order. -/
def arrangedSimple (name : Text) (v : Value) : Value :=
  if name = "minimum" ∨ name = "maximum" then picked ["value", "exclusive"] v
  else if name = "length" then picked ["minimum", "maximum"] v
  else untupled v

mutual

/-- A raw schema with its properties in declared order, and with lists for tuples. -/
def arranged : Value → Value
  | dict es =>
    match (Entries.get? "type" es).bind fun v => v.text?.bind Kind.ofName? with
    | some k => dict (Entries.pick k.legalProperties (arrangedProperties es))
    | none => dict es
  | v => v
termination_by structural v => v

/-- Properties, each in declared order. -/
def arrangedProperties : List (Value × Value) → List (Value × Value)
  | [] => []
  | (str name, v) :: rest =>
    (str name,
      if name = "value" then arranged v
      else if name = "items" then arrangedItems v
      else if name = "fields" then arrangedFields v
      else arrangedSimple name v) :: arrangedProperties rest
  | e :: rest => e :: arrangedProperties rest
termination_by structural v => v

/-- The schemas in a sequence, each in declared order. -/
def arrangedItems : Value → Value
  | list xs | tuple xs => list (arrangedList xs)
  | v => v
termination_by structural v => v

/-- Schemas, each in declared order. -/
def arrangedList : List Value → List Value
  | [] => []
  | v :: vs => arranged v :: arrangedList vs
termination_by structural v => v

/-- The schemas of fields, each in declared order. -/
def arrangedFields : Value → Value
  | dict es => dict (arrangedEntries es)
  | v => v
termination_by structural v => v

/-- Schemas under keys, each in declared order. -/
def arrangedEntries : List (Value × Value) → List (Value × Value)
  | [] => []
  | (k, v) :: rest => (k, arranged v) :: arrangedEntries rest
termination_by structural v => v

end

/-- A property in declared order. -/
def arrangedProperty (name : Text) (v : Value) : Value :=
  if name = "value" then arranged v
  else if name = "items" then arrangedItems v
  else if name = "fields" then arrangedFields v
  else arrangedSimple name v

theorem get?_arrangedProperties (name : Text) (es : Entries) :
    Entries.get? name (arrangedProperties es) =
      (Entries.get? name es).map (arrangedProperty name) := by
  induction es with
  | nil => rfl
  | cons e es ih =>
    obtain ⟨k, v⟩ := e
    cases k with
    | str t =>
      rw [arrangedProperties, Entries.get?, Entries.get?]
      split
      · next h => rw [h]; rfl
      · exact ih
    | _ => exact ih

theorem arrangedList_eq (xs : List Value) : arrangedList xs = xs.map arranged := by
  induction xs with
  | nil => rfl
  | cons x xs ih => rw [arrangedList, ih, List.map_cons]

theorem arrangedEntries_eq (es : Entries) :
    arrangedEntries es = es.map fun e => (e.1, arranged e.2) := by
  induction es with
  | nil => rfl
  | cons e es ih => rw [arrangedEntries, ih, List.map_cons]

/-- The entries of a block of some kind in declared order. -/
def arrangedBody (k : Kind) (es : Entries) : Entries :=
  Entries.pick k.legalProperties (arrangedProperties es)

theorem arranged_dict {es : Entries} {k : Kind} (h : Entries.get? "type" es = some (str k.name)) :
    (dict es).arranged = dict (arrangedBody k es) := by
  rw [arranged, h, Option.bind_some, kind?_eq_some.2 rfl]
  rfl

@[simp] theorem arrangedProperty_str (name t : Text) : arrangedProperty name (str t) = str t := by
  simp [arrangedProperty, arranged, arrangedItems, arrangedFields, arrangedSimple, picked, untupled]

@[simp] theorem arrangedProperty_bool (name : Text) (b : Bool) :
    arrangedProperty name (bool b) = bool b := by
  simp [arrangedProperty, arranged, arrangedItems, arrangedFields, arrangedSimple, picked, untupled]

theorem picked_ofNumber (names : List Text) (n : Number) :
    (ofNumber n).picked names = ofNumber n := by
  cases n <;> rfl

end Value

/-! ## The same block, and its raw form -/

theorem Block.rawItems_eq (bs : List Block) : rawItems .given bs = bs.map dump := by
  induction bs with
  | nil => rfl
  | cons b bs ih => rw [rawItems, ih, List.map_cons, dump]

theorem Block.rawFields_eq (fields : List (Text × Block)) :
    rawFields .given fields = fields.map fun f => (.str f.1, f.2.dump) := by
  induction fields with
  | nil => rfl
  | cons f fields ih => rw [rawFields, ih, List.map_cons, dump]

namespace Setting.Stands

variable {α : Type} {form : Value → α → Prop} {v? : Option Value} {s : Setting α}

theorem map {f : Value → Value} (h : Stands form v? s) (hf : ∀ v a, form v a → form (f v) a) :
    Stands form (v?.map f) s := by
  cases h with
  | absent => exact .absent
  | given fits => exact .given (hf _ _ fits)

/-- The raw form of a setting is the entry for what it stands for. -/
theorem setting_eq {f : Value → Value} {raw : α → Value} (h : Stands form v? s) (name : Text)
    (hf : ∀ v a, form v a → f v = raw a) :
    Extent.setting .given name raw s = Entries.entry name (v?.map f) := by
  cases h with
  | absent => rfl
  | given fits =>
    rw [Option.map_some, hf _ _ fits]
    rfl

end Setting.Stands

theorem Extent.truth_eq (name : Text) (default : Bool) (b : Option Bool) :
    Extent.truth .given name default b = Entries.entry name (b.map .bool) := by
  cases b <;> rfl

namespace Value

theorem TextAs.arranged {v : Value} {t name : Text} (h : v.TextAs t) :
    arrangedProperty name v = str t := by
  rw [h, arrangedProperty_str]

/-- A bound in declared order is what the limit is written as. -/
theorem LimitAs.arranged {v : Value} {l : Limit} (h : v.LimitAs l) :
    v.picked ["value", "exclusive"] = l.raw .given ∧
      (v.picked ["value", "exclusive"]).LimitAs l := by
  cases h with
  | @bare v n number =>
    obtain ⟨rfl, hn⟩ := number
    rw [picked_ofNumber]
    exact ⟨rfl, .bare ⟨rfl, hn⟩⟩
  | @bound es w n exclusive only value number excluded =>
    have hmem {name : Text} (h : name ∈ (["value", "exclusive"] : List Text)) :
        Entries.get? name (Entries.pick ["value", "exclusive"] es) = Entries.get? name es :=
      Entries.get?_pick h
    refine ⟨?_, .bound ?_ ((hmem (by simp)).trans value) number ((hmem (by simp)).trans excluded)⟩
    · rw [picked, Entries.pick_cons, Entries.pick_cons, Entries.pick_nil, value, excluded, number.1,
        List.append_nil, Limit.raw, Bound.raw, Extent.truth_eq]
      rfl
    · intro e he
      obtain ⟨t, ht, hkey⟩ := Entries.only_pick _ _ e he
      exact ⟨t, by simpa [or_comm] using ht, hkey⟩

/-- A constraint on a length in declared order is what the rule is written as. -/
theorem LengthAs.arranged {v : Value} {rule : LengthRule} (h : v.LengthAs rule) :
    v.picked ["minimum", "maximum"] = rule.raw .given ∧
      (v.picked ["minimum", "maximum"]).LengthAs rule := by
  cases h with
  | @exactly v n number =>
    obtain ⟨⟨rfl, hn⟩, hnonneg⟩ := number
    rw [picked_ofNumber]
    exact ⟨rfl, .exactly ⟨⟨rfl, hn⟩, hnonneg⟩⟩
  | @range es minimum maximum only least greatest order =>
    have hleast : Entries.get? "minimum" (Entries.pick ["minimum", "maximum"] es) =
        Entries.get? "minimum" es := Entries.get?_pick (by simp)
    have hgreatest : Entries.get? "maximum" (Entries.pick ["minimum", "maximum"] es) =
        Entries.get? "maximum" es := Entries.get?_pick (by simp)
    refine ⟨?_, .range (Entries.only_pick _ _) (hleast ▸ least) (hgreatest ▸ greatest) order⟩
    have hnumber : ∀ v n, LengthNumberAs v n → id v = ofNumber n := fun v n h => h.1.1
    rw [picked, Entries.pick_cons, Entries.pick_cons, Entries.pick_nil, List.append_nil,
      LengthRule.raw, least.setting_eq "minimum" hnumber, greatest.setting_eq "maximum" hnumber,
      Option.map_id]
    rfl

variable {k : Kind} {es : Entries} {name : Text}

theorem get?_arrangedBody (h : name ∈ k.legalProperties) :
    Entries.get? name (arrangedBody k es) = (Entries.get? name es).map (arrangedProperty name) := by
  rw [arrangedBody, Entries.get?_pick h, get?_arrangedProperties]

/-- The entry for a property in declared order. -/
def arrangedEntry (name : Text) (es : Entries) : Entries :=
  Entries.entry name ((Entries.get? name es).map (arrangedProperty name))

theorem arrangedEntry_of_get? {v : Value} (h : Entries.get? name es = some v) :
    arrangedEntry name es = [(str name, arrangedProperty name v)] := by
  rw [arrangedEntry, h]
  rfl

theorem truth_arranged (name : Text) (default : Bool) {b : Option Bool}
    (h : Entries.get? name es = b.map bool) :
    Extent.truth .given name default b = arrangedEntry name es ∧
      (Entries.get? name es).map (arrangedProperty name) = b.map bool := by
  have hmap : (b.map bool).map (arrangedProperty name) = b.map bool := by
    cases b with
    | none => rfl
    | some b => rw [Option.map_some, Option.map_some, arrangedProperty_bool]
  rw [arrangedEntry, h, hmap]
  exact ⟨Extent.truth_eq name default b, rfl⟩

theorem text_arranged {s : Setting Text} (h : Setting.Stands TextAs (Entries.get? name es) s) :
    Extent.setting .given name str s = arrangedEntry name es ∧
      Setting.Stands TextAs ((Entries.get? name es).map (arrangedProperty name)) s :=
  ⟨h.setting_eq name fun _ _ ht => ht.arranged, h.map fun _ _ ht => ht.arranged⟩

theorem limit_arranged {s : Setting Limit} (hname : name = "minimum" ∨ name = "maximum")
    (h : Setting.Stands LimitAs (Entries.get? name es) s) :
    Extent.setting .given name (Limit.raw .given) s = arrangedEntry name es ∧
      Setting.Stands LimitAs ((Entries.get? name es).map (arrangedProperty name)) s := by
  have hproperty : arrangedProperty name = picked ["value", "exclusive"] := by
    rcases hname with rfl | rfl <;> rfl
  rw [arrangedEntry, hproperty]
  exact ⟨h.setting_eq name fun _ _ hl => hl.arranged.1, h.map fun _ _ hl => hl.arranged.2⟩

theorem length_arranged {s : Setting LengthRule}
    (h : Setting.Stands LengthAs (Entries.get? "length" es) s) :
    Extent.setting .given "length" (LengthRule.raw .given) s = arrangedEntry "length" es ∧
      Setting.Stands LengthAs ((Entries.get? "length" es).map (arrangedProperty "length")) s := by
  have hproperty : arrangedProperty "length" = picked ["minimum", "maximum"] := rfl
  rw [arrangedEntry, hproperty]
  exact ⟨h.setting_eq _ fun _ _ hl => hl.arranged.1, h.map fun _ _ hl => hl.arranged.2⟩

theorem heads_arranged {h : Header} (hh : h.Heads es k) : h.Heads (arrangedBody k es) k := by
  have hcommon {name : Text} (hname : name ∈ Kind.commonProperties) :
      Entries.get? name (arrangedBody k es) =
        (Entries.get? name es).map (arrangedProperty name) :=
    get?_arrangedBody (List.mem_append_left _ hname)
  refine ⟨?_, Entries.only_pick _ _, ?_, ?_, ?_⟩
  · rw [hcommon (by decide), hh.kind, Option.map_some, arrangedProperty_str]
  · rw [hcommon (by decide)]
    exact (text_arranged hh.name).2
  · rw [hcommon (by decide)]
    exact (text_arranged hh.description).2
  · rw [hcommon (by decide)]
    exact (truth_arranged "option" false hh.option).2

/-- In declared order the common properties come first, as the header is written. -/
theorem arrangedBody_of_heads {h : Header} (hh : h.Heads es k) :
    arrangedBody k es =
      h.raw .given k ++ k.properties.flatMap fun name => arrangedEntry name es := by
  have hentries : (fun name => Entries.entry name (Entries.get? name (arrangedProperties es))) =
      fun name => arrangedEntry name es := by
    funext name
    rw [get?_arrangedProperties, arrangedEntry]
  have htype : arrangedEntry "type" es = [(str "type", str k.name)] := by
    rw [arrangedEntry, hh.kind, Option.map_some, arrangedProperty_str]
    rfl
  rw [arrangedBody, Entries.pick, hentries, Kind.legalProperties, List.flatMap_append,
    Header.raw, (text_arranged hh.name).1, (text_arranged hh.description).1,
    (truth_arranged "option" false hh.option).1]
  simp only [Kind.commonProperties, List.flatMap_cons, List.flatMap_nil, htype, List.append_assoc,
    List.append_nil]

theorem arrangedProperty_items {v : Value} {xs : List Value} (h : v.IsSequence xs) :
    arrangedProperty "items" v = list (xs.map arranged) := by
  rw [← arrangedList_eq]
  rcases h with rfl | rfl <;> rfl

theorem arrangedProperty_fields (fs : Entries) :
    arrangedProperty "fields" (dict fs) = dict (fs.map fun f => (f.1, f.2.arranged)) := by
  rw [← arrangedEntries_eq]
  rfl

theorem arrangedProperty_values {v : Value} {xs : List Value} (h : v.IsSequence xs) :
    arrangedProperty "values" v = list xs := by
  rcases h with rfl | rfl <;> rfl

theorem map_dump_zip {xs : List Value} {bs : List Block} (hcount : xs.length = bs.length)
    (h : ∀ p ∈ xs.zip bs, p.2.dump = p.1.arranged) : xs.map arranged = bs.map Block.dump := by
  induction xs generalizing bs with
  | nil => rw [List.length_eq_zero_iff.1 hcount.symm]; rfl
  | cons x xs ih =>
    obtain ⟨b, bs, rfl⟩ := List.exists_cons_of_length_eq_add_one hcount.symm
    obtain ⟨hb, hbs⟩ := List.forall_mem_cons.1 h
    rw [List.map_cons, List.map_cons, ih (Nat.succ.inj hcount) hbs, ← hb]

theorem map_fields_zip {fs : Entries} {fields : List (Text × Block)}
    (hkeys : fs.map Prod.fst = fields.map fun f => str f.1)
    (h : ∀ p ∈ fs.zip fields, p.2.2.dump = p.1.2.arranged) :
    (fs.map fun f => (f.1, f.2.arranged)) = fields.map fun f => (str f.1, f.2.dump) := by
  induction fs generalizing fields with
  | nil => rw [List.map_eq_nil_iff.1 hkeys.symm]; rfl
  | cons e fs ih =>
    cases fields with
    | nil => cases hkeys
    | cons f fields =>
      obtain ⟨hk, hrest⟩ := List.cons.inj hkeys
      obtain ⟨hb, hblocks⟩ := List.forall_mem_cons.1 h
      rw [List.map_cons, List.map_cons, ih hrest hblocks, hk, ← hb]

/-- A well-formed schema in declared order is what its block is dumped as. -/
theorem dump_of_typedAs {v : Value} {b : Block} (h : v.TypedAs b) : b.dump = v.arranged := by
  induction h with
  | flag header =>
    rw [arranged_dict header.kind, arrangedBody_of_heads header]
    exact congrArg dict (List.append_nil _).symm
  | number header fraction least greatest _ =>
    rw [arranged_dict header.kind, arrangedBody_of_heads header, Block.dump, Block.raw,
      (truth_arranged "decimal" true fraction).1, (limit_arranged (.inl rfl) least).1,
      (limit_arranged (.inr rfl) greatest).1]
    simp [Kind.properties]
  | string header size search =>
    rw [arranged_dict header.kind, arrangedBody_of_heads header, Block.dump, Block.raw,
      (length_arranged size).1, (text_arranged search).1]
    simp [Kind.properties]
  | @array es h v b length header value _ size ih =>
    have hvalue : arrangedEntry "value" es = [(str "value", b.dump)] := by
      rw [arrangedEntry_of_get? value, ih]
      rfl
    rw [arranged_dict header.kind, arrangedBody_of_heads header, Block.dump, Block.raw,
      (length_arranged size).1]
    simp [Kind.properties, hvalue, Block.dump]
  | @object es h kind v b length header key value _ size ih =>
    have hkey : arrangedEntry "key" es = [(str "key", str kind.name)] := by
      rw [arrangedEntry_of_get? key, arrangedProperty_str]
    have hvalue : arrangedEntry "value" es = [(str "value", b.dump)] := by
      rw [arrangedEntry_of_get? value, ih]
      rfl
    rw [arranged_dict header.kind, arrangedBody_of_heads header, Block.dump, Block.raw,
      (length_arranged size).1]
    simp [Kind.properties, hkey, hvalue, Block.dump]
  | @tuple es h v xs bs header items sequence nonempty count _ ih =>
    have hitems : arrangedEntry "items" es = [(str "items", list (bs.map Block.dump))] := by
      rw [arrangedEntry_of_get? items, arrangedProperty_items sequence, map_dump_zip count ih]
    rw [arranged_dict header.kind, arrangedBody_of_heads header, Block.dump, Block.raw,
      Block.rawItems_eq]
    simp [Kind.properties, hitems]
  | @map es fs h fields header entries nonempty keys names distinct _ ih =>
    have hfields : arrangedEntry "fields" es =
        [(str "fields", dict (fields.map fun f => (str f.1, f.2.dump)))] := by
      rw [arrangedEntry_of_get? entries, arrangedProperty_fields, map_fields_zip keys ih]
    rw [arranged_dict header.kind, arrangedBody_of_heads header, Block.dump, Block.raw,
      Block.rawFields_eq]
    simp [Kind.properties, hfields]
  | @enum es h v values header items sequence nonempty names distinct =>
    have hvalues : arrangedEntry "values" es = [(str "values", list (values.map str))] := by
      rw [arrangedEntry_of_get? items, arrangedProperty_values sequence]
    rw [arranged_dict header.kind, arrangedBody_of_heads header, Block.dump, Block.raw]
    simp [Kind.properties, hvalues]

/-- A well-formed schema in declared order stands for the same block. -/
theorem typedAs_arranged {v : Value} {b : Block} (h : v.TypedAs b) : v.arranged.TypedAs b := by
  induction h with
  | flag header =>
    rw [arranged_dict header.kind]
    exact .flag (heads_arranged header)
  | number header fraction least greatest order =>
    rw [arranged_dict header.kind]
    refine .number (heads_arranged header) ?_ ?_ ?_ order <;> rw [get?_arrangedBody (by decide)]
    · exact (truth_arranged "decimal" true fraction).2
    · exact (limit_arranged (.inl rfl) least).2
    · exact (limit_arranged (.inr rfl) greatest).2
  | string header size search =>
    rw [arranged_dict header.kind]
    refine .string (heads_arranged header) ?_ ?_ <;> rw [get?_arrangedBody (by decide)]
    · exact (length_arranged size).2
    · exact (text_arranged search).2
  | array header value _ size ih =>
    rw [arranged_dict header.kind]
    refine .array (heads_arranged header) ?_ ih ?_ <;> rw [get?_arrangedBody (by decide)]
    · rw [value]
      rfl
    · exact (length_arranged size).2
  | object header key value _ size ih =>
    rw [arranged_dict header.kind]
    refine .object (heads_arranged header) ?_ ?_ ih ?_ <;> rw [get?_arrangedBody (by decide)]
    · rw [key, Option.map_some, arrangedProperty_str]
    · rw [value]
      rfl
    · exact (length_arranged size).2
  | @tuple es h v xs bs header items sequence nonempty count _ ih =>
    have hsequence : (list (xs.map arranged)).IsSequence (xs.map arranged) := .inl rfl
    rw [arranged_dict header.kind]
    refine .tuple (heads_arranged header) ?_ hsequence ?_ ?_ fun p hp => ?_
    · rw [get?_arrangedBody (by decide), items, Option.map_some, arrangedProperty_items sequence]
    · exact fun h => nonempty (List.map_eq_nil_iff.1 h)
    · rw [List.length_map, count]
    · rw [List.zip_map_left] at hp
      obtain ⟨q, hq, rfl⟩ := List.mem_map.1 hp
      exact ih q hq
  | @map es fs h fields header entries nonempty keys names distinct _ ih =>
    have hfields : Entries.get? "fields" (arrangedBody .map es) =
        some (dict (fs.map fun f => (f.1, f.2.arranged))) := by
      rw [get?_arrangedBody (by decide), entries, Option.map_some, arrangedProperty_fields]
    rw [arranged_dict header.kind]
    refine .map (heads_arranged header) hfields ?_ ?_ names distinct fun p hp => ?_
    · exact fun h => nonempty (List.map_eq_nil_iff.1 h)
    · rw [← keys, List.map_map]
      rfl
    · rw [List.zip_map_left] at hp
      obtain ⟨q, hq, rfl⟩ := List.mem_map.1 hp
      exact ih q hq
  | enum header items sequence nonempty names distinct =>
    rw [arranged_dict header.kind]
    refine .enum (heads_arranged header) ?_ (.inl rfl) nonempty names distinct
    rw [get?_arrangedBody (by decide), items, Option.map_some, arrangedProperty_values sequence]

/-! ## Nothing is new or lost -/

/-- A value has the content of another: entries may stand in another order, and a list may stand for
a tuple. -/
inductive SameContent : Value → Value → Prop
  | refl (v : Value) : SameContent v v
  | sequence {v : Value} {xs ys : List Value} (items : v.IsSequence xs)
    (count : xs.length = ys.length) (same : ∀ p ∈ xs.zip ys, SameContent p.1 p.2) :
    SameContent v (list ys)
  | entries {es fs gs : List (Value × Value)} (order : es.Perm fs)
    (keys : fs.map Prod.fst = gs.map Prod.fst)
    (same : ∀ p ∈ fs.zip gs, SameContent p.1.2 p.2.2) : SameContent (dict es) (dict gs)

namespace SameContent

theorem map_sequence {v : Value} {xs : List Value} {f : Value → Value} (hv : v.IsSequence xs)
    (h : ∀ x ∈ xs, SameContent x (f x)) : SameContent v (list (xs.map f)) := by
  refine .sequence hv (List.length_map _).symm fun p hp => ?_
  obtain ⟨hmem, hp⟩ := mem_zip_map hp
  rw [hp]
  exact h _ hmem

theorem map_entries {es fs : Entries} {f : Value × Value → Value} (order : es.Perm fs)
    (h : ∀ e ∈ fs, SameContent e.2 (f e)) :
    SameContent (dict es) (dict (fs.map fun e => (e.1, f e))) := by
  refine .entries order (by simp) fun p hp => ?_
  obtain ⟨hmem, hp⟩ := mem_zip_map hp
  rw [hp]
  exact h _ hmem

/-- A dictionary with nothing but some keys keeps its content when these keys are picked. -/
theorem picked {es : Entries} {names : List Text} (hes : es.Distinct) (honly : es.Only names)
    (hnames : names.Nodup) : SameContent (dict es) ((dict es).picked names) := by
  have hself : (Entries.pick names es).map (fun e => (e.1, e.2)) = Entries.pick names es :=
    List.map_id _
  rw [Value.picked, ← hself]
  exact map_entries (Entries.pick_perm hes honly hnames) fun e _ => .refl e.2

end SameContent

/-- A property under its key in declared order. -/
def arrangedAt (key v : Value) : Value :=
  match key with
  | str name => arrangedProperty name v
  | _ => v

theorem arrangedBody_eq_map (k : Kind) (es : Entries) :
    arrangedBody k es =
      (Entries.pick k.legalProperties es).map fun e => (e.1, arrangedAt e.1 e.2) := by
  rw [arrangedBody, Entries.pick, Entries.pick, List.map_flatMap]
  refine List.flatMap_congr fun name _ => ?_
  rw [get?_arrangedProperties]
  cases Entries.get? name es <;> rfl

theorem sameContent_of_stands {α : Type} {form : Value → α → Prop} {s : Setting α} {v : Value}
    {f : Value → Value} (h : Setting.Stands form (some v) s)
    (hf : ∀ a, form v a → SameContent v (f v)) : SameContent v (f v) := by
  cases h with
  | given fits => exact hf _ fits

theorem sameContent_text {s : Setting Text} {v : Value} {name : Text}
    (h : Setting.Stands TextAs (some v) s) : SameContent v (arrangedProperty name v) := by
  refine sameContent_of_stands h fun t ht => ?_
  rw [ht, arrangedProperty_str]
  exact .refl _

theorem sameContent_truth {b : Option Bool} {v : Value} {name : Text} (h : some v = b.map bool) :
    SameContent v (arrangedProperty name v) := by
  obtain ⟨b, -, rfl⟩ := Option.map_eq_some_iff.1 h.symm
  rw [arrangedProperty_bool]
  exact .refl _

theorem sameContent_limit {s : Setting Limit} {v : Value} {name : Text}
    (hname : name = "minimum" ∨ name = "maximum") (hkeyed : v.Keyed)
    (h : Setting.Stands LimitAs (some v) s) : SameContent v (arrangedProperty name v) := by
  have hproperty : arrangedProperty name = picked ["value", "exclusive"] := by
    rcases hname with rfl | rfl <;> rfl
  rw [hproperty]
  refine sameContent_of_stands h fun l hl => ?_
  cases hl with
  | bare number =>
    rw [number.1, picked_ofNumber]
    exact .refl _
  | bound only _ _ _ =>
    refine .picked hkeyed.here (fun e he => ?_) (by decide)
    obtain ⟨t, ht, hkey⟩ := only e he
    exact ⟨t, by simpa [or_comm] using ht, hkey⟩

theorem sameContent_length {s : Setting LengthRule} {v : Value} (hkeyed : v.Keyed)
    (h : Setting.Stands LengthAs (some v) s) : SameContent v (arrangedProperty "length" v) := by
  have hproperty : arrangedProperty "length" = picked ["minimum", "maximum"] := rfl
  rw [hproperty]
  refine sameContent_of_stands h fun rule hrule => ?_
  cases hrule with
  | exactly number =>
    rw [number.1.1, picked_ofNumber]
    exact .refl _
  | range only _ _ _ => exact .picked hkeyed.here only (by decide)

/-- A block keeps its content in declared order when its own properties do. -/
theorem sameContent_block {es : Entries} {k : Kind} {h : Header} (hes : es.Distinct)
    (hh : h.Heads es k) (hown : ∀ name ∈ k.properties, ∀ v, Entries.get? name es = some v →
      SameContent v (arrangedProperty name v)) : SameContent (dict es) (dict es).arranged := by
  rw [arranged_dict hh.kind, arrangedBody_eq_map]
  have hnames : k.legalProperties.Nodup := by cases k <;> decide
  refine .map_entries (Entries.pick_perm hes hh.only hnames) fun e he => ?_
  obtain ⟨name, hname, hv, hkey⟩ := Entries.mem_pick.1 he
  rw [hkey]
  show SameContent e.2 (arrangedProperty name e.2)
  rcases List.mem_append.1 hname with hcommon | hown'
  · simp only [Kind.commonProperties, List.mem_cons, List.not_mem_nil, or_false] at hcommon
    rcases hcommon with rfl | rfl | rfl | rfl
    · rw [Option.some.inj (hv.symm.trans hh.kind), arrangedProperty_str]
      exact .refl _
    · exact sameContent_text (hv ▸ hh.name)
    · exact sameContent_text (hv ▸ hh.description)
    · exact sameContent_truth (hv ▸ hh.option)
  · exact hown name hown' e.2 hv

/-- A well-formed schema keeps its content in declared order. -/
theorem sameContent_arranged {v : Value} {b : Block} (h : v.TypedAs b) (hkeyed : v.Keyed) :
    SameContent v v.arranged := by
  induction h with
  | flag header => exact sameContent_block hkeyed.here header fun name hname => by cases hname
  | number header fraction least greatest _ =>
    refine sameContent_block hkeyed.here header fun name hname v hv => ?_
    have hv' := hkeyed.inside v (Entries.mem_parts_of_get? hv)
    simp only [Kind.properties, List.mem_cons, List.not_mem_nil, or_false] at hname
    rcases hname with rfl | rfl | rfl
    · exact sameContent_truth (hv ▸ fraction)
    · exact sameContent_limit (.inl rfl) hv' (hv ▸ least)
    · exact sameContent_limit (.inr rfl) hv' (hv ▸ greatest)
  | string header size search =>
    refine sameContent_block hkeyed.here header fun name hname v hv => ?_
    have hv' := hkeyed.inside v (Entries.mem_parts_of_get? hv)
    simp only [Kind.properties, List.mem_cons, List.not_mem_nil, or_false] at hname
    rcases hname with rfl | rfl
    · exact sameContent_length hv' (hv ▸ size)
    · exact sameContent_text (hv ▸ search)
  | array header value _ size ih =>
    refine sameContent_block hkeyed.here header fun name hname v hv => ?_
    have hv' := hkeyed.inside v (Entries.mem_parts_of_get? hv)
    simp only [Kind.properties, List.mem_cons, List.not_mem_nil, or_false] at hname
    rcases hname with rfl | rfl
    · obtain rfl := Option.some.inj (hv.symm.trans value)
      exact ih hv'
    · exact sameContent_length hv' (hv ▸ size)
  | object header key value _ size ih =>
    refine sameContent_block hkeyed.here header fun name hname v hv => ?_
    have hv' := hkeyed.inside v (Entries.mem_parts_of_get? hv)
    simp only [Kind.properties, List.mem_cons, List.not_mem_nil, or_false] at hname
    rcases hname with rfl | rfl | rfl
    · rw [Option.some.inj (hv.symm.trans key), arrangedProperty_str]
      exact .refl _
    · obtain rfl := Option.some.inj (hv.symm.trans value)
      exact ih hv'
    · exact sameContent_length hv' (hv ▸ size)
  | tuple header items sequence _ count _ ih =>
    refine sameContent_block hkeyed.here header fun name hname v hv => ?_
    have hv' := hkeyed.inside v (Entries.mem_parts_of_get? hv)
    obtain rfl := List.mem_singleton.1 hname
    obtain rfl := Option.some.inj (hv.symm.trans items)
    rw [arrangedProperty_items sequence]
    refine .map_sequence sequence fun x hx => ?_
    obtain ⟨b, hb⟩ := exists_zip_of_left count hx
    exact ih _ hb (hv'.inside x (sequence.parts.symm ▸ hx))
  | map header entries _ keys _ _ _ ih =>
    refine sameContent_block hkeyed.here header fun name hname v hv => ?_
    have hv' := hkeyed.inside v (Entries.mem_parts_of_get? hv)
    obtain rfl := List.mem_singleton.1 hname
    obtain rfl := Option.some.inj (hv.symm.trans entries)
    have hcount := congrArg List.length keys
    rw [List.length_map, List.length_map] at hcount
    rw [arrangedProperty_fields]
    refine .map_entries (List.Perm.refl _) fun f hf => ?_
    obtain ⟨b, hb⟩ := exists_zip_of_left hcount hf
    exact ih _ hb (hv'.inside f.2 (List.mem_map_of_mem hf))
  | enum header items sequence _ _ _ =>
    refine sameContent_block hkeyed.here header fun name hname v hv => ?_
    obtain rfl := List.mem_singleton.1 hname
    obtain rfl := Option.some.inj (hv.symm.trans items)
    rw [arrangedProperty_values sequence, ← List.map_id (List.map str _)]
    exact .map_sequence sequence fun x _ => .refl x

end Value

end DocShape
