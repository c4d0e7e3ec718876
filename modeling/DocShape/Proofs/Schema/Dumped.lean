import DocShape.Proofs.Reference
import DocShape.Proofs.Schema.Arranged
import DocShape.Proofs.Schema.Room

/-!
# Typed forms are stable

A typed form may come of a schema that no check has seen, with spellings that were coerced and with
properties given as null. However it came about, it is dumped as a schema that is read as the same
typed form (`parseSchema_dump_eq`): what the lenient readers give is plain, and they take it as it is
written; a container that was read is never empty (`Block.Filled`); and the typed form was no deeper than
the guard.
-/

namespace DocShape

/-! ## Settings as they are written -/

/-- What stands under a property in the raw form, if anything does. -/
def Setting.raw? {α : Type} (raw : α → Value) : Setting α → Option Value
  | absent => none
  | null => some .null
  | given a => some (raw a)

theorem Extent.setting_eq {α : Type} (name : Text) (raw : α → Value) (s : Setting α) :
    setting .given name raw s = Entries.entry name (s.raw? raw) := by
  cases s <;> rfl

namespace Entries

variable {es : Entries} {names : List Text} {name : Text}

theorem get?_of_only (h : es.Only names) (hname : name ∉ names) : es.get? name = none := by
  cases hv : es.get? name with
  | none => rfl
  | some v =>
    obtain ⟨t, ht, hkey⟩ := h _ (mem_of_get? hv)
    exact absurd (Value.str.inj hkey ▸ ht) hname

theorem only_append {fs : Entries} : (es ++ fs).Only names ↔ es.Only names ∧ fs.Only names :=
  List.forall_mem_append

theorem get?_entry (name t : Text) (v? : Option Value) :
    get? name (entry t v?) = if t = name then v? else none := by
  split
  · next h => rw [h, get?_entry_self]
  · next h => exact get?_entry_of_ne h v?

theorem only_entry (h : name ∈ names) (v? : Option Value) : (entry name v?).Only names :=
  fun _ he => ⟨name, h, key_of_mem_entry he⟩

theorem Only.mono {names' : List Text} (h : es.Only names) (hsub : names ⊆ names') :
    es.Only names' := fun e he =>
  (h e he).imp fun _ ht => ⟨hsub ht.1, ht.2⟩

end Entries

/-! ## Readers take what is written -/

namespace Block

variable {es : Entries} {name : Text}

/-- What stands under a property in the raw form is read as the setting that it is of. -/
theorem readSetting_raw? {α : Type} {raw : α → Value} {read : Value → Except TypeFault α}
    {s : Setting α} (h : es.get? name = s.raw? raw)
    (hread : ∀ a, s = .given a → raw a ≠ .null ∧ read (raw a) = .ok a) :
    readSetting name read es = .ok s := by
  unfold readSetting
  rw [h]
  cases s with
  | absent => rfl
  | null => rfl
  | given a =>
    obtain ⟨hnull, hread⟩ := hread a rfl
    simp only [Setting.raw?, hread]
    rfl

theorem readText_raw? [Host] [LawfulHost] {s : Setting Text} (h : es.get? name = s.raw? .str) :
    readText name es = .ok s :=
  readSetting_raw? h fun t _ => ⟨nofun, by rw [LawfulHost.text_str]; rfl⟩

theorem get?_bound (b : Bound) :
    Entries.get? "value" ([(.str "value", .ofNumber b.value)] ++
        Extent.truth .given "exclusive" false b.exclusive) = some (.ofNumber b.value) ∧
      Entries.get? "exclusive" ([(.str "value", .ofNumber b.value)] ++
        Extent.truth .given "exclusive" false b.exclusive) = b.exclusive.map .bool := by
  rw [Extent.truth_eq, Entries.get?_append, Entries.get?_append, Entries.get?_entry_self]
  exact ⟨rfl, rfl⟩

theorem boundOf?_raw [Host] [LawfulHost] (b : Bound) :
    boundOf? ([(.str "value", .ofNumber b.value)] ++
      Extent.truth .given "exclusive" false b.exclusive) = some b := by
  obtain ⟨hvalue, hexclusive⟩ := get?_bound b
  refine boundOf?_of_get? (Entries.only_append.2 ⟨?_, ?_⟩) hvalue hexclusive
  · exact List.forall_mem_singleton.2 ⟨"value", by decide, rfl⟩
  · rw [Extent.truth_eq]
    exact Entries.only_entry (by decide) _

theorem readLimit_raw? [Host] [LawfulHost] {room : Nat} {s : Setting Limit}
    (h : es.get? name = s.raw? (Limit.raw .given)) (hroom : s.depth Limit.depth ≤ room) :
    readLimit room name es = .ok s := by
  refine readSetting_raw? h fun l hs => ?_
  subst hs
  cases l with
  | bare n => exact ⟨Value.ofNumber_ne_null n, numberOr_ofNumber _ _ n⟩
  | bound b =>
    have hroom : room ≠ 0 := Nat.ne_of_gt hroom
    refine ⟨nofun, ?_⟩
    simp only [Limit.raw, Bound.raw, numberOr, if_neg hroom, boundOf?_raw, Option.map_some]

theorem lengthBoundOf?_raw? [Host] [LawfulHost] {s : Setting Number}
    (h : es.get? name = s.raw? .ofNumber) : lengthBoundOf? name es = some s := by
  cases s with
  | given n => exact lengthBoundOf?_of_get? h
  | _ =>
    unfold lengthBoundOf?
    rw [h]
    rfl

theorem lengthRangeOf?_raw [Host] [LawfulHost] (r : LengthRange) :
    lengthRangeOf? (Extent.setting .given "minimum" .ofNumber r.minimum ++
      Extent.setting .given "maximum" .ofNumber r.maximum) = some r := by
  rw [Extent.setting_eq, Extent.setting_eq]
  have hminimum : lengthBoundOf? "minimum" (Entries.entry "minimum" (r.minimum.raw? .ofNumber) ++
      Entries.entry "maximum" (r.maximum.raw? .ofNumber)) = some r.minimum := by
    refine lengthBoundOf?_raw? ?_
    rw [Entries.get?_append, Entries.get?_entry_self, Entries.get?_entry_of_ne (by decide),
      Option.or_none]
  have hmaximum : lengthBoundOf? "maximum" (Entries.entry "minimum" (r.minimum.raw? .ofNumber) ++
      Entries.entry "maximum" (r.maximum.raw? .ofNumber)) = some r.maximum := by
    refine lengthBoundOf?_raw? ?_
    rw [Entries.get?_append, Entries.get?_entry_self, Entries.get?_entry_of_ne (by decide),
      Option.none_or]
  have hextras : checkExtras ["minimum", "maximum"]
      (Entries.entry "minimum" (r.minimum.raw? .ofNumber) ++
        Entries.entry "maximum" (r.maximum.raw? .ofNumber)) = .ok () :=
    checkExtras_eq_ok (Entries.only_append.2
      ⟨Entries.only_entry (by decide) _, Entries.only_entry (by decide) _⟩)
  simp only [lengthRangeOf?, hminimum, hmaximum, hextras, Option.bind_eq_bind, Option.bind_some]
  rfl

theorem readLength_raw? [Host] [LawfulHost] {room : Nat} {s : Setting LengthRule}
    (h : es.get? "length" = s.raw? (LengthRule.raw .given))
    (hroom : s.depth LengthRule.depth ≤ room) : readLength room es = .ok s := by
  refine readSetting_raw? h fun r hs => ?_
  subst hs
  cases r with
  | exactly n => exact ⟨Value.ofNumber_ne_null n, numberOr_ofNumber _ _ n⟩
  | range r =>
    have hroom : room ≠ 0 := Nat.ne_of_gt hroom
    refine ⟨nofun, ?_⟩
    simp only [LengthRule.raw, numberOr, if_neg hroom, lengthRangeOf?_raw, Option.map_some]

end Block

/-! ## The entries of a block -/

/-- The entries of a header as entries for its properties. -/
theorem Header.raw_eq (h : Header) (k : Kind) :
    h.raw .given k = Entries.entry "type" (some (.str k.name)) ++
      Entries.entry "name" (h.name.raw? .str) ++
      Entries.entry "description" (h.description.raw? .str) ++
      Entries.entry "option" (h.option.map .bool) := by
  rw [Header.raw, Extent.setting_eq, Extent.setting_eq, Extent.truth_eq]
  rfl

theorem Header.only_raw (h : Header) (k : Kind) :
    Entries.Only (h.raw .given k) Kind.commonProperties := by
  simp only [Header.raw_eq, Entries.only_append]
  exact ⟨⟨⟨Entries.only_entry (by decide) _, Entries.only_entry (by decide) _⟩,
    Entries.only_entry (by decide) _⟩, Entries.only_entry (by decide) _⟩

/-- A kind has no property of its own among the common ones. -/
theorem Kind.notMem_properties {k : Kind} {name : Text} (h : name ∈ commonProperties) :
    name ∉ k.properties := by
  cases k <;> revert name <;> decide

namespace Block

variable {h : Header} {k : Kind} {rest : Entries} {b : Block}

/-- A property of a kind stands among the entries after the header. -/
theorem get?_own {name : Text} (hname : name ∈ k.properties) :
    Entries.get? name (h.raw .given k ++ rest) = rest.get? name := by
  have hother : name ∉ Kind.commonProperties := fun hmem => Kind.notMem_properties hmem hname
  rw [Entries.get?_append, Entries.get?_of_only (h.only_raw k) hother, Option.none_or]

/-- A header and the properties of a kind are read as they are written. -/
theorem ofRaw_of_own [Host] [LawfulHost] {room : Nat} (honly : rest.Only k.properties)
    (hbody : readBody room (h.raw .given k ++ rest) h k = .ok b) :
    ofRaw (room + 1) (.dict (h.raw .given k ++ rest)) = .ok b := by
  have hcommon {name : Text} (hname : name ∈ Kind.commonProperties) :
      Entries.get? name (h.raw .given k ++ rest) = Entries.get? name (h.raw .given k) := by
    rw [Entries.get?_append, Entries.get?_of_only honly (Kind.notMem_properties hname),
      Option.or_none]
  have honly' : Entries.Only (h.raw .given k ++ rest) k.legalProperties :=
    Entries.only_append.2 ⟨(h.only_raw k).mono (List.subset_append_left _ _),
      honly.mono (List.subset_append_right _ _)⟩
  refine ofRaw_of_read ?_ honly' ?_ hbody
  · rw [hcommon (by decide)]
    rfl
  · have hname : readText "name" (h.raw .given k ++ rest) = .ok h.name := by
      refine readText_raw? ?_
      rw [hcommon (by decide), Header.raw_eq]
      simp +decide only [Entries.get?_append, Entries.get?_entry, ↓reduceIte, Option.none_or, Option.or_none]
    have hdescription : readText "description" (h.raw .given k ++ rest) = .ok h.description := by
      refine readText_raw? ?_
      rw [hcommon (by decide), Header.raw_eq]
      simp +decide only [Entries.get?_append, Entries.get?_entry, ↓reduceIte, Option.none_or, Option.or_none]
    have hoption : readFlag "option" (h.raw .given k ++ rest) = .ok h.option := by
      refine readFlag_of_get? ?_
      rw [hcommon (by decide), Header.raw_eq]
      simp +decide only [Entries.get?_append, Entries.get?_entry, ↓reduceIte, Option.none_or, Option.or_none]
    simp only [readHeader, hname, hdescription, hoption]
    rfl

/-! ## Typed forms -/

/-- A container of some kind has something in it. -/
def Filled : Block → Prop
  | tuple _ items => items ≠ []
  | map _ fields => fields ≠ []
  | enum _ values => values ≠ []
  | _ => True

theorem blockList_ne_nil [Host] {room : Nat} {v : Value} {bs : List Block}
    (h : blockList room v = .ok bs) : bs ≠ [] := by
  have hblocks {xs : List Value} (hne : xs ≠ []) (hbs : blocksOf room 0 xs = .ok bs) : bs ≠ [] := by
    obtain ⟨x, xs, rfl⟩ := List.exists_cons_of_ne_nil hne
    rw [blocksOf] at hbs
    obtain ⟨b, -, hbs⟩ := Except.bind_eq_ok.1 hbs
    obtain ⟨cs, -, hbs⟩ := Except.bind_eq_ok.1 hbs
    rw [← Except.ok.inj hbs]
    exact List.cons_ne_nil _ _
  unfold blockList at h
  split at h
  · cases h
  · cases h
  · cases h
  · next hne => exact hblocks (fun hnil => hne (by rw [hnil])) h
  · next hne => exact hblocks (fun hnil => hne (by rw [hnil])) h
  · next hne => exact hblocks (fun hnil => hne (by rw [hnil])) h
  · cases h

theorem putField_ne_nil (name : Text) (b : Block) (fields : List (Text × Block)) :
    putField name b fields ≠ [] := by
  cases fields with
  | nil => exact List.cons_ne_nil _ _
  | cons f fields =>
    rw [putField]
    split <;> exact List.cons_ne_nil _ _

theorem fieldBlocks_ne_nil [Host] {room : Nat} {es : Entries} {before fields : List (Text × Block)}
    (h : fieldBlocks room before es = .ok fields) (hne : es ≠ [] ∨ before ≠ []) : fields ≠ [] := by
  induction es generalizing before with
  | nil =>
    obtain rfl := Except.ok.inj h
    exact hne.resolve_left fun hnil => hnil rfl
  | cons e es ih =>
    obtain ⟨k, v⟩ := e
    rw [fieldBlocks] at h
    obtain ⟨name, -, h⟩ := Except.bind_eq_ok.1 h
    obtain ⟨b, -, h⟩ := Except.bind_eq_ok.1 h
    exact ih h (.inr (putField_ne_nil name b before))

theorem fieldDict_ne_nil [Host] {room : Nat} {v : Value} {fields : List (Text × Block)}
    (h : fieldDict room v = .ok fields) : fields ≠ [] := by
  unfold fieldDict at h
  split at h
  · cases h
  · next hne => exact fieldBlocks_ne_nil h (.inl fun hnil => hne (by rw [hnil]))
  · cases h

theorem readValues_ne_nil [Host] {es : Entries} {values : List Text} (h : readValues es = .ok values) :
    values ≠ [] := by
  unfold readValues at h
  split at h
  · cases h
  · split at h
    · cases h
    · cases h
    · next xs hne hxs =>
      obtain ⟨x, xs, rfl⟩ := List.exists_cons_of_ne_nil hne
      rw [inside_eq_ok, textsOf] at h
      obtain ⟨t, -, h⟩ := Except.bind_eq_ok.1 h
      obtain ⟨ts, -, h⟩ := Except.bind_eq_ok.1 h
      rw [← Except.ok.inj h]
      exact List.cons_ne_nil _ _

/-- What was read from the own properties of a dictionary is filled. -/
theorem filled_of_readBody [Host] {room : Nat} {es : Entries} (h' : readBody room es h k = .ok b) :
    b.Filled := by
  cases k with
  | flag =>
    obtain rfl := Except.ok.inj h'
    trivial
  | number =>
    obtain ⟨_, -, h'⟩ := Except.bind_eq_ok.1 h'
    obtain ⟨_, -, h'⟩ := Except.bind_eq_ok.1 h'
    obtain ⟨_, -, h'⟩ := Except.bind_eq_ok.1 h'
    obtain rfl := Except.ok.inj h'
    trivial
  | string =>
    obtain ⟨_, -, h'⟩ := Except.bind_eq_ok.1 h'
    obtain ⟨_, -, h'⟩ := Except.bind_eq_ok.1 h'
    obtain rfl := Except.ok.inj h'
    trivial
  | array =>
    obtain ⟨_, -, h'⟩ := Except.bind_eq_ok.1 h'
    obtain ⟨_, -, h'⟩ := Except.bind_eq_ok.1 h'
    obtain rfl := Except.ok.inj h'
    trivial
  | object =>
    obtain ⟨_, -, h'⟩ := Except.bind_eq_ok.1 h'
    obtain ⟨_, -, h'⟩ := Except.bind_eq_ok.1 h'
    obtain ⟨_, -, h'⟩ := Except.bind_eq_ok.1 h'
    obtain rfl := Except.ok.inj h'
    trivial
  | tuple =>
    obtain ⟨items, hitems, h'⟩ := Except.bind_eq_ok.1 h'
    obtain rfl := Except.ok.inj h'
    obtain ⟨e, -, hitems⟩ := itemsOf_eq_ok hitems
    exact blockList_ne_nil hitems
  | map =>
    obtain ⟨fields, hfields, h'⟩ := Except.bind_eq_ok.1 h'
    obtain rfl := Except.ok.inj h'
    obtain ⟨e, -, hfields⟩ := fieldsOf_eq_ok hfields
    exact fieldDict_ne_nil hfields
  | enum =>
    obtain ⟨values, hvalues, h'⟩ := Except.bind_eq_ok.1 h'
    obtain rfl := Except.ok.inj h'
    exact readValues_ne_nil hvalues

/-- The typed form of a raw schema is filled, at every depth. -/
theorem filled_of_ofRaw [Host] {room : Nat} {v : Value} (hv : ofRaw room v = .ok b) :
    b.Everywhere Filled := by
  induction v using Value.innerInduction generalizing room b with
  | step v ih =>
    obtain ⟨-, inner, rfl, hparts⟩ := ofRaw_eq_ok hv
    obtain ⟨es, header, k, -, hbody⟩ := exists_readBody hv
    refine ⟨filled_of_readBody hbody, fun c hc => ?_⟩
    obtain ⟨x, hx, hc | ⟨y, hy, hc⟩⟩ := hparts c hc
    · exact (ih x hx).1 hc
    · exact (ih x hx).2 y hy hc

/-! ## Reading what was dumped -/

/-- The entries of a block for the properties that its kind has of its own. -/
def own : Block → Entries
  | flag _ => []
  | number _ decimal minimum maximum =>
    Entries.entry "decimal" (decimal.map .bool) ++
      Entries.entry "minimum" (minimum.raw? (Limit.raw .given)) ++
      Entries.entry "maximum" (maximum.raw? (Limit.raw .given))
  | string _ length pattern =>
    Entries.entry "length" (length.raw? (LengthRule.raw .given)) ++
      Entries.entry "pattern" (pattern.raw? .str)
  | array _ value length =>
    Entries.entry "value" (some value.dump) ++
      Entries.entry "length" (length.raw? (LengthRule.raw .given))
  | object _ key value length =>
    Entries.entry "key" (some (.str key.name)) ++ Entries.entry "value" (some value.dump) ++
      Entries.entry "length" (length.raw? (LengthRule.raw .given))
  | tuple _ items => Entries.entry "items" (some (.list (items.map dump)))
  | map _ fields =>
    Entries.entry "fields" (some (.dict (fields.map fun f => (.str f.1, f.2.dump))))
  | enum _ values => Entries.entry "values" (some (.list (values.map .str)))

theorem dump_eq (b : Block) : b.dump = .dict (b.header.raw .given b.kind ++ b.own) := by
  cases b with
  | flag h => rw [dump, raw, own, List.append_nil]; rfl
  | number h decimal minimum maximum =>
    rw [dump, raw, own, Extent.truth_eq, Extent.setting_eq, Extent.setting_eq]
    simp only [List.append_assoc]
    rfl
  | string h length pattern =>
    rw [dump, raw, own, Extent.setting_eq, Extent.setting_eq, List.append_assoc]
    rfl
  | array h value length =>
    rw [dump, raw, own, Extent.setting_eq, List.append_assoc]
    rfl
  | object h key value length =>
    rw [dump, raw, own, Extent.setting_eq, List.append_assoc]
    rfl
  | tuple h items =>
    rw [dump, raw, own, rawItems_eq]
    rfl
  | map h fields =>
    rw [dump, raw, own, rawFields_eq]
    rfl
  | enum h values => rfl

theorem only_own (b : Block) : b.own.Only b.kind.properties := by
  cases b with
  | flag h => exact fun e he => by cases he
  | number h decimal minimum maximum =>
    simp only [own, kind, Entries.only_append]
    exact ⟨⟨Entries.only_entry (by decide) _, Entries.only_entry (by decide) _⟩,
      Entries.only_entry (by decide) _⟩
  | string h length pattern =>
    simp only [own, kind, Entries.only_append]
    exact ⟨Entries.only_entry (by decide) _, Entries.only_entry (by decide) _⟩
  | array h value length =>
    simp only [own, kind, Entries.only_append]
    exact ⟨Entries.only_entry (by decide) _, Entries.only_entry (by decide) _⟩
  | object h key value length =>
    simp only [own, kind, Entries.only_append]
    exact ⟨⟨Entries.only_entry (by decide) _, Entries.only_entry (by decide) _⟩,
      Entries.only_entry (by decide) _⟩
  | tuple h items =>
    simp only [own, kind]
    exact Entries.only_entry (by decide) _
  | map h fields =>
    simp only [own, kind]
    exact Entries.only_entry (by decide) _
  | enum h values =>
    simp only [own, kind]
    exact Entries.only_entry (by decide) _

theorem blockList_dump [Host] {room : Nat} {items : List Block} (hne : items ≠ [])
    (h : ∀ c ∈ items, ofRaw room c.dump = .ok c) : blockList room (.list (items.map dump)) = .ok items := by
  have hraw : items.map dump ≠ [] := fun hnil => hne (List.map_eq_nil_iff.1 hnil)
  refine blockList_zip (.inl rfl) hraw (List.length_map _) fun p hp => ?_
  obtain ⟨hmem, hdump⟩ := mem_map_zip hp
  rw [hdump]
  exact h p.2 hmem

theorem fieldDict_dump [Host] [LawfulHost] {room : Nat} {fields : List (Text × Block)}
    (hne : fields ≠ [])
    (hapart : (fields.map Prod.fst).Nodup) (h : ∀ f ∈ fields, ofRaw room f.2.dump = .ok f.2) :
    fieldDict room (.dict (fields.map fun f => (.str f.1, f.2.dump))) = .ok fields := by
  have hraw : fields.map (fun f => (Value.str f.1, f.2.dump)) ≠ [] := fun hnil =>
    hne (List.map_eq_nil_iff.1 hnil)
  refine fieldDict_zip hraw ?_ hapart fun p hp => ?_
  · rw [List.map_map]
    rfl
  · obtain ⟨hmem, hdump⟩ := mem_map_zip hp
    rw [hdump]
    exact h p.2 hmem

/-- The own properties of a block are read as they are written. -/
theorem readBody_own [Host] [LawfulHost] {room : Nat} (hfilled : b.Filled) (hapart : b.fieldNames.Nodup)
    (hform : b.formDepth ≤ room) (hparts : ∀ c ∈ b.parts, ofRaw room c.dump = .ok c) :
    readBody room (b.header.raw .given b.kind ++ b.own) b.header b.kind = .ok b := by
  have hown (k : Kind) {name : Text} (hk : b.kind = k) (hname : name ∈ k.properties) :
      Entries.get? name (b.header.raw .given b.kind ++ b.own) = b.own.get? name :=
    get?_own (hk ▸ hname)
  generalize b.header.raw .given b.kind ++ b.own = es at hown
  cases b with
  | flag h => rfl
  | number h decimal minimum maximum =>
    have hdecimal : readFlag "decimal" es = .ok decimal := by
      refine readFlag_of_get? ((hown .number rfl (by decide)).trans ?_)
      simp +decide only [own, Entries.get?_append, Entries.get?_entry, ↓reduceIte, Option.or_none]
    obtain ⟨hleast, hmost⟩ := Nat.max_le.1 hform
    have hminimum : readLimit room "minimum" es = .ok minimum := by
      refine readLimit_raw? ((hown .number rfl (by decide)).trans ?_) hleast
      simp +decide only [own, Entries.get?_append, Entries.get?_entry, ↓reduceIte, Option.none_or,
        Option.or_none]
    have hmaximum : readLimit room "maximum" es = .ok maximum := by
      refine readLimit_raw? ((hown .number rfl (by decide)).trans ?_) hmost
      simp +decide only [own, Entries.get?_append, Entries.get?_entry, ↓reduceIte, Option.none_or]
    simp only [kind, readBody, hdecimal, hminimum, hmaximum]
    rfl
  | string h length pattern =>
    have hlength : readLength room es = .ok length := by
      refine readLength_raw? ((hown .string rfl (by decide)).trans ?_) hform
      simp +decide only [own, Entries.get?_append, Entries.get?_entry, ↓reduceIte, Option.or_none]
    have hpattern : readText "pattern" es = .ok pattern := by
      refine readText_raw? ((hown .string rfl (by decide)).trans ?_)
      simp +decide only [own, Entries.get?_append, Entries.get?_entry, ↓reduceIte, Option.none_or]
    simp only [kind, readBody, hlength, hpattern]
    rfl
  | array h value length =>
    have hvalue : valueOf room es = .ok value := by
      rw [valueOf_eq, hown .array rfl (by decide)]
      exact inside_eq_ok.2 (hparts value List.mem_cons_self)
    have hlength : readLength room es = .ok length := by
      refine readLength_raw? ((hown .array rfl (by decide)).trans ?_) hform
      simp +decide only [own, Entries.get?_append, Entries.get?_entry, ↓reduceIte, Option.none_or]
    simp only [kind, readBody, hvalue, hlength]
    rfl
  | object h key value length =>
    have hkey : readKeyKind es = .ok key := readKeyKind_of_get? (hown .object rfl (by decide))
    have hvalue : valueOf room es = .ok value := by
      rw [valueOf_eq, hown .object rfl (by decide)]
      exact inside_eq_ok.2 (hparts value List.mem_cons_self)
    have hlength : readLength room es = .ok length := by
      refine readLength_raw? ((hown .object rfl (by decide)).trans ?_) hform
      simp +decide only [own, Entries.get?_append, Entries.get?_entry, ↓reduceIte, Option.none_or]
    simp only [kind, readBody, hkey, hvalue, hlength]
    rfl
  | tuple h items =>
    have hitems : itemsOf room es = .ok items := by
      rw [itemsOf_eq, hown .tuple rfl (by decide)]
      exact inside_eq_ok.2 (blockList_dump hfilled hparts)
    simp only [kind, readBody, hitems]
    rfl
  | map h fields =>
    have hfields : fieldsOf room es = .ok fields := by
      rw [fieldsOf_eq, hown .map rfl (by decide)]
      exact inside_eq_ok.2 (fieldDict_dump hfilled hapart fun f hf =>
        hparts f.2 (List.mem_map_of_mem hf))
    simp only [kind, readBody, hfields]
    rfl
  | enum h values =>
    have hvalues : readValues es = .ok values :=
      readValues_of_sequence (hown .enum rfl (by decide)) (.inl rfl) hfilled
    simp only [kind, readBody, hvalues]
    rfl

/-- A filled block whose maps have their fields apart is what its raw form is read as, if there is
room. -/
theorem ofRaw_dump [Host] [LawfulHost] {room : Nat} (hb : b.Everywhere Filled) (hapart : b.FieldsApart)
    (hroom : b.depth ≤ room) : ofRaw room b.dump = .ok b := by
  induction b using partsInduction generalizing room with
  | step b ih =>
    obtain ⟨inner, rfl⟩ := Nat.exists_eq_add_one_of_ne_zero (Nat.ne_of_gt (b.depth_pos.trans_le hroom))
    obtain ⟨hform, hparts⟩ := depth_le_succ_iff.1 hroom
    rw [dump_eq]
    exact ofRaw_of_own b.only_own (readBody_own hb.here hapart.here hform fun c hc =>
      ih c hc (hb.inside c hc) (hapart.inside c hc) (hparts c hc))

end Block

/-- **The typed form is stable.** Let a raw schema have a typed form, whether a check would accept it or
not, and by whatever coercions of a host that takes plain values as they are. Then the typed form is
dumped as a schema that has a typed form too, and it is the same one: property by property, with the same
properties given, given as null or left out. So dumping it again gives the same dictionary. -/
theorem parseSchema_dump_eq [Host] [LawfulHost] {raw : Value} {b : Block}
    (h : parseSchema raw = .ok b) :
    ∃ c, parseSchema b.dump = .ok c ∧ c = b ∧ c.dump = b.dump := by
  have hread := ofRaw_of_parseSchema h
  refine ⟨b, ?_, rfl, rfl⟩
  rw [parseSchema, Block.ofRaw_dump (Block.filled_of_ofRaw hread) (fieldsApart_of_parseSchema h)
    (Block.depth_le_of_ofRaw hread)]

section

open Reference

/-- A schema that no check accepts: truth values and numbers are spelled as texts, properties are null,
bounds are crossed, and a field is given twice, once as bytes. -/
def laxRaw : Value :=
  .dict [(.str "type", .str "map"), (.str "option", .str "YES"), (.str "name", .null),
    (.str "fields", .dict
      [(.bytes [0x61], .dict [(.str "type", .str "flag")]),
        (.str "b", .dict [(.str "type", .str "tuple"), (.str "items", .tuple
          [.dict [(.str "values", .tuple [.bytes [0x78], .str "!"]), (.str "type", .str "enum")]])]),
        (.str "a", .dict [(.str "type", .str "number"), (.str "maximum", .float .nan),
          (.str "minimum", .dict [(.str "value", .str " 012.0 "), (.str "exclusive", .int 0)])])])]

/-- The typed form: the field that was given twice keeps its first place and its last block. -/
def laxBlock : Block :=
  let plain : Header := ⟨.absent, .absent, none⟩
  .map ⟨.null, .absent, some true⟩
    [("a", .number plain none (.given (.bound ⟨.int 12, some false⟩)) (.given (.bare (.float .nan)))),
      ("b", .tuple plain [.enum plain ["x", "!"]])]

theorem parseSchema_dump_eq_lax :
    parseSchema laxRaw = .ok laxBlock ∧
      ∃ c, parseSchema laxBlock.dump = .ok c ∧ c = laxBlock ∧ c.dump = laxBlock.dump := by
  have hparse : parseSchema laxRaw = .ok laxBlock := by rfl
  exact ⟨hparse, parseSchema_dump_eq hparse⟩

end

end DocShape
