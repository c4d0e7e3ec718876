import DocShape.Proofs.Host
import DocShape.Proofs.Schema.Parts
import DocShape.Proofs.Schema.WellFormed

/-!
# Typed forms of well-formed schemas

`Value.TypedAs` relates a raw schema with the block that it stands for, without a coercion: numbers,
texts and truth values are taken over as they are, and what is left out is absent. Every well-formed
schema stands for a block (`exists_typedAs`), and the lenient reader gives this block
(`ofRaw_of_typedAs`).
-/

namespace DocShape

/-! ## Typed properties -/

/-- A setting is what stands under a property, which is of some form if it is there. -/
inductive Setting.Stands {α : Type} (form : Value → α → Prop) : Option Value → Setting α → Prop
  | absent : Stands form none .absent
  | given {v : Value} {a : α} (fits : form v a) : Stands form (some v) (.given a)

theorem Setting.Stands.given_inv {α : Type} {form : Value → α → Prop} {v? : Option Value} {a : α}
    (h : Stands form v? (.given a)) : ∃ v, v? = some v ∧ form v a := by
  cases h with
  | given h => exact ⟨_, rfl, h⟩

namespace Value

/-- A text stands for itself. -/
def TextAs (v : Value) (t : Text) : Prop := v = str t

/-- A bound stands for a limit. -/
inductive LimitAs : Value → Limit → Prop
  | bare {v : Value} {n : Number} (number : v.IsNumber n) : LimitAs v (.bare n)
  | bound {es : Entries} {v : Value} {n : Number} {exclusive : Option Bool}
    (only : Entries.Only es ["exclusive", "value"]) (value : Entries.get? "value" es = some v)
    (number : v.IsNumber n) (excluded : Entries.get? "exclusive" es = exclusive.map bool) :
    LimitAs (.dict es) (.bound ⟨n, exclusive⟩)

/-- A number that a length may be compared with stands for itself. -/
def LengthNumberAs (v : Value) (n : Number) : Prop := v.IsNumber n ∧ 0 ≤ n.exact

/-- A constraint on a length stands for a rule. -/
inductive LengthAs : Value → LengthRule → Prop
  | exactly {v : Value} {n : Number} (number : v.LengthNumberAs n) : LengthAs v (.exactly n)
  | range {es : Entries} {minimum maximum : Setting Number}
    (only : Entries.Only es ["minimum", "maximum"])
    (least : Setting.Stands LengthNumberAs (Entries.get? "minimum" es) minimum)
    (greatest : Setting.Stands LengthNumberAs (Entries.get? "maximum" es) maximum)
    (order : ∀ m n, minimum = .given m → maximum = .given n → m.exact ≤ n.exact) :
    LengthAs (.dict es) (.range ⟨minimum, maximum⟩)

end Value

/-- The entries of a block of some kind have a header. -/
structure Header.Heads (h : Header) (es : Entries) (k : Kind) : Prop where
  kind : es.get? "type" = some (.str k.name)
  only : es.Only k.legalProperties
  name : Setting.Stands Value.TextAs (es.get? "name") h.name
  description : Setting.Stands Value.TextAs (es.get? "description") h.description
  option : es.get? "option" = h.option.map .bool

/-- A raw schema stands for a block. -/
inductive Value.TypedAs : Value → Block → Prop
  | flag {es : Entries} {h : Header} (header : h.Heads es .flag) : TypedAs (.dict es) (.flag h)
  | number {es : Entries} {h : Header} {decimal : Option Bool} {minimum maximum : Setting Limit}
    (header : h.Heads es .number) (fraction : Entries.get? "decimal" es = decimal.map bool)
    (least : Setting.Stands LimitAs (Entries.get? "minimum" es) minimum)
    (greatest : Setting.Stands LimitAs (Entries.get? "maximum" es) maximum)
    (order : ∀ m n, minimum = .given m → maximum = .given n → m.value.exact ≤ n.value.exact) :
    TypedAs (.dict es) (.number h decimal minimum maximum)
  | string {es : Entries} {h : Header} {length : Setting LengthRule} {pattern : Setting Text}
    (header : h.Heads es .string)
    (size : Setting.Stands LengthAs (Entries.get? "length" es) length)
    (search : Setting.Stands TextAs (Entries.get? "pattern" es) pattern) :
    TypedAs (.dict es) (.string h length pattern)
  | array {es : Entries} {h : Header} {v : Value} {b : Block} {length : Setting LengthRule}
    (header : h.Heads es .array) (value : Entries.get? "value" es = some v) (typed : TypedAs v b)
    (size : Setting.Stands LengthAs (Entries.get? "length" es) length) :
    TypedAs (.dict es) (.array h b length)
  | object {es : Entries} {h : Header} {kind : KeyKind} {v : Value} {b : Block}
    {length : Setting LengthRule} (header : h.Heads es .object)
    (key : Entries.get? "key" es = some (.str kind.name))
    (value : Entries.get? "value" es = some v) (typed : TypedAs v b)
    (size : Setting.Stands LengthAs (Entries.get? "length" es) length) :
    TypedAs (.dict es) (.object h kind b length)
  | tuple {es : Entries} {h : Header} {v : Value} {xs : List Value} {bs : List Block}
    (header : h.Heads es .tuple) (items : Entries.get? "items" es = some v)
    (sequence : v.IsSequence xs) (nonempty : xs ≠ []) (count : xs.length = bs.length)
    (typed : ∀ p ∈ xs.zip bs, TypedAs p.1 p.2) : TypedAs (.dict es) (.tuple h bs)
  | map {es fs : Entries} {h : Header} {fields : List (Text × Block)} (header : h.Heads es .map)
    (entries : Entries.get? "fields" es = some (.dict fs)) (nonempty : fs ≠ [])
    (keys : fs.map Prod.fst = fields.map fun f => str f.1) (names : ∀ f ∈ fields, f.1.isName = true)
    (distinct : (fields.map Prod.fst).Nodup)
    (typed : ∀ p ∈ fs.zip fields, TypedAs p.1.2 p.2.2) : TypedAs (.dict es) (.map h fields)
  | enum {es : Entries} {h : Header} {v : Value} {values : List Text} (header : h.Heads es .enum)
    (items : Entries.get? "values" es = some v) (sequence : v.IsSequence (values.map str))
    (nonempty : values ≠ []) (names : ∀ t ∈ values, t.isName = true) (distinct : values.Nodup) :
    TypedAs (.dict es) (.enum h values)

/-! ## Every well-formed schema stands for a block -/

namespace Value

theorem exists_stands {α : Type} {form : Value → α → Prop} {es : Entries} {name : Text}
    (h : es.Optional name fun v => ∃ a, form v a) :
    ∃ s, Setting.Stands form (es.get? name) s := by
  cases hv : es.get? name with
  | none => exact ⟨_, .absent⟩
  | some v =>
    obtain ⟨a, ha⟩ := h v hv
    exact ⟨_, .given ha⟩

theorem exists_truth {es : Entries} {name : Text} (h : es.Optional name IsTruth) :
    ∃ b : Option Bool, es.get? name = b.map bool := by
  cases hv : es.get? name with
  | none => exact ⟨none, rfl⟩
  | some v =>
    obtain ⟨b, rfl⟩ := h v hv
    exact ⟨some b, rfl⟩

theorem exists_heads {es : Entries} {k : Kind} (h : es.IsBlock k) :
    ∃ header : Header, header.Heads es k := by
  obtain ⟨name, hname⟩ : ∃ s, Setting.Stands TextAs (es.get? "name") s := exists_stands h.name
  obtain ⟨description, hdescription⟩ : ∃ s, Setting.Stands TextAs (es.get? "description") s :=
    exists_stands h.description
  obtain ⟨option, hoption⟩ := exists_truth h.option
  exact ⟨⟨name, description, option⟩, h.kind, h.only, hname, hdescription, hoption⟩

theorem exists_limitAs {v : Value} {n : Number} (h : v.IsBound n) :
    ∃ l : Limit, v.LimitAs l := by
  cases h with
  | bare h => exact ⟨_, .bare h⟩
  | object only value number exclusive =>
    obtain ⟨b, hb⟩ := exists_truth exclusive
    exact ⟨_, .bound only value number hb⟩

theorem isBound_of_limitAs {v : Value} {l : Limit} (h : v.LimitAs l) : v.IsBound l.value := by
  cases h with
  | bare h => exact .bare h
  | bound only value number excluded =>
    refine .object only value number fun w hw => ?_
    rw [excluded] at hw
    obtain ⟨b, -, rfl⟩ := Option.map_eq_some_iff.1 hw
    exact ⟨b, rfl⟩

theorem exists_lengthAs {v : Value} (h : v.IsLength) : ∃ rule : LengthRule, v.LengthAs rule := by
  cases h with
  | exactly number =>
    obtain ⟨n, hn⟩ := number
    exact ⟨_, .exactly hn⟩
  | @range es only minimum maximum order =>
    obtain ⟨least, hleast⟩ : ∃ s, Setting.Stands LengthNumberAs (Entries.get? "minimum" es) s :=
      exists_stands minimum
    obtain ⟨greatest, hgreatest⟩ :
        ∃ s, Setting.Stands LengthNumberAs (Entries.get? "maximum" es) s := exists_stands maximum
    refine ⟨_, .range only hleast hgreatest fun m n hm hn => ?_⟩
    subst hm hn
    obtain ⟨v, hv, hm⟩ := hleast.given_inv
    obtain ⟨w, hw, hn⟩ := hgreatest.given_inv
    exact order v w m n hv hm.1 hw hn.1

theorem exists_typedItems {xs : List Value} (h : ∀ x ∈ xs, ∃ b, x.TypedAs b) :
    ∃ bs : List Block, xs.length = bs.length ∧ ∀ p ∈ xs.zip bs, p.1.TypedAs p.2 := by
  obtain ⟨bs, hbs⟩ := exists_forall₂ h
  obtain ⟨hlength, hzip⟩ := List.forall₂_iff_zip.1 hbs.flip
  exact ⟨bs, hlength, fun p hp => hzip hp⟩

theorem exists_typedFields {fs : Entries} (hnames : ∀ f ∈ fs, f.1.isName = true)
    (h : ∀ f ∈ fs, ∃ b, f.2.TypedAs b) :
    ∃ fields : List (Text × Block), fs.map Prod.fst = fields.map (fun f => str f.1) ∧
      (∀ f ∈ fields, f.1.isName = true) ∧ ∀ p ∈ fs.zip fields, p.1.2.TypedAs p.2.2 := by
  induction fs with
  | nil => exact ⟨[], rfl, fun f hf => (by cases hf), fun p hp => (by cases hp)⟩
  | cons f fs ih =>
    obtain ⟨k, v⟩ := f
    obtain ⟨hname, hrest⟩ := List.forall_mem_cons.1 hnames
    obtain ⟨⟨b, hb⟩, hblocks⟩ := List.forall_mem_cons.1 h
    obtain ⟨fields, hkeys, hfields, htyped⟩ := ih hrest hblocks
    obtain ⟨t, rfl, ht⟩ := isName_iff.1 hname
    exact ⟨(t, b) :: fields, congrArg (List.cons (str t)) hkeys,
      List.forall_mem_cons.2 ⟨ht, hfields⟩, List.forall_mem_cons.2 ⟨hb, htyped⟩⟩

/-- Text keys that stand once each in a dictionary are distinct texts. -/
theorem nodup_of_distinct {α : Type} {fs : Entries} {fields : List (Text × α)} (h : fs.Distinct)
    (hkeys : fs.map Prod.fst = fields.map fun f => str f.1) : (fields.map Prod.fst).Nodup := by
  have hpairs : (fs.map Prod.fst).Pairwise fun a b => a.equals b = false :=
    List.pairwise_map.2 h
  rw [hkeys, List.pairwise_map] at hpairs
  rw [List.nodup_iff_pairwise_ne, List.pairwise_map]
  refine hpairs.imp fun {a b} hab heq => ?_
  rw [equals_str, heq, beq_self_eq_true] at hab
  cases hab

theorem exists_names {xs : List Value} (h : ∀ x ∈ xs, x.isName = true) :
    ∃ ts : List Text, xs = ts.map str ∧ ∀ t ∈ ts, t.isName = true := by
  induction xs with
  | nil => exact ⟨[], rfl, fun t ht => by cases ht⟩
  | cons x xs ih =>
    obtain ⟨hx, hrest⟩ := List.forall_mem_cons.1 h
    obtain ⟨ts, rfl, hts⟩ := ih hrest
    obtain ⟨t, rfl, ht⟩ := isName_iff.1 hx
    exact ⟨t :: ts, rfl, List.forall_mem_cons.2 ⟨ht, hts⟩⟩

/-- Every well-formed schema stands for a block. -/
theorem exists_typedAs {v : Value} (h : v.IsSchema) (hkeyed : v.Keyed) : ∃ b, v.TypedAs b := by
  induction h with
  | flag block =>
    obtain ⟨header, hheader⟩ := exists_heads block
    exact ⟨_, .flag hheader⟩
  | @number es block decimal minimum maximum order =>
    obtain ⟨header, hheader⟩ := exists_heads block
    obtain ⟨fraction, hfraction⟩ := exists_truth decimal
    obtain ⟨least, hleast⟩ : ∃ s, Setting.Stands LimitAs (Entries.get? "minimum" es) s :=
      exists_stands fun v hv => (minimum v hv).elim fun n hn => exists_limitAs hn
    obtain ⟨greatest, hgreatest⟩ : ∃ s, Setting.Stands LimitAs (Entries.get? "maximum" es) s :=
      exists_stands fun v hv => (maximum v hv).elim fun n hn => exists_limitAs hn
    refine ⟨_, .number hheader hfraction hleast hgreatest fun m n hm hn => ?_⟩
    subst hm hn
    obtain ⟨v, hv, hm⟩ := hleast.given_inv
    obtain ⟨w, hw, hn⟩ := hgreatest.given_inv
    exact not_lt.1 (order v w _ _ hv (isBound_of_limitAs hm) hw (isBound_of_limitAs hn))
  | @string es block length pattern =>
    obtain ⟨header, hheader⟩ := exists_heads block
    obtain ⟨size, hsize⟩ : ∃ s, Setting.Stands LengthAs (Entries.get? "length" es) s :=
      exists_stands fun v hv => exists_lengthAs (length v hv)
    obtain ⟨search, hsearch⟩ : ∃ s, Setting.Stands TextAs (Entries.get? "pattern" es) s :=
      exists_stands pattern
    exact ⟨_, .string hheader hsize hsearch⟩
  | @array es v block value schema length ih =>
    obtain ⟨header, hheader⟩ := exists_heads block
    obtain ⟨size, hsize⟩ : ∃ s, Setting.Stands LengthAs (Entries.get? "length" es) s :=
      exists_stands fun v hv => exists_lengthAs (length v hv)
    obtain ⟨b, hb⟩ := ih (hkeyed.inside v (Entries.mem_parts_of_get? value))
    exact ⟨_, .array hheader value hb hsize⟩
  | @object es v block value schema key length ih =>
    obtain ⟨header, hheader⟩ := exists_heads block
    obtain ⟨size, hsize⟩ : ∃ s, Setting.Stands LengthAs (Entries.get? "length" es) s :=
      exists_stands fun v hv => exists_lengthAs (length v hv)
    obtain ⟨kind, hkind⟩ := key
    obtain ⟨b, hb⟩ := ih (hkeyed.inside v (Entries.mem_parts_of_get? value))
    exact ⟨_, .object hheader hkind value hb hsize⟩
  | @tuple es v xs block items sequence nonempty schemas ih =>
    obtain ⟨header, hheader⟩ := exists_heads block
    have hv := hkeyed.inside v (Entries.mem_parts_of_get? items)
    obtain ⟨bs, hcount, hbs⟩ := exists_typedItems fun x hx =>
      ih x hx (hv.inside x (sequence.parts.symm ▸ hx))
    exact ⟨_, .tuple hheader items sequence nonempty hcount hbs⟩
  | @map es fs block fields nonempty names schemas ih =>
    obtain ⟨header, hheader⟩ := exists_heads block
    have hfs := hkeyed.inside _ (Entries.mem_parts_of_get? fields)
    obtain ⟨typed, hkeys, hnames, htyped⟩ := exists_typedFields names fun f hf =>
      ih f hf (hfs.inside f.2 (List.mem_map_of_mem hf))
    exact ⟨_, .map hheader fields nonempty hkeys hnames (nodup_of_distinct hfs.here hkeys) htyped⟩
  | @enum es v xs block values sequence nonempty names distinct =>
    obtain ⟨header, hheader⟩ := exists_heads block
    obtain ⟨ts, rfl, hts⟩ := exists_names names
    exact ⟨_, .enum hheader values sequence (fun h => nonempty (by rw [h]; rfl)) hts
      (List.Nodup.of_map _ distinct)⟩

end Value

/-! ## Reading well-formed schemas -/

theorem Value.ofNumber_ne_null (n : Number) : ofNumber n ≠ .null := by
  cases n <;> exact nofun

namespace Block

variable {es : Entries} {name : Text}

theorem readSetting_of_stands {α : Type} {form : Value → α → Prop}
    {read : Value → Except TypeFault α} {s : Setting α} (h : Setting.Stands form (es.get? name) s)
    (hread : ∀ v a, s = .given a → form v a → v ≠ .null ∧ read v = .ok a) :
    readSetting name read es = .ok s := by
  unfold readSetting
  generalize es.get? name = v? at h
  cases h with
  | absent => rfl
  | @given v a fits =>
    obtain ⟨hnull, hread⟩ := hread v a rfl fits
    split
    · next h => cases h
    · next h => exact absurd (Option.some.inj h) hnull
    · next w _ h => rw [← Option.some.inj h, hread]; rfl

theorem readText_of_stands [Host] [LawfulHost] {s : Setting Text}
    (h : Setting.Stands Value.TextAs (es.get? name) s) : readText name es = .ok s :=
  readSetting_of_stands h fun v t _ (hv : v = .str t) => by
    rw [hv, LawfulHost.text_str]
    exact ⟨fun h => (by cases h), rfl⟩

theorem readFlag_of_get? [Host] [LawfulHost] {b : Option Bool} (h : es.get? name = b.map .bool) :
    readFlag name es = .ok b := by
  rw [readFlag, h]
  cases b with
  | none => rfl
  | some b =>
    simp only [Option.map_some, LawfulHost.flag_bool]
    rfl

theorem readHeader_of_heads [Host] [LawfulHost] {h : Header} {k : Kind} (hh : h.Heads es k) :
    readHeader es = .ok h := by
  simp only [readHeader, readText_of_stands hh.name, readText_of_stands hh.description,
    readFlag_of_get? hh.option]
  rfl

theorem checkExtras_eq_ok {legal : List Text} (h : es.Only legal) :
    checkExtras legal es = .ok () := by
  induction es with
  | nil => rfl
  | cons e es ih =>
    obtain ⟨k, v⟩ := e
    obtain ⟨⟨t, ht, rfl⟩, hes⟩ := List.forall_mem_cons.1 h
    rw [checkExtras, if_pos (List.contains_iff_mem.2 ht), ih hes]

/-- The names of properties are free of surrogates. -/
theorem isSurrogate_eq_false_of_legal {k : Kind} {t : Text} (ht : t ∈ k.legalProperties) :
    t.any CodePoint.isSurrogate = false := by
  cases k <;> revert t <;> decide

theorem checkNames_eq_ok {k : Kind} (h : es.Only k.legalProperties) : checkNames es = .ok () := by
  induction es with
  | nil => rfl
  | cons e es ih =>
    obtain ⟨⟨t, ht, he⟩, hes⟩ := List.forall_mem_cons.1 h
    obtain ⟨key, v⟩ := e
    obtain rfl : key = .str t := he
    have hunicode : t.unicode = .ok t := by
      rw [Text.unicode, isSurrogate_eq_false_of_legal ht]
      rfl
    simp only [checkNames, Value.text?, Option.map_some, hunicode, ih hes]

theorem numberOr_ofNumber [Host] [LawfulHost] {α : Type} (bare : Number → α)
    (object : Entries → Option α)
    (n : Number) : numberOr name bare object (.ofNumber n) = .ok (bare n) := by
  have hn : Host.number (.ofNumber n) = .ok n := LawfulHost.number_ofNumber n
  cases n with
  | int k =>
    simp only [Value.ofNumber] at hn ⊢
    simp only [numberOr, hn]
  | float x =>
    simp only [Value.ofNumber] at hn ⊢
    simp only [numberOr, hn]

theorem boundOf?_of_get? [Host] [LawfulHost] {n : Number} {exclusive : Option Bool}
    (only : es.Only ["exclusive", "value"]) (value : es.get? "value" = some (.ofNumber n))
    (excluded : es.get? "exclusive" = exclusive.map .bool) : boundOf? es = some ⟨n, exclusive⟩ := by
  have hextras : checkExtras ["value", "exclusive"] es = .ok () :=
    checkExtras_eq_ok fun e he => (only e he).imp fun t ht => ⟨by simpa [or_comm] using ht.1, ht.2⟩
  simp only [boundOf?, value, excluded, Option.bind_eq_bind, Option.bind_some,
    LawfulHost.number_ofNumber, hextras]
  cases exclusive with
  | none => rfl
  | some b =>
    simp only [Option.map_some, LawfulHost.flag_bool]
    rfl

theorem readLimit_of_stands [Host] [LawfulHost] {room : Nat} {s : Setting Limit}
    (h : Setting.Stands Value.LimitAs (es.get? name) s) (hroom : s.depth Limit.depth ≤ room) :
    readLimit room name es = .ok s := by
  refine readSetting_of_stands h fun v l hs hl => ?_
  subst hs
  cases hl with
  | bare number =>
    obtain ⟨rfl, -⟩ := number
    exact ⟨Value.ofNumber_ne_null _, numberOr_ofNumber _ _ _⟩
  | bound only value number excluded =>
    obtain ⟨rfl, -⟩ := number
    refine ⟨nofun, ?_⟩
    have hroom : room ≠ 0 := Nat.ne_of_gt hroom
    simp only [numberOr, if_neg hroom, boundOf?_of_get? only value excluded, Option.map_some]

theorem lengthBoundOf?_of_get? [Host] [LawfulHost] {n : Number}
    (h : es.get? name = some (.ofNumber n)) :
    lengthBoundOf? name es = some (.given n) := by
  have hn : Host.number (.ofNumber n) = .ok n := LawfulHost.number_ofNumber n
  unfold lengthBoundOf?
  rw [h]
  cases n with
  | int k =>
    simp only [Value.ofNumber] at hn ⊢
    rw [hn]
    rfl
  | float x =>
    simp only [Value.ofNumber] at hn ⊢
    rw [hn]
    rfl

theorem lengthBoundOf?_of_stands [Host] [LawfulHost] {s : Setting Number}
    (h : Setting.Stands Value.LengthNumberAs (es.get? name) s) :
    lengthBoundOf? name es = some s := by
  generalize hv : es.get? name = v? at h
  cases h with
  | absent =>
    unfold lengthBoundOf?
    rw [hv]
  | given fits =>
    obtain ⟨⟨rfl, -⟩, -⟩ := fits
    exact lengthBoundOf?_of_get? hv

theorem readLength_of_stands [Host] [LawfulHost] {room : Nat} {s : Setting LengthRule}
    (h : Setting.Stands Value.LengthAs (es.get? "length") s)
    (hroom : s.depth LengthRule.depth ≤ room) : readLength room es = .ok s := by
  refine readSetting_of_stands h fun v l hs hl => ?_
  subst hs
  cases hl with
  | exactly number =>
    obtain ⟨⟨rfl, -⟩, -⟩ := number
    exact ⟨Value.ofNumber_ne_null _, numberOr_ofNumber _ _ _⟩
  | @range fs minimum maximum only least greatest order =>
    refine ⟨nofun, ?_⟩
    have hroom : room ≠ 0 := Nat.ne_of_gt hroom
    have hrange : lengthRangeOf? fs = some ⟨minimum, maximum⟩ := by
      simp only [lengthRangeOf?, lengthBoundOf?_of_stands least,
        lengthBoundOf?_of_stands greatest, checkExtras_eq_ok only]
      rfl
    simp only [numberOr, if_neg hroom, hrange, Option.map_some]

theorem readKeyKind_of_get? {kind : KeyKind} (h : es.get? "key" = some (.str kind.name)) :
    readKeyKind es = .ok kind := by
  simp only [readKeyKind, h]
  cases kind <;> rfl

theorem textsOf_names [Host] [LawfulHost] (index : Nat) (ts : List Text) :
    textsOf index (ts.map .str) = .ok ts := by
  induction ts generalizing index with
  | nil => rfl
  | cons t ts ih =>
    rw [List.map_cons, textsOf, LawfulHost.text_str, ih]
    rfl

theorem readValues_of_sequence [Host] [LawfulHost] {v : Value} {ts : List Text}
    (hv : es.get? "values" = some v)
    (hts : v.IsSequence (ts.map .str)) (hne : ts ≠ []) : readValues es = .ok ts := by
  obtain ⟨t, ts, rfl⟩ := List.exists_cons_of_ne_nil hne
  rcases hts with rfl | rfl <;>
    simp only [readValues, hv, itemsOf?, List.map_cons] <;>
    rw [← List.map_cons, textsOf_names] <;> rfl

theorem readKind_of_get? {k : Kind} (h : es.get? "type" = some (.str k.name)) :
    readKind es = .ok k := by
  simp only [readKind, h, Value.kind?_eq_some.2 rfl]

theorem valueOf_eq [Host] (room : Nat) (es : Entries) :
    valueOf room es = (es.get? "value").elim (.error ⟨["value"], .missingProperty⟩)
      fun v => inside "value" (ofRaw room v) :=
  Entries.look_eq rfl (fun _ _ _ => rfl) (fun k _ _ _ => by cases k <;> trivial) es

theorem itemsOf_eq [Host] (room : Nat) (es : Entries) :
    itemsOf room es = (es.get? "items").elim (.error ⟨["items"], .missingProperty⟩)
      fun v => inside "items" (blockList room v) :=
  Entries.look_eq rfl (fun _ _ _ => rfl) (fun k _ _ _ => by cases k <;> trivial) es

theorem fieldsOf_eq [Host] (room : Nat) (es : Entries) :
    fieldsOf room es = (es.get? "fields").elim (.error ⟨["fields"], .missingProperty⟩)
      fun v => inside "fields" (fieldDict room v) :=
  Entries.look_eq rfl (fun _ _ _ => rfl) (fun k _ _ _ => by cases k <;> trivial) es

theorem blocksOf_zip [Host] {room index : Nat} {xs : List Value} {bs : List Block}
    (hcount : xs.length = bs.length) (h : ∀ p ∈ xs.zip bs, ofRaw room p.1 = .ok p.2) :
    blocksOf room index xs = .ok bs := by
  induction xs generalizing index bs with
  | nil => rw [List.length_eq_zero_iff.1 hcount.symm]; rfl
  | cons x xs ih =>
    obtain ⟨b, bs, rfl⟩ := List.exists_cons_of_length_eq_add_one hcount.symm
    obtain ⟨hb, hbs⟩ := List.forall_mem_cons.1 h
    rw [blocksOf, show ofRaw room x = .ok b from hb, ih (Nat.succ.inj hcount) hbs]
    rfl

theorem blockList_zip [Host] {room : Nat} {v : Value} {xs : List Value} {bs : List Block}
    (hv : v.IsSequence xs) (hne : xs ≠ []) (hcount : xs.length = bs.length)
    (h : ∀ p ∈ xs.zip bs, ofRaw room p.1 = .ok p.2) : blockList room v = .ok bs := by
  obtain ⟨x, xs, rfl⟩ := List.exists_cons_of_ne_nil hne
  rcases hv with rfl | rfl <;> exact blocksOf_zip hcount h

theorem putField_of_absent {name : Text} {b : Block} {before : List (Text × Block)}
    (h : name ∉ before.map Prod.fst) : putField name b before = before ++ [(name, b)] := by
  induction before with
  | nil => rfl
  | cons f before ih =>
    rw [List.map_cons, List.mem_cons, not_or] at h
    rw [putField, if_neg fun heq => h.1 heq.symm, ih h.2]
    rfl

theorem fieldBlocks_zip [Host] [LawfulHost] {room : Nat} {fs : Entries}
    {before fields : List (Text × Block)}
    (hkeys : fs.map Prod.fst = fields.map fun f => .str f.1)
    (hdistinct : ((before ++ fields).map Prod.fst).Nodup)
    (h : ∀ p ∈ fs.zip fields, ofRaw room p.1.2 = .ok p.2.2) :
    fieldBlocks room before fs = .ok (before ++ fields) := by
  induction fs generalizing before fields with
  | nil =>
    rw [List.map_eq_nil_iff.1 hkeys.symm, List.append_nil]
    rfl
  | cons e fs ih =>
    obtain ⟨k, v⟩ := e
    cases fields with
    | nil => cases hkeys
    | cons f fields =>
      obtain ⟨t, b⟩ := f
      obtain ⟨hk, hrest⟩ := List.cons.inj hkeys
      obtain rfl : k = .str t := hk
      obtain ⟨hb, hblocks⟩ := List.forall_mem_cons.1 h
      have hnew : t ∉ before.map Prod.fst := by
        rw [List.map_append, List.map_cons] at hdistinct
        exact (List.nodup_middle.1 hdistinct).notMem ∘ List.mem_append_left _
      have hread : fieldBlocks room before ((.str t, v) :: fs) =
          fieldBlocks room (putField t b before) fs := by
        rw [fieldBlocks, LawfulHost.text_str, show ofRaw room v = .ok b from hb]
        rfl
      rw [hread, putField_of_absent hnew, ih hrest (by simpa using hdistinct) hblocks]
      simp

theorem fieldDict_zip [Host] [LawfulHost] {room : Nat} {fs : Entries} {fields : List (Text × Block)}
    (hne : fs ≠ [])
    (hkeys : fs.map Prod.fst = fields.map fun f => .str f.1)
    (hdistinct : (fields.map Prod.fst).Nodup)
    (h : ∀ p ∈ fs.zip fields, ofRaw room p.1.2 = .ok p.2.2) :
    fieldDict room (.dict fs) = .ok fields := by
  obtain ⟨f, fs, rfl⟩ := List.exists_cons_of_ne_nil hne
  exact fieldBlocks_zip hkeys hdistinct h

/-- What is read from the properties that a kind has beside the common ones. -/
def readBody [Host] (room : Nat) (es : Entries) (h : Header) : Kind → Except TypeFault Block
  | .flag => pure (.flag h)
  | .number => do
    let decimal ← readFlag "decimal" es
    let minimum ← readLimit room "minimum" es
    let maximum ← readLimit room "maximum" es
    pure (.number h decimal minimum maximum)
  | .string => do
    let length ← readLength room es
    let pattern ← readText "pattern" es
    pure (.string h length pattern)
  | .array => do
    let value ← valueOf room es
    let length ← readLength room es
    pure (.array h value length)
  | .object => do
    let key ← readKeyKind es
    let value ← valueOf room es
    let length ← readLength room es
    pure (.object h key value length)
  | .tuple => do
    let items ← itemsOf room es
    pure (.tuple h items)
  | .map => do
    let fields ← fieldsOf room es
    pure (.map h fields)
  | .enum => do
    let values ← readValues es
    pure (.enum h values)

/-- Without room there is no more to a block than its kind. -/
theorem ofRaw_zero [Host] (es : Entries) :
    ofRaw 0 (.dict es) = readKind es >>= fun kind => inside kind.name (.error ⟨[], .tooDeep⟩) := by
  rw [ofRaw]

/-- What is read from a dictionary: its kind, then the header and the kind's own properties. -/
theorem ofRaw_dict [Host] (room : Nat) (es : Entries) :
    ofRaw (room + 1) (.dict es) = (do
      let kind ← readKind es
      inside kind.name do
        checkNames es
        let header ← readHeader es
        let block ← readBody room es header kind
        checkExtras kind.legalProperties es
        return block) := by
  rw [ofRaw]
  congr 1
  funext kind
  cases kind <;> simp only [readBody, bind_assoc, pure_bind]

/-- A dictionary with nothing but the properties of its kind is what its own properties say. -/
theorem ofRaw_of_read [Host] {room : Nat} {h : Header} {k : Kind} {b : Block}
    (kind : es.get? "type" = some (.str k.name)) (only : es.Only k.legalProperties)
    (header : readHeader es = .ok h) (hbody : readBody room es h k = .ok b) :
    ofRaw (room + 1) (.dict es) = .ok b := by
  rw [ofRaw_dict, readKind_of_get? kind]
  refine inside_eq_ok.2 ?_
  rw [checkNames_eq_ok only, header]
  show (do let block ← readBody room es h k; checkExtras k.legalProperties es; return block) = _
  rw [hbody]
  show (do checkExtras k.legalProperties es; return b) = _
  rw [checkExtras_eq_ok only]
  rfl

/-- A typed form is what was read from the own properties of a dictionary. -/
theorem exists_readBody [Host] {room : Nat} {v : Value} {b : Block} (h : ofRaw (room + 1) v = .ok b) :
    ∃ (es : Entries) (header : Header) (k : Kind), v = .dict es ∧
      readBody room es header k = .ok b := by
  cases v with
  | dict es =>
    rw [ofRaw_dict] at h
    obtain ⟨k, -, h⟩ := Except.bind_eq_ok.1 h
    obtain ⟨-, -, h⟩ := Except.bind_eq_ok.1 (inside_eq_ok.1 h)
    obtain ⟨header, -, h⟩ := Except.bind_eq_ok.1 h
    obtain ⟨c, hbody, h⟩ := Except.bind_eq_ok.1 h
    obtain ⟨-, -, h⟩ := Except.bind_eq_ok.1 h
    exact ⟨es, header, k, rfl, Except.ok.inj h ▸ hbody⟩
  | _ => cases h

/-- A block is read where its own properties are, with room for its parts and for its forms. -/
theorem ofRaw_of_heads [Host] [LawfulHost] {room : Nat} {h : Header} {k : Kind} {b : Block}
    (header : h.Heads es k) (hroom : b.depth ≤ room)
    (hbody : ∀ inner, b.formDepth ≤ inner → (∀ c ∈ b.parts, c.depth ≤ inner) →
      readBody inner es h k = .ok b) : ofRaw room (.dict es) = .ok b := by
  obtain ⟨inner, rfl⟩ := Nat.exists_eq_add_one_of_ne_zero (Nat.ne_of_gt (b.depth_pos.trans_le hroom))
  obtain ⟨hform, hparts⟩ := depth_le_succ_iff.1 hroom
  exact ofRaw_of_read header.kind header.only (readHeader_of_heads header) (hbody inner hform hparts)

/-- The lenient reader gives the block that a well-formed schema stands for, if there is room. -/
theorem ofRaw_of_typedAs [Host] [LawfulHost] {room : Nat} {v : Value} {b : Block} (h : v.TypedAs b)
    (hroom : b.depth ≤ room) : ofRaw room v = .ok b := by
  induction h generalizing room with
  | flag header => exact ofRaw_of_heads header hroom fun _ _ _ => rfl
  | number header fraction least greatest _ =>
    refine ofRaw_of_heads header hroom fun inner hform _ => ?_
    obtain ⟨hleast, hgreatest⟩ := Nat.max_le.1 hform
    rw [readBody, readFlag_of_get? fraction, readLimit_of_stands least hleast,
      readLimit_of_stands greatest hgreatest]
    rfl
  | string header size search =>
    refine ofRaw_of_heads header hroom fun inner hform _ => ?_
    rw [readBody, readLength_of_stands size hform, readText_of_stands search]
    rfl
  | array header value _ size ih =>
    refine ofRaw_of_heads header hroom fun inner hform hparts => ?_
    rw [readBody, valueOf_eq, value, Option.elim_some, ih (hparts _ List.mem_cons_self),
      readLength_of_stands size hform]
    rfl
  | object header key value _ size ih =>
    refine ofRaw_of_heads header hroom fun inner hform hparts => ?_
    rw [readBody, readKeyKind_of_get? key, valueOf_eq, value, Option.elim_some,
      ih (hparts _ List.mem_cons_self), readLength_of_stands size hform]
    rfl
  | tuple header items sequence nonempty count _ ih =>
    refine ofRaw_of_heads header hroom fun inner _ hparts => ?_
    rw [readBody, itemsOf_eq, items, Option.elim_some, blockList_zip sequence nonempty count
      fun p hp => ih p hp (hparts _ (List.of_mem_zip hp).2)]
    rfl
  | map header entries nonempty keys _ distinct _ ih =>
    refine ofRaw_of_heads header hroom fun inner _ hparts => ?_
    rw [readBody, fieldsOf_eq, entries, Option.elim_some, fieldDict_zip nonempty keys distinct
      fun p hp => ih p hp (hparts _ (List.mem_map_of_mem (List.of_mem_zip hp).2))]
    rfl
  | enum header items sequence nonempty _ _ =>
    refine ofRaw_of_heads header hroom fun inner _ _ => ?_
    rw [readBody, readValues_of_sequence items sequence nonempty]
    rfl

end Block

end DocShape
