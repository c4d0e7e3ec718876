import DocShape.Proofs.Schema.TypedForm
import DocShape.Proofs.Value.Depth
import DocShape.Proofs.Value.Literals

/-!
# Room for typed forms

The lenient reader gives no block that is deeper than the room it has (`Block.depth_le_of_ofRaw`), and
with more room it gives the same block (`Block.ofRaw_mono`). It does not even look at the room if a value
nests no deeper than that (`Block.ofRaw_eq_of_depth_le`). So a raw schema that stands for a block has a
typed form exactly if the block is no deeper than the guard of the host (`parseSchema_of_typedAs`,
`exists_parseSchema_of_deep`).
-/

namespace DocShape

/-- One step results in whatever another results in. -/
def CoveredBy {ε α : Type} (x y : Except ε α) : Prop := ∀ a, x = .ok a → y = .ok a

theorem CoveredBy.bind {ε α β : Type} {x y : Except ε α} {f g : α → Except ε β} (h : CoveredBy x y)
    (hf : ∀ a, CoveredBy (f a) (g a)) : CoveredBy (x >>= f) (y >>= g) := by
  cases x with
  | error e => exact nofun
  | ok a =>
    rw [h a rfl]
    exact hf a

namespace Block

/-- Ways to compare two readings that go along with how readings are put together. -/
structure Compositional (R : ∀ {α : Type}, Except TypeFault α → Except TypeFault α → Prop) : Prop where
  refl {α : Type} (x : Except TypeFault α) : R x x
  bind {α β : Type} {x y : Except TypeFault α} {f g : α → Except TypeFault β} (h : R x y)
    (hf : ∀ a, R (f a) (g a)) : R (x >>= f) (y >>= g)
  inside {α : Type} {x y : Except TypeFault α} (part : Text) (h : R x y) :
    R (inside part x) (inside part y)

theorem compositional_coveredBy : Compositional CoveredBy where
  refl _ _ h := h
  bind := CoveredBy.bind
  inside _ h a ha := inside_eq_ok.2 (h a (inside_eq_ok.1 ha))

theorem compositional_eq : Compositional Eq where
  refl _ := rfl
  bind h hf := by rw [h, funext hf]
  inside part h := by rw [h]

section Readers

variable {α : Type} {name : Text}

theorem coveredBy_readSetting {read wider : Value → Except TypeFault α}
    (h : ∀ v, CoveredBy (read v) (wider v)) (es : Entries) :
    CoveredBy (readSetting name read es) (readSetting name wider es) := by
  unfold readSetting
  split
  · exact compositional_coveredBy.refl _
  · exact compositional_coveredBy.refl _
  · exact (h _).bind fun a => compositional_coveredBy.refl _

theorem depth_le_of_readSetting {depth : α → Nat} {read : Value → Except TypeFault α} {room : Nat}
    (hread : ∀ v a, read v = .ok a → depth a ≤ room) {es : Entries} {s : Setting α}
    (h : readSetting name read es = .ok s) : s.depth depth ≤ room := by
  unfold readSetting at h
  split at h
  · rw [← Except.ok.inj h]
    exact Nat.zero_le _
  · rw [← Except.ok.inj h]
    exact Nat.zero_le _
  · obtain ⟨a, ha, h⟩ := Except.bind_eq_ok.1 h
    rw [← Except.ok.inj h]
    exact hread _ _ ha

variable [Host]

theorem depth_le_of_numberOr {f : α → Nat} {bare : Number → α} {object : Entries → Option α}
    {room : Nat} (hbare : ∀ n, f (bare n) = 0) (hobject : ∀ es a, object es = some a → f a ≤ 1)
    {v : Value} {a : α}
    (h : numberOr name bare (fun es => if room = 0 then none else object es) v = .ok a) :
    f a ≤ room := by
  unfold numberOr at h
  split at h
  · split at h
    · next hform =>
      obtain rfl := Except.ok.inj h
      split at hform
      · cases hform
      · next hroom => exact (hobject _ _ hform).trans (Nat.one_le_iff_ne_zero.2 hroom)
    · cases h
  · split at h
    · rw [← Except.ok.inj h, hbare]
      exact Nat.zero_le _
    · cases h

theorem depth_le_of_readLimit {room : Nat} {es : Entries} {s : Setting Limit}
    (h : readLimit room name es = .ok s) : s.depth Limit.depth ≤ room := by
  refine depth_le_of_readSetting (fun v l hl => ?_) h
  refine depth_le_of_numberOr (f := Limit.depth) (fun _ => rfl) (fun es l hl => ?_) hl
  obtain ⟨b, -, rfl⟩ := Option.map_eq_some_iff.1 hl
  exact le_rfl

theorem depth_le_of_readLength {room : Nat} {es : Entries} {s : Setting LengthRule}
    (h : readLength room es = .ok s) : s.depth LengthRule.depth ≤ room := by
  refine depth_le_of_readSetting (fun v r hr => ?_) h
  refine depth_le_of_numberOr (f := LengthRule.depth) (fun _ => rfl) (fun es r hr => ?_) hr
  obtain ⟨b, -, rfl⟩ := Option.map_eq_some_iff.1 hr
  exact le_rfl

end Readers

section

variable [Host] {room room' : Nat} {b : Block}

/-! ## No deeper than there is room -/

theorem formDepth_le_of_readBody {es : Entries} {h : Header} {k : Kind}
    (hbody : readBody room es h k = .ok b) : b.formDepth ≤ room := by
  cases k with
  | flag =>
    obtain rfl := Except.ok.inj hbody
    exact Nat.zero_le _
  | number =>
    obtain ⟨decimal, -, hbody⟩ := Except.bind_eq_ok.1 hbody
    obtain ⟨minimum, hminimum, hbody⟩ := Except.bind_eq_ok.1 hbody
    obtain ⟨maximum, hmaximum, hbody⟩ := Except.bind_eq_ok.1 hbody
    obtain rfl := Except.ok.inj hbody
    exact Nat.max_le.2 ⟨depth_le_of_readLimit hminimum, depth_le_of_readLimit hmaximum⟩
  | string =>
    obtain ⟨length, hlength, hbody⟩ := Except.bind_eq_ok.1 hbody
    obtain ⟨pattern, -, hbody⟩ := Except.bind_eq_ok.1 hbody
    obtain rfl := Except.ok.inj hbody
    exact depth_le_of_readLength hlength
  | array =>
    obtain ⟨value, -, hbody⟩ := Except.bind_eq_ok.1 hbody
    obtain ⟨length, hlength, hbody⟩ := Except.bind_eq_ok.1 hbody
    obtain rfl := Except.ok.inj hbody
    exact depth_le_of_readLength hlength
  | object =>
    obtain ⟨key, -, hbody⟩ := Except.bind_eq_ok.1 hbody
    obtain ⟨value, -, hbody⟩ := Except.bind_eq_ok.1 hbody
    obtain ⟨length, hlength, hbody⟩ := Except.bind_eq_ok.1 hbody
    obtain rfl := Except.ok.inj hbody
    exact depth_le_of_readLength hlength
  | tuple =>
    obtain ⟨items, -, hbody⟩ := Except.bind_eq_ok.1 hbody
    obtain rfl := Except.ok.inj hbody
    exact Nat.zero_le _
  | map =>
    obtain ⟨fields, -, hbody⟩ := Except.bind_eq_ok.1 hbody
    obtain rfl := Except.ok.inj hbody
    exact Nat.zero_le _
  | enum =>
    obtain ⟨values, -, hbody⟩ := Except.bind_eq_ok.1 hbody
    obtain rfl := Except.ok.inj hbody
    exact Nat.zero_le _

/-- The typed form of a raw schema is no deeper than there was room for. -/
theorem depth_le_of_ofRaw {v : Value} (h : ofRaw room v = .ok b) : b.depth ≤ room := by
  induction v using Value.innerInduction generalizing room b with
  | step v ih =>
    obtain ⟨-, inner, rfl, hparts⟩ := ofRaw_eq_ok h
    obtain ⟨es, header, k, rfl, hbody⟩ := exists_readBody h
    refine depth_le_succ_iff.2 ⟨formDepth_le_of_readBody hbody, fun c hc => ?_⟩
    obtain ⟨x, hx, hc | ⟨y, hy, hc⟩⟩ := hparts c hc
    · exact (ih x hx).1 hc
    · exact (ih x hx).2 y hy hc

/-! ## Readings with other room -/

section

variable {R : ∀ {α : Type}, Except TypeFault α → Except TypeFault α → Prop}

/-- Readings of a value with one room and with another compare. -/
def Compares (R : ∀ {α : Type}, Except TypeFault α → Except TypeFault α → Prop) (room room' : Nat)
    (v : Value) : Prop :=
  R (ofRaw room v) (ofRaw room' v)

namespace Compositional

theorem blocksOf (hR : Compositional R) {xs : List Value} (h : ∀ x ∈ xs, Compares R room room' x)
    (index : Nat) : R (blocksOf room index xs) (blocksOf room' index xs) := by
  induction xs generalizing index with
  | nil => exact hR.refl _
  | cons x xs ih =>
    obtain ⟨hx, hxs⟩ := List.forall_mem_cons.1 h
    rw [Block.blocksOf, Block.blocksOf]
    exact hR.bind (hR.inside _ hx) fun b => hR.bind (ih hxs _) fun bs => hR.refl _

theorem blockList (hR : Compositional R) {v : Value} (h : ∀ x ∈ v.parts, Compares R room room' x) :
    R (blockList room v) (blockList room' v) := by
  have hblocks (xs : List Value) (hxs : ∀ x ∈ xs, Compares R room room' x) :=
    hR.blocksOf hxs 0
  unfold Block.blockList
  split
  · exact hR.refl _
  · exact hR.refl _
  · exact hR.refl _
  · exact hblocks _ h
  · exact hblocks _ h
  · exact hblocks _ h
  · exact hR.refl _

theorem fieldBlocks (hR : Compositional R) {es : Entries}
    (h : ∀ e ∈ es, Compares R room room' e.2) (before : List (Text × Block)) :
    R (fieldBlocks room before es) (fieldBlocks room' before es) := by
  induction es generalizing before with
  | nil => exact hR.refl _
  | cons e es ih =>
    obtain ⟨k, v⟩ := e
    obtain ⟨hv, hes⟩ := List.forall_mem_cons.1 h
    rw [Block.fieldBlocks, Block.fieldBlocks]
    exact hR.bind (hR.refl _) fun name => hR.bind (hR.inside _ hv) fun b => ih hes _

theorem fieldDict (hR : Compositional R) {v : Value} (h : ∀ x ∈ v.parts, Compares R room room' x) :
    R (fieldDict room v) (fieldDict room' v) := by
  unfold Block.fieldDict
  split
  · exact hR.refl _
  · exact hR.fieldBlocks (fun e he => h e.2 (List.mem_map_of_mem he)) []
  · exact hR.refl _

/-- The bodies of blocks compare if what is read of their parts does. -/
theorem readBody (hR : Compositional R) {es : Entries}
    (hlimit : ∀ name, R (readLimit room name es) (readLimit room' name es))
    (hlength : R (readLength room es) (readLength room' es))
    (h : ∀ x ∈ (Value.dict es).parts, Compares R room room' x ∧
      ∀ y ∈ x.parts, Compares R room room' y) (header : Header) (k : Kind) :
    R (readBody room es header k) (readBody room' es header k) := by
  have hvalue : R (valueOf room es) (valueOf room' es) := by
    rw [valueOf_eq, valueOf_eq]
    cases hv : es.get? "value" with
    | none => exact hR.refl _
    | some v => exact hR.inside _ (h v (Entries.mem_parts_of_get? hv)).1
  cases k with
  | flag => exact hR.refl _
  | number =>
    exact hR.bind (hR.refl _) fun _ => hR.bind (hlimit _) fun _ => hR.bind (hlimit _) fun _ =>
      hR.refl _
  | string => exact hR.bind hlength fun _ => hR.refl _
  | array => exact hR.bind hvalue fun _ => hR.bind hlength fun _ => hR.refl _
  | object =>
    exact hR.bind (hR.refl _) fun _ => hR.bind hvalue fun _ => hR.bind hlength fun _ => hR.refl _
  | tuple =>
    rw [Block.readBody, Block.readBody, itemsOf_eq, itemsOf_eq]
    cases hv : es.get? "items" with
    | none => exact hR.refl _
    | some v =>
      exact hR.bind (hR.inside _ (hR.blockList (h v (Entries.mem_parts_of_get? hv)).2)) fun _ =>
        hR.refl _
  | map =>
    rw [Block.readBody, Block.readBody, fieldsOf_eq, fieldsOf_eq]
    cases hv : es.get? "fields" with
    | none => exact hR.refl _
    | some v =>
      exact hR.bind (hR.inside _ (hR.fieldDict (h v (Entries.mem_parts_of_get? hv)).2)) fun _ =>
        hR.refl _
  | enum => exact hR.refl _

theorem ofRaw (hR : Compositional R) {es : Entries}
    (hlimit : ∀ name, R (readLimit room name es) (readLimit room' name es))
    (hlength : R (readLength room es) (readLength room' es))
    (h : ∀ x ∈ (Value.dict es).parts, Compares R room room' x ∧
      ∀ y ∈ x.parts, Compares R room room' y) :
    Compares R (room + 1) (room' + 1) (.dict es) := by
  rw [Compares, ofRaw_dict, ofRaw_dict]
  exact hR.bind (hR.refl _) fun kind => hR.inside _ (hR.bind (hR.refl _) fun _ =>
    hR.bind (hR.refl _) fun header => hR.bind (hR.readBody hlimit hlength h header kind) fun _ =>
      hR.refl _)

end Compositional

end

/-! ## More room -/

section

variable {α : Type} {name : Text} {bare : Number → α} {form : Entries → Option α} {es : Entries}

/-- With more room an object form is read that was read with less. -/
theorem coveredBy_numberOr (h : room ≤ room') (v : Value) :
    CoveredBy (numberOr name bare (fun fs => if room = 0 then none else form fs) v)
      (numberOr name bare (fun fs => if room' = 0 then none else form fs) v) := by
  cases v with
  | dict fs =>
    rcases Nat.eq_zero_or_pos room with hzero | hpos
    · intro a ha
      rw [numberOr, if_pos hzero] at ha
      cases ha
    · rw [numberOr, numberOr, if_neg hpos.ne', if_neg (hpos.trans_le h).ne']
      exact compositional_coveredBy.refl _
  | _ => exact compositional_coveredBy.refl _

theorem coveredBy_readLimit (h : room ≤ room') (es : Entries) :
    CoveredBy (readLimit room name es) (readLimit room' name es) :=
  coveredBy_readSetting (coveredBy_numberOr h) es

theorem coveredBy_readLength (h : room ≤ room') (es : Entries) :
    CoveredBy (readLength room es) (readLength room' es) :=
  coveredBy_readSetting (coveredBy_numberOr h) es

/-- Whether there is room for an object form is not asked where all there is has room. -/
theorem readForm_eq (h : ∀ x ∈ (Value.dict es).parts, x.depth ≤ room ∧ x.depth ≤ room') :
    readSetting name (numberOr name bare fun fs => if room = 0 then none else form fs) es =
      readSetting name (numberOr name bare fun fs => if room' = 0 then none else form fs) es := by
  cases hv : es.get? name with
  | none => rw [readSetting, readSetting, hv]
  | some v =>
    obtain ⟨hroom, hroom'⟩ := h v (Entries.mem_parts_of_get? hv)
    cases v with
    | dict fs =>
      have hpos := (Value.depth_dict_pos.trans_le hroom).ne'
      have hpos' := (Value.depth_dict_pos.trans_le hroom').ne'
      rw [readSetting, readSetting, hv]
      simp only [numberOr, if_neg hpos, if_neg hpos']
    | null => rw [readSetting, readSetting, hv]
    | _ =>
      rw [readSetting, readSetting, hv]
      rfl

end

/-- More room changes nothing where a block is read. -/
theorem ofRaw_mono {v : Value} (h : ofRaw room v = .ok b) (hroom : room ≤ room') :
    ofRaw room' v = .ok b := by
  suffices hwider : ∀ room room', room ≤ room' → Compares CoveredBy room room' v from
    hwider _ _ hroom _ h
  clear h hroom
  induction v using Value.innerInduction with
  | step v ih =>
    intro room room' hroom b h
    obtain ⟨-, inner, rfl, -⟩ := ofRaw_eq_ok h
    obtain ⟨inner', rfl⟩ := Nat.exists_eq_add_of_le' (Nat.le_of_add_left_le hroom)
    have hinner : inner ≤ inner' := Nat.le_of_succ_le_succ hroom
    obtain ⟨es, -, -, rfl, -⟩ := exists_readBody h
    have hparts : ∀ x ∈ (Value.dict es).parts, Compares CoveredBy inner inner' x ∧
        ∀ y ∈ x.parts, Compares CoveredBy inner inner' y :=
      fun x hx => ⟨(ih x hx).1 _ _ hinner, fun y hy => (ih x hx).2 y hy _ _ hinner⟩
    exact compositional_coveredBy.ofRaw (fun _ => coveredBy_readLimit hinner es)
      (coveredBy_readLength hinner es) hparts b h

/-- Room for all that stands inside each other is as good as any more. -/
theorem ofRaw_eq_of_depth_le {v : Value} (h : v.depth ≤ room) (h' : v.depth ≤ room') :
    ofRaw room v = ofRaw room' v := by
  induction v using Value.innerInduction generalizing room room' with
  | step v ih =>
    cases v with
    | dict es =>
      obtain ⟨inner, rfl⟩ := Nat.exists_eq_add_one.2 (Value.depth_dict_pos.trans_le h)
      obtain ⟨inner', rfl⟩ := Nat.exists_eq_add_one.2 (Value.depth_dict_pos.trans_le h')
      have hdepth : ∀ x ∈ (Value.dict es).parts, x.depth ≤ inner ∧ x.depth ≤ inner' := by
        intro x hx
        have hlt := Value.depth_lt_of_mem_parts hx
        exact ⟨Nat.le_of_lt_succ (hlt.trans_le h), Nat.le_of_lt_succ (hlt.trans_le h')⟩
      refine compositional_eq.ofRaw (fun _ => readForm_eq hdepth) (readForm_eq hdepth) fun x hx => ?_
      obtain ⟨hroom, hroom'⟩ := hdepth x hx
      refine ⟨(ih x hx).1 hroom hroom', fun y hy => (ih x hx).2 y hy ?_ ?_⟩
      · exact (Value.depth_lt_of_mem_parts hy).le.trans hroom
      · exact (Value.depth_lt_of_mem_parts hy).le.trans hroom'
    | _ => rfl

end

end Block

/-! ## Typed forms of well-formed schemas -/

theorem ofRaw_of_parseSchema [Host] {raw : Value} {b : Block} (h : parseSchema raw = .ok b) :
    Block.ofRaw Host.guard raw = .ok b := by
  unfold parseSchema at h
  split at h
  · next hb => rw [hb, Except.ok.inj h]
  · cases h

section

variable [Host] [LawfulHost] {raw : Value} {b : Block}

/-- A raw schema stands for one block at most. -/
theorem Value.TypedAs.unique {c : Block} (h : raw.TypedAs b) (h' : raw.TypedAs c) : b = c := by
  have hb := Block.ofRaw_of_typedAs h (Nat.le_max_left b.depth c.depth)
  have hc := Block.ofRaw_of_typedAs h' (Nat.le_max_right b.depth c.depth)
  exact Except.ok.inj (hb.symm.trans hc)

/-- A schema that stands for a block no deeper than the guard has it for its typed form. -/
theorem parseSchema_of_typedAs (h : raw.TypedAs b) (hdepth : b.depth ≤ Host.guard) :
    parseSchema raw = .ok b := by
  rw [parseSchema, Block.ofRaw_of_typedAs h hdepth]

/-- A schema that stands for a deeper block has no typed form. -/
theorem exists_parseSchema_of_deep (h : raw.TypedAs b) (hdepth : Host.guard < b.depth) :
    ∃ fault, parseSchema raw = .error (.complaint (.violation [] (.untyped fault))) := by
  unfold parseSchema
  cases hread : Block.ofRaw Host.guard raw with
  | error fault => exact ⟨fault, rfl⟩
  | ok c =>
    -- with room for the block the same would be read
    have hwide := Block.ofRaw_mono hread hdepth.le
    rw [Block.ofRaw_of_typedAs h le_rfl] at hwide
    obtain rfl := Except.ok.inj hwide
    exact absurd (Block.depth_le_of_ofRaw hread) hdepth.not_ge

end

/-! ## Arrays of arrays -/

/-- A raw schema in so many arrays. -/
def Value.inArrays (raw : Value) : Nat → Value
  | 0 => raw
  | n + 1 => .dict [(.str "type", .str "array"), (.str "value", raw.inArrays n)]

/-- A block in so many arrays. -/
def Block.inArrays (b : Block) : Nat → Block
  | 0 => b
  | n + 1 => .array ⟨.absent, .absent, none⟩ (b.inArrays n) .absent

section

variable {raw : Value} {b : Block}

theorem Block.depth_inArrays (n : Nat) : (b.inArrays n).depth = b.depth + n := by
  induction n with
  | zero => rfl
  | succ n ih => simp [inArrays, depth, ih, Setting.depth, Setting.value?, Nat.add_assoc]

theorem Value.keyed_inArrays (h : raw.Keyed) (n : Nat) : (raw.inArrays n).Keyed := by
  induction n with
  | zero => exact h
  | succ n ih =>
    simp [inArrays, Entries.Distinct, ih]
    decide

theorem Value.shortInts_inArrays (h : raw.ShortInts) (n : Nat) : (raw.inArrays n).ShortInts := by
  induction n with
  | zero => exact h
  | succ n ih => simp [inArrays, ih]

theorem Value.TypedAs.inArrays (h : raw.TypedAs b) (n : Nat) :
    (raw.inArrays n).TypedAs (b.inArrays n) := by
  induction n with
  | zero => exact h
  | succ n ih =>
    have header : Header.Heads ⟨.absent, .absent, none⟩
        [(.str "type", .str "array"), (.str "value", raw.inArrays n)] .array :=
      ⟨rfl, by simp [Entries.Only]; decide, .absent, .absent, rfl⟩
    exact .array header rfl ih .absent

end

end DocShape
