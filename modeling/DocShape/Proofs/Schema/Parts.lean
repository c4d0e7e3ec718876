import DocShape.Proofs.Value.Parts
import DocShape.Schema.Typing

/-!
# The parts of a block

`Block.parts` lists the blocks that stand directly inside a block, and `Block.partsInduction` is
induction along it. `Block.depth` says how many typed models stand inside each other. A map has its
fields by name, so no name stands twice; `Block.FieldsApart` says so of every map in a block, and every
typed form is like that (`fieldsApart_of_parseSchema`).
-/

namespace DocShape

namespace Block

/-- The blocks directly inside a block: of items, of values, of positions or of fields. -/
def parts : Block → List Block
  | array _ value _ | object _ _ value _ => [value]
  | tuple _ items => items
  | map _ fields => fields.map Prod.snd
  | _ => []

/-- Induction along the parts of a block. -/
@[elab_as_elim]
theorem partsInduction {motive : Block → Prop}
    (step : ∀ b, (∀ c ∈ b.parts, motive c) → motive b) (b : Block) : motive b := by
  have leaf (b : Block) (h : b.parts = []) : motive b :=
    step b fun c hc => absurd hc (by rw [h]; exact List.not_mem_nil)
  refine @Block.rec motive (fun bs => ∀ c ∈ bs, motive c)
    (fun fields => ∀ c ∈ fields.map Prod.snd, motive c) (fun field => motive field.2)
    ?flag ?number ?string ?array ?object ?tuple ?map ?enum ?nil ?cons ?fieldsNil ?fieldsCons
    ?field b
  case flag => exact fun _ => leaf _ rfl
  case number => exact fun _ _ _ _ => leaf _ rfl
  case string => exact fun _ _ _ => leaf _ rfl
  case array => exact fun _ _ _ ih => step _ (List.forall_mem_singleton.2 ih)
  case object => exact fun _ _ _ _ ih => step _ (List.forall_mem_singleton.2 ih)
  case tuple => exact fun _ _ ih => step _ ih
  case map => exact fun _ _ ih => step _ ih
  case enum => exact fun _ _ => leaf _ rfl
  case nil => exact fun c hc => absurd hc List.not_mem_nil
  case cons => exact fun c cs hc ih => List.forall_mem_cons.2 ⟨hc, ih⟩
  case fieldsNil => exact fun c hc => absurd hc List.not_mem_nil
  case fieldsCons => exact fun f fs hf ih => List.forall_mem_cons.2 ⟨hf, ih⟩
  case field => exact fun _ _ h => h

/-- A property holds of a block and of every block in it. -/
inductive Everywhere (p : Block → Prop) : Block → Prop
  | intro {b : Block} (here : p b) (inside : ∀ c ∈ b.parts, Everywhere p c) : Everywhere p b

namespace Everywhere

variable {p : Block → Prop} {b : Block}

theorem here (h : Everywhere p b) : p b := by
  cases h with
  | intro here _ => exact here

theorem inside (h : Everywhere p b) : ∀ c ∈ b.parts, Everywhere p c := by
  cases h with
  | intro _ inside => exact inside

theorem leaf (h : p b) (hb : b.parts = []) : Everywhere p b :=
  ⟨h, fun c hc => absurd hc (by rw [hb]; exact List.not_mem_nil)⟩

end Everywhere

/-- The names of a block's own fields, none if it is no map. -/
def fieldNames : Block → List Text
  | map _ fields => fields.map Prod.fst
  | _ => []

/-- No map in a block has a field twice. -/
inductive FieldsApart : Block → Prop
  | intro {b : Block} (here : b.fieldNames.Nodup) (inside : ∀ c ∈ b.parts, FieldsApart c) :
    FieldsApart b

namespace FieldsApart

variable {b : Block}

theorem here (h : FieldsApart b) : b.fieldNames.Nodup := by
  cases h with
  | intro here _ => exact here

theorem inside (h : FieldsApart b) : ∀ c ∈ b.parts, FieldsApart c := by
  cases h with
  | intro _ inside => exact inside

end FieldsApart

/-! ## How deep a block is -/

end Block

/-- The levels of a limit: one for its object form. -/
def Limit.depth : Limit → Nat
  | bare _ => 0
  | bound _ => 1

/-- The levels of a constraint on a length: one for its object form. -/
def LengthRule.depth : LengthRule → Nat
  | exactly _ => 0
  | range _ => 1

/-- The levels of what stands under a property. -/
def Setting.depth {α : Type} (depth : α → Nat) (s : Setting α) : Nat := s.value?.elim 0 depth

namespace Block

mutual

/-- How many typed models stand inside each other in a block: blocks, and the object forms of limits and
of constraints on lengths. -/
def depth : Block → Nat
  | flag _ | enum _ _ => 1
  | number _ _ minimum maximum => max (minimum.depth Limit.depth) (maximum.depth Limit.depth) + 1
  | string _ length _ => length.depth LengthRule.depth + 1
  | array _ value length | object _ _ value length =>
    max (depth value) (length.depth LengthRule.depth) + 1
  | tuple _ items => itemsDepth items + 1
  | map _ fields => fieldsDepth fields + 1
termination_by structural b => b

/-- The depth of the deepest of some blocks. -/
def itemsDepth : List Block → Nat
  | [] => 0
  | b :: bs => max (depth b) (itemsDepth bs)
termination_by structural bs => bs

/-- The depth of the deepest of some fields. -/
def fieldsDepth : List (Text × Block) → Nat
  | [] => 0
  | (_, b) :: rest => max (depth b) (fieldsDepth rest)
termination_by structural fields => fields

end

/-- The levels inside a block that are none of its parts: the object forms of its own properties. -/
def formDepth : Block → Nat
  | number _ _ minimum maximum => max (minimum.depth Limit.depth) (maximum.depth Limit.depth)
  | string _ length _ | array _ _ length | object _ _ _ length => length.depth LengthRule.depth
  | _ => 0

theorem itemsDepth_le_iff {bs : List Block} {n : Nat} :
    itemsDepth bs ≤ n ↔ ∀ b ∈ bs, b.depth ≤ n := by
  induction bs with
  | nil => simp [itemsDepth]
  | cons b bs ih => rw [itemsDepth, Nat.max_le, ih, List.forall_mem_cons]

theorem fieldsDepth_le_iff {fields : List (Text × Block)} {n : Nat} :
    fieldsDepth fields ≤ n ↔ ∀ b ∈ fields.map Prod.snd, b.depth ≤ n := by
  induction fields with
  | nil => simp [fieldsDepth]
  | cons f fields ih => rw [fieldsDepth, Nat.max_le, ih, List.map_cons, List.forall_mem_cons]

/-- A block is as deep as its own properties and its parts make it. -/
theorem depth_le_succ_iff {b : Block} {n : Nat} :
    b.depth ≤ n + 1 ↔ b.formDepth ≤ n ∧ ∀ c ∈ b.parts, c.depth ≤ n := by
  cases b with
  | tuple h items => simp [depth, formDepth, parts, itemsDepth_le_iff]
  | map h fields => simp [depth, formDepth, parts, fieldsDepth_le_iff]
  | array h value length => simp [depth, formDepth, parts, and_comm]
  | object h key value length => simp [depth, formDepth, parts, and_comm]
  | _ => simp [depth, formDepth, parts]

theorem depth_pos (b : Block) : 0 < b.depth := by
  cases b <;> simp [depth]

/-- A part of a block is less deep than the block. -/
theorem depth_lt_of_mem_parts {b c : Block} (hc : c ∈ b.parts) : c.depth < b.depth := by
  obtain ⟨n, hn⟩ := Nat.exists_eq_add_one.2 b.depth_pos
  rw [hn]
  exact Nat.lt_succ_of_le ((depth_le_succ_iff.1 hn.le).2 c hc)

/-! ## Typed forms -/

theorem mem_putField {name : Text} {b : Block} {fields : List (Text × Block)} {f : Text × Block}
    (h : f ∈ putField name b fields) : f.2 = b ∨ f ∈ fields := by
  induction fields with
  | nil => exact .inl (by rw [List.mem_singleton.1 h])
  | cons g fields ih =>
    obtain ⟨n, c⟩ := g
    rw [putField] at h
    split at h
    · rcases List.mem_cons.1 h with rfl | h
      · exact .inl rfl
      · exact .inr (List.mem_cons_of_mem _ h)
    · rcases List.mem_cons.1 h with rfl | h
      · exact .inr List.mem_cons_self
      · exact (ih h).imp_right (List.mem_cons_of_mem _)

theorem names_putField (name : Text) (b : Block) (fields : List (Text × Block)) :
    name ∈ fields.map Prod.fst ∧ (putField name b fields).map Prod.fst = fields.map Prod.fst ∨
      name ∉ fields.map Prod.fst ∧
        (putField name b fields).map Prod.fst = fields.map Prod.fst ++ [name] := by
  induction fields with
  | nil => exact .inr ⟨List.not_mem_nil, rfl⟩
  | cons g fields ih =>
    obtain ⟨n, c⟩ := g
    rw [putField]
    by_cases hn : n = name
    · exact .inl (by simp [hn])
    · have hne : name ≠ n := fun h => hn h.symm
      rw [if_neg hn]
      rcases ih with ⟨hmem, hnames⟩ | ⟨hmem, hnames⟩
      · exact .inl (by simp [hmem, hnames])
      · refine .inr ⟨?_, by simp [hnames]⟩
        rw [List.map_cons, List.mem_cons, not_or]
        exact ⟨hne, hmem⟩

theorem nodup_putField {name : Text} {b : Block} {fields : List (Text × Block)}
    (h : (fields.map Prod.fst).Nodup) : ((putField name b fields).map Prod.fst).Nodup := by
  rcases names_putField name b fields with ⟨-, hnames⟩ | ⟨hname, hnames⟩
  · rw [hnames]
    exact h
  · rw [hnames, List.nodup_append]
    refine ⟨h, by simp, fun n hn m hm => ?_⟩
    rw [List.mem_singleton.1 hm]
    rintro rfl
    exact hname hn

theorem inside_eq_ok {α : Type} {part : Text} {r : Except TypeFault α} {a : α} :
    inside part r = .ok a ↔ r = .ok a := by
  cases r <;> simp [inside]

/-- A property that is looked for along the entries is read from one of them. -/
theorem exists_entry {α : Type} {look : Entries → Except TypeFault α}
    {read : Value → Except TypeFault α} (hnil : ∀ a, look [] ≠ .ok a)
    (hcons : ∀ e es a, look (e :: es) = .ok a → read e.2 = .ok a ∨ look es = .ok a)
    {es : Entries} {a : α} (h : look es = .ok a) : ∃ e ∈ es, read e.2 = .ok a := by
  induction es with
  | nil => exact absurd h (hnil a)
  | cons e es ih =>
    rcases hcons e es a h with hread | hrest
    · exact ⟨e, List.mem_cons_self, hread⟩
    · obtain ⟨x, hx, hread⟩ := ih hrest
      exact ⟨x, List.mem_cons_of_mem _ hx, hread⟩

section

variable [Host]

theorem valueOf_eq_ok {room : Nat} {es : Entries} {b : Block}
    (h : valueOf room es = .ok b) :
    ∃ e ∈ es, ofRaw room e.2 = .ok b := by
  refine exists_entry (fun _ h => by cases h) (fun ⟨k, v⟩ es a h => ?_) h
  cases k with
  | str name =>
    rw [valueOf] at h
    split at h
    · exact .inl (inside_eq_ok.1 h)
    · exact .inr h
  | _ => exact .inr h

theorem itemsOf_eq_ok {room : Nat} {es : Entries} {bs : List Block}
    (h : itemsOf room es = .ok bs) :
    ∃ e ∈ es, blockList room e.2 = .ok bs := by
  refine exists_entry (fun _ h => by cases h) (fun ⟨k, v⟩ es a h => ?_) h
  cases k with
  | str name =>
    rw [itemsOf] at h
    split at h
    · exact .inl (inside_eq_ok.1 h)
    · exact .inr h
  | _ => exact .inr h

theorem fieldsOf_eq_ok {room : Nat} {es : Entries} {fields : List (Text × Block)}
    (h : fieldsOf room es = .ok fields) : ∃ e ∈ es, fieldDict room e.2 = .ok fields := by
  refine exists_entry (fun _ h => by cases h) (fun ⟨k, v⟩ es a h => ?_) h
  cases k with
  | str name =>
    rw [fieldsOf] at h
    split at h
    · exact .inl (inside_eq_ok.1 h)
    · exact .inr h
  | _ => exact .inr h

theorem blocksOf_eq_ok {room index : Nat} {xs : List Value} {bs : List Block}
    (h : blocksOf room index xs = .ok bs) : ∀ b ∈ bs, ∃ x ∈ xs, ofRaw room x = .ok b := by
  induction xs generalizing index bs with
  | nil =>
    obtain rfl := Except.ok.inj h
    intro b hb
    cases hb
  | cons x xs ih =>
    rw [blocksOf] at h
    obtain ⟨b, hb, h⟩ := Except.bind_eq_ok.1 h
    obtain ⟨cs, hcs, h⟩ := Except.bind_eq_ok.1 h
    obtain rfl := Except.ok.inj h
    refine List.forall_mem_cons.2 ⟨⟨x, List.mem_cons_self, inside_eq_ok.1 hb⟩, fun c hc => ?_⟩
    obtain ⟨y, hy, hyc⟩ := ih hcs c hc
    exact ⟨y, List.mem_cons_of_mem _ hy, hyc⟩

theorem blockList_eq_ok {room : Nat} {v : Value} {bs : List Block}
    (h : blockList room v = .ok bs) : ∀ b ∈ bs, ∃ x ∈ v.parts, ofRaw room x = .ok b := by
  unfold blockList at h
  split at h
  · cases h
  · cases h
  · cases h
  · exact blocksOf_eq_ok h
  · exact blocksOf_eq_ok h
  · exact blocksOf_eq_ok h
  · cases h

/-- The fields of a map have distinct names, and typed forms under them. -/
theorem fieldBlocks_eq_ok {room : Nat} {es : Entries} {before fields : List (Text × Block)}
    (h : fieldBlocks room before es = .ok fields) (hn : (before.map Prod.fst).Nodup) :
    (fields.map Prod.fst).Nodup ∧
      ∀ f ∈ fields, f ∈ before ∨ ∃ e ∈ es, ofRaw room e.2 = .ok f.2 := by
  induction es generalizing before with
  | nil =>
    obtain rfl := Except.ok.inj h
    exact ⟨hn, fun f hf => .inl hf⟩
  | cons e es ih =>
    obtain ⟨k, v⟩ := e
    rw [fieldBlocks] at h
    obtain ⟨name, -, h⟩ := Except.bind_eq_ok.1 h
    obtain ⟨b, hb, h⟩ := Except.bind_eq_ok.1 h
    obtain ⟨hnodup, hmem⟩ := ih h (nodup_putField hn)
    refine ⟨hnodup, fun f hf => ?_⟩
    rcases hmem f hf with hput | ⟨e, he, hf⟩
    · rcases mem_putField hput with hfb | hbefore
      · exact .inr ⟨_, List.mem_cons_self, by rw [hfb]; exact inside_eq_ok.1 hb⟩
      · exact .inl hbefore
    · exact .inr ⟨e, List.mem_cons_of_mem _ he, hf⟩

theorem fieldDict_eq_ok {room : Nat} {v : Value} {fields : List (Text × Block)}
    (h : fieldDict room v = .ok fields) :
    (fields.map Prod.fst).Nodup ∧ ∀ f ∈ fields, ∃ x ∈ v.parts, ofRaw room x = .ok f.2 := by
  unfold fieldDict at h
  split at h
  · cases h
  · next es =>
    obtain ⟨hnodup, hmem⟩ := fieldBlocks_eq_ok h List.nodup_nil
    refine ⟨hnodup, fun f hf => ?_⟩
    rcases hmem f hf with hf | ⟨e, he, hf⟩
    · cases hf
    · exact ⟨e.2, List.mem_map_of_mem he, hf⟩
  · cases h

/-- What a typed form is made of: no parts, or typed forms of what stands two levels deeper. -/
theorem ofRaw_eq_ok {room : Nat} {v : Value} {b : Block} (h : ofRaw room v = .ok b) :
    b.fieldNames.Nodup ∧ ∃ inner, room = inner + 1 ∧
      ∀ c ∈ b.parts, ∃ x ∈ v.parts, ofRaw inner x = .ok c ∨ ∃ y ∈ x.parts, ofRaw inner y = .ok c := by
  cases v with
  | dict entries =>
    rw [ofRaw] at h
    obtain ⟨kind, -, h⟩ := Except.bind_eq_ok.1 h
    have h := inside_eq_ok.1 h
    obtain - | inner := room
    · cases h
    simp only at h
    obtain ⟨-, -, h⟩ := Except.bind_eq_ok.1 h
    obtain ⟨header, -, h⟩ := Except.bind_eq_ok.1 h
    have hend {block : Block} {u : Except TypeFault Unit}
        (h : (do let _ ← u; pure block) = .ok b) : block = b := by
      obtain ⟨-, -, h⟩ := Except.bind_eq_ok.1 h
      exact Except.ok.inj h
    have hentry {e : Value × Value} (he : e ∈ entries) : e.2 ∈ (Value.dict entries).parts :=
      List.mem_map_of_mem he
    cases kind with
    | flag =>
      obtain rfl := hend h
      exact ⟨List.nodup_nil, inner, rfl, fun c hc => by cases hc⟩
    | number =>
      obtain ⟨_, -, h⟩ := Except.bind_eq_ok.1 h
      obtain ⟨_, -, h⟩ := Except.bind_eq_ok.1 h
      obtain ⟨_, -, h⟩ := Except.bind_eq_ok.1 h
      obtain rfl := hend h
      exact ⟨List.nodup_nil, inner, rfl, fun c hc => by cases hc⟩
    | string =>
      obtain ⟨_, -, h⟩ := Except.bind_eq_ok.1 h
      obtain ⟨_, -, h⟩ := Except.bind_eq_ok.1 h
      obtain rfl := hend h
      exact ⟨List.nodup_nil, inner, rfl, fun c hc => by cases hc⟩
    | array =>
      obtain ⟨value, hvalue, h⟩ := Except.bind_eq_ok.1 h
      obtain ⟨_, -, h⟩ := Except.bind_eq_ok.1 h
      obtain rfl := hend h
      obtain ⟨e, he, hvalue⟩ := valueOf_eq_ok hvalue
      exact ⟨List.nodup_nil, inner, rfl, List.forall_mem_singleton.2 ⟨e.2, hentry he, .inl hvalue⟩⟩
    | object =>
      obtain ⟨_, -, h⟩ := Except.bind_eq_ok.1 h
      obtain ⟨value, hvalue, h⟩ := Except.bind_eq_ok.1 h
      obtain ⟨_, -, h⟩ := Except.bind_eq_ok.1 h
      obtain rfl := hend h
      obtain ⟨e, he, hvalue⟩ := valueOf_eq_ok hvalue
      exact ⟨List.nodup_nil, inner, rfl, List.forall_mem_singleton.2 ⟨e.2, hentry he, .inl hvalue⟩⟩
    | tuple =>
      obtain ⟨items, hitems, h⟩ := Except.bind_eq_ok.1 h
      obtain rfl := hend h
      obtain ⟨e, he, hitems⟩ := itemsOf_eq_ok hitems
      exact ⟨List.nodup_nil, inner, rfl, fun c hc => ⟨e.2, hentry he, .inr (blockList_eq_ok hitems c hc)⟩⟩
    | map =>
      obtain ⟨fields, hfields, h⟩ := Except.bind_eq_ok.1 h
      obtain rfl := hend h
      obtain ⟨e, he, hfields⟩ := fieldsOf_eq_ok hfields
      obtain ⟨hnodup, hmem⟩ := fieldDict_eq_ok hfields
      refine ⟨hnodup, inner, rfl, fun c hc => ?_⟩
      obtain ⟨f, hf, rfl⟩ := List.mem_map.1 hc
      exact ⟨e.2, hentry he, .inr (hmem f hf)⟩
    | enum =>
      obtain ⟨_, -, h⟩ := Except.bind_eq_ok.1 h
      obtain rfl := hend h
      exact ⟨List.nodup_nil, inner, rfl, fun c hc => by cases hc⟩
  | _ => cases h

/-- The typed form of a raw schema has no map with a field twice. -/
theorem fieldsApart_of_ofRaw {room : Nat} {v : Value} {b : Block} (h : ofRaw room v = .ok b) :
    b.FieldsApart := by
  induction v using Value.innerInduction generalizing room b with
  | step v ih =>
    obtain ⟨hnodup, inner, -, hparts⟩ := ofRaw_eq_ok h
    refine ⟨hnodup, fun c hc => ?_⟩
    -- a part of the block stands up to two levels deeper in the raw schema
    obtain ⟨x, hx, hc | ⟨y, hy, hc⟩⟩ := hparts c hc
    · exact (ih x hx).1 hc
    · exact (ih x hx).2 y hy hc

end

end Block

theorem fieldsApart_of_parseSchema [Host] {raw : Value} {b : Block} (h : parseSchema raw = .ok b) :
    b.FieldsApart := by
  unfold parseSchema at h
  split at h
  · next hb =>
    obtain rfl := Except.ok.inj h
    exact Block.fieldsApart_of_ofRaw hb
  · cases h

end DocShape
