import DocShape.Proofs.Schema.GrammarWalk
import DocShape.Proofs.Schema.TypedForm

/-!
# Advice on schemas

`Block.advice` lists what a block is advised of: lengths that are no whole numbers. The walk of the
grammar finds nothing else in a raw schema that stands for the block (`block_of_typedAs`).
-/

namespace DocShape

/-! ## The advice that a block deserves -/

/-- A length had better be a whole number. -/
def Number.lengthAdvice (path : Path) (n : Number) : List Warning :=
  if n.isIntegral then [] else [⟨path, .fractionalLength⟩]

/-- The advice on a setting that is there. -/
def Setting.advice {α : Type} (advise : α → List Warning) : Setting α → List Warning
  | .given a => advise a
  | _ => []

/-- The advice on a constraint on lengths. -/
def LengthRule.advice (path : Path) : LengthRule → List Warning
  | .exactly n => n.lengthAdvice path
  | .range r =>
    r.minimum.advice (Number.lengthAdvice (path ++ [.property "minimum"])) ++
      r.maximum.advice (Number.lengthAdvice (path ++ [.property "maximum"]))

namespace Block

/-- The advice on the length of a block. -/
def lengthAdvice (path : Path) (length : Setting LengthRule) : List Warning :=
  length.advice (LengthRule.advice (path ++ [.property "length"]))

mutual

/-- The advice on a block: its lengths had better be whole numbers. -/
def advice (path : Path) : Block → List Warning
  | flag _ | number _ _ _ _ | enum _ _ => []
  | string _ length _ => lengthAdvice path length
  | array _ value length => advice (path ++ [.items]) value ++ lengthAdvice path length
  | object _ _ value length => advice (path ++ [.values]) value ++ lengthAdvice path length
  | tuple _ items => adviceItems path 0 items
  | map _ fields => adviceFields path fields
termination_by structural b => b

/-- The advice on blocks, each at its position. -/
def adviceItems (path : Path) (index : Nat) : List Block → List Warning
  | [] => []
  | b :: bs => advice (path ++ [.position index]) b ++ adviceItems path (index + 1) bs
termination_by structural b => b

/-- The advice on fields, each under its name. -/
def adviceFields (path : Path) : List (Text × Block) → List Warning
  | [] => []
  | (name, b) :: rest => advice (path ++ [.field name]) b ++ adviceFields path rest
termination_by structural b => b

end

end Block

namespace Grammar

variable {path : Path} {es : Entries} {name : Text}

theorem optional_of_truth {requirement : Requirement} {b : Option Bool}
    (h : es.get? name = b.map .bool) : optional path name requirement isBool es = [] := by
  refine optional_eq_nil fun v hv => ?_
  rw [h] at hv
  obtain ⟨b, -, rfl⟩ := Option.map_eq_some_iff.1 hv
  rfl

theorem optional_of_text {requirement : Requirement} {s : Setting Text}
    (h : Setting.Stands Value.TextAs (es.get? name) s) :
    optional path name requirement (fun v => v.text?.isSome) es = [] := by
  refine optional_eq_nil fun v hv => ?_
  rw [hv] at h
  cases h with
  | given fits =>
    rw [fits]
    rfl

theorem common_of_heads {h : Header} {k : Kind} (hh : h.Heads es k) : common path es = [] := by
  rw [common, optional_of_text hh.name, optional_of_text hh.description, optional_of_truth hh.option]
  rfl

/-- With a header and nothing but legal properties, all depends on the properties of the kind. -/
theorem block_of_heads {h : Header} {k : Kind} (hh : h.Heads es k) :
    block path (.dict es) = body path es k := by
  rw [block_dict hh.kind, (unexpected_eq_nil path).2 hh.only, common_of_heads hh, List.nil_append,
    List.append_nil]

theorem optionalBound_of_stands {s : Setting Limit}
    (h : Setting.Stands Value.LimitAs (es.get? name) s) :
    optionalBound path name es = ([], s.value?.map Limit.value) := by
  generalize hv : es.get? name = v? at h
  cases h with
  | absent => exact optionalBound_of_absent hv
  | given fits =>
    rw [optionalBound_of_get? hv, bound_of_isBound (Value.isBound_of_limitAs fits)]
    rfl

theorem number_of_stands {decimal : Option Bool} {minimum maximum : Setting Limit}
    (hdecimal : es.get? "decimal" = decimal.map .bool)
    (least : Setting.Stands Value.LimitAs (es.get? "minimum") minimum)
    (greatest : Setting.Stands Value.LimitAs (es.get? "maximum") maximum)
    (order : ∀ m n, minimum = .given m → maximum = .given n → m.value.exact ≤ n.value.exact) :
    number path es = [] := by
  have hcrossing : crossing path (minimum.value?.map Limit.value)
      (maximum.value?.map Limit.value) = [] := by
    generalize es.get? "minimum" = v? at least
    generalize es.get? "maximum" = w? at greatest
    cases least with
    | absent => rfl
    | given hm =>
      cases greatest with
      | absent => rfl
      | given hn =>
        exact (crossing_eq_nil (Value.isBound_of_limitAs hm).isFinite
          (Value.isBound_of_limitAs hn).isFinite).2 (order _ _ rfl rfl)
  simp only [number, optional_of_truth hdecimal, optionalBound_of_stands least,
    optionalBound_of_stands greatest, hcrossing, List.append_nil]

theorem lengthNumber_eq_advice {v : Value} {n : Number} (h : v.LengthNumberAs n) :
    lengthNumber path n = (n.lengthAdvice path).map .warning := by
  rw [lengthNumber_of_nonneg h.1.2 h.2, Number.lengthAdvice]
  split <;> rfl

theorem lengthBound_of_stands {s : Setting Number}
    (h : Setting.Stands Value.LengthNumberAs (es.get? name) s) :
    lengthBound path name es =
      ((s.advice (Number.lengthAdvice (path ++ [.property name]))).map .warning, s.value?) := by
  generalize hv : es.get? name = v? at h
  cases h with
  | absent => exact lengthBound_of_absent hv
  | given fits =>
    rw [lengthBound_of_number hv fits.1, lengthNumber_eq_advice fits]
    rfl

theorem length_of_stands {length : Setting LengthRule}
    (h : Setting.Stands Value.LengthAs (es.get? "length") length) :
    Grammar.length path es = (Block.lengthAdvice path length).map .warning := by
  unfold Grammar.length
  generalize es.get? "length" = v? at h
  cases h with
  | absent => rfl
  | @given v rule fits =>
    cases fits with
    | exactly number =>
      simp only [Value.finiteNumber?_eq_some.2 number.1]
      exact lengthNumber_eq_advice number
    | @range fs minimum maximum only least greatest order =>
      have hcrossing : crossing (path ++ [.property "length"]) minimum.value? maximum.value? = [] := by
        generalize Entries.get? "minimum" fs = v? at least
        generalize Entries.get? "maximum" fs = w? at greatest
        cases least with
        | absent => rfl
        | given hm =>
          cases greatest with
          | absent => rfl
          | given hn => exact (crossing_eq_nil hm.1.2 hn.1.2).2 (order _ _ rfl rfl)
      show lengthObject _ fs = _
      simp only [lengthObject, (unexpected_eq_nil _).2 only, List.isEmpty_nil, ↓reduceIte,
        lengthBound_of_stands least, lengthBound_of_stands greatest, hcrossing, List.append_nil,
        ← List.map_append]
      rfl

theorem requiredValue_of_get? {inner : Path} {v : Value} (h : es.get? "value" = some v) :
    requiredValue path inner es = block inner v := by
  rw [requiredValue, h]

theorem enumeration_of_names {v : Value} {ts : List Text} (hv : es.get? "values" = some v)
    (hts : v.IsSequence (ts.map .str)) (hne : ts ≠ []) (hnames : ∀ t ∈ ts, t.isName = true)
    (hdistinct : ts.Nodup) : enumeration path es = [] := by
  have hxs : ts.map Value.str ≠ [] := fun h => hne (List.map_eq_nil_iff.1 h)
  simp only [enumeration, hv, sequence?_eq_some.2 hts]
  obtain ⟨x, xs, hcons⟩ := List.exists_cons_of_ne_nil hxs
  rw [hcons]
  refine enumValues_eq_nil (fun x hx => ?_) ?_ fun t ht => by cases ht
  · obtain ⟨t, ht, rfl⟩ := List.mem_map.1 (hcons ▸ hx)
    exact hnames t ht
  · rw [← hcons]
    exact hdistinct.map fun _ _ => Value.str.inj

theorem blocks_zip {index : Nat} {xs : List Value} {bs : List Block}
    (hcount : xs.length = bs.length)
    (h : ∀ p ∈ xs.zip bs, ∀ path, block path p.1 = (p.2.advice path).map .warning) :
    blocks path index xs = (Block.adviceItems path index bs).map .warning := by
  induction xs generalizing index bs with
  | nil => rw [List.length_eq_zero_iff.1 hcount.symm]; rfl
  | cons x xs ih =>
    obtain ⟨b, bs, rfl⟩ := List.exists_cons_of_length_eq_add_one hcount.symm
    obtain ⟨hb, hbs⟩ := List.forall_mem_cons.1 h
    rw [blocks, Block.adviceItems, List.map_append, hb, ih (Nat.succ.inj hcount) hbs]

theorem itemList_zip {v : Value} {xs : List Value} {bs : List Block} (hv : v.IsSequence xs)
    (hne : xs ≠ []) (hcount : xs.length = bs.length)
    (h : ∀ p ∈ xs.zip bs, ∀ path, block path p.1 = (p.2.advice path).map .warning) :
    itemList path v = (Block.adviceItems path 0 bs).map .warning := by
  obtain ⟨x, xs, rfl⟩ := List.exists_cons_of_ne_nil hne
  rcases hv with rfl | rfl <;> exact blocks_zip hcount h

theorem fieldBlocks_zip {fs : Entries} {fields : List (Text × Block)}
    (hkeys : fs.map Prod.fst = fields.map fun f => .str f.1)
    (hnames : ∀ f ∈ fields, f.1.isName = true)
    (h : ∀ p ∈ fs.zip fields, ∀ path, block path p.1.2 = (p.2.2.advice path).map .warning) :
    fieldBlocks path fs = (Block.adviceFields path fields).map .warning := by
  induction fs generalizing fields with
  | nil => rw [List.map_eq_nil_iff.1 hkeys.symm]; rfl
  | cons e fs ih =>
    obtain ⟨k, v⟩ := e
    cases fields with
    | nil => cases hkeys
    | cons f fields =>
      obtain ⟨t, b⟩ := f
      obtain ⟨hk, hrest⟩ := List.cons.inj hkeys
      obtain rfl : k = .str t := hk
      obtain ⟨ht, hnames⟩ := List.forall_mem_cons.1 hnames
      obtain ⟨hb, hblocks⟩ := List.forall_mem_cons.1 h
      rw [fieldBlocks, filter_isName_eq_some.2 ⟨rfl, ht⟩, Block.adviceFields, List.map_append,
        ih hrest hnames hblocks]
      exact congrArg (· ++ _) (hb _)

theorem fieldDict_zip {fs : Entries} {fields : List (Text × Block)} (hne : fs ≠ [])
    (hkeys : fs.map Prod.fst = fields.map fun f => .str f.1)
    (hnames : ∀ f ∈ fields, f.1.isName = true)
    (h : ∀ p ∈ fs.zip fields, ∀ path, block path p.1.2 = (p.2.2.advice path).map .warning) :
    fieldDict path (.dict fs) = (Block.adviceFields path fields).map .warning := by
  obtain ⟨f, fs, rfl⟩ := List.exists_cons_of_ne_nil hne
  exact fieldBlocks_zip hkeys hnames h

/-- The walk finds nothing in a well-formed schema but the advice that its block deserves. -/
theorem block_of_typedAs {v : Value} {b : Block} (h : v.TypedAs b) :
    block path v = (b.advice path).map .warning := by
  induction h generalizing path with
  | flag header => rw [block_of_heads header, body, Block.advice, List.map_nil]
  | number header fraction least greatest order =>
    rw [block_of_heads header, body, number_of_stands fraction least greatest order, Block.advice,
      List.map_nil]
  | string header size search =>
    rw [block_of_heads header, body, length_of_stands size, optional_of_text search,
      List.append_nil, Block.advice]
  | array header value _ size ih =>
    rw [block_of_heads header, body, requiredValue_of_get? value, ih,
      if_pos (Entries.has_of_get? value), length_of_stands size, Block.advice, List.map_append]
  | object header key value _ size ih =>
    rw [block_of_heads header, body, requiredValue_of_get? value, ih, keyKind_of_name key,
      List.append_nil, length_of_stands size, Block.advice, List.map_append]
  | tuple header items sequence nonempty count _ ih =>
    rw [block_of_heads header, body, items_eq, items, Option.elim_some, Block.advice]
    exact itemList_zip sequence nonempty count fun p hp path => ih p hp
  | map header entries nonempty keys names _ _ ih =>
    rw [block_of_heads header, body, fields_eq, entries, Option.elim_some, Block.advice]
    exact fieldDict_zip nonempty keys names fun p hp path => ih p hp
  | enum header items sequence nonempty names distinct =>
    rw [block_of_heads header, body, enumeration_of_names items sequence nonempty names distinct,
      Block.advice, List.map_nil]

end Grammar

end DocShape
