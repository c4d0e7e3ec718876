import DocShape.Proofs.Conversion.Kept
import DocShape.Proofs.Conversion.Located
import DocShape.Proofs.Conversion.Saved

/-!
# What a conversion saves can be written

No null, truth value, number, text, list or dictionary comes about in a conversion that a document has no
place for, and the keys of a dictionary stay apart (`everywhere_savedNode`). Each node of what is saved is
null, a node without parts of the value, or made of what is saved of parts (`makes_saved`).
-/

namespace DocShape

namespace Value

theorem SavedNode.plainNode {v : Value} (h : v.SavedNode) : v.PlainNode := by
  cases v with
  | dict es =>
    refine ⟨fun e he => ?_, h.2⟩
    rcases h.1 e he with ⟨t, ht⟩ | ⟨n, hn, -⟩
    · exact ⟨t, by rw [ht]; rfl⟩
    · exact ⟨_, by rw [hn]; rfl⟩
  | tuple xs => exact h.elim
  | _ => exact h

theorem SavedNode.keyDigitsNode {v : Value} (h : v.SavedNode) : v.KeyDigitsNode := by
  cases v with
  | dict es =>
    intro e he n hn
    rcases h.1 e he with ⟨t, ht⟩ | ⟨m, hm, hdigits⟩
    · cases ht.symm.trans hn
    · rwa [← Value.int.inj (hm.symm.trans hn)]
  | _ => trivial

theorem SavedNode.keyedNode {v : Value} (h : v.SavedNode) : v.KeyedNode := by
  cases v with
  | dict es =>
    have hapart := h.2
    rw [List.nodup_iff_pairwise_ne, List.pairwise_map] at hapart
    refine hapart.imp_of_mem fun {e e'} he he' hne => ?_
    rw [Bool.eq_false_iff]
    intro hequals
    apply hne
    rcases h.1 e he with ⟨s, hs⟩ | ⟨m, hm, -⟩ <;> rcases h.1 e' he' with ⟨t, ht⟩ | ⟨n, hn, -⟩
    · rw [hs, ht, equals_str, beq_iff_eq] at hequals
      rw [hs, ht, hequals]
    · rw [hs, hn] at hequals
      cases hequals
    · rw [hm, ht] at hequals
      cases hequals
    · rw [hm, hn, equals_int, beq_iff_eq] at hequals
      rw [hm, hn, hequals]
  | _ => trivial

end Value

/-- A key that is taken is named in paths as a document spells it. -/
theorem Direction.spelledKey_of_key? {d : Direction} {kind : KeyKind} {k key : Value} {shown : Text}
    (h : d.key? kind k = some (.ok (key, shown))) :
    key.spelledKey = .str shown ∧
      ((∃ t, key = .str t) ∨ ∃ n, key = .int n ∧ Text.HasDigits n) := by
  cases kind with
  | integer =>
    obtain ⟨n, -, hdigits, rfl, rfl⟩ := exists_int_of_integerKey?_ok h
    exact ⟨rfl, .inr ⟨n, rfl, hdigits⟩⟩
  | string =>
    cases k with
    | str t =>
      rw [key?] at h
      split at h
      · obtain ⟨rfl, rfl⟩ := Prod.mk.inj (Except.ok.inj (Option.some.inj h))
        exact ⟨rfl, .inl ⟨t, rfl⟩⟩
      · cases h
    | _ => cases h

namespace Block

variable {d : Direction} {b : Block} {v : Value}

/-! ## Keys stay apart -/

theorem nodup_savedEntries [Host] {kind : KeyKind} {value : Block} {es : Entries} (hes : es.Distinct) :
    ((es.filterMap (savedPair? d kind value)).map fun e => e.1.spelledKey).Nodup := by
  rw [List.nodup_iff_pairwise_ne, List.pairwise_map, List.pairwise_filterMap]
  refine hes.imp fun {a b} hne a' ha b' hb hspelled => ?_
  obtain ⟨shown, hkey, -⟩ := savedPair?_eq_some.1 ha
  obtain ⟨shown', hkey', -⟩ := savedPair?_eq_some.1 hb
  rw [(Direction.spelledKey_of_key? hkey).1, (Direction.spelledKey_of_key? hkey').1] at hspelled
  obtain rfl := Value.str.inj hspelled
  obtain ⟨hsame, hequals⟩ := Direction.key?_unique hkey hkey'
  simp [← hsame, hequals] at hne

theorem nodup_savedFields [Host] {fields : List (Text × Block)} (hfields : (fields.map Prod.fst).Nodup)
    {es : Entries} (hes : es.Distinct) :
    ((es.filterMap (savedField? d fields) ++ absentFields fields es).map
      fun e => e.1.spelledKey).Nodup := by
  rw [List.map_append, List.nodup_append]
  refine ⟨?present, ?absent, ?apart⟩
  case present =>
    rw [List.nodup_iff_pairwise_ne, List.pairwise_map, List.pairwise_filterMap]
    refine hes.imp fun {a b} hne a' ha b' hb hspelled => ?_
    obtain ⟨name, _, hname, -, rfl⟩ := savedField?_eq_some.1 ha
    obtain ⟨name', _, hname', -, rfl⟩ := savedField?_eq_some.1 hb
    have hsame : name = name' := Value.str.inj hspelled
    simp [hname, hname', hsame] at hne
  case absent =>
    have hkept : ((fields.filter fun f => !es.has f.1 && f.2.isOptional).map Prod.fst).Nodup :=
      hfields.sublist (List.filter_sublist.map Prod.fst)
    have hspelled := hkept.map (f := Value.str) fun s t hst => Value.str.inj hst
    rw [List.map_map] at hspelled
    rw [absentFields, List.map_map]
    exact hspelled
  case apart =>
    intro k hk k' hk' hsame
    obtain ⟨e', he', rfl⟩ := List.mem_map.1 hk
    obtain ⟨e, he, hsaved⟩ := List.mem_filterMap.1 he'
    obtain ⟨name, b, hname, -, rfl⟩ := savedField?_eq_some.1 hsaved
    obtain ⟨a, ha, rfl⟩ := List.mem_map.1 hk'
    obtain ⟨f, hf, rfl⟩ := List.mem_map.1 ha
    have habsent := (List.mem_filter.1 hf).2
    have hhas : es.has f.1 = true := by
      rw [Entries.has_iff, ← Value.str.inj hsame, ← hname]
      exact ⟨e.2, he⟩
    simp [hhas] at habsent

/-! ## Nodes -/

/-- What a conversion can make of a node: null, a node without parts as it is, or a list or dictionary of
what it makes of parts. -/
inductive Makes [Host] (d : Direction) (b : Block) (v : Value) : Value → Prop
  | null : Makes d b v .null
  | same (node : v.SavedNode) (leaf : v.parts = []) : Makes d b v v
  | list {ys : List Value} (inside : ∀ y ∈ ys, ∃ c ∈ b.parts, ∃ x ∈ v.parts, y = c.saved d x) :
    Makes d b v (.list ys)
  | dict {es : Entries} (node : b.fieldNames.Nodup → v.KeyedNode → (Value.dict es).SavedNode)
    (inside : ∀ e ∈ es, e.2 = .null ∨ ∃ c ∈ b.parts, ∃ x ∈ v.parts, e.2 = c.saved d x) :
    Makes d b v (.dict es)

theorem makes_of_isLeaf [Host] (hb : b.kind.isLeaf = true) : Makes d b v (b.saved d v) := by
  rcases saved_leaf hb v with ⟨-, hsame, hnode, hleaf⟩ | ⟨-, hnull⟩
  · rw [hsame]
    exact .same hnode hleaf
  · rw [hnull]
    exact .null

theorem makes_object [Host] (h : Header) (kind : KeyKind) (value : Block) (length : Setting LengthRule)
    (es : Entries) :
    Makes d (object h kind value length) (.dict es)
      ((object h kind value length).saved d (.dict es)) := by
  rw [saved_object]
  refine .dict (fun _ hes => ⟨fun e' he' => ?keys, nodup_savedEntries hes⟩) fun e' he' => .inr ?values
  case keys =>
    obtain ⟨e, -, hsaved⟩ := List.mem_filterMap.1 he'
    obtain ⟨shown, hkey, -⟩ := savedPair?_eq_some.1 hsaved
    exact (Direction.spelledKey_of_key? hkey).2
  case values =>
    obtain ⟨e, he, hsaved⟩ := List.mem_filterMap.1 he'
    obtain ⟨shown, -, hvalue⟩ := savedPair?_eq_some.1 hsaved
    exact ⟨value, List.mem_cons_self, e.2, List.mem_map_of_mem he, hvalue⟩

theorem makes_map [Host] (h : Header) (fields : List (Text × Block)) (es : Entries) :
    Makes d (map h fields) (.dict es) ((map h fields).saved d (.dict es)) := by
  rw [saved_map]
  refine .dict (fun hfields hes => ⟨fun e' he' => .inl ?keys, nodup_savedFields hfields hes⟩)
    fun e' he' => ?values
  case keys =>
    rcases List.mem_append.1 he' with he' | he'
    · obtain ⟨e, -, hsaved⟩ := List.mem_filterMap.1 he'
      obtain ⟨name, b, -, -, rfl⟩ := savedField?_eq_some.1 hsaved
      exact ⟨name, rfl⟩
    · obtain ⟨f, -, rfl⟩ := List.mem_map.1 he'
      exact ⟨f.1, rfl⟩
  case values =>
    rcases List.mem_append.1 he' with he' | he'
    · obtain ⟨e, he, hsaved⟩ := List.mem_filterMap.1 he'
      obtain ⟨name, b, -, hb, rfl⟩ := savedField?_eq_some.1 hsaved
      exact .inr ⟨b, List.mem_map_of_mem (mem_of_lookup hb), e.2, List.mem_map_of_mem he, rfl⟩
    · obtain ⟨f, -, rfl⟩ := List.mem_map.1 he'
      exact .inl rfl

theorem makes_saved [Host] (d : Direction) (b : Block) (v : Value) : Makes d b v (b.saved d v) := by
  cases b with
  | flag h => exact makes_of_isLeaf rfl
  | number h decimal minimum maximum => exact makes_of_isLeaf rfl
  | string h length pattern => exact makes_of_isLeaf rfl
  | enum h values => exact makes_of_isLeaf rfl
  | array h value length =>
    cases hitems : d.items? v with
    | none =>
      rw [saved_array_of_no_items hitems]
      exact .null
    | some xs =>
      rw [saved_array hitems]
      refine .list fun y hy => ?_
      obtain ⟨x, hx, rfl⟩ := List.mem_map.1 hy
      exact ⟨value, List.mem_cons_self, x, by rwa [parts_of_items? hitems], rfl⟩
  | tuple h items =>
    by_cases hcount : ∃ xs, d.items? v = some xs ∧ xs.length = items.length
    · obtain ⟨xs, hitems, hcount⟩ := hcount
      rw [saved_tuple hitems hcount]
      refine .list fun y hy => ?_
      rw [← List.map_uncurry_zip_eq_zipWith] at hy
      obtain ⟨⟨c, x⟩, hcx, rfl⟩ := List.mem_map.1 hy
      obtain ⟨hc, hx⟩ := List.of_mem_zip hcx
      exact ⟨c, hc, x, by rwa [parts_of_items? hitems], rfl⟩
    · rw [saved_tuple_of_no_items fun xs hxs hlength => hcount ⟨xs, hxs, hlength⟩]
      exact .null
  | object h kind value length =>
    cases v with
    | dict es => exact makes_object h kind value length es
    | _ =>
      rw [saved_object_of_no_dict fun es hes => by cases hes]
      exact .null
  | map h fields =>
    cases v with
    | dict es => exact makes_map h fields es
    | _ =>
      rw [saved_map_of_no_dict fun es hes => by cases hes]
      exact .null

/-- What holds at every node of what is saved holds everywhere in it. Which blocks and values these are can
be restricted to those with `r`. -/
theorem everywhere_saved [Host] {q : Value → Prop} {r : Block → Value → Prop}
    (hparts : ∀ b v, r b v → ∀ c ∈ b.parts, ∀ x ∈ v.parts, r c x) (hnull : q .null)
    (hnode : ∀ b v, r b v → q (b.saved d v)) (h : r b v) : (b.saved d v).Everywhere q := by
  induction b using Block.partsInduction generalizing v with
  | step b ih =>
    have hpart {c : Block} {x : Value} (hc : c ∈ b.parts) (hx : x ∈ v.parts) :
        (c.saved d x).Everywhere q := ih c hc (hparts b v h c hc x hx)
    have hhere := hnode b v h
    have hmakes := makes_saved d b v
    generalize b.saved d v = u at hhere hmakes
    cases hmakes with
    | null => exact .leaf hnull rfl
    | same _ leaf => exact .leaf hhere leaf
    | list inside =>
      refine ⟨hhere, fun y hy => ?_⟩
      obtain ⟨c, hc, x, hx, rfl⟩ := inside y hy
      exact hpart hc hx
    | dict _ inside =>
      refine ⟨hhere, fun y hy => ?_⟩
      obtain ⟨e, he, rfl⟩ := List.mem_map.1 hy
      rcases inside e he with hempty | ⟨c, hc, x, hx, hsaved⟩
      · rw [hempty]
        exact .leaf hnull rfl
      · rw [hsaved]
        exact hpart hc hx

/-- A document has a place for what is saved of a value. -/
theorem everywhere_savedNode [Host] (hb : b.FieldsApart) (hv : v.Keyed) :
    (b.saved d v).Everywhere Value.SavedNode := by
  refine everywhere_saved (r := fun b v => b.FieldsApart ∧ v.Keyed) ?_ trivial ?_ ⟨hb, hv⟩
  · rintro b v ⟨hb, hv⟩ c hc x hx
    exact ⟨hb.inside c hc, hv.inside x hx⟩
  · rintro b v ⟨hb, hv⟩
    have hmakes := makes_saved d b v
    generalize b.saved d v = u at hmakes
    cases hmakes with
    | null => trivial
    | same node _ => exact node
    | list _ => trivial
    | dict node _ => exact node hb.here hv.here

/-- What is saved is no deeper than the block. -/
theorem depth_saved_le [Host] (d : Direction) (b : Block) (v : Value) :
    (b.saved d v).depth ≤ b.depth := by
  induction b using Block.partsInduction generalizing v with
  | step b ih =>
    obtain ⟨n, hn⟩ := Nat.exists_eq_add_one.2 b.depth_pos
    have hpart {c : Block} (hc : c ∈ b.parts) (x : Value) : (c.saved d x).depth ≤ n := by
      have hlt := depth_lt_of_mem_parts hc
      exact (ih c hc x).trans (by omega)
    have hmakes := makes_saved d b v
    generalize b.saved d v = u at hmakes
    cases hmakes with
    | null => exact Nat.zero_le _
    | same _ leaf => exact (Value.depth_le_one_of_leaf leaf).trans b.depth_pos
    | list inside =>
      rw [hn, Value.depth_list_le]
      intro y hy
      obtain ⟨c, hc, x, -, rfl⟩ := inside y hy
      exact hpart hc x
    | dict _ inside =>
      rw [hn, Value.depth_dict_le]
      intro e he
      rcases inside e he with hempty | ⟨c, hc, x, -, hsaved⟩
      · rw [hempty]
        exact Nat.zero_le n
      · rw [hsaved]
        exact hpart hc x

theorem keyed_saved [Host] (hb : b.FieldsApart) (hv : v.Keyed) : (b.saved d v).Keyed :=
  (everywhere_savedNode hb hv).mono fun _ h => h.keyedNode

/-- What is saved has no integers but those of the value. -/
theorem intDigits_saved [Host] (hv : v.IntDigits) : (b.saved d v).IntDigits := by
  refine everywhere_saved (r := fun _ v => v.IntDigits) ?_ trivial ?_ hv
  · intro b v hv c _ x hx
    exact hv.inside x hx
  · intro b v hv
    have hmakes := makes_saved d b v
    generalize b.saved d v = u at hmakes
    cases hmakes with
    | null => trivial
    | same _ _ => exact hv.here
    | list _ => trivial
    | dict _ _ => trivial

end Block

end DocShape
