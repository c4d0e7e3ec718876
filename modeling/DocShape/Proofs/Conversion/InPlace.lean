import DocShape.Proofs.Conversion.Writable

/-!
# What a conversion saves stands in its place

A path that leads a walk to a node leads through the saved value to what the node on its own is converted
to (`at?_saved`), since what is saved of a part stands where the part stood (`part?_saved`).
-/

namespace DocShape

/-! ## Following a path through a value -/

namespace Value

/-- What a segment leads to in a value: an item, or the value under the key that is spelled so. -/
def part? : Value → Segment → Option Value
  | list xs, .item index | list xs, .position index => xs[index]?
  | dict es, .entry name | dict es, .field name =>
    (es.find? fun e => e.1.spelledKey.text? = some name).map Prod.snd
  | _, _ => none

/-- What a path leads to in a value. -/
def at? (v : Value) : Path → Option Value
  | [] => some v
  | segment :: below => (v.part? segment).bind fun x => x.at? below

/-- Among keys that are spelled apart the one with a spelling is found. -/
theorem find?_spelled {es : Entries} (hes : (es.map fun e => e.1.spelledKey).Nodup) {key x : Value}
    (hmem : (key, x) ∈ es) {name : Text} (hkey : key.spelledKey = .str name) :
    es.find? (fun e => e.1.spelledKey.text? = some name) = some (key, x) := by
  induction es with
  | nil => cases hmem
  | cons e es ih =>
    obtain ⟨he, hes⟩ := List.nodup_cons.1 hes
    rcases List.mem_cons.1 hmem with rfl | hmem
    · apply List.find?_cons_of_pos
      simp [hkey, text?]
    · rw [List.find?_cons_of_neg, ih hes hmem]
      intro hname
      have hsame : e.1.spelledKey = key.spelledKey := by
        cases hspelled : e.1.spelledKey <;> simp_all [text?]
      exact he (List.mem_map.2 ⟨_, hmem, hsame.symm⟩)

end Value

/-! ## Parts -/

namespace Block

variable {d : Direction} {b : Block} {v : Value}

theorem getElem?_of_mem_items {value : Block} {index : Nat} {xs : List Value} {part : Part}
    (h : part ∈ Part.items value index xs) :
    ∃ i, part.segment = .item (index + i) ∧ part.block = value ∧ xs[i]? = some part.value := by
  induction xs generalizing index with
  | nil => cases h
  | cons x xs ih =>
    rcases List.mem_cons.1 h with rfl | h
    · exact ⟨0, rfl, rfl, rfl⟩
    · obtain ⟨i, hsegment, hblock, hvalue⟩ := ih h
      refine ⟨i + 1, ?_, hblock, hvalue⟩
      rw [hsegment, Nat.add_assoc, Nat.add_comm 1]

theorem getElem?_of_mem_positions {index : Nat} {bs : List Block} {xs : List Value} {part : Part}
    (h : part ∈ Part.positions index bs xs) :
    ∃ i, part.segment = .position (index + i) ∧ bs[i]? = some part.block ∧
      xs[i]? = some part.value := by
  induction bs generalizing index xs with
  | nil => cases h
  | cons b bs ih =>
    cases xs with
    | nil => cases h
    | cons x xs =>
      rcases List.mem_cons.1 h with rfl | h
      · exact ⟨0, rfl, rfl, rfl⟩
      · obtain ⟨i, hsegment, hblock, hvalue⟩ := ih h
        refine ⟨i + 1, ?_, hblock, hvalue⟩
        rw [hsegment, Nat.add_assoc, Nat.add_comm 1]

/-- What is saved of a part stands where the part stood. -/
theorem part?_saved [Host] (hb : b.FieldsApart) (hv : v.Keyed) {part : Part}
    (h : part ∈ b.partsIn d v) :
    (b.saved d v).part? part.segment = some (part.block.saved d part.value) := by
  have hapart := (everywhere_savedNode (d := d) hb hv).here
  cases b with
  | array h' value length =>
    rw [partsIn] at h
    cases hitems : d.items? v with
    | none => simp [hitems, Part.items] at h
    | some xs =>
      rw [hitems, Option.getD_some] at h
      obtain ⟨i, hsegment, hblock, hvalue⟩ := getElem?_of_mem_items h
      rw [saved_array hitems, hsegment, Nat.zero_add, Value.part?, List.getElem?_map, hvalue, hblock]
      rfl
  | tuple h' items =>
    simp only [partsIn] at h
    split at h
    · next xs hitems =>
      split at h
      · next hcount =>
        obtain ⟨i, hsegment, hblock, hvalue⟩ := getElem?_of_mem_positions h
        rw [saved_tuple hitems hcount, hsegment, Nat.zero_add, Value.part?, List.getElem?_zipWith,
          hblock, hvalue]
      · cases h
    · cases h
  | object h' kind value length =>
    cases v with
    | dict es =>
      obtain ⟨e, hmem, he⟩ := List.mem_filterMap.1 h
      obtain ⟨key, shown, hkey, rfl⟩ := entry?_eq_some.1 he
      rw [saved_object] at hapart ⊢
      have hsaved : (key, value.saved d e.2) ∈ es.filterMap (savedPair? d kind value) :=
        List.mem_filterMap.2 ⟨e, hmem, savedPair?_eq_some.2 ⟨shown, hkey, rfl⟩⟩
      rw [Value.part?, Value.find?_spelled hapart.2 hsaved (Direction.spelledKey_of_key? hkey).1]
      rfl
    | _ => cases h
  | map h' fields =>
    cases v with
    | dict es =>
      obtain ⟨e, hmem, he⟩ := List.mem_filterMap.1 h
      obtain ⟨name, c, hname, hc, rfl⟩ := field?_eq_some.1 he
      rw [saved_map] at hapart ⊢
      have hsaved : (Value.str name, c.saved d e.2) ∈ es.filterMap (savedField? d fields) :=
        List.mem_filterMap.2 ⟨e, hmem, savedField?_eq_some.2 ⟨name, c, hname, hc, rfl⟩⟩
      rw [Value.part?, Value.find?_spelled hapart.2 (List.mem_append_left _ hsaved) rfl]
      rfl
    | _ => cases h
  | _ => cases h

/-- A path that leads a walk to a node leads through what is saved to what the node on its own is
converted to. -/
theorem at?_saved [Host] {below : Path} {c : Block} {u : Value} (h : Reaches d b v below c u)
    (hb : b.FieldsApart) (hv : v.Keyed) : (b.saved d v).at? below = some (c.saved d u) := by
  induction h with
  | here => rfl
  | inside mem _ ih =>
    rw [Value.at?, part?_saved hb hv mem, Option.bind_some]
    exact ih (hb.inside _ (block_mem_parts mem)) (keyed_part hv mem)

end Block

end DocShape
