import DocShape.Proofs.Conversion.Conforming
import DocShape.Proofs.Conversion.Placing

/-!
# What a conversion saves

`Block.saved d b v` is what a conversion makes of a value, whatever it finds. `Block.Saves` says node by
node what that is: an array keeps all its items, an object the entries with a valid key, a map the fields
it has and null for the optional ones that it lacks, and any other node stays what it is or becomes null
(`saves_saved`).
-/

namespace DocShape

/-- The second list has, in order, what the elements of the first become; some become nothing. -/
inductive Gleaned {α β : Type} (R : α → β → Prop) : List α → List β → Prop
  | nil : Gleaned R [] []
  | keep {a : α} {b : β} {as : List α} {bs : List β} (becomes : R a b) (rest : Gleaned R as bs) :
    Gleaned R (a :: as) (b :: bs)
  | drop {a : α} {as : List α} {bs : List β} (nothing : ∀ b, ¬ R a b) (rest : Gleaned R as bs) :
    Gleaned R (a :: as) bs

theorem gleaned_filterMap {α β : Type} {R : α → β → Prop} {f : α → Option β} {as : List α}
    (h : ∀ a ∈ as, ∀ b, R a b ↔ f a = some b) : Gleaned R as (as.filterMap f) := by
  induction as with
  | nil => exact .nil
  | cons a as ih =>
    obtain ⟨ha, has⟩ := List.forall_mem_cons.1 h
    cases hf : f a with
    | none =>
      rw [List.filterMap_cons_none hf]
      refine .drop (fun b hb => ?_) (ih has)
      simp [(ha b).1 hb] at hf
    | some b =>
      rw [List.filterMap_cons_some hf]
      exact .keep ((ha b).2 hf) (ih has)

/-- What a conversion can leave at one place. -/
def Value.SavedNode : Value → Prop
  | null | bool _ | int _ | str _ | list _ => True
  | float x => x.isFinite = true
  | dict es =>
    (∀ e ∈ es, (∃ t, e.1 = str t) ∨ ∃ n, e.1 = int n ∧ Text.HasDigits n) ∧
      (es.map fun e => e.1.spelledKey).Nodup
  | _ => False

/-- Kinds of blocks that have no parts. -/
def Kind.isLeaf : Kind → Bool
  | flag | number | string | enum => true
  | _ => false

namespace Block

variable {d : Direction} {path : Path} {b : Block} {v : Value}

/-- What a conversion makes of a value, whatever it finds. -/
def saved [Host] (d : Direction) (b : Block) (v : Value) : Value := (b.convert d [] v).value

/-- Where a conversion starts does not show in what it makes of a value. -/
theorem value_convert [Host] (b : Block) (d : Direction) (path : Path) (v : Value) :
    (b.convert d path v).value = b.saved d v := by
  have h := b.convert_append d path [] v
  rw [List.append_nil] at h
  rw [h]
  rfl

/-! ## Parts -/

/-- The entry of an object as a conversion makes it, if it has a valid key. -/
def savedPair? [Host] (d : Direction) (kind : KeyKind) (value : Block) (e : Value × Value) :
    Option (Value × Value) :=
  match d.key? kind e.1 with
  | some (.ok (key, _)) => some (key, value.saved d e.2)
  | _ => none

/-- The field of a map as a conversion makes it, if it is declared. -/
def savedField? [Host] (d : Direction) (fields : List (Text × Block)) (e : Value × Value) :
    Option (Value × Value) :=
  (fieldOf? fields e.1).map fun b => (e.1, b.saved d e.2)

theorem savedPair?_eq_some [Host] {kind : KeyKind} {value : Block} {e e' : Value × Value} :
    savedPair? d kind value e = some e' ↔
      ∃ shown, d.key? kind e.1 = some (.ok (e'.1, shown)) ∧ e'.2 = value.saved d e.2 := by
  unfold savedPair?
  split
  · next key shown hkey =>
    rw [hkey]
    constructor
    · intro h
      rw [← Option.some.inj h]
      exact ⟨shown, rfl, rfl⟩
    · rintro ⟨shown', hsame, hvalue⟩
      obtain ⟨rfl, -⟩ := Prod.mk.inj (Except.ok.inj (Option.some.inj hsame))
      rw [← hvalue]
  · next hnone =>
    refine iff_of_false (fun h => by cases h) ?_
    rintro ⟨shown, hkey, -⟩
    exact hnone _ _ hkey

theorem savedField?_eq_some [Host] {fields : List (Text × Block)} {e e' : Value × Value} :
    savedField? d fields e = some e' ↔
      ∃ name b, e.1 = .str name ∧ fields.lookup name = some b ∧ e' = (.str name, b.saved d e.2) := by
  simp only [savedField?, Option.map_eq_some_iff, fieldOf?_eq_some]
  constructor
  · rintro ⟨b, ⟨name, hname, hb⟩, rfl⟩
    exact ⟨name, b, hname, hb, by rw [hname]⟩
  · rintro ⟨name, b, hname, hb, rfl⟩
    exact ⟨b, ⟨name, hname, hb⟩, by rw [hname]⟩

theorem values_items [Host] (value : Block) (index : Nat) (xs : List Value) :
    (Converted.items (fun i x => value.convert d (path ++ [.item i]) x) index xs).map
        Converted.value = xs.map (value.saved d) := by
  induction xs generalizing index with
  | nil => rfl
  | cons x xs ih => rw [Converted.items, List.map_cons, List.map_cons, ih, value_convert]

theorem values_positions [Host] (index : Nat) (bs : List Block) (xs : List Value) :
    (convertPositions d path index bs xs).map Converted.value = List.zipWith (saved d) bs xs := by
  induction bs generalizing index xs with
  | nil => rfl
  | cons b bs ih =>
    cases xs with
    | nil => rfl
    | cons x xs =>
      rw [convertPositions, List.map_cons, List.zipWith_cons_cons, ih, value_convert]

theorem fst_entries [Host] (kind : KeyKind) (value : Block) (index : Nat) (es : Entries) :
    (Converted.entries d path kind (fun p x => value.convert d p x) index es).1 =
      es.filterMap (savedPair? d kind value) := by
  induction es generalizing index with
  | nil => rfl
  | cons e es ih =>
    obtain ⟨k, x⟩ := e
    cases hk : d.key? kind k with
    | none =>
      have hnone : savedPair? d kind value (k, x) = none := by simp [savedPair?, hk]
      rw [Converted.entries_of_bad hk, List.filterMap_cons_none hnone]
      exact ih (index + 1)
    | some r =>
      cases r with
      | error f =>
        have hnone : savedPair? d kind value (k, x) = none := by simp [savedPair?, hk]
        rw [Converted.entries_of_halt hk, List.filterMap_cons_none hnone]
        exact ih (index + 1)
      | ok key =>
        obtain ⟨key, shown⟩ := key
        have hsome : savedPair? d kind value (k, x) = some (key, value.saved d x) := by
          simp [savedPair?, hk]
        rw [Converted.entries_of_key hk, List.filterMap_cons_some hsome, ← ih (index + 1),
          value_convert]

theorem fst_fieldEntries [Host] (fields : List (Text × Block)) (es : Entries) :
    (fieldEntries d path fields es).1 = es.filterMap (savedField? d fields) := by
  induction es with
  | nil => rfl
  | cons e es ih =>
    obtain ⟨k, x⟩ := e
    cases hb : fieldOf? fields k with
    | none =>
      have hnone : savedField? d fields (k, x) = none := by simp [savedField?, hb]
      rw [fieldEntries_of_unexpected hb, List.filterMap_cons_none hnone]
      exact ih
    | some b =>
      have hsome : savedField? d fields (k, x) = some (k, b.saved d x) := by simp [savedField?, hb]
      obtain ⟨name, rfl, hname⟩ := fieldOf?_eq_some.1 hb
      rw [fieldEntries_of_field hname, List.filterMap_cons_some hsome, ← ih, value_convert]

theorem fst_missingFields (fields : List (Text × Block)) (es : Entries) :
    (missingFields path es fields).1 = absentFields fields es := by
  induction fields with
  | nil => rfl
  | cons f fields ih =>
    rw [absentFields_cons]
    cases hhas : es.has f.1 with
    | true =>
      rw [missingFields_of_has hhas]
      exact ih
    | false =>
      cases hoption : f.2.isOptional with
      | true =>
        rw [missingFields_of_optional hhas hoption, ih]
        rfl
      | false =>
        rw [missingFields_of_missing hhas hoption]
        exact ih

/-! ## Nodes -/

section Nodes

variable {h : Header} {value : Block} {length : Setting LengthRule} {kind : KeyKind}
  {items : List Block} {fields : List (Text × Block)} {xs : List Value}

theorem saved_array [Host] (hitems : d.items? v = some xs) :
    (array h value length).saved d v = .list (xs.map (value.saved d)) := by
  simp only [saved, convert_of_items? hitems, convertNode, convertArray, hitems,
    Converted.ofItems, values_items]

theorem saved_tuple [Host] (hitems : d.items? v = some xs) (hcount : xs.length = items.length) :
    (tuple h items).saved d v = .list (List.zipWith (saved d) items xs) := by
  simp only [saved, convert_of_items? hitems, convertNode, convertTuple, hitems, if_pos hcount,
    Converted.ofItems, values_positions]

theorem saved_object [Host] (es : Entries) :
    (object h kind value length).saved d (.dict es) =
      .dict (es.filterMap (savedPair? d kind value)) := by
  rw [saved, convert_of_not_excused rfl]
  simp only [convertNode, convertObject, Converted.ofEntries, fst_entries]

theorem saved_map [Host] (es : Entries) :
    (map h fields).saved d (.dict es) =
      .dict (es.filterMap (savedField? d fields) ++ absentFields fields es) := by
  rw [saved, convert_of_not_excused rfl]
  simp only [convertNode, convertMap, fst_fieldEntries, fst_missingFields]

theorem saved_eq_null_of_node [Host] (hnode : (b.convertNode d [] v).value = .null) :
    b.saved d v = .null := by
  cases hexcused : b.header.excuses v with
  | true => rw [saved, convert_of_excused hexcused]
  | false => rw [saved, convert_of_not_excused hexcused, hnode]

theorem saved_array_of_no_items [Host] (hitems : d.items? v = none) :
    (array h value length).saved d v = .null := by
  apply saved_eq_null_of_node
  simp only [convertNode, convertArray, hitems, Converted.failed]

theorem saved_tuple_of_no_items [Host]
    (hitems : ∀ xs, d.items? v = some xs → xs.length ≠ items.length) :
    (tuple h items).saved d v = .null := by
  apply saved_eq_null_of_node
  rw [convertNode, convertTuple]
  split
  · rfl
  · next xs hxs => rw [if_neg (hitems xs hxs), Converted.failed]

theorem saved_object_of_no_dict [Host] (hv : ∀ es, v ≠ .dict es) :
    (object h kind value length).saved d v = .null := by
  apply saved_eq_null_of_node
  cases v with
  | dict es => exact absurd rfl (hv es)
  | _ => rfl

theorem saved_map_of_no_dict [Host] (hv : ∀ es, v ≠ .dict es) : (map h fields).saved d v = .null := by
  apply saved_eq_null_of_node
  cases v with
  | dict es => exact absurd rfl (hv es)
  | _ => rfl

end Nodes

/-- A node without parts stays what it is if nothing is found on it, and then a document has a place for
it; otherwise it becomes null. -/
theorem saved_leaf [Host] (hb : b.kind.isLeaf = true) (v : Value) :
    (b.convert d [] v).findings = [] ∧ b.saved d v = v ∧ v.SavedNode ∧ v.parts = [] ∨
      (b.convert d [] v).findings ≠ [] ∧ b.saved d v = .null := by
  have hfailed (f : Finding) : (Converted.failed [f]).findings ≠ [] := List.cons_ne_nil _ _
  have hleaf (fs : List Finding) (hnode : v.SavedNode ∧ v.parts = []) :
      (Converted.leaf v fs).findings = [] ∧ (Converted.leaf v fs).value = v ∧ v.SavedNode ∧
          v.parts = [] ∨
        (Converted.leaf v fs).findings ≠ [] ∧ (Converted.leaf v fs).value = .null := by
    cases fs with
    | nil => exact .inl ⟨rfl, rfl, hnode⟩
    | cons f fs => exact .inr ⟨List.cons_ne_nil _ _, rfl⟩
  unfold saved
  cases hexcused : b.header.excuses v with
  | true =>
    obtain ⟨rfl, -⟩ := excuses_eq_true.1 hexcused
    rw [convert_of_excused hexcused]
    exact .inl ⟨rfl, rfl, trivial, rfl⟩
  | false =>
    rw [convert_of_not_excused hexcused]
    cases b with
    | flag h =>
      cases v with
      | bool x => exact hleaf [] ⟨trivial, rfl⟩
      | _ => exact .inr ⟨hfailed _, rfl⟩
    | number h decimal minimum maximum =>
      rw [convertNode, convertNumber]
      split
      · exact .inr ⟨hfailed _, rfl⟩
      · next n hn =>
        split
        · exact .inr ⟨hfailed _, rfl⟩
        · apply hleaf
          obtain ⟨rfl, hfinite⟩ := Value.finiteNumber?_eq_some.1 hn
          cases n with
          | int k => exact ⟨trivial, rfl⟩
          | float x => exact ⟨hfinite, rfl⟩
    | string h length pattern =>
      cases v with
      | str t => exact hleaf _ ⟨trivial, rfl⟩
      | _ => exact .inr ⟨hfailed _, rfl⟩
    | enum h values =>
      cases v with
      | str t => exact hleaf _ ⟨trivial, rfl⟩
      | _ => exact .inr ⟨hfailed _, rfl⟩
    | _ => cases hb

/-- What a conversion is to make of a node, given whether the node on its own is found in order. The
parts are made of the parts, each converted on its own. -/
inductive Saves [Host] (d : Direction) (passed : Prop) : Block → Value → Value → Prop
  | passed {b : Block} {v : Value} (leaf : b.kind.isLeaf = true) (ok : passed) : Saves d passed b v v
  | failed {b : Block} {v : Value} (leaf : b.kind.isLeaf = true) (bad : ¬ passed) :
    Saves d passed b v .null
  | array {h : Header} {value : Block} {length : Setting LengthRule} {v : Value} {xs : List Value}
    (items : d.items? v = some xs) :
    Saves d passed (.array h value length) v (.list (xs.map (value.saved d)))
  | noArray {h : Header} {value : Block} {length : Setting LengthRule} {v : Value}
    (none : d.items? v = none) : Saves d passed (.array h value length) v .null
  | tuple {h : Header} {items : List Block} {v : Value} {xs : List Value}
    (values : d.items? v = some xs) (count : xs.length = items.length) :
    Saves d passed (.tuple h items) v (.list (List.zipWith (saved d) items xs))
  | noTuple {h : Header} {items : List Block} {v : Value}
    (other : ∀ xs, d.items? v = some xs → xs.length ≠ items.length) :
    Saves d passed (.tuple h items) v .null
  | object {h : Header} {kind : KeyKind} {value : Block} {length : Setting LengthRule}
    {es kept : Entries}
    (entries : Gleaned (fun e e' => d.KeyAs kind e.1 e'.1 ∧ e'.2 = value.saved d e.2) es kept) :
    Saves d passed (.object h kind value length) (.dict es) (.dict kept)
  | noObject {h : Header} {kind : KeyKind} {value : Block} {length : Setting LengthRule} {v : Value}
    (none : ∀ es, v ≠ .dict es) : Saves d passed (.object h kind value length) v .null
  | map {h : Header} {fields : List (Text × Block)} {es present : Entries}
    (declared : Gleaned (fun e e' => ∃ name b, e.1 = .str name ∧ fields.lookup name = some b ∧
      e' = (.str name, b.saved d e.2)) es present) :
    Saves d passed (.map h fields) (.dict es) (.dict (present ++ absentFields fields es))
  | noMap {h : Header} {fields : List (Text × Block)} {v : Value} (none : ∀ es, v ≠ .dict es) :
    Saves d passed (.map h fields) v .null

/-- A walk that comes to its end has met no key that is too long. -/
theorem key?_ne_error [Host] {h : Header} {kind : KeyKind} {value : Block} {length : Setting LengthRule}
    {es : Entries} (hfree : NoHalt ((object h kind value length).convert d path (.dict es)).findings)
    {e : Value × Value} (he : e ∈ es) (f : Failure) : d.key? kind e.1 ≠ some (.error f) := by
  intro hkey
  apply hfree f
  rw [(findings_perm d path _ _).mem_iff]
  apply List.mem_append_left
  exact List.mem_append_right _
    (halt_mem_keyFindings_iff.2 ⟨e, he, Direction.key?_eq_error_iff.1 hkey⟩)

theorem saves_saved [Host] (hfree : NoHalt (b.convert d [] v).findings) :
    b.Saves d ((b.convert d [] v).findings = []) v (b.saved d v) := by
  have hleaf (hb : b.kind.isLeaf = true) :
      b.Saves d ((b.convert d [] v).findings = []) v (b.saved d v) := by
    rcases saved_leaf hb v with ⟨hclean, hsame, -⟩ | ⟨hfound, hnull⟩
    · rw [hsame]
      exact .passed hb hclean
    · rw [hnull]
      exact .failed hb hfound
  cases b with
  | flag h => exact hleaf rfl
  | number h decimal minimum maximum => exact hleaf rfl
  | string h length pattern => exact hleaf rfl
  | enum h values => exact hleaf rfl
  | array h value length =>
    cases hitems : d.items? v with
    | none =>
      rw [saved_array_of_no_items hitems]
      exact .noArray hitems
    | some xs =>
      rw [saved_array hitems]
      exact .array hitems
  | tuple h items =>
    by_cases hcount : ∃ xs, d.items? v = some xs ∧ xs.length = items.length
    · obtain ⟨xs, hitems, hcount⟩ := hcount
      rw [saved_tuple hitems hcount]
      exact .tuple hitems hcount
    · have hother : ∀ xs, d.items? v = some xs → xs.length ≠ items.length :=
        fun xs hxs hlength => hcount ⟨xs, hxs, hlength⟩
      rw [saved_tuple_of_no_items hother]
      exact .noTuple hother
  | object h kind value length =>
    by_cases hdict : ∃ es, v = .dict es
    · obtain ⟨es, rfl⟩ := hdict
      rw [saved_object]
      refine .object (gleaned_filterMap fun e he e' => ?_)
      rw [savedPair?_eq_some]
      constructor
      · rintro ⟨hkey, hvalue⟩
        obtain ⟨shown, hshown⟩ := Direction.key?_of_keyAs hkey (key?_ne_error hfree he)
        exact ⟨shown, hshown, hvalue⟩
      · rintro ⟨shown, hkey, hvalue⟩
        exact ⟨Direction.keyAs_of_key? hkey, hvalue⟩
    · have hnone : ∀ es, v ≠ .dict es := fun es hes => hdict ⟨es, hes⟩
      rw [saved_object_of_no_dict hnone]
      exact .noObject hnone
  | map h fields =>
    by_cases hdict : ∃ es, v = .dict es
    · obtain ⟨es, rfl⟩ := hdict
      rw [saved_map]
      exact .map (gleaned_filterMap fun e _ e' => savedField?_eq_some.symm)
    · have hnone : ∀ es, v ≠ .dict es := fun es hes => hdict ⟨es, hes⟩
      rw [saved_map_of_no_dict hnone]
      exact .noMap hnone

end Block

end DocShape
