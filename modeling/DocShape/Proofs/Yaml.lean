import DocShape.Proofs.Keyed
import DocShape.Yaml.Reader

/-!
# What YAML holds

Whatever is read from YAML has no dictionary with a key twice (`Yaml.keyed_read`), and no key of any
dictionary or set is one that has no hash.
-/

namespace DocShape

namespace Yaml

theorem Scalar.keyed_value (tag : Tag) (t : Text) : Yields Value.Keyed (Scalar.value tag t) := by
  have hleaf {v : Value} (h : v.parts = []) : v.Keyed := by
    refine .leaf ?_ h
    cases v with
    | dict es =>
      obtain rfl : es = [] := List.map_eq_nil_iff.1 h
      exact .nil
    | _ => trivial
  unfold Scalar.value
  split
  · exact .ok (hleaf rfl)
  · exact ((Yields.anything _).map fun _ _ => hleaf rfl).mapError _
  · exact ((Yields.anything _).map fun _ _ => hleaf rfl).mapError _
  · exact ((Yields.anything _).map fun _ _ => hleaf rfl).mapError _
  · refine Yields.mapError _ ?_
    unfold time
    split
    · exact .error _
    · split
      · exact (Yields.anything _).map fun _ _ => hleaf rfl
      · exact (Yields.anything _).map fun _ _ => hleaf rfl
  · split
    · exact .ok (hleaf rfl)
    · exact .error _
  · exact .ok (hleaf rfl)
  · exact .error _

/-- Neither the key nor the value of an entry has a dictionary with a key twice. -/
def Entry.IsKeyed (e : Entry) : Prop := Yields Value.Keyed e.1 ∧ Yields Value.Keyed e.2

/-- Nothing that a node gives has a dictionary with a key twice. -/
structure Reading.IsKeyed (r : Reading) : Prop where
  value : Yields Value.Keyed r.value
  entries : ∀ es, r.entries = some es → Yields (fun es => ∀ e ∈ es, Entry.IsKeyed e) es
  merged : Yields (fun es => ∀ e ∈ es, Entry.IsKeyed e) r.merged
  single : ∀ e, r.single = some e → e.IsKeyed

namespace Deep

variable {α β : Type} {p : α → Prop} {q : β → Prop}

theorem yields_below {x : Deep α} (h : Yields p x) : Yields p (below x) := by
  cases x with
  | error f => exact .error _
  | ok a => exact h

theorem yields_both {x : Deep α} {y : Deep β} (hx : Yields p x) (hy : Yields q y) :
    Yields (fun r => p r.1 ∧ q r.2) (both x y) := by
  cases x with
  | error f => cases y <;> exact .error _
  | ok a =>
    cases y with
    | error f => exact .error _
    | ok b => exact .ok ⟨hx a rfl, hy b rfl⟩

theorem yields_all {xs : List (Deep α)} (h : ∀ x ∈ xs, Yields p x) :
    Yields (fun as => ∀ a ∈ as, p a) (all xs) := by
  induction xs with
  | nil => exact .ok fun a ha => absurd ha List.not_mem_nil
  | cons x xs ih =>
    obtain ⟨hx, hxs⟩ := List.forall_mem_cons.1 h
    exact (yields_both hx (ih hxs)).map fun r hr => List.forall_mem_cons.2 hr

end Deep

namespace Reading

theorem put_eq (k v : Value) (es : Entries) : put k v es = Entries.putBy sameKey k v es := by
  induction es with
  | nil => rfl
  | cons e es ih => rw [put, Entries.putBy, ih]

theorem equals_of_sameKey (a b : Value) (h : sameKey a b = false) : a.equals b = false := by
  unfold sameKey at h
  split at h
  · cases h
  · exact h

theorem keyed_key {x : Deep Value} (h : Yields Value.Keyed x) : Yields Value.Keyed (key x) := by
  cases x with
  | error f =>
    obtain ⟨depth, fault⟩ := f
    cases depth <;> exact .error _
  | ok v =>
    rw [key]
    split
    · exact h
    · exact .error _

theorem keyed_dictionary {es : List Entry} (h : ∀ e ∈ es, e.IsKeyed) :
    Yields Entries.IsKeyed (dictionary es) := by
  refine (Deep.yields_all (p := fun r => r.1.Keyed ∧ r.2.Keyed) (List.forall_mem_map.2 fun e he =>
    Deep.yields_both (keyed_key (h e he).1) (h e he).2)).map fun pairs hpairs => ?_
  simp only [put_eq]
  exact Entries.isKeyed_foldl equals_of_sameKey Entries.isKeyed_nil hpairs

theorem keyed_ofText (tag : Tag) (text : Option Text) : Yields Value.Keyed (ofText tag text) := by
  unfold ofText
  split
  iterate 5 exact .error _
  · exact (Scalar.keyed_value _ _).mapError _
  · exact .error _

theorem isKeyed_scalar (tag : Tag) (t : Text) : (scalar tag t).IsKeyed where
  value := keyed_ofText tag _
  entries := nofun
  merged := .error _
  single := nofun

theorem keyed_pair {item : Reading} (h : item.IsKeyed) : Yields Value.Keyed (pair item) := by
  unfold pair
  split
  · next k v hsingle =>
    have hitem := h.single (k, v) hsingle
    refine (Deep.yields_both hitem.1 hitem.2).map fun r hr => Value.Keyed.tuple_iff.2 ?_
    simpa using hr
  · exact .error _

theorem isKeyed_sequence (tag : Tag) {items : List Reading} (h : ∀ r ∈ items, r.IsKeyed) :
    (sequence tag items).IsKeyed where
  value := by
    have hitems := Deep.yields_all (List.forall_mem_map.2 fun r hr => (h r hr).value)
    have hpairs := Deep.yields_all (List.forall_mem_map.2 fun r hr => keyed_pair (h r hr))
    unfold sequence
    dsimp only
    split
    · exact Deep.yields_below (hitems.map fun _ hvs => Value.Keyed.list_iff.2 hvs)
    · exact Deep.yields_below (hpairs.map fun _ hvs => Value.Keyed.list_iff.2 hvs)
    · exact Deep.yields_below (hpairs.map fun _ hvs => Value.Keyed.list_iff.2 hvs)
    · exact keyed_ofText _ _
  entries := nofun
  merged := by
    refine (Yields.mapM (q := fun es => ∀ e ∈ es, Entry.IsKeyed e) fun r hr => ?_).map
      fun lists hlists e he => ?_
    · cases hentries : r.entries with
      | none => exact .error _
      | some es => exact (h r hr).entries es hentries
    · obtain ⟨es, hes, he⟩ := List.mem_flatten.1 he
      exact hlists es (List.mem_reverse.1 hes) e he
  single := nofun

theorem isKeyed_merge {entries : List (Tag × Reading × Reading)}
    (h : ∀ e ∈ entries, e.2.1.IsKeyed ∧ e.2.2.IsKeyed) :
    Yields (fun es => ∀ e ∈ es, Entry.IsKeyed e) (merge entries) := by
  refine (Yields.mapM (q := fun es => ∀ e ∈ es, Entry.IsKeyed e) fun e he =>
    (h e (List.mem_of_mem_filter he)).2.merged).bind fun lists hlists => .ok ?_
  refine List.forall_mem_append.2 ⟨fun e he => ?_, List.forall_mem_map.2 fun e he => ?_⟩
  · obtain ⟨es, hes, he⟩ := List.mem_flatten.1 he
    exact hlists es hes e he
  · obtain ⟨hkey, hvalue⟩ := h e (List.mem_of_mem_filter he)
    refine ⟨?_, hvalue.value⟩
    dsimp only
    split
    · exact keyed_ofText _ _
    · exact hkey.value

theorem isKeyed_mapping (tag : Tag) {entries : List (Tag × Reading × Reading)}
    (h : ∀ e ∈ entries, e.2.1.IsKeyed ∧ e.2.2.IsKeyed) : (mapping tag entries).IsKeyed where
  value := by
    have hdict : Yields Entries.IsKeyed
        (((merge entries).mapError fun fault => (0, fault)).bind dictionary) :=
      ((isKeyed_merge h).mapError _).bind fun es hes => keyed_dictionary hes
    unfold mapping
    dsimp only
    split
    · exact Deep.yields_below (hdict.map fun _ hes => hes.keyed_dict)
    · refine Deep.yields_below (hdict.map fun es hes => ⟨trivial, ?_⟩)
      exact List.forall_mem_map.2 fun e he => (hes.2 e he).1
    · exact keyed_ofText _ _
  entries := fun es hes => Option.some.inj hes ▸ isKeyed_merge h
  merged := isKeyed_merge h
  single := by
    intro e he
    unfold mapping at he
    dsimp only at he
    split at he
    · next a =>
      obtain rfl := Option.some.inj he
      exact ⟨(h a List.mem_cons_self).1.value, (h a List.mem_cons_self).2.value⟩
    · cases he

end Reading

namespace Node

mutual

theorem isKeyed_reading : (node : Node) → node.reading.IsKeyed
  | .scalar tag t => Reading.isKeyed_scalar tag t
  | .sequence tag items => Reading.isKeyed_sequence tag (isKeyed_readings items)
  | .mapping tag entries => Reading.isKeyed_mapping tag (isKeyed_entryReadings entries)
termination_by structural node => node

theorem isKeyed_readings : (nodes : List Node) → ∀ r ∈ readings nodes, r.IsKeyed
  | [] => fun _ h => absurd h List.not_mem_nil
  | node :: rest => List.forall_mem_cons.2 ⟨isKeyed_reading node, isKeyed_readings rest⟩
termination_by structural nodes => nodes

theorem isKeyed_entryReadings : (entries : List (Node × Node)) →
    ∀ e ∈ entryReadings entries, e.2.1.IsKeyed ∧ e.2.2.IsKeyed
  | [] => fun _ h => absurd h List.not_mem_nil
  | (k, v) :: rest => List.forall_mem_cons.2
      ⟨⟨isKeyed_reading k, isKeyed_reading v⟩, isKeyed_entryReadings rest⟩
termination_by structural entries => entries

end

end Node

theorem keyed_read (t : Text) : Yields Value.Keyed (read t) := by
  refine (Yields.anything _).bind fun tokens _ => (Yields.anything _).bind fun node? _ => ?_
  cases node? with
  | none => exact .ok (.leaf trivial rfl)
  | some node => exact (node.isKeyed_reading.value).mapError _

end Yaml

end DocShape
