import DocShape.Proofs.Text.Digits
import DocShape.Proofs.Value.Parts

/-!
# What a document keeps of a value

A document has no tuples and no keys but texts. `Value.spelled` is a value as a document has it: tuples
are lists, and integer keys are the texts that spell them. `Value.IsPlain` says that nothing else
stands in the way of writing a value, and `Value.HasDigits` that its integers are within the digit
limit.

`Value.listed` replaces the tuples alone. Both are `Value.recast` with a rule for keys.
-/

namespace DocShape

namespace Value

mutual

/-- A value with lists for its tuples and with other keys. -/
def recast (key : Value → Value) : Value → Value
  | list xs => list (recastItems key xs)
  | tuple xs => list (recastItems key xs)
  | dict es => dict (recastEntries key es)
  | v => v
termination_by structural v => v

/-- Items with lists for their tuples and with other keys. -/
def recastItems (key : Value → Value) : List Value → List Value
  | [] => []
  | x :: xs => recast key x :: recastItems key xs
termination_by structural v => v

/-- Entries with lists for their tuples and with other keys. -/
def recastEntries (key : Value → Value) : List (Value × Value) → List (Value × Value)
  | [] => []
  | (k, v) :: rest => (key k, recast key v) :: recastEntries key rest
termination_by structural v => v

end

section Recast

variable (key : Value → Value)

theorem recastItems_eq (xs : List Value) : recastItems key xs = xs.map (recast key) := by
  induction xs with
  | nil => rfl
  | cons x xs ih => rw [recastItems, ih, List.map_cons]

theorem recastEntries_eq (es : Entries) :
    recastEntries key es = es.map fun e => (key e.1, recast key e.2) := by
  induction es with
  | nil => rfl
  | cons e es ih => rw [recastEntries, ih, List.map_cons]

theorem recast_list (xs : List Value) : recast key (list xs) = list (xs.map (recast key)) := by
  rw [recast, recastItems_eq]

theorem recast_tuple (xs : List Value) : recast key (tuple xs) = list (xs.map (recast key)) := by
  rw [recast, recastItems_eq]

theorem recast_dict (es : Entries) :
    recast key (dict es) = dict (es.map fun e => (key e.1, recast key e.2)) := by
  rw [recast, recastEntries_eq]

end Recast

/-- A key of a dictionary as a document has it. -/
def spelledKey : Value → Value
  | int n => str (Text.ofInt n)
  | k => k

/-- A value as a document has it: tuples are lists, and integer keys are spelled out. -/
def spelled (v : Value) : Value := recast spelledKey v

theorem spelled_list (xs : List Value) : (list xs).spelled = list (xs.map spelled) :=
  recast_list spelledKey xs

theorem spelled_dict (es : Entries) :
    (dict es).spelled = dict (es.map fun e => (e.1.spelledKey, e.2.spelled)) :=
  recast_dict spelledKey es

/-- A value with lists for its tuples. -/
def listed (v : Value) : Value := recast id v

theorem listed_list (xs : List Value) : (list xs).listed = list (xs.map listed) :=
  recast_list id xs

theorem listed_tuple (xs : List Value) : (tuple xs).listed = list (xs.map listed) :=
  recast_tuple id xs

theorem listed_dict (es : Entries) :
    (dict es).listed = dict (es.map fun e => (e.1, e.2.listed)) :=
  recast_dict id es

/-! ## Tuples -/

/-- Tuples and lists have the same keys inside. -/
theorem keyed_of_listed {v : Value} (h : v.listed.Keyed) : v.Keyed := by
  induction v using Value.partsInduction with
  | step v ih =>
    cases v with
    | list xs =>
      rw [listed_list] at h
      exact ⟨trivial, fun x hx => ih x hx (h.item (List.mem_map_of_mem hx))⟩
    | tuple xs =>
      rw [listed_tuple] at h
      exact ⟨trivial, fun x hx => ih x hx (h.item (List.mem_map_of_mem hx))⟩
    | dict es =>
      rw [listed_dict] at h
      refine ⟨List.pairwise_map.1 h.here, fun x hx => ?_⟩
      obtain ⟨e, he, rfl⟩ := List.mem_map.1 hx
      exact ih e.2 hx (h.entry (List.mem_map_of_mem he))
    | set xs => exact h
    | _ => exact .leaf trivial rfl

/-! ## Values that can be written -/

/-- What the form of documents has a place for, with names that stay apart. -/
def PlainNode : Value → Prop
  | null | bool _ | int _ | str _ | list _ | tuple _ => True
  | float x => x.isFinite = true
  | dict es => (∀ e ∈ es, ∃ t, e.1.spelledKey = str t) ∧ (es.map fun e => e.1.spelledKey).Nodup
  | _ => False

/-- A document has a place for a value: scalars with finite numbers, lists, tuples, and dictionaries
whose keys are texts and integers that are spelled apart. -/
def IsPlain : Value → Prop := Everywhere PlainNode

/-- An integer at one place is within the digit limit. -/
def IntDigitsNode : Value → Prop
  | int n => Text.HasDigits n
  | _ => True

/-- The integer keys at one place are within the digit limit. -/
def KeyDigitsNode : Value → Prop
  | dict es => ∀ e ∈ es, ∀ n, e.1 = int n → Text.HasDigits n
  | _ => True

/-- All integers of a value that are no keys are within the digit limit. -/
def IntDigits : Value → Prop := Everywhere IntDigitsNode

/-- All integer keys in a value are within the digit limit. -/
def KeyDigits : Value → Prop := Everywhere KeyDigitsNode

/-- All integers of a value, keys or not, are within the digit limit. -/
def HasDigits : Value → Prop := Everywhere fun v => v.IntDigitsNode ∧ v.KeyDigitsNode

/-- A plain value is, as a document has it, what a document can hold. -/
theorem IsPlain.isDocument_spelled {v : Value} (h : v.IsPlain) : v.spelled.IsDocument := by
  induction v using Value.partsInduction with
  | step v ih =>
    cases v with
    | list xs =>
      rw [spelled_list]
      refine ⟨trivial, fun x hx => ?_⟩
      obtain ⟨y, hy, rfl⟩ := List.mem_map.1 hx
      exact ih y hy (h.inside y hy)
    | tuple xs =>
      rw [spelled, recast_tuple]
      refine ⟨trivial, fun x hx => ?_⟩
      obtain ⟨y, hy, rfl⟩ := List.mem_map.1 hx
      exact ih y hy (h.inside y hy)
    | dict es =>
      rw [spelled_dict]
      refine ⟨⟨fun e' he' => ?_, ?_⟩, fun x hx => ?_⟩
      · obtain ⟨e, he, rfl⟩ := List.mem_map.1 he'
        exact h.here.1 e he
      · rw [List.map_map]
        exact h.here.2
      · obtain ⟨e', he', rfl⟩ := List.mem_map.1 hx
        obtain ⟨e, he, rfl⟩ := List.mem_map.1 he'
        exact ih e.2 (List.mem_map_of_mem he) (h.entry he)
    | float x => exact .leaf h.here rfl
    | bytes => exact h.here.elim
    | date => exact h.here.elim
    | moment => exact h.here.elim
    | set => exact h.here.elim
    | _ => exact .leaf trivial rfl

/-- What a document can hold is plain. -/
theorem IsDocument.isPlain {v : Value} (h : v.IsDocument) : v.IsPlain := by
  refine Everywhere.mono (fun v hv => ?_) h
  cases v with
  | dict es =>
    have hkeys : ∀ e ∈ es, e.1.spelledKey = e.1 := by
      intro e he
      obtain ⟨t, ht⟩ := hv.1 e he
      rw [ht]
      rfl
    refine ⟨fun e he => ?_, ?_⟩
    · rw [hkeys e he]
      exact hv.1 e he
    · rw [List.map_congr_left hkeys]
      exact hv.2
  | tuple => exact hv.elim
  | _ => exact hv

/-- What a document can hold is, as a document has it, the same value. -/
theorem IsDocument.spelled_eq {v : Value} (h : v.IsDocument) : v.spelled = v := by
  induction v using Value.partsInduction with
  | step v ih =>
    cases v with
    | list xs =>
      have hitem : ∀ x ∈ xs, x.spelled = x := fun x hx => ih x hx (h.item hx)
      rw [spelled_list, List.map_congr_left hitem, List.map_id']
    | dict es =>
      have hentry : ∀ e ∈ es, (e.1.spelledKey, e.2.spelled) = e := by
        intro e he
        obtain ⟨t, ht⟩ := h.here.1 e he
        have hkey : e.1.spelledKey = e.1 := by rw [ht]; rfl
        rw [hkey, ih e.2 (List.mem_map_of_mem he) (h.entry he)]
      rw [spelled_dict, List.map_congr_left hentry, List.map_id']
    | tuple => exact h.here.elim
    | _ => rfl

/-- The keys of a document are texts. -/
theorem IsDocument.hasDigits {v : Value} (h : v.IsDocument) (hd : v.IntDigits) : v.HasDigits := by
  refine hd.and (Everywhere.mono (fun v hv => ?_) h)
  cases v with
  | dict es =>
    intro e he n hn
    obtain ⟨t, ht⟩ := hv.1 e he
    rw [ht] at hn
    cases hn
  | _ => trivial

end Value

end DocShape
