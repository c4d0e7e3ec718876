import DocShape.Proofs.Value.Recast
import DocShape.Proofs.Listing.Finding

/-!
# Values that have a literal

A message can quote a value unless an integer in it, in a key or anywhere else, is beyond the digit
limit. `Value.ShortInts` says that none is, and these are the values with a literal
(`literal?_eq_none_iff_not_shortInts`) and with a form for messages (`display?_eq_none_iff`).
-/

namespace DocShape

namespace Value

/-- Every integer in a value is within the digit limit, be it in a key or elsewhere. -/
inductive ShortInts : Value → Prop
  | intro {v : Value} (here : v.IntDigitsNode) (inside : ∀ x ∈ v.contents, ShortInts x) :
    ShortInts v

namespace ShortInts

variable {v : Value} {es : Entries}

theorem here (h : v.ShortInts) : v.IntDigitsNode := by
  cases h with
  | intro here _ => exact here

theorem inside (h : v.ShortInts) : ∀ x ∈ v.contents, ShortInts x := by
  cases h with
  | intro _ inside => exact inside

theorem key (h : (dict es).ShortInts) {e : Value × Value} (he : e ∈ es) : e.1.ShortInts :=
  h.inside _ (List.mem_append_left _ (List.mem_map_of_mem he))

theorem value (h : (dict es).ShortInts) {e : Value × Value} (he : e ∈ es) : e.2.ShortInts :=
  h.inside _ (List.mem_append_right _ (List.mem_map_of_mem he))

theorem part (h : v.ShortInts) {x : Value} (hx : x ∈ v.parts) : x.ShortInts := by
  cases v with
  | dict es =>
    obtain ⟨e, he, rfl⟩ := List.mem_map.1 hx
    exact h.value he
  | list xs => exact h.inside x hx
  | tuple xs => exact h.inside x hx
  | set xs => exact h.inside x hx
  | _ => cases hx

theorem leaf {v : Value} (h : v.IntDigitsNode) (hv : v.contents = []) : v.ShortInts :=
  ⟨h, fun x hx => absurd hx (by rw [hv]; exact List.not_mem_nil)⟩

@[simp] theorem of_null : null.ShortInts := .leaf trivial rfl

@[simp] theorem of_bool (b : Bool) : (bool b).ShortInts := .leaf trivial rfl

@[simp] theorem of_float (x : Binary64) : (float x).ShortInts := .leaf trivial rfl

@[simp] theorem of_str (t : Text) : (str t).ShortInts := .leaf trivial rfl

@[simp] theorem int_iff {n : Int} : (int n).ShortInts ↔ Text.HasDigits n :=
  ⟨here, fun h => .leaf h rfl⟩

@[simp] theorem list_iff {xs : List Value} : (list xs).ShortInts ↔ ∀ x ∈ xs, x.ShortInts :=
  ⟨inside, fun h => ⟨trivial, h⟩⟩

@[simp] theorem tuple_iff {xs : List Value} : (tuple xs).ShortInts ↔ ∀ x ∈ xs, x.ShortInts :=
  ⟨inside, fun h => ⟨trivial, h⟩⟩

@[simp] theorem dict_iff {es : Entries} :
    (dict es).ShortInts ↔ ∀ e ∈ es, e.1.ShortInts ∧ e.2.ShortInts := by
  refine ⟨fun h e he => ⟨h.key he, h.value he⟩, fun h => ⟨trivial, fun x hx => ?_⟩⟩
  rcases List.mem_append.1 hx with hx | hx
  · obtain ⟨e, he, rfl⟩ := List.mem_map.1 hx
    exact (h e he).1
  · obtain ⟨e, he, rfl⟩ := List.mem_map.1 hx
    exact (h e he).2

end ShortInts

theorem literals?_eq_none_iff {xs : List Value} :
    literals? xs = none ↔ ∃ x ∈ xs, x.literal? = none := by
  induction xs with
  | nil => simp [literals?]
  | cons x xs ih =>
    rw [literals?, List.exists_mem_cons_iff, ← ih]
    cases x.literal? <;> cases literals? xs <;> simp

theorem entryLiterals?_eq_none_iff {es : Entries} :
    entryLiterals? es = none ↔ ∃ e ∈ es, e.1.literal? = none ∨ e.2.literal? = none := by
  induction es with
  | nil => simp [entryLiterals?]
  | cons e es ih =>
    obtain ⟨k, v⟩ := e
    rw [entryLiterals?, List.exists_mem_cons_iff, ← ih]
    cases k.literal? <;> cases v.literal? <;> cases entryLiterals? es <;> simp

theorem wrap_eq_none_iff {α : Type} {o : Option α} {wrap : α → Text} :
    (do return wrap (← o)) = none ↔ o = none := by
  cases o <;> simp

/-- A value has no literal if it is a huge integer itself, or if something in it has none. -/
theorem literal?_eq_none_iff {v : Value} :
    v.literal? = none ↔ ¬ v.IntDigitsNode ∨ ∃ x ∈ v.contents, x.literal? = none := by
  cases v with
  | bool b => cases b <;> simp [literal?, IntDigitsNode, contents]
  | int n =>
    rw [literal?, Text.ofIntLimited?_eq]
    simp [IntDigitsNode, contents]
  | list xs =>
    rw [literal?, wrap_eq_none_iff, literals?_eq_none_iff]
    simp [IntDigitsNode, contents]
  | tuple xs =>
    -- a tuple of one item is written in a way of its own
    match xs with
    | [] => simp [literal?, IntDigitsNode, contents]
    | [x] =>
      rw [literal?, wrap_eq_none_iff]
      simp [IntDigitsNode, contents]
    | x :: y :: xs =>
      rw [literal?, wrap_eq_none_iff, literals?_eq_none_iff]
      · simp [IntDigitsNode, contents]
      · exact fun h => by cases h
      · exact fun x h => by cases h
  | set xs =>
    match xs with
    | [] => simp [literal?, IntDigitsNode, contents]
    | x :: xs =>
      rw [literal?, wrap_eq_none_iff, literals?_eq_none_iff]
      · simp [IntDigitsNode, contents]
      · exact fun h => by cases h
  | dict es =>
    rw [literal?, wrap_eq_none_iff, entryLiterals?_eq_none_iff]
    simp only [IntDigitsNode, contents, not_true_eq_false, false_or, List.mem_append,
      List.mem_map, and_or_left, or_and_right, exists_or, exists_exists_and_eq_and]
  | _ => simp [literal?, IntDigitsNode, contents]

/-- The values without a literal are those that hold a huge integer. -/
theorem literal?_eq_none_iff_not_shortInts {v : Value} : v.literal? = none ↔ ¬ v.ShortInts := by
  induction v using contentsInduction with
  | step v ih =>
    rw [literal?_eq_none_iff]
    constructor
    · rintro (hnode | ⟨x, hx, hnone⟩) h
      · exact hnode h.here
      · exact (ih x hx).1 hnone (h.inside x hx)
    · intro h
      by_contra hnone
      obtain ⟨hnode, hinside⟩ := not_or.1 hnone
      refine h ⟨not_not.1 hnode, fun x hx => ?_⟩
      by_contra hshort
      exact hinside ⟨x, hx, (ih x hx).2 hshort⟩

/-- A message can quote a value unless the value holds a huge integer. -/
theorem display?_eq_none_iff {v : Value} : v.display? = none ↔ ¬ v.ShortInts := by
  have leaf {v : Value} {t : Text} (h : v.ShortInts) : some t = none ↔ ¬ v.ShortInts :=
    iff_of_false (fun hnone => by cases hnone) (not_not.2 h)
  cases v with
  | str t => exact leaf (.of_str t)
  | date d => exact leaf (.leaf trivial rfl)
  | moment m => exact leaf (.leaf trivial rfl)
  | _ => exact literal?_eq_none_iff_not_shortInts

theorem exists_display {v : Value} (h : v.ShortInts) : ∃ t, v.display? = some t :=
  Option.ne_none_iff_exists'.1 fun hnone => display?_eq_none_iff.1 hnone h

end Value

end DocShape
