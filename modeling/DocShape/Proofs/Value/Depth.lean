import DocShape.Proofs.Value.Parts

/-!
# How deep a value nests

`Value.depth` counts how many lists, tuples, sets and dictionaries stand inside each other. What stands
inside a value is less deep than the value (`Value.depth_lt_of_mem_parts`).
-/

namespace DocShape

namespace Value

mutual

/-- How many containers stand inside each other. -/
def depth : Value → Nat
  | list xs | tuple xs | set xs => itemsDepth xs + 1
  | dict es => entriesDepth es + 1
  | _ => 0
termination_by structural v => v

/-- The depth of the deepest item. -/
def itemsDepth : List Value → Nat
  | [] => 0
  | x :: xs => max (depth x) (itemsDepth xs)
termination_by structural xs => xs

/-- The depth of the deepest value of a dictionary. -/
def entriesDepth : List (Value × Value) → Nat
  | [] => 0
  | (_, v) :: rest => max (depth v) (entriesDepth rest)
termination_by structural es => es

end

section

variable (x : Value) (xs : List Value) (e : Value × Value) (es : Entries)

@[simp] theorem itemsDepth_nil : itemsDepth [] = 0 := rfl

@[simp] theorem itemsDepth_cons : itemsDepth (x :: xs) = max x.depth (itemsDepth xs) := rfl

@[simp] theorem entriesDepth_nil : entriesDepth [] = 0 := rfl

@[simp] theorem entriesDepth_cons : entriesDepth (e :: es) = max e.2.depth (entriesDepth es) := rfl

theorem depth_list : (list xs).depth = itemsDepth xs + 1 := rfl

theorem depth_tuple : (tuple xs).depth = itemsDepth xs + 1 := rfl

theorem depth_dict : (dict es).depth = entriesDepth es + 1 := rfl

end

theorem itemsDepth_le {xs : List Value} {n : Nat} : itemsDepth xs ≤ n ↔ ∀ x ∈ xs, x.depth ≤ n := by
  induction xs with
  | nil => simp
  | cons x xs ih => rw [itemsDepth_cons, Nat.max_le, ih, List.forall_mem_cons]

theorem entriesDepth_le {es : Entries} {n : Nat} :
    entriesDepth es ≤ n ↔ ∀ e ∈ es, e.2.depth ≤ n := by
  induction es with
  | nil => simp
  | cons e es ih => rw [entriesDepth_cons, Nat.max_le, ih, List.forall_mem_cons]

section

variable {xs : List Value} {es : Entries} {n : Nat}

@[simp] theorem depth_list_le : (list xs).depth ≤ n + 1 ↔ ∀ x ∈ xs, x.depth ≤ n := by
  rw [depth_list, Nat.succ_le_succ_iff, itemsDepth_le]

@[simp] theorem depth_tuple_le : (tuple xs).depth ≤ n + 1 ↔ ∀ x ∈ xs, x.depth ≤ n := by
  rw [depth_tuple, Nat.succ_le_succ_iff, itemsDepth_le]

@[simp] theorem depth_dict_le : (dict es).depth ≤ n + 1 ↔ ∀ e ∈ es, e.2.depth ≤ n := by
  rw [depth_dict, Nat.succ_le_succ_iff, entriesDepth_le]

theorem depth_list_pos : 0 < (list xs).depth := Nat.succ_pos _

theorem depth_tuple_pos : 0 < (tuple xs).depth := Nat.succ_pos _

theorem depth_dict_pos : 0 < (dict es).depth := Nat.succ_pos _

end

/-- What stands inside a value is less deep. -/
theorem depth_lt_of_mem_parts {v x : Value} (hx : x ∈ v.parts) : x.depth < v.depth := by
  cases v with
  | list xs => exact Nat.lt_succ_of_le (itemsDepth_le.1 (Nat.le_refl _) x hx)
  | tuple xs => exact Nat.lt_succ_of_le (itemsDepth_le.1 (Nat.le_refl _) x hx)
  | set xs => exact Nat.lt_succ_of_le (itemsDepth_le.1 (Nat.le_refl _) x hx)
  | dict es =>
    obtain ⟨e, he, rfl⟩ := List.mem_map.1 hx
    exact Nat.lt_succ_of_le (entriesDepth_le.1 (Nat.le_refl _) e he)
  | _ => cases hx

theorem depth_le_one_of_leaf {v : Value} (h : v.parts = []) : v.depth ≤ 1 := by
  cases v with
  | list xs =>
    obtain rfl : xs = [] := h
    exact le_rfl
  | tuple xs =>
    obtain rfl : xs = [] := h
    exact le_rfl
  | set xs =>
    obtain rfl : xs = [] := h
    exact le_rfl
  | dict es =>
    obtain rfl : es = [] := List.map_eq_nil_iff.1 h
    exact le_rfl
  | _ => exact Nat.zero_le 1

theorem itemsDepth_map {f : Value → Value} {xs : List Value} (h : ∀ x ∈ xs, (f x).depth = x.depth) :
    itemsDepth (xs.map f) = itemsDepth xs := by
  induction xs with
  | nil => rfl
  | cons x xs ih =>
    obtain ⟨hx, hxs⟩ := List.forall_mem_cons.1 h
    rw [List.map_cons, itemsDepth_cons, itemsDepth_cons, hx, ih hxs]

theorem entriesDepth_map {key f : Value → Value} {es : Entries}
    (h : ∀ e ∈ es, (f e.2).depth = e.2.depth) :
    entriesDepth (es.map fun e => (key e.1, f e.2)) = entriesDepth es := by
  induction es with
  | nil => rfl
  | cons e es ih =>
    obtain ⟨he, hes⟩ := List.forall_mem_cons.1 h
    rw [List.map_cons, entriesDepth_cons, entriesDepth_cons, he, ih hes]

end Value

end DocShape
