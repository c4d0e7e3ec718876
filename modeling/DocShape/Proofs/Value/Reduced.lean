import DocShape.Json.Writer
import DocShape.Proofs.Number.Reduced
import DocShape.Proofs.Value.Parts

/-!
# Values with their numbers in reduced form

`Value.reduced` puts every number of a value but those in keys into its reduced form. Values whose
reduced forms are equal differ in how their numbers are represented and in nothing else, and are
written, or not, alike (`agree_text_reduced`).
-/

namespace DocShape

namespace Value

mutual

/-- A value with its numbers in reduced form, keys apart. -/
def reduced : Value → Value
  | float x => ofNumber (Number.float x).reduced
  | list xs => list (reducedItems xs)
  | tuple xs => tuple (reducedItems xs)
  | set xs => set (reducedItems xs)
  | dict es => dict (reducedEntries es)
  | v => v
termination_by structural v => v

/-- Items with their numbers in reduced form. -/
def reducedItems : List Value → List Value
  | [] => []
  | x :: xs => reduced x :: reducedItems xs
termination_by structural v => v

/-- Entries with the numbers of their values in reduced form. -/
def reducedEntries : List (Value × Value) → List (Value × Value)
  | [] => []
  | (k, v) :: rest => (k, reduced v) :: reducedEntries rest
termination_by structural v => v

end

theorem reducedItems_eq (xs : List Value) : reducedItems xs = xs.map reduced := by
  induction xs with
  | nil => rfl
  | cons x xs ih => rw [reducedItems, ih, List.map_cons]

theorem reducedEntries_eq (es : Entries) :
    reducedEntries es = es.map fun e => (e.1, e.2.reduced) := by
  induction es with
  | nil => rfl
  | cons e es ih => rw [reducedEntries, ih, List.map_cons]

theorem reduced_list (xs : List Value) : (list xs).reduced = list (xs.map reduced) :=
  congrArg list (reducedItems_eq xs)

theorem reduced_tuple (xs : List Value) : (tuple xs).reduced = tuple (xs.map reduced) :=
  congrArg tuple (reducedItems_eq xs)

theorem reduced_set (xs : List Value) : (set xs).reduced = set (xs.map reduced) :=
  congrArg set (reducedItems_eq xs)

theorem reduced_dict (es : Entries) :
    (dict es).reduced = dict (es.map fun e => (e.1, e.2.reduced)) :=
  congrArg dict (reducedEntries_eq es)

theorem reduced_float (x : Binary64) : (float x).reduced = ofNumber (Number.float x).reduced := rfl

theorem reduced_ofNumber (n : Number) : (ofNumber n).reduced = ofNumber n.reduced := by
  cases n <;> rfl

/-- What holds of a double and of all integers holds of the double in reduced form. -/
@[elab_as_elim]
theorem reducedFloatCases {motive : Value → Prop} {x : Binary64} (double : motive (float x))
    (integer : ∀ n, motive (int n)) : motive (float x).reduced := by
  cases hx : x.isIntegral with
  | false =>
    rw [reduced_float, Number.reduced_of_fraction hx]
    exact double
  | true =>
    obtain ⟨negative, m, rfl, -, hreduced⟩ := Number.exists_of_isIntegral hx
    rw [reduced_float, hreduced]
    exact integer _

theorem reduced_float_of_int {x : Binary64} {n : Int} (h : (Number.float x).reduced = .int n) :
    (float x).reduced = int n := by
  rw [reduced_float, h]
  rfl

/-! ## What a reduced value is -/

@[simp] theorem number?_reduced (v : Value) : v.reduced.number? = v.number?.map Number.reduced := by
  cases v with
  | float x =>
    show (ofNumber (Number.float x).reduced).number? = some (Number.float x).reduced
    cases (Number.float x).reduced <;> rfl
  | _ => rfl

@[simp] theorem finiteNumber?_reduced (v : Value) :
    v.reduced.finiteNumber? = v.finiteNumber?.map Number.reduced := by
  rw [finiteNumber?, finiteNumber?, number?_reduced]
  cases v.number? with
  | none => rfl
  | some n => simp [Option.filter, apply_ite]

theorem reduced_eq_null {v : Value} : v.reduced = null ↔ v = null := by
  cases v with
  | float x => exact reducedFloatCases (iff_of_false nofun nofun) fun _ => iff_of_false nofun nofun
  | null => exact iff_of_true rfl rfl
  | _ => exact iff_of_false nofun nofun

end Value

namespace Entries

theorem get?_map_values (f : Value → Value) (name : Text) (es : Entries) :
    get? name (es.map fun e => (e.1, f e.2)) = (get? name es).map f := by
  induction es with
  | nil => rfl
  | cons e es ih =>
    obtain ⟨k, v⟩ := e
    cases k with
    | str t =>
      rw [List.map_cons, get?, get?]
      split
      · rfl
      · exact ih
    | _ => exact ih

theorem has_map_values (f : Value → Value) (name : Text) (es : Entries) :
    has (es.map fun e => (e.1, f e.2)) name = has es name := by
  rw [has, has, get?_map_values, Option.isSome_map]

end Entries

/-! ## Writing -/

namespace Json

variable {style : Style}

/-- A double without a fraction is written, and so is its integer. -/
theorem agree_float_reduced (depth : Nat) (x : Binary64) :
    Agree (fun _ _ => True) (text style depth (Value.float x).reduced) (floatText style x) := by
  cases hx : x.isIntegral with
  | false =>
    have hsame : (Value.float x).reduced = .float x := by
      rw [Value.reduced_float, Number.reduced_of_fraction hx]
      rfl
    rw [hsame]
    exact .of_eq (fun _ => trivial) rfl
  | true =>
    obtain ⟨negative, m, rfl, -, hreduced⟩ := Number.exists_of_isIntegral hx
    -- the integer is within the digit limit, since it is shown like the double
    have hshown : ∃ t, Text.ofIntLimited? (if negative then -(m.floor : ℤ) else m.floor) = some t := by
      have h := Number.shown?_reduced (.float (.finite negative m))
      rw [hreduced, Number.shown?, Number.shown?, if_pos hx] at h
      cases negative <;> exact ⟨_, h⟩
    obtain ⟨t, ht⟩ := hshown
    rw [Value.reduced_float, hreduced]
    show Agree (fun _ _ => True) (intText _) (.ok _)
    rw [intText, ht]
    exact .ok trivial

theorem agree_itemTexts_reduced {xs : List Value} (depth : Nat)
    (hxs : ∀ x ∈ xs, ∀ depth, Agree (fun _ _ => True) (text style depth x.reduced) (text style depth x)) :
    Agree (fun _ _ => True) (itemTexts style depth (xs.map Value.reduced)) (itemTexts style depth xs) := by
  induction xs with
  | nil => exact .ok trivial
  | cons x xs ih =>
    obtain ⟨hx, hxs⟩ := List.forall_mem_cons.1 hxs
    rw [List.map_cons, itemTexts, itemTexts]
    refine (hx depth).bind fun _ _ _ => ?_
    exact (ih hxs).bind fun _ _ _ => .ok trivial

theorem agree_memberTexts_reduced {es : Entries} (depth : Nat)
    (hes : ∀ x ∈ es.map Prod.snd, ∀ depth,
      Agree (fun _ _ => True) (text style depth x.reduced) (text style depth x)) :
    Agree (fun _ _ => True) (memberTexts style depth (es.map fun e => (e.1, e.2.reduced)))
      (memberTexts style depth es) := by
  induction es with
  | nil => exact .ok trivial
  | cons e es ih =>
    obtain ⟨k, v⟩ := e
    obtain ⟨hv, hes⟩ := List.forall_mem_cons.1 hes
    rw [List.map_cons, memberTexts, memberTexts]
    have hname : Agree (fun _ _ => True) (nameOfKey style k) (nameOfKey style k) :=
      .of_eq (fun _ => trivial) rfl
    refine hname.bind fun _ _ _ => ?_
    refine (hv depth).bind fun _ _ _ => ?_
    exact (ih hes).bind fun _ _ _ => .ok trivial

/-- A value is written, or refused for one reason, however its numbers are represented. -/
theorem agree_text_reduced (style : Style) (depth : Nat) (v : Value) :
    Agree (fun _ _ => True) (text style depth v.reduced) (text style depth v) := by
  induction v using Value.partsInduction generalizing depth with
  | step v ih =>
    cases v with
    | float x => exact agree_float_reduced depth x
    | list xs =>
      rw [Value.reduced_list, text, text]
      exact Agree.bind_same fun _ => (agree_itemTexts_reduced _ ih).bind fun _ _ _ => .ok trivial
    | tuple xs =>
      rw [Value.reduced_tuple, text, text]
      exact Agree.bind_same fun _ => (agree_itemTexts_reduced _ ih).bind fun _ _ _ => .ok trivial
    | dict es =>
      rw [Value.reduced_dict, text, text]
      exact Agree.bind_same fun _ => (agree_memberTexts_reduced _ ih).bind fun _ _ _ => .ok trivial
    | _ => exact .of_eq (fun _ => trivial) rfl

theorem agree_write {v w : Value} (h : v.reduced = w.reduced) :
    Agree (fun _ _ => True) (write style v) (write style w) := by
  have hv := (agree_text_reduced style 0 v).symm
  rw [h] at hv
  exact hv.trans (agree_text_reduced style 0 w) fun _ _ _ _ _ => trivial

end Json

end DocShape
