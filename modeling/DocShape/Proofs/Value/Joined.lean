import DocShape.Proofs.Text.Surrogates
import DocShape.Proofs.Value.Depth
import DocShape.Proofs.Value.Recast

/-!
# Surrogates in values

`Value.joined` is a value with its texts joined, and `Value.IsJoined` says that all of them are. A document
in ASCII cannot tell a value from the joined one. If the keys of a value are joined already
(`Value.KeysJoined`), then the joined value can be written if the value can.
-/

namespace DocShape

theorem Text.IsName.isJoined {t : Text} (h : t.isName = true) : t.IsJoined := by
  refine Text.NoSurrogates.isJoined fun c hc => ?_
  have hchar := (Text.isName_iff.1 h).2 c hc
  simp only [CodePoint.isNameChar, CodePoint.isLetter, CodePoint.isDigit, Bool.or_eq_true,
    Bool.and_eq_true, decide_eq_true_eq, beq_iff_eq] at hchar
  rw [Bool.eq_false_iff, ne_eq, CodePoint.isSurrogate_iff]
  omega

namespace Value

/-- A key of a dictionary, joined if it is a text. -/
def joinedKey : Value → Value
  | str t => str t.joined
  | k => k

mutual

/-- A value with all its texts joined. -/
def joined : Value → Value
  | str t => str t.joined
  | list xs => list (joinedItems xs)
  | tuple xs => tuple (joinedItems xs)
  | dict es => dict (joinedEntries es)
  | v => v
termination_by structural v => v

/-- Items with all their texts joined. -/
def joinedItems : List Value → List Value
  | [] => []
  | x :: xs => joined x :: joinedItems xs
termination_by structural v => v

/-- Entries with all their texts joined. -/
def joinedEntries : List (Value × Value) → List (Value × Value)
  | [] => []
  | (k, v) :: rest => (k.joinedKey, joined v) :: joinedEntries rest
termination_by structural v => v

end

theorem joinedItems_eq (xs : List Value) : joinedItems xs = xs.map joined := by
  induction xs with
  | nil => rfl
  | cons x xs ih => rw [joinedItems, ih, List.map_cons]

theorem joinedEntries_eq (es : Entries) :
    joinedEntries es = es.map fun e => (e.1.joinedKey, e.2.joined) := by
  induction es with
  | nil => rfl
  | cons e es ih => rw [joinedEntries, ih, List.map_cons]

theorem joined_list (xs : List Value) : (list xs).joined = list (xs.map joined) := by
  rw [joined, joinedItems_eq]

theorem joined_tuple (xs : List Value) : (tuple xs).joined = tuple (xs.map joined) := by
  rw [joined, joinedItems_eq]

theorem joined_dict (es : Entries) :
    (dict es).joined = dict (es.map fun e => (e.1.joinedKey, e.2.joined)) := by
  rw [joined, joinedEntries_eq]

theorem depth_joined (v : Value) : v.joined.depth = v.depth := by
  induction v using partsInduction with
  | step v ih =>
    cases v with
    | list xs =>
      have hitems : itemsDepth (xs.map joined) = itemsDepth xs := itemsDepth_map ih
      rw [joined_list, depth_list, depth_list, hitems]
    | tuple xs =>
      have hitems : itemsDepth (xs.map joined) = itemsDepth xs := itemsDepth_map ih
      rw [joined_tuple, depth_tuple, depth_tuple, hitems]
    | dict es =>
      rw [joined_dict, depth_dict, depth_dict,
        entriesDepth_map fun e he => ih e.2 (List.mem_map_of_mem he)]
    | _ => rfl

/-- The keys at one place are joined. -/
def KeysJoinedNode : Value → Prop
  | dict es => ∀ e ∈ es, ∀ t, e.1 = str t → t.IsJoined
  | _ => True

/-- The texts at one place are joined, keys or not. -/
def JoinedNode : Value → Prop
  | str t => t.IsJoined
  | v => v.KeysJoinedNode

/-- All keys of a value are joined. -/
def KeysJoined : Value → Prop := Everywhere KeysJoinedNode

/-- All texts of a value are joined. -/
def IsJoined : Value → Prop := Everywhere JoinedNode

variable {v : Value}

theorem JoinedNode.keysJoinedNode (h : v.JoinedNode) : v.KeysJoinedNode := by
  cases v with
  | str t => trivial
  | _ => exact h

theorem IsJoined.keysJoined (h : v.IsJoined) : v.KeysJoined := h.mono fun _ hv => hv.keysJoinedNode

theorem joinedKey_eq_self {es : Entries} (h : (dict es).KeysJoinedNode) {e : Value × Value}
    (he : e ∈ es) : e.1.joinedKey = e.1 := by
  obtain ⟨k, v⟩ := e
  cases k with
  | str t => exact congrArg str (Text.joined_eq_self (h _ he t rfl))
  | _ => rfl

theorem joined_eq_self (h : v.IsJoined) : v.joined = v := by
  induction v using partsInduction with
  | step v ih =>
    cases v with
    | str t => exact congrArg str (Text.joined_eq_self h.here)
    | list xs =>
      have hitem : ∀ x ∈ xs, x.joined = x := fun x hx => ih x hx (h.inside x hx)
      rw [joined_list, List.map_congr_left hitem, List.map_id']
    | tuple xs =>
      have hitem : ∀ x ∈ xs, x.joined = x := fun x hx => ih x hx (h.inside x hx)
      rw [joined_tuple, List.map_congr_left hitem, List.map_id']
    | dict es =>
      have hentry : ∀ e ∈ es, (e.1.joinedKey, e.2.joined) = e := fun e he => by
        rw [joinedKey_eq_self h.here he, ih e.2 (List.mem_map_of_mem he) (h.entry he)]
      rw [joined_dict, List.map_congr_left hentry, List.map_id']
    | _ => rfl

/-- The parts of a joined value are the joined parts. -/
theorem parts_joined (hv : ∀ xs, v ≠ set xs) : v.joined.parts = v.parts.map joined := by
  cases v with
  | list xs => rw [joined_list]; rfl
  | tuple xs => rw [joined_tuple]; rfl
  | dict es =>
    rw [joined_dict]
    simp [parts]
  | set xs => exact absurd rfl (hv xs)
  | _ => rfl

/-- What holds at each node of a plain value once its texts are joined holds everywhere in the joined
value. -/
theorem everywhere_joined {q : Value → Prop} (hv : v.IsPlain) (hk : v.KeysJoined)
    (hnode : ∀ u : Value, u.PlainNode → u.KeysJoinedNode → q u.joined) : v.joined.Everywhere q := by
  induction v using partsInduction with
  | step v ih =>
    refine ⟨hnode v hv.here hk.here, ?_⟩
    rw [parts_joined fun xs hxs => by subst hxs; exact hv.here]
    exact List.forall_mem_map.2 fun x hx => ih x hx (hv.inside x hx) (hk.inside x hx)

/-- Joining the texts of a value leaves a place for it in a document, if its keys are joined. -/
theorem IsPlain.joined (hv : v.IsPlain) (hk : v.KeysJoined) : v.joined.IsPlain := by
  refine everywhere_joined hv hk fun u hu hkeys => ?_
  cases u with
  | list xs => rw [joined_list]; trivial
  | tuple xs => rw [joined_tuple]; trivial
  | dict es =>
    have hspelled : ∀ e ∈ es, e.1.joinedKey.spelledKey = e.1.spelledKey := fun e he => by
      rw [joinedKey_eq_self hkeys he]
    rw [joined_dict]
    refine ⟨List.forall_mem_map.2 fun e he => ?_, ?_⟩
    · rw [hspelled e he]
      exact hu.1 e he
    · rw [List.map_map]
      simpa only [Function.comp_def, List.map_congr_left hspelled] using hu.2
  | set xs => exact hu
  | _ => exact hu

/-- The texts of a joined value are joined. -/
theorem IsPlain.isJoined_joined (hv : v.IsPlain) (hk : v.KeysJoined) : v.joined.IsJoined := by
  refine everywhere_joined hv hk fun u hu hkeys => ?_
  cases u with
  | str t => exact Text.isJoined_joined t
  | list xs => rw [joined_list]; trivial
  | tuple xs => rw [joined_tuple]; trivial
  | dict es =>
    rw [joined_dict]
    refine List.forall_mem_map.2 fun e he t ht => ?_
    rw [joinedKey_eq_self hkeys he] at ht
    exact hkeys e he t ht
  | _ => trivial

/-- How a key is spelled has no surrogates but those of a text. -/
theorem isJoined_of_spelledKey {es : Entries} (h : (dict es).KeysJoinedNode) {e : Value × Value}
    (he : e ∈ es) {t : Text} (ht : e.1.spelledKey = str t) : t.IsJoined := by
  obtain ⟨k, v⟩ := e
  cases k with
  | str s => exact h _ he t ht
  | int n => exact Value.str.inj ht ▸ Text.IsName.isJoined (Text.isName_ofInt n)
  | _ => cases ht

end Value

end DocShape
