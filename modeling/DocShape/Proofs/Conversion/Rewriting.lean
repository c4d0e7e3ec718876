import DocShape.Proofs.Schema.Parts
import DocShape.Proofs.Value.Depth

/-!
# Rewriting values along a schema

Functions that walk a value along a block and change some of its nodes have one form: a value stays as
it is, or a list or a dictionary takes its place, with parts that were parts before, as they were or
rewritten along the parts of the block (`Block.Rewrites`). What such a function keeps at every node it
keeps everywhere (`everywhere_of_rewrites`), and what it makes of a value is no deeper than the value
(`depth_rewritten_le`). The items of a tuple are rewritten along the blocks at
their positions (`alongPositions`), the values of a map along the blocks of its fields
(`alongField`).
-/

namespace DocShape

namespace Block

variable {f : Block → Value → Value}

/-- What may stand inside a rewritten value: null, a part as it was, or a rewritten part. -/
inductive Within (f : Block → Value → Value) (b : Block) (v : Value) : Value → Prop
  | null : Within f b v .null
  | kept {x : Value} (hx : x ∈ v.parts) : Within f b v x
  | rewritten {c : Block} {x : Value} (hc : c ∈ b.parts) (hx : x ∈ v.parts) : Within f b v (f c x)

/-- What a rewriting makes of one node. -/
inductive Rewrites (f : Block → Value → Value) (b : Block) (v : Value) : Value → Prop
  | same : Rewrites f b v v
  | list {ys : List Value} (hv : 0 < v.depth) (h : ∀ y ∈ ys, Within f b v y) :
    Rewrites f b v (.list ys)
  | dict {es : Entries} (hv : 0 < v.depth) (h : ∀ e ∈ es, Within f b v e.2) :
    Rewrites f b v (.dict es)

/-- A rewriting of values with `p` everywhere has `q` everywhere, if it has `q` at every node. Which
blocks it goes along can be restricted to those with `r`. -/
theorem everywhere_of_rewrites (hf : ∀ b v, Rewrites f b v (f b v)) {p q : Value → Prop}
    {r : Block → Prop} (hparts : ∀ b, r b → ∀ c ∈ b.parts, r c) (hnull : q .null)
    (hkept : ∀ v : Value, v.Everywhere p → v.Everywhere q)
    (hnode : ∀ (b : Block) (v : Value), r b → v.Everywhere p → q (f b v)) {b : Block} (hb : r b)
    {v : Value} (hv : v.Everywhere p) : (f b v).Everywhere q := by
  induction b using Block.partsInduction generalizing v with
  | step b ih =>
    have hwithin {y : Value} (hy : Within f b v y) : y.Everywhere q := by
      cases hy with
      | null => exact .leaf hnull rfl
      | kept hx => exact hkept _ (hv.inside _ hx)
      | rewritten hc hx => exact ih _ hc (hparts b hb _ hc) (hv.inside _ hx)
    have hhere := hnode b v hb hv
    generalize hu : f b v = u at hhere
    have hrewrites := hf b v
    rw [hu] at hrewrites
    cases hrewrites with
    | same => exact hkept v hv
    | list _ h => exact ⟨hhere, fun y hy => hwithin (h y hy)⟩
    | dict _ h =>
      refine ⟨hhere, fun y hy => ?_⟩
      obtain ⟨e, he, rfl⟩ := List.mem_map.1 hy
      exact hwithin (h e he)

/-- A rewriting brings in nothing but null, lists and dictionaries. -/
theorem everywhere_rewritten (hf : ∀ b v, Rewrites f b v (f b v)) {p : Value → Prop}
    (hnull : p .null) (hlist : ∀ xs, p (.list xs)) (hdict : ∀ es, p (.dict es)) (b : Block)
    {v : Value} (hv : v.Everywhere p) : (f b v).Everywhere p := by
  refine everywhere_of_rewrites hf (fun _ _ _ _ => trivial) hnull (fun v hv => hv)
    (fun b v _ hv => ?_) trivial hv
  have hrewrites := hf b v
  generalize f b v = u at hrewrites
  cases hrewrites with
  | same => exact hv.here
  | list => exact hlist _
  | dict => exact hdict _

/-- A rewriting does not make values deeper. -/
theorem depth_rewritten_le (hf : ∀ b v, Rewrites f b v (f b v)) (b : Block) (v : Value) :
    (f b v).depth ≤ v.depth := by
  induction b using Block.partsInduction generalizing v with
  | step b ih =>
    have hwithin {y : Value} {n : Nat} (hn : v.depth = n + 1) (hy : Within f b v y) : y.depth ≤ n := by
      cases hy with
      | null => exact Nat.zero_le n
      | kept hx =>
        have hlt := Value.depth_lt_of_mem_parts hx
        omega
      | rewritten hc hx =>
        have hlt := Value.depth_lt_of_mem_parts hx
        exact (ih _ hc _).trans (by omega)
    have hrewrites := hf b v
    generalize f b v = u at hrewrites
    cases hrewrites with
    | same => exact le_rfl
    | list hv h =>
      obtain ⟨n, hn⟩ := Nat.exists_eq_add_one.2 hv
      rw [hn, Value.depth_list_le]
      exact fun y hy => hwithin hn (h y hy)
    | dict hv h =>
      obtain ⟨n, hn⟩ := Nat.exists_eq_add_one.2 hv
      rw [hn, Value.depth_dict_le]
      exact fun e he => hwithin hn (h e he)

/-! ## Positions and fields -/

/-- Items rewritten along the blocks at their positions. -/
def alongPositions (f : Block → Value → Value) : List Block → List Value → List Value
  | b :: bs, x :: xs => f b x :: alongPositions f bs xs
  | _, xs => xs

/-- The value of a key rewritten along the block of the field with that name. -/
def alongField (f : Block → Value → Value) : List (Text × Block) → Value → Value → Value
  | [], _, v => v
  | (name, b) :: rest, key, v =>
    if key.text? = some name then f b v else alongField f rest key v

theorem length_alongPositions (f : Block → Value → Value) (bs : List Block) (xs : List Value) :
    (alongPositions f bs xs).length = xs.length := by
  induction bs generalizing xs with
  | nil => rfl
  | cons b bs ih =>
    cases xs with
    | nil => rfl
    | cons x xs => rw [alongPositions, List.length_cons, List.length_cons, ih]

theorem mem_alongPositions {bs : List Block} {xs : List Value} {x : Value}
    (h : x ∈ alongPositions f bs xs) : (∃ b ∈ bs, ∃ y ∈ xs, x = f b y) ∨ x ∈ xs := by
  induction bs generalizing xs with
  | nil => exact .inr h
  | cons b bs ih =>
    cases xs with
    | nil => exact .inr h
    | cons y xs =>
      rw [alongPositions] at h
      rcases List.mem_cons.1 h with rfl | h
      · exact .inl ⟨b, List.mem_cons_self, y, List.mem_cons_self, rfl⟩
      · rcases ih h with ⟨c, hc, z, hz, rfl⟩ | h
        · exact .inl ⟨c, List.mem_cons_of_mem _ hc, z, List.mem_cons_of_mem _ hz, rfl⟩
        · exact .inr (List.mem_cons_of_mem _ h)

theorem alongField_cases (f : Block → Value → Value) (fields : List (Text × Block))
    (key v : Value) :
    (∃ g ∈ fields, alongField f fields key v = f g.2 v) ∨ alongField f fields key v = v := by
  induction fields with
  | nil => exact .inr rfl
  | cons g fields ih =>
    rw [alongField]
    split
    · exact .inl ⟨g, List.mem_cons_self, rfl⟩
    · rcases ih with ⟨g', hg', hvalue⟩ | hvalue
      · exact .inl ⟨g', List.mem_cons_of_mem _ hg', hvalue⟩
      · exact .inr hvalue

theorem alongField_of_field (f : Block → Value → Value) {fields : List (Text × Block)}
    {name : Text} {b : Block} (h : fields.lookup name = some b) (v : Value) :
    alongField f fields (.str name) v = f b v := by
  induction fields with
  | nil => cases h
  | cons g fields ih =>
    obtain ⟨n, c⟩ := g
    rw [List.lookup_cons] at h
    rw [alongField, Value.text?]
    split at h
    · next hn => rw [if_pos (by rw [eq_of_beq hn]), Option.some.inj h]
    · next hn => rw [if_neg fun e => beq_eq_false_iff_ne.1 hn (Option.some.inj e), ih h]

/-- Items of a tuple that are rewritten along their positions stand where parts may stand. -/
theorem within_of_mem_alongPositions {h : Header} {items : List Block} {v : Value}
    {xs : List Value} (hxs : ∀ x ∈ xs, x ∈ v.parts) {y : Value}
    (hy : y ∈ alongPositions f items xs) : Within f (tuple h items) v y := by
  rcases mem_alongPositions hy with ⟨b, hb, x, hx, rfl⟩ | hy
  · exact .rewritten (b := tuple h items) hb (hxs x hx)
  · exact .kept (hxs y hy)

theorem within_alongField {h : Header} {fields : List (Text × Block)} {es : Entries}
    {e : Value × Value} (he : e ∈ es) :
    Within f (map h fields) (.dict es) (alongField f fields e.1 e.2) := by
  rcases alongField_cases f fields e.1 e.2 with ⟨g, hg, hvalue⟩ | hvalue
  · rw [hvalue]
    exact .rewritten (b := map h fields) (List.mem_map_of_mem hg) (List.mem_map_of_mem he)
  · rw [hvalue]
    exact .kept (List.mem_map_of_mem he)

end Block

end DocShape
