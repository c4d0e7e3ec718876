import DocShape.Proofs.Conversion.Keys
import DocShape.Proofs.Conversion.Rewriting
import DocShape.Proofs.Value.Recast

/-!
# Respelled documents

A document spells the integer keys of an object out. `Block.respell` puts the integers back, along a
schema: it walks where conversion walks and changes nothing but the keys of objects that have integer
keys. Keys that are apart stay apart (`keyed_respell`).
-/

namespace DocShape

namespace Block

mutual

/-- The value with integers as keys in place of the texts that spell them, wherever the schema has
an object with such keys. -/
def respell (b : Block) (v : Value) : Value :=
  match b, v with
  | array _ value _, .list xs => .list (xs.map (respell value))
  | object _ key value _, .dict es =>
    .dict (es.map fun e => (key.respell e.1, respell value e.2))
  | tuple _ items, .list xs => .list (respellPositions items xs)
  | map _ fields, .dict es => .dict (es.map fun e => (e.1, respellField fields e.1 e.2))
  | _, v => v
termination_by structural b

/-- Items along the blocks at their positions. -/
def respellPositions : List Block → List Value → List Value
  | b :: bs, x :: xs => respell b x :: respellPositions bs xs
  | _, xs => xs
termination_by structural b => b

/-- The value of a key along the block of the field with that name. -/
def respellField (fields : List (Text × Block)) (key : Value) (v : Value) : Value :=
  match fields with
  | [] => v
  | (name, b) :: rest => if key.text? = some name then respell b v else respellField rest key v
termination_by structural fields

end

theorem respell_array (h : Header) (value : Block) (length : Setting LengthRule)
    (xs : List Value) :
    (array h value length).respell (.list xs) = .list (xs.map value.respell) := rfl

theorem respell_object (h : Header) (key : KeyKind) (value : Block) (length : Setting LengthRule)
    (es : Entries) : (object h key value length).respell (.dict es) =
      .dict (es.map fun e => (key.respell e.1, value.respell e.2)) := rfl

theorem respellPositions_eq (bs : List Block) (xs : List Value) :
    respellPositions bs xs = alongPositions respell bs xs := by
  induction bs generalizing xs with
  | nil => rfl
  | cons b bs ih =>
    cases xs with
    | nil => rfl
    | cons x xs => rw [respellPositions, alongPositions, ih]

theorem respellField_eq (fields : List (Text × Block)) (key v : Value) :
    respellField fields key v = alongField respell fields key v := by
  induction fields with
  | nil => rfl
  | cons f fields ih => rw [respellField, alongField, ih]

theorem respell_tuple (h : Header) (items : List Block) (xs : List Value) :
    (tuple h items).respell (.list xs) = .list (alongPositions respell items xs) :=
  congrArg Value.list (respellPositions_eq items xs)

theorem respell_map (h : Header) (fields : List (Text × Block)) (es : Entries) :
    (map h fields).respell (.dict es) =
      .dict (es.map fun e => (e.1, alongField respell fields e.1 e.2)) := by
  simp only [respell, respellField_eq]

theorem excuses_respell (b : Block) (h : Header) (w : Value) :
    h.excuses (b.respell w) = h.excuses w := by
  cases w with
  | list xs => cases b <;> rfl
  | dict es => cases b <;> rfl
  | _ => cases b <;> rfl

/-! ## Keys stay apart -/

theorem respell_rewrites (b : Block) (w : Value) : Rewrites respell b w (b.respell w) := by
  cases b with
  | array h value length =>
    cases w with
    | list xs =>
      rw [respell_array]
      refine .list Value.depth_list_pos fun y hy => ?_
      obtain ⟨x, hx, rfl⟩ := List.mem_map.1 hy
      exact .rewritten (b := array h value length) List.mem_cons_self hx
    | _ => exact .same
  | object h key value length =>
    cases w with
    | dict es =>
      rw [respell_object]
      refine .dict Value.depth_dict_pos fun e' he' => ?_
      obtain ⟨e, he, rfl⟩ := List.mem_map.1 he'
      exact .rewritten (b := object h key value length) List.mem_cons_self (List.mem_map_of_mem he)
    | _ => exact .same
  | tuple h items =>
    cases w with
    | list xs =>
      rw [respell_tuple]
      exact .list Value.depth_list_pos fun y hy => within_of_mem_alongPositions (fun x hx => hx) hy
    | _ => exact .same
  | map h fields =>
    cases w with
    | dict es =>
      rw [respell_map]
      refine .dict Value.depth_dict_pos fun e' he' => ?_
      obtain ⟨e, he, rfl⟩ := List.mem_map.1 he'
      exact within_alongField he
    | _ => exact .same
  | _ => cases w <;> exact .same

theorem distinct_respell {kind : KeyKind} {es : Entries} (htexts : ∀ e ∈ es, ∃ t, e.1 = .str t)
    (hdistinct : es.Distinct) (g : Value → Value) :
    Entries.Distinct (es.map fun e => (kind.respell e.1, g e.2)) := by
  refine List.pairwise_map.2 (hdistinct.imp_of_mem fun {a c} ha hc hac => ?_)
  obtain ⟨s, hs⟩ := htexts a ha
  obtain ⟨t, ht⟩ := htexts c hc
  rw [hs, ht] at hac ⊢
  refine Bool.eq_false_iff.2 fun heq => ?_
  rw [KeyKind.respell_injective heq, Value.equals_str, beq_self_eq_true] at hac
  cases hac

/-- Respelling a document keeps the keys of each dictionary apart. -/
theorem keyed_respell (b : Block) {w : Value} (hw : w.IsDocument) : (b.respell w).Keyed := by
  refine everywhere_of_rewrites respell_rewrites (fun _ _ _ _ => trivial)
    trivial (fun v hv => Value.IsDocument.keyed hv) (fun b v _ hv => ?_) trivial hw
  cases v with
  | dict es =>
    have hdistinct := Value.distinct_of_texts hv.here.1 hv.here.2
    cases b with
    | object h key value length =>
      rw [respell_object]
      exact distinct_respell hv.here.1 hdistinct _
    | map h fields =>
      rw [respell_map]
      exact List.pairwise_map.2 hdistinct
    | _ => exact hdistinct
  | list xs => cases b <;> trivial
  | _ => cases b <;> exact (Value.IsDocument.keyed hv).here

end Block

end DocShape
