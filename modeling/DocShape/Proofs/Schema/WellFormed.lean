import DocShape.Proofs.Number.Exact
import DocShape.Proofs.Value.Parts
import DocShape.Schema.Block

/-!
# Well-formed raw schemas

What a raw schema has to be, said without a walk. `Value.IsSchema` is the grammar of blocks: a
dictionary with a known kind and no properties but those of its kind, whose common properties are of
their types, and whose own properties are what the kind asks for, nested blocks included. Numbers are
compared by the rational numbers that they stand for.
-/

namespace DocShape

/-! ## Properties -/

namespace Entries

/-- No key but some names. -/
def Only (es : Entries) (names : List Text) : Prop := ∀ e ∈ es, ∃ name ∈ names, e.1 = .str name

/-- A property that may be left out is of some form where it is given. -/
def Optional (es : Entries) (name : Text) (form : Value → Prop) : Prop :=
  ∀ v, es.get? name = some v → form v

end Entries

namespace Value

/-- A text. -/
def IsText (v : Value) : Prop := ∃ t, v = str t

/-- A truth value. -/
def IsTruth (v : Value) : Prop := ∃ b, v = bool b

/-- A finite number, which no truth value is. -/
def IsNumber (v : Value) (n : Number) : Prop := v = ofNumber n ∧ n.isFinite = true

/-- A list or a tuple with some items. -/
def IsSequence (v : Value) (xs : List Value) : Prop := v = list xs ∨ v = tuple xs

/-! ## Bounds and lengths -/

/-- A bound on numbers: a number alone, or an object with the number and whether it is excluded. -/
inductive IsBound : Value → Number → Prop
  | bare {v : Value} {n : Number} (number : v.IsNumber n) : IsBound v n
  | object {es : Entries} {v : Value} {n : Number} (only : es.Only ["exclusive", "value"])
    (value : es.get? "value" = some v) (number : v.IsNumber n)
    (exclusive : es.Optional "exclusive" IsTruth) : IsBound (.dict es) n

/-- A number that a length may be compared with. -/
def IsLengthNumber (v : Value) : Prop := ∃ n, v.IsNumber n ∧ 0 ≤ n.exact

/-- A constraint on a length: a number alone, or an object with a least and a greatest length. -/
inductive IsLength : Value → Prop
  | exactly {v : Value} (number : v.IsLengthNumber) : IsLength v
  | range {es : Entries} (only : es.Only ["minimum", "maximum"])
    (minimum : es.Optional "minimum" IsLengthNumber)
    (maximum : es.Optional "maximum" IsLengthNumber)
    (order : ∀ v w m n, es.get? "minimum" = some v → v.IsNumber m →
      es.get? "maximum" = some w → w.IsNumber n → m.exact ≤ n.exact) : IsLength (.dict es)

end Value

/-! ## Blocks -/

/-- What the entries of a block of some kind have in common with those of all blocks. -/
structure Entries.IsBlock (es : Entries) (k : Kind) : Prop where
  kind : es.get? "type" = some (.str k.name)
  only : es.Only k.legalProperties
  name : es.Optional "name" Value.IsText
  description : es.Optional "description" Value.IsText
  option : es.Optional "option" Value.IsTruth

/-- The grammar of raw schemas. -/
inductive Value.IsSchema : Value → Prop
  | flag {es : Entries} (block : es.IsBlock .flag) : IsSchema (.dict es)
  | number {es : Entries} (block : es.IsBlock .number) (decimal : es.Optional "decimal" IsTruth)
    (minimum : es.Optional "minimum" fun v => ∃ n, v.IsBound n)
    (maximum : es.Optional "maximum" fun v => ∃ n, v.IsBound n)
    (order : ∀ v w m n, es.get? "minimum" = some v → v.IsBound m →
      es.get? "maximum" = some w → w.IsBound n → ¬ n.exact < m.exact) : IsSchema (.dict es)
  | string {es : Entries} (block : es.IsBlock .string) (length : es.Optional "length" IsLength)
    (pattern : es.Optional "pattern" IsText) : IsSchema (.dict es)
  | array {es : Entries} {v : Value} (block : es.IsBlock .array)
    (value : es.get? "value" = some v) (schema : IsSchema v)
    (length : es.Optional "length" IsLength) : IsSchema (.dict es)
  | object {es : Entries} {v : Value} (block : es.IsBlock .object)
    (value : es.get? "value" = some v) (schema : IsSchema v)
    (key : ∃ kind : KeyKind, es.get? "key" = some (.str kind.name))
    (length : es.Optional "length" IsLength) : IsSchema (.dict es)
  | tuple {es : Entries} {v : Value} {xs : List Value} (block : es.IsBlock .tuple)
    (items : es.get? "items" = some v) (sequence : v.IsSequence xs) (nonempty : xs ≠ [])
    (schemas : ∀ x ∈ xs, IsSchema x) : IsSchema (.dict es)
  | map {es fs : Entries} (block : es.IsBlock .map) (fields : es.get? "fields" = some (.dict fs))
    (nonempty : fs ≠ []) (names : ∀ f ∈ fs, f.1.isName = true)
    (schemas : ∀ f ∈ fs, IsSchema f.2) : IsSchema (.dict es)
  | enum {es : Entries} {v : Value} {xs : List Value} (block : es.IsBlock .enum)
    (values : es.get? "values" = some v) (sequence : v.IsSequence xs) (nonempty : xs ≠ [])
    (names : ∀ x ∈ xs, x.isName = true) (distinct : xs.Nodup) : IsSchema (.dict es)

/-! ## Small facts -/

namespace Value

theorem finiteNumber?_eq_some {v : Value} {n : Number} :
    v.finiteNumber? = some n ↔ v.IsNumber n := by
  rw [finiteNumber?, Option.filter_eq_some_iff, IsNumber]
  refine and_congr_left fun _ => ?_
  cases v <;> cases n <;> simp [number?, ofNumber]

theorem IsNumber.unique {v : Value} {m n : Number} (hm : v.IsNumber m) (hn : v.IsNumber n) :
    m = n :=
  Option.some.inj ((finiteNumber?_eq_some.2 hm).symm.trans (finiteNumber?_eq_some.2 hn))

theorem not_isNumber_dict {es : Entries} {n : Number} : ¬ (dict es).IsNumber n := by
  rintro ⟨h, -⟩
  cases n <;> cases h

theorem IsBound.unique {v : Value} {m n : Number} (hm : v.IsBound m) (hn : v.IsBound n) :
    m = n := by
  cases hm with
  | bare hm =>
    cases hn with
    | bare hn => exact hm.unique hn
    | object => exact absurd hm not_isNumber_dict
  | object _ hv hm _ =>
    cases hn with
    | bare hn => exact absurd hn not_isNumber_dict
    | object _ hw hn _ =>
      obtain rfl := Option.some.inj (hv.symm.trans hw)
      exact hm.unique hn

theorem IsBound.isFinite {v : Value} {n : Number} (h : v.IsBound n) : n.isFinite = true := by
  cases h with
  | bare h => exact h.2
  | object _ _ h _ => exact h.2

theorem isName_iff {v : Value} : v.isName = true ↔ ∃ t, v = str t ∧ t.isName = true := by
  cases v with
  | str t => exact ⟨fun h => ⟨t, rfl, h⟩, fun ⟨_, ht, h⟩ => by rw [str.inj ht]; exact h⟩
  | _ => exact ⟨fun h => (by cases h), fun ⟨_, ht, _⟩ => (by cases ht)⟩

theorem IsSequence.parts {v : Value} {xs : List Value} (h : v.IsSequence xs) : v.parts = xs := by
  rcases h with rfl | rfl <;> rfl

end Value

theorem Kind.ofName?_eq_some {t : Text} {k : Kind} : ofName? t = some k ↔ t = k.name := by
  refine ⟨fun h => ?_, fun h => ?_⟩
  · have hname := List.find?_some h
    exact (eq_of_beq hname).symm
  · rw [h]
    cases k <;> rfl

/-- A value names a kind when it is the text of its name. -/
theorem Value.kind?_eq_some {v : Value} {k : Kind} :
    v.text?.bind Kind.ofName? = some k ↔ v = str k.name := by
  cases v <;> simp [text?, Kind.ofName?_eq_some]

namespace Entries

/-- What stands under a name is among the entries. -/
theorem mem_of_get? {es : Entries} {name : Text} {v : Value} (h : es.get? name = some v) :
    (Value.str name, v) ∈ es := by
  induction es with
  | nil => cases h
  | cons e es ih =>
    obtain ⟨k, w⟩ := e
    cases k with
    | str t =>
      rw [get?] at h
      split at h
      · next ht =>
        rw [ht, Option.some.inj h]
        exact List.mem_cons_self
      · exact List.mem_cons_of_mem _ (ih h)
    | _ => exact List.mem_cons_of_mem _ (ih h)

theorem has_of_get? {es : Entries} {name : Text} {v : Value} (h : es.get? name = some v) :
    es.has name = true := by
  rw [has, h, Option.isSome_some]

/-- Looking for a text key along the entries comes to reading what stands under it. -/
theorem look_eq {α : Type} {look : Entries → α} {name : Text} {missing : α} {read : Value → α}
    (hnil : look [] = missing)
    (htext : ∀ t v rest, look ((.str t, v) :: rest) = if t = name then read v else look rest)
    (hother : ∀ k v rest, k.text? = none → look ((k, v) :: rest) = look rest) (es : Entries) :
    look es = (es.get? name).elim missing read := by
  induction es with
  | nil => exact hnil
  | cons e es ih =>
    obtain ⟨k, v⟩ := e
    cases k with
    | str t =>
      rw [htext, get?]
      split
      · rfl
      · exact ih
    | _ => exact (hother _ v es rfl).trans ih

theorem mem_parts_of_get? {es : Entries} {name : Text} {v : Value} (h : es.get? name = some v) :
    v ∈ (Value.dict es).parts :=
  List.mem_map_of_mem (mem_of_get? h)

end Entries

end DocShape
