import DocShape.Proofs.Conversion.Rules
import DocShape.Proofs.Schema.Parts
import Mathlib.Data.List.Forall2
import Mathlib.Logic.Relation

/-!
# Looser schemas

`Block.Eases` is one change that loosens a block: a switch is turned on, a bound, a length or a pattern is
removed or widened, an enumeration gets more values, or only the wording changes. `Block.EasesWithin` is
such a change at any depth.

Many changes one after the other come to one relation that looks at both blocks at once, `Block.Looser`
(`looser_of_eases`): it allows any number of the changes at every node. In between the blocks need not be
such as a check accepts.
-/

namespace DocShape

/-! ## Properties -/

/-- A property is removed, or replaced by a wider one. -/
inductive Setting.Eases {α : Type} (R : α → α → Prop) : Setting α → Setting α → Prop
  | removed {a : α} {s : Setting α} (gone : s.value? = none) : Eases R (.given a) s
  | replaced {a a' : α} (wider : R a a') : Eases R (.given a) (.given a')

/-- Whatever is still asked for was asked for before, at least as strictly. -/
def Setting.Looser {α : Type} (R : α → α → Prop) (s s' : Setting α) : Prop :=
  ∀ a', s' = .given a' → ∃ a, s = .given a ∧ R a a'

namespace Setting

variable {α : Type} {R : α → α → Prop} {r s t : Setting α}

theorem Looser.refl (hR : ∀ a, R a a) (s : Setting α) : s.Looser R s :=
  fun a' ha' => ⟨a', ha', hR a'⟩

theorem Looser.trans (hR : ∀ a b c, R a b → R b c → R a c) (h : r.Looser R s) (h' : s.Looser R t) :
    r.Looser R t := by
  intro c hc
  obtain ⟨b, hb, hbc⟩ := h' c hc
  obtain ⟨a, ha, hab⟩ := h b hb
  exact ⟨a, ha, hR a b c hab hbc⟩

theorem Eases.looser {R' : α → α → Prop} (hR : ∀ a a', R a a' → R' a a') (h : s.Eases R t) :
    s.Looser R' t := by
  intro b hb
  cases h with
  | removed gone =>
    rw [hb] at gone
    cases gone
  | @replaced a _ wider =>
    cases hb
    exact ⟨a, rfl, hR _ _ wider⟩

end Setting

namespace Limit

/-- A bound is moved beyond where it was, or at its place it is no longer excluded. -/
inductive Eases (beyond : ℚ → ℚ → Prop) : Limit → Limit → Prop
  | moved {l l' : Limit} (away : beyond l'.value.exact l.value.exact)
    (same : l'.isExclusive = l.isExclusive) : Eases beyond l l'
  | included {l l' : Limit} (same : l'.value.exact = l.value.exact)
    (included : l'.isExclusive = false) : Eases beyond l l'

/-- A bound stands beyond another, or in its place, and then it is excluded only if the other is. -/
def Looser (beyond : ℚ → ℚ → Prop) (l l' : Limit) : Prop :=
  beyond l'.value.exact l.value.exact ∨
    l'.value.exact = l.value.exact ∧ (l'.isExclusive = true → l.isExclusive = true)

variable {beyond : ℚ → ℚ → Prop} {l l' : Limit} {n : Number}

theorem Looser.refl (l : Limit) : l.Looser beyond l := .inr ⟨rfl, id⟩

theorem Looser.trans [IsTrans ℚ beyond] {k l m : Limit} (h : k.Looser beyond l)
    (h' : l.Looser beyond m) : k.Looser beyond m := by
  rcases h with h | ⟨hsame, hexcluded⟩
  · rcases h' with h' | ⟨hsame', -⟩
    · exact .inl (trans_of beyond h' h)
    · exact .inl (by rwa [hsame'])
  · rcases h' with h' | ⟨hsame', hexcluded'⟩
    · exact .inl (by rwa [← hsame])
    · exact .inr ⟨hsame'.trans hsame, fun h => hexcluded (hexcluded' h)⟩

theorem Eases.looser (h : l.Eases beyond l') : l.Looser beyond l' := by
  cases h with
  | moved away _ => exact .inl away
  | included same included =>
    refine .inr ⟨same, fun h => ?_⟩
    rw [included] at h
    cases h

/-- A looser lower bound allows what the bound allowed. -/
theorem Looser.precedes (h : l.Looser (· < ·) l') (hl : l.Precedes n) : l'.Precedes n := by
  unfold Precedes at hl ⊢
  have hle : l.value.exact ≤ n.exact := by
    split at hl
    · exact hl.le
    · exact hl
  rcases h with hless | ⟨hsame, hexcluded⟩
  · split
    · exact hless.trans_le hle
    · exact hless.le.trans hle
  · rw [hsame]
    split
    · next h => rwa [if_pos (hexcluded h)] at hl
    · exact hle

/-- A looser upper bound allows what the bound allowed. -/
theorem Looser.follows (h : l.Looser (· > ·) l') (hl : l.Follows n) : l'.Follows n := by
  unfold Follows at hl ⊢
  have hle : n.exact ≤ l.value.exact := by
    split at hl
    · exact hl.le
    · exact hl
  rcases h with hgreater | ⟨hsame, hexcluded⟩
  · split
    · exact hle.trans_lt hgreater
    · exact hle.trans hgreater.le
  · rw [hsame]
    split
    · next h => rwa [if_pos (hexcluded h)] at hl
    · exact hle

end Limit

namespace LengthRule

/-- The least length that a constraint allows, if it allows any. -/
def least : LengthRule → ℤ
  | exactly n => ⌊n.exact⌋
  | range r => (r.minimum.value?.map fun n => ⌊n.exact⌋).getD 0

/-- The greatest length that a constraint allows, if there is one. -/
def greatest? : LengthRule → Option ℤ
  | exactly n => some ⌊n.exact⌋
  | range r => r.maximum.value?.map fun n => ⌊n.exact⌋

/-- Lengths stand between the two ends. -/
theorem admits_iff {rule : LengthRule} {size : ℕ} :
    rule.Admits size ↔ rule.least ≤ size ∧ ∀ k, rule.greatest? = some k → size ≤ k := by
  cases rule with
  | exactly n =>
    simp only [Admits, least, greatest?, Option.some.injEq, forall_eq']
    omega
  | range r =>
    obtain ⟨minimum, maximum⟩ := r
    cases minimum <;> cases maximum <;> simp [Admits, least, greatest?, Setting.value?]

/-- A constraint goes at least as far as another at both ends. The ends are cut to integers, as they are
when a length is held against them; a length alone is both ends. -/
structure Within (rule rule' : LengthRule) : Prop where
  least : rule'.least ≤ rule.least
  greatest : ∀ k', rule'.greatest? = some k' → ∃ k, rule.greatest? = some k ∧ k ≤ k'

variable {rule rule' rule'' : LengthRule} {size : ℕ}

theorem Within.refl (rule : LengthRule) : rule.Within rule :=
  ⟨le_rfl, fun k hk => ⟨k, hk, le_rfl⟩⟩

theorem Within.trans (h : rule.Within rule') (h' : rule'.Within rule'') : rule.Within rule'' := by
  refine ⟨h'.least.trans h.least, fun k'' hk'' => ?_⟩
  obtain ⟨k', hk', hle'⟩ := h'.greatest k'' hk''
  obtain ⟨k, hk, hle⟩ := h.greatest k' hk'
  exact ⟨k, hk, hle.trans hle'⟩

theorem Within.admits (h : rule.Within rule') (hsize : rule.Admits size) : rule'.Admits size := by
  rw [admits_iff] at hsize ⊢
  refine ⟨h.least.trans hsize.1, fun k' hk' => ?_⟩
  obtain ⟨k, hk, hle⟩ := h.greatest k' hk'
  exact (hsize.2 k hk).trans hle

end LengthRule

/-- Null becomes acceptable, or only the wording changes. -/
inductive Header.Eases : Header → Header → Prop
  | optional (h : Header) : Eases h { h with option := some true }
  | described (h : Header) (name description : Setting Text) :
    Eases h { h with name := name, description := description }

/-- Null stays acceptable. -/
def Header.Looser (h h' : Header) : Prop := h.option.getD false = true → h'.option.getD false = true

theorem Header.Eases.looser {h h' : Header} (ease : h.Eases h') : h.Looser h' := by
  cases ease with
  | optional => exact fun _ => rfl
  | described => exact id

namespace Block

/-! ## One change -/

/-- The block with other common properties. -/
def withHeader (header : Header) : Block → Block
  | flag _ => flag header
  | number _ decimal minimum maximum => number header decimal minimum maximum
  | string _ length pattern => string header length pattern
  | array _ value length => array header value length
  | object _ key value length => object header key value length
  | tuple _ items => tuple header items
  | map _ fields => map header fields
  | enum _ values => enum header values

/-- One change to the properties of a block that loosens it. -/
inductive Eases : Block → Block → Prop
  | header {b : Block} {h' : Header} (ease : b.header.Eases h') : Eases b (b.withHeader h')
  | decimal {h : Header} {decimal decimal' : Option Bool} {minimum maximum : Setting Limit}
    (on : decimal'.getD true = true) :
    Eases (.number h decimal minimum maximum) (.number h decimal' minimum maximum)
  | minimum {h : Header} {decimal : Option Bool} {minimum minimum' maximum : Setting Limit}
    (lower : minimum.Eases (Limit.Eases (· < ·)) minimum') :
    Eases (.number h decimal minimum maximum) (.number h decimal minimum' maximum)
  | maximum {h : Header} {decimal : Option Bool} {minimum maximum maximum' : Setting Limit}
    (higher : maximum.Eases (Limit.Eases (· > ·)) maximum') :
    Eases (.number h decimal minimum maximum) (.number h decimal minimum maximum')
  | text {h : Header} {length length' : Setting LengthRule} {pattern : Setting Text}
    (wider : length.Eases LengthRule.Within length') :
    Eases (.string h length pattern) (.string h length' pattern)
  | pattern {h : Header} {length : Setting LengthRule} {p : Text} {pattern' : Setting Text}
    (gone : pattern'.value? = none) :
    Eases (.string h length (.given p)) (.string h length pattern')
  | array {h : Header} {value : Block} {length length' : Setting LengthRule}
    (wider : length.Eases LengthRule.Within length') :
    Eases (.array h value length) (.array h value length')
  | object {h : Header} {key : KeyKind} {value : Block} {length length' : Setting LengthRule}
    (wider : length.Eases LengthRule.Within length') :
    Eases (.object h key value length) (.object h key value length')
  | enum {h : Header} {values values' : List Text} (more : ∀ t ∈ values, t ∈ values') :
    Eases (.enum h values) (.enum h values')

/-- One change at any depth that loosens a block. -/
inductive EasesWithin : Block → Block → Prop
  | here {b b' : Block} (ease : b.Eases b') : EasesWithin b b'
  | items {h : Header} {value value' : Block} {length : Setting LengthRule}
    (ease : EasesWithin value value') :
    EasesWithin (.array h value length) (.array h value' length)
  | values {h : Header} {key : KeyKind} {value value' : Block} {length : Setting LengthRule}
    (ease : EasesWithin value value') :
    EasesWithin (.object h key value length) (.object h key value' length)
  | position {h : Header} {before after : List Block} {item item' : Block}
    (ease : EasesWithin item item') :
    EasesWithin (.tuple h (before ++ item :: after)) (.tuple h (before ++ item' :: after))
  | field {h : Header} {before after : List (Text × Block)} {name : Text} {field field' : Block}
    (ease : EasesWithin field field') :
    EasesWithin (.map h (before ++ (name, field) :: after))
      (.map h (before ++ (name, field') :: after))

/-! ## Many changes at once -/

/-- The properties of a block ask for no more than those of another block of its kind. -/
inductive LooserNode : Block → Block → Prop
  | flag {h h' : Header} (header : h.Looser h') : LooserNode (.flag h) (.flag h')
  | number {h h' : Header} {decimal decimal' : Option Bool}
    {minimum minimum' maximum maximum' : Setting Limit} (header : h.Looser h')
    (fractions : decimal.getD true = true → decimal'.getD true = true)
    (lower : minimum.Looser (Limit.Looser (· < ·)) minimum')
    (higher : maximum.Looser (Limit.Looser (· > ·)) maximum') :
    LooserNode (.number h decimal minimum maximum) (.number h' decimal' minimum' maximum')
  | string {h h' : Header} {length length' : Setting LengthRule} {pattern pattern' : Setting Text}
    (header : h.Looser h') (wider : length.Looser LengthRule.Within length')
    (same : pattern.Looser Eq pattern') :
    LooserNode (.string h length pattern) (.string h' length' pattern')
  | array {h h' : Header} {value value' : Block} {length length' : Setting LengthRule}
    (header : h.Looser h') (wider : length.Looser LengthRule.Within length') :
    LooserNode (.array h value length) (.array h' value' length')
  | object {h h' : Header} {key : KeyKind} {value value' : Block}
    {length length' : Setting LengthRule} (header : h.Looser h')
    (wider : length.Looser LengthRule.Within length') :
    LooserNode (.object h key value length) (.object h' key value' length')
  | tuple {h h' : Header} {items items' : List Block} (header : h.Looser h') :
    LooserNode (.tuple h items) (.tuple h' items')
  | map {h h' : Header} {fields fields' : List (Text × Block)} (header : h.Looser h')
    (names : fields.map Prod.fst = fields'.map Prod.fst) : LooserNode (.map h fields) (.map h' fields')
  | enum {h h' : Header} {values values' : List Text} (header : h.Looser h')
    (more : ∀ t ∈ values, t ∈ values') : LooserNode (.enum h values) (.enum h' values')

/-- A block asks for no more than another, at every node. -/
inductive Looser : Block → Block → Prop
  | intro {b b' : Block} (here : LooserNode b b') (inside : List.Forall₂ Looser b.parts b'.parts) :
    Looser b b'

theorem Looser.here {b b' : Block} (h : b.Looser b') : b.LooserNode b' := by
  cases h with
  | intro here _ => exact here

theorem Looser.inside {b b' : Block} (h : b.Looser b') :
    List.Forall₂ Looser b.parts b'.parts := by
  cases h with
  | intro _ inside => exact inside

theorem LooserNode.refl (b : Block) : b.LooserNode b := by
  have hheader (h : Header) : h.Looser h := id
  have hlength (s : Setting LengthRule) : s.Looser LengthRule.Within s :=
    .refl LengthRule.Within.refl s
  cases b with
  | flag h => exact .flag (hheader h)
  | number h decimal minimum maximum =>
    exact .number (hheader h) id (.refl Limit.Looser.refl _) (.refl Limit.Looser.refl _)
  | string h length pattern =>
    exact .string (hheader h) (hlength length) (.refl (fun _ => rfl) pattern)
  | array h value length => exact .array (hheader h) (hlength length)
  | object h key value length => exact .object (hheader h) (hlength length)
  | tuple h items => exact .tuple (hheader h)
  | map h fields => exact .map (hheader h) rfl
  | enum h values => exact .enum (hheader h) fun _ ht => ht

theorem LooserNode.trans {a b c : Block} (h : a.LooserNode b) (h' : b.LooserNode c) :
    a.LooserNode c := by
  have hlength {r s t : Setting LengthRule} (h : r.Looser LengthRule.Within s)
      (h' : s.Looser LengthRule.Within t) : r.Looser LengthRule.Within t :=
    h.trans (fun _ _ _ => LengthRule.Within.trans) h'
  cases h with
  | flag header =>
    cases h' with
    | flag header' => exact .flag fun ho => header' (header ho)
  | number header fractions lower higher =>
    cases h' with
    | number header' fractions' lower' higher' =>
      exact .number (fun ho => header' (header ho)) (fun hd => fractions' (fractions hd))
        (lower.trans (fun _ _ _ => Limit.Looser.trans) lower')
        (higher.trans (fun _ _ _ => Limit.Looser.trans) higher')
  | string header wider same =>
    cases h' with
    | string header' wider' same' =>
      exact .string (fun ho => header' (header ho)) (hlength wider wider')
        (same.trans (fun _ _ _ => Eq.trans) same')
  | array header wider =>
    cases h' with
    | array header' wider' => exact .array (fun ho => header' (header ho)) (hlength wider wider')
  | object header wider =>
    cases h' with
    | object header' wider' => exact .object (fun ho => header' (header ho)) (hlength wider wider')
  | tuple header =>
    cases h' with
    | tuple header' => exact .tuple fun ho => header' (header ho)
  | map header names =>
    cases h' with
    | map header' names' => exact .map (fun ho => header' (header ho)) (names.trans names')
  | enum header more =>
    cases h' with
    | enum header' more' => exact .enum (fun ho => header' (header ho)) fun t ht => more' t (more t ht)

theorem Looser.refl (b : Block) : b.Looser b := by
  induction b using Block.partsInduction with
  | step b ih => exact .intro (.refl b) (List.forall₂_same.2 ih)

/-- Lists are related by a relation that is transitive from the elements of the first. -/
theorem forall₂_trans {R : Block → Block → Prop} {as bs cs : List Block}
    (hR : ∀ a ∈ as, ∀ b c, R a b → R b c → R a c) (h : List.Forall₂ R as bs)
    (h' : List.Forall₂ R bs cs) : List.Forall₂ R as cs := by
  induction h generalizing cs with
  | nil => exact h'
  | cons hab _ ih =>
    cases h' with
    | cons hbc hrest =>
      exact .cons (hR _ List.mem_cons_self _ _ hab hbc)
        (ih (fun a ha => hR a (List.mem_cons_of_mem _ ha)) hrest)

theorem Looser.trans {a b c : Block} (h : a.Looser b) (h' : b.Looser c) : a.Looser c := by
  induction a using Block.partsInduction generalizing b c with
  | step a ih =>
    refine .intro (h.here.trans h'.here) (forall₂_trans ?_ h.inside h'.inside)
    exact fun a ha b c hab hbc => ih a ha hab hbc

/-! ## From one change to many -/

theorem looserNode_withHeader {b : Block} {h : Header} (hb : b.header.Looser h) :
    b.LooserNode (b.withHeader h) := by
  have hrefl := LooserNode.refl b
  cases b with
  | flag h => exact .flag hb
  | number h decimal minimum maximum =>
    cases hrefl with
    | number _ fractions lower higher => exact .number hb fractions lower higher
  | string h length pattern =>
    cases hrefl with
    | string _ wider same => exact .string hb wider same
  | array h value length =>
    cases hrefl with
    | array _ wider => exact .array hb wider
  | object h key value length =>
    cases hrefl with
    | object _ wider => exact .object hb wider
  | tuple h items => exact .tuple hb
  | map h fields => exact .map hb rfl
  | enum h values => exact .enum hb fun _ ht => ht

theorem parts_withHeader (b : Block) (h : Header) : (b.withHeader h).parts = b.parts := by
  cases b <;> rfl

/-- A change to the properties of a block leaves its parts as they are. -/
theorem Eases.parts_eq {b b' : Block} (h : b.Eases b') : b'.parts = b.parts := by
  cases h with
  | header => exact parts_withHeader _ _
  | _ => rfl

theorem Eases.looserNode {b b' : Block} (h : b.Eases b') : b.LooserNode b' := by
  have hwider {s s' : Setting LengthRule} (h : s.Eases LengthRule.Within s') :
      s.Looser LengthRule.Within s' := h.looser fun _ _ => id
  have hlimit {beyond : ℚ → ℚ → Prop} {s s' : Setting Limit} (h : s.Eases (Limit.Eases beyond) s') :
      s.Looser (Limit.Looser beyond) s' := h.looser fun _ _ => Limit.Eases.looser
  cases h with
  | header ease => exact looserNode_withHeader ease.looser
  | decimal on =>
    exact .number id (fun _ => on) (.refl Limit.Looser.refl _) (.refl Limit.Looser.refl _)
  | minimum lower => exact .number id id (hlimit lower) (.refl Limit.Looser.refl _)
  | maximum higher => exact .number id id (.refl Limit.Looser.refl _) (hlimit higher)
  | text wider => exact .string id (hwider wider) (.refl (fun _ => rfl) _)
  | pattern gone =>
    exact .string id (.refl LengthRule.Within.refl _)
      (Setting.Eases.looser (R := Eq) (fun _ _ => id) (.removed gone))
  | array wider => exact .array id (hwider wider)
  | object wider => exact .object id (hwider wider)
  | enum more => exact .enum id more

theorem EasesWithin.looser {b b' : Block} (h : b.EasesWithin b') : b.Looser b' := by
  have hsame (bs : List Block) : List.Forall₂ Looser bs bs := List.forall₂_same.2 fun b _ => .refl b
  have hone {c c' : Block} (before after : List Block) (hc : c.Looser c') :
      List.Forall₂ Looser (before ++ c :: after) (before ++ c' :: after) :=
    List.rel_append (hsame before) (.cons hc (hsame after))
  induction h with
  | here ease =>
    refine .intro ease.looserNode ?_
    rw [ease.parts_eq]
    exact hsame _
  | @items h value value' length _ ih =>
    exact .intro (.array id (.refl LengthRule.Within.refl length)) (hone [] [] ih)
  | @values h key value value' length _ ih =>
    exact .intro (.object id (.refl LengthRule.Within.refl length)) (hone [] [] ih)
  | @position h before after item item' _ ih => exact .intro (.tuple id) (hone before after ih)
  | @field h before after name field field' _ ih =>
    refine .intro (.map id (by simp)) ?_
    simp only [parts, List.map_append, List.map_cons]
    exact hone _ _ ih

/-- Any number of changes come to a looser block. -/
theorem looser_of_eases {b b' : Block} (h : Relation.ReflTransGen EasesWithin b b') :
    b.Looser b' := by
  induction h with
  | refl => exact .refl b
  | tail _ ease ih => exact ih.trans ease.looser

end Block

end DocShape
