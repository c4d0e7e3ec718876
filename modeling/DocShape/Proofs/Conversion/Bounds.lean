import DocShape.Proofs.Conversion.Walk
import DocShape.Proofs.Findings
import DocShape.Proofs.Schema.Bounds

/-!
# Conversions along rewritten bounds

What goes unnoticed by the rules on limits and on lengths goes unnoticed by the walk along a block whose
limits and constraints are rewritten (`Block.convert_mapBounds`). The walk makes the same of a value, and
what it finds is related as what the rules find is, by any relation of findings that holds piece by piece
and shows whether there are any.
-/

namespace DocShape

/-- A relation of findings that holds piece by piece, and of no findings only with none. -/
structure Revealing (R : List Finding → List Finding → Prop) : Prop extends Piecewise R where
  nil_iff {fs gs : List Finding} (h : R fs gs) : fs = [] ↔ gs = []

theorem revealing_eq : Revealing Eq :=
  ⟨piecewise_eq, fun h => by rw [h]⟩

variable {R : List Finding → List Finding → Prop} {d : Direction} {path : Path}

/-! ## The same value with related findings -/

/-- The same value, with findings in a relation. -/
structure Converted.SameUpTo (R : List Finding → List Finding → Prop) (x y : Converted) : Prop where
  value : x.value = y.value
  findings : R x.findings y.findings

namespace Converted

theorem SameUpTo.eq {x y : Converted} (h : x.SameUpTo Eq y) : x = y := by
  obtain ⟨v, fs⟩ := x
  obtain ⟨w, gs⟩ := y
  obtain ⟨rfl, rfl⟩ := h
  rfl

variable (hR : Revealing R)

include hR

theorem sameUpTo_refl (c : Converted) : c.SameUpTo R c := ⟨rfl, hR.refl _⟩

theorem sameUpTo_leaf {fs gs : List Finding} (h : R fs gs) (v : Value) :
    (leaf v fs).SameUpTo R (leaf v gs) := by
  refine ⟨?_, h⟩
  have hempty : fs.isEmpty = gs.isEmpty := by
    rw [Bool.eq_iff_iff, List.isEmpty_iff, List.isEmpty_iff]
    exact hR.nil_iff h
  rw [leaf, leaf, hempty]

theorem sameUpTo_ofItems {before before' : List Finding} {cs cs' : List Converted}
    (hbefore : R before before') (hcs : List.Forall₂ (SameUpTo R) cs cs') :
    (ofItems before cs).SameUpTo R (ofItems before' cs') := by
  have hparts : cs.map Converted.value = cs'.map Converted.value ∧
      R (cs.flatMap Converted.findings) (cs'.flatMap Converted.findings) := by
    induction hcs with
    | nil => exact ⟨rfl, hR.refl _⟩
    | cons h _ ih =>
      rw [List.map_cons, List.map_cons, List.flatMap_cons, List.flatMap_cons, h.value, ih.1]
      exact ⟨rfl, hR.append h.findings ih.2⟩
  exact ⟨congrArg Value.list hparts.1, hR.append hbefore hparts.2⟩

omit hR in
theorem forall₂_items {f f' : Nat → Value → Converted} (h : ∀ i x, (f i x).SameUpTo R (f' i x))
    (index : Nat) (xs : List Value) :
    List.Forall₂ (SameUpTo R) (items f index xs) (items f' index xs) := by
  induction xs generalizing index with
  | nil => exact .nil
  | cons x xs ih => exact .cons (h index x) (ih _)

theorem sameUpTo_entries {f f' : Path → Value → Converted} (h : ∀ p x, (f p x).SameUpTo R (f' p x))
    (kind : KeyKind) (index : Nat) (es : Entries) :
    (entries d path kind f index es).1 = (entries d path kind f' index es).1 ∧
      R (entries d path kind f index es).2 (entries d path kind f' index es).2 := by
  induction es generalizing index with
  | nil => exact ⟨rfl, hR.refl _⟩
  | cons e es ih =>
    obtain ⟨k, v⟩ := e
    obtain ⟨hvalues, hfindings⟩ := ih (index + 1)
    cases hk : d.key? kind k with
    | none =>
      rw [entries_of_bad hk, entries_of_bad hk]
      exact ⟨hvalues, hR.append (hR.refl [_]) hfindings⟩
    | some r =>
      cases r with
      | error f =>
        rw [entries_of_halt hk, entries_of_halt hk]
        exact ⟨hvalues, hR.append (hR.refl [_]) hfindings⟩
      | ok key =>
        rw [entries_of_key hk, entries_of_key hk, hvalues, (h _ v).value]
        exact ⟨rfl, hR.append (h _ v).findings hfindings⟩

end Converted

/-! ## Rewritten bounds -/

/-- The rules do not notice that limits and constraints are rewritten, up to a relation of what the rule
on lengths finds. -/
structure ChecksAlike (R : List Finding → List Finding → Prop) (onLimit : Limit → Limit)
    (onRule : LengthRule → LengthRule) : Prop where
  least (path : Path) (n : Number) (l : Limit) : (onLimit l).checkLeast path n = l.checkLeast path n
  most (path : Path) (n : Number) (l : Limit) : (onLimit l).checkMost path n = l.checkMost path n
  length (path : Path) (size : Nat) (rule : LengthRule) :
    R ((onRule rule).check path size) (rule.check path size)

namespace Block

variable {onLimit : Limit → Limit} {onRule : LengthRule → LengthRule}

/-- A value is converted along a block and along the rewritten block to the same value, with findings in
a relation. -/
def Converts [Host] (R : List Finding → List Finding → Prop) (onLimit : Limit → Limit)
    (onRule : LengthRule → LengthRule) (d : Direction) (b : Block) : Prop :=
  ∀ path v, ((b.mapBounds onLimit onRule).convert d path v).SameUpTo R (b.convert d path v)

theorem forall₂_convertPositions [Host] {bs : List Block}
    (hbs : ∀ b ∈ bs, Converts R onLimit onRule d b)
    (index : Nat) (xs : List Value) :
    List.Forall₂ (Converted.SameUpTo R)
      (convertPositions d path index (bs.map (mapBounds onLimit onRule)) xs)
      (convertPositions d path index bs xs) := by
  induction bs generalizing index xs with
  | nil => exact .nil
  | cons b bs ih =>
    obtain ⟨hb, hbs⟩ := List.forall_mem_cons.1 hbs
    cases xs with
    | nil => exact .nil
    | cons x xs => exact .cons (hb _ x) (ih hbs _ xs)

theorem lookup_map (name : Text) (fields : List (Text × Block)) :
    (fields.map fun f => (f.1, f.2.mapBounds onLimit onRule)).lookup name =
      (fields.lookup name).map (mapBounds onLimit onRule) := by
  induction fields with
  | nil => rfl
  | cons f fields ih =>
    rw [List.map_cons, List.lookup_cons, List.lookup_cons, ih]
    cases name == f.1 <;> rfl

theorem missingFields_map (path : Path) (es : Entries) (fields : List (Text × Block)) :
    missingFields path es (fields.map fun f => (f.1, f.2.mapBounds onLimit onRule)) =
      missingFields path es fields := by
  induction fields with
  | nil => rfl
  | cons f fields ih =>
    obtain ⟨n, b⟩ := f
    rw [List.map_cons, missingFields, missingFields, ih, isOptional, isOptional, header_mapBounds]

variable (hR : Revealing R) (h : ChecksAlike R onLimit onRule)

include hR in
theorem sameUpTo_fieldEntries [Host] {fields : List (Text × Block)}
    (hfields : ∀ f ∈ fields, Converts R onLimit onRule d f.2) (es : Entries) :
    (fieldEntries d path (fields.map fun f => (f.1, f.2.mapBounds onLimit onRule)) es).1 =
        (fieldEntries d path fields es).1 ∧
      R (fieldEntries d path (fields.map fun f => (f.1, f.2.mapBounds onLimit onRule)) es).2
        (fieldEntries d path fields es).2 := by
  induction es with
  | nil => exact ⟨rfl, hR.refl _⟩
  | cons e es ih =>
    obtain ⟨k, v⟩ := e
    obtain ⟨hvalues, hfindings⟩ := ih
    cases hb : fieldOf? fields k with
    | none =>
      have hb' : fieldOf? (fields.map fun f => (f.1, f.2.mapBounds onLimit onRule)) k = none := by
        rw [fieldOf?, Option.bind_eq_none_iff] at hb ⊢
        intro name hname
        rw [lookup_map, hb name hname, Option.map_none]
      rw [fieldEntries_of_unexpected hb, fieldEntries_of_unexpected hb']
      exact ⟨hvalues, hR.append (hR.refl [_]) hfindings⟩
    | some b =>
      obtain ⟨name, rfl, hname⟩ := fieldOf?_eq_some.1 hb
      have hname' : (fields.map fun f => (f.1, f.2.mapBounds onLimit onRule)).lookup name =
          some (b.mapBounds onLimit onRule) := by
        rw [lookup_map, hname, Option.map_some]
      have hv := hfields _ (mem_of_lookup hname) (path ++ [.field name]) v
      rw [fieldEntries_of_field hname, fieldEntries_of_field hname', hvalues, hv.value]
      exact ⟨rfl, hR.append hv.findings hfindings⟩

include hR h in
theorem checkLength_map (path : Path) (size : Nat) (rule : Setting LengthRule) :
    R (checkLength path size (rule.map onRule)) (checkLength path size rule) := by
  cases rule with
  | given r => exact h.length path size r
  | _ => exact hR.refl _

include h in
theorem convertNumber_map (path : Path) (decimal : Bool) (minimum maximum : Setting Limit)
    (v : Value) :
    convertNumber d path decimal (minimum.map onLimit) (maximum.map onLimit) v =
      convertNumber d path decimal minimum maximum v := by
  unfold convertNumber
  cases minimum <;> cases maximum <;>
    simp only [Setting.map, Setting.value?, h.least, h.most]

include hR h in
/-- What goes unnoticed by the rules goes unnoticed at a node if it does at the parts. -/
theorem convertNode_map [Host] {b : Block} (hparts : ∀ c ∈ b.parts, Converts R onLimit onRule d c)
    (path : Path) (v : Value) :
    ((b.mapBounds onLimit onRule).convertNode d path v).SameUpTo R (b.convertNode d path v) := by
  have hrefl (c : Converted) : c.SameUpTo R c := Converted.sameUpTo_refl hR c
  cases b with
  | flag header => exact hrefl _
  | number header decimal minimum maximum =>
    rw [mapBounds, convertNode, convertNode, convertNumber_map h]
    exact hrefl _
  | string header length pattern =>
    cases v with
    | str t =>
      exact Converted.sameUpTo_leaf hR (hR.append (checkLength_map hR h _ _ _) (hR.refl _)) _
    | _ => exact hrefl _
  | array header value length =>
    have hvalue := hparts value List.mem_cons_self
    rw [mapBounds, convertNode, convertNode, convertArray, convertArray]
    cases d.items? v with
    | none => exact hrefl _
    | some xs =>
      exact Converted.sameUpTo_ofItems hR (checkLength_map hR h _ _ _)
        (Converted.forall₂_items (fun i x => hvalue _ x) 0 xs)
  | object header key value length =>
    have hvalue := hparts value List.mem_cons_self
    cases v with
    | dict es =>
      obtain ⟨hvalues, hfindings⟩ := Converted.sameUpTo_entries hR hvalue key 0 es
      exact ⟨congrArg Value.dict hvalues, hR.append (checkLength_map hR h _ _ _) hfindings⟩
    | _ => exact hrefl _
  | tuple header items =>
    rw [mapBounds, convertNode, convertNode, convertTuple, convertTuple, mapItems_eq, List.length_map]
    cases d.items? v with
    | none => exact hrefl _
    | some xs =>
      dsimp only
      split
      · exact Converted.sameUpTo_ofItems hR (hR.refl _) (forall₂_convertPositions hparts 0 xs)
      · exact hrefl _
  | map header fields =>
    have hfields : ∀ f ∈ fields, Converts R onLimit onRule d f.2 :=
      fun f hf => hparts f.2 (List.mem_map_of_mem hf)
    rw [mapBounds, mapFields_eq]
    cases v with
    | dict es =>
      obtain ⟨hvalues, hfindings⟩ := sameUpTo_fieldEntries hR hfields es
      rw [convertNode, convertNode, convertMap, convertMap, missingFields_map, hvalues]
      exact ⟨rfl, hR.append hfindings (hR.refl _)⟩
    | _ => exact hrefl _
  | enum header values => exact hrefl _

include hR h in
/-- **What goes unnoticed by the rules goes unnoticed by the walk.** -/
theorem convert_mapBounds [Host] (b : Block) : Converts R onLimit onRule d b := by
  induction b using Block.partsInduction with
  | step b ih =>
    intro path v
    cases hexcused : b.header.excuses v with
    | true =>
      rw [convert_of_excused hexcused, convert_of_excused (by rwa [header_mapBounds])]
      exact Converted.sameUpTo_refl hR _
    | false =>
      rw [convert_of_not_excused hexcused, convert_of_not_excused (by rwa [header_mapBounds])]
      exact convertNode_map hR h ih path v

end Block

end DocShape
