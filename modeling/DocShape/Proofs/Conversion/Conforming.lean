import DocShape.Proofs.Conversion.Normal
import DocShape.Proofs.Conversion.Refusals

/-!
# Conforming values

`Block.Conforms` says apart from the walk which values are along a schema, and what becomes of each. A
walk without findings is along a value that conforms, and yields what is to become of it
(`conforms_of_clean`). Conversely a walk along a value that conforms finds nothing, unless it breaks
off (`convert_of_conforms`).
-/

namespace DocShape

namespace Block

/-- A value conforms to a block, for one direction of conversion, and is to become another value. -/
inductive Conforms [Host] (d : Direction) : Block → Value → Value → Prop
  | excused {b : Block} (optional : b.isOptional = true) : Conforms d b .null .null
  | flag {h : Header} (x : Bool) : Conforms d (.flag h) (.bool x) (.bool x)
  | number {h : Header} {decimal : Option Bool} {minimum maximum : Setting Limit} {v : Value}
    {n : Number} (number : v.IsNumber n) (whole : decimal = some false → ∃ k : ℤ, n.exact = k)
    (least : ∀ l, minimum = .given l → l.Precedes n)
    (greatest : ∀ l, maximum = .given l → l.Follows n) :
    Conforms d (.number h decimal minimum maximum) v v
  | string {h : Header} {length : Setting LengthRule} {pattern : Setting Text} {t : Text}
    (size : ∀ r, length = .given r → r.Admits t.length)
    (found : ∀ p, pattern = .given p → Pattern.FoundIn p t) :
    Conforms d (.string h length pattern) (.str t) (.str t)
  | array {h : Header} {value : Block} {length : Setting LengthRule} {v : Value}
    {xs ys : List Value} (items : d.items? v = some xs)
    (size : ∀ r, length = .given r → r.Admits xs.length) (count : xs.length = ys.length)
    (each : ∀ p ∈ xs.zip ys, Conforms d value p.1 p.2) :
    Conforms d (.array h value length) v (.list ys)
  | object {h : Header} {kind : KeyKind} {value : Block} {length : Setting LengthRule}
    {es gs : Entries} (size : ∀ r, length = .given r → r.Admits es.length)
    (count : es.length = gs.length) (keys : ∀ p ∈ es.zip gs, d.KeyAs kind p.1.1 p.2.1)
    (values : ∀ p ∈ es.zip gs, Conforms d value p.1.2 p.2.2) :
    Conforms d (.object h kind value length) (.dict es) (.dict gs)
  | tuple {h : Header} {items : List Block} {v : Value} {xs ys : List Value}
    (listed : d.items? v = some xs) (count : xs.length = items.length)
    (count' : ys.length = items.length)
    (each : ∀ p ∈ items.zip (xs.zip ys), Conforms d p.1 p.2.1 p.2.2) :
    Conforms d (.tuple h items) v (.list ys)
  | map {h : Header} {fields : List (Text × Block)} {es gs : Entries}
    (declared : ∀ e ∈ es, ∃ c, fieldOf? fields e.1 = some c)
    (present : ∀ f ∈ fields, es.has f.1 = true ∨ f.2.isOptional = true)
    (names : es.map Prod.fst = gs.map Prod.fst)
    (values : ∀ p ∈ es.zip gs, ∀ c, fieldOf? fields p.1.1 = some c → Conforms d c p.1.2 p.2.2) :
    Conforms d (.map h fields) (.dict es) (.dict (gs ++ absentFields fields es))
  | enum {h : Header} {values : List Text} {t : Text} (mem : t ∈ values) :
    Conforms d (.enum h values) (.str t) (.str t)

end Block

/-! ## Parts on which nothing is found -/

namespace Converted

variable {d : Direction} {path : Path} {kind : KeyKind} {index : Nat}

theorem zip_items {convert : Nat → Value → Converted} {xs : List Value}
    (hclean : ∀ c ∈ items convert index xs, c.findings = []) :
    ∀ p ∈ xs.zip ((items convert index xs).map Converted.value),
      ∃ i, (convert i p.1).findings = [] ∧ (convert i p.1).value = p.2 := by
  induction xs generalizing index with
  | nil =>
    intro p hp
    cases hp
  | cons x xs ih =>
    rw [items, List.forall_mem_cons] at hclean
    rw [items, List.map_cons, List.zip_cons_cons, List.forall_mem_cons]
    exact ⟨⟨index, hclean.1, rfl⟩, ih hclean.2⟩

theorem length_items (convert : Nat → Value → Converted) (xs : List Value) :
    xs.length = ((items convert index xs).map Converted.value).length := by
  induction xs generalizing index with
  | nil => rfl
  | cons x xs ih => exact congrArg Nat.succ ih

/-- Entries on which nothing is found have keys of the kind, and nothing is found on the values. -/
theorem zip_entries {convert : Path → Value → Converted} {es : Entries}
    (hclean : (entries d path kind convert index es).2 = []) :
    es.length = (entries d path kind convert index es).1.length ∧
      ∀ p ∈ es.zip (entries d path kind convert index es).1, d.KeyAs kind p.1.1 p.2.1 ∧
        ∃ q, (convert q p.1.2).findings = [] ∧ (convert q p.1.2).value = p.2.2 := by
  induction es generalizing index with
  | nil => exact ⟨rfl, fun p hp => by cases hp⟩
  | cons e es ih =>
    obtain ⟨k, v⟩ := e
    obtain ⟨key, shown, hk, hcleanValue, hcleanRest⟩ := exists_key_of_clean hclean
    rw [entries_of_key hk, List.zip_cons_cons, List.forall_mem_cons]
    obtain ⟨hcount, hrest⟩ := ih hcleanRest
    exact ⟨congrArg Nat.succ hcount, ⟨Direction.keyAs_of_key? hk, _, hcleanValue, rfl⟩, hrest⟩

end Converted

namespace Block

variable {d : Direction} {path : Path} {b : Block} {v r : Value}

/-- Fields on which nothing is found are declared, and nothing is found on their values. -/
theorem zip_fieldEntries [Host] {fields : List (Text × Block)} {es : Entries}
    (hclean : (fieldEntries d path fields es).2 = []) :
    es.map Prod.fst = (fieldEntries d path fields es).1.map Prod.fst ∧
      ∀ p ∈ es.zip (fieldEntries d path fields es).1, ∃ c, fieldOf? fields p.1.1 = some c ∧
        ∃ q, (c.convert d q p.1.2).findings = [] ∧ (c.convert d q p.1.2).value = p.2.2 := by
  induction es with
  | nil => exact ⟨rfl, fun p hp => by cases hp⟩
  | cons e es ih =>
    obtain ⟨k, v⟩ := e
    obtain ⟨name, c, rfl, hname, hcleanValue, hcleanRest⟩ := exists_field_of_clean hclean
    have hc : fieldOf? fields (.str name) = some c := fieldOf?_eq_some.2 ⟨name, rfl, hname⟩
    rw [fieldEntries_of_field hname, List.zip_cons_cons, List.forall_mem_cons]
    obtain ⟨hnames, hrest⟩ := ih hcleanRest
    exact ⟨congrArg (List.cons _) hnames, ⟨c, hc, _, hcleanValue, rfl⟩, hrest⟩

theorem zip_positions [Host] {bs : List Block} {xs : List Value} {index : Nat}
    (hcount : xs.length = bs.length)
    (hclean : ∀ c ∈ convertPositions d path index bs xs, c.findings = []) :
    ((convertPositions d path index bs xs).map Converted.value).length = bs.length ∧
      ∀ p ∈ bs.zip (xs.zip ((convertPositions d path index bs xs).map Converted.value)),
        ∃ q, (p.1.convert d q p.2.1).findings = [] ∧ (p.1.convert d q p.2.1).value = p.2.2 := by
  induction bs generalizing index xs with
  | nil => exact ⟨rfl, fun p hp => by cases hp⟩
  | cons b bs ih =>
    cases xs with
    | nil => cases hcount
    | cons x xs =>
      rw [convertPositions, List.forall_mem_cons] at hclean
      rw [convertPositions, List.map_cons, List.zip_cons_cons, List.zip_cons_cons,
        List.forall_mem_cons]
      obtain ⟨hlength, hrest⟩ := ih (Nat.succ.inj hcount) hclean.2
      exact ⟨congrArg Nat.succ hlength, ⟨_, hclean.1, rfl⟩, hrest⟩

/-! ## What nothing is found on conforms -/

/-- Whatever a walk along the block finds nothing on conforms to it. -/
def ConformsIfClean [Host] (b : Block) (d : Direction) : Prop :=
  ∀ path v, (b.convert d path v).findings = [] → b.Conforms d v (b.convert d path v).value

section

variable {h : Header} {length : Setting LengthRule}

theorem conforms_number [Host] {decimal : Option Bool} {minimum maximum : Setting Limit}
    (hb : (number h decimal minimum maximum).MeasuredNode)
    (hclean : (convertNumber d path (decimal.getD true) minimum maximum v).findings = []) :
    (number h decimal minimum maximum).Conforms d v
      (convertNumber d path (decimal.getD true) minimum maximum v).value := by
  cases hsome : v.finiteNumber? with
  | none => rw [convertNumber, hsome] at hclean; cases hclean
  | some n =>
    have hn := Value.finiteNumber?_eq_some.1 hsome
    by_cases hwhole : decimal.getD true = false → n.isIntegral = true
    · rw [convertNumber_of_number hsome hwhole] at hclean ⊢
      obtain ⟨hleast, hmost⟩ := List.append_eq_nil_iff.1 hclean
      rw [Converted.clean_leaf hclean]
      exact .number hn (fun hd => (Number.isIntegral_iff hn.2).1 (hwhole (by rw [hd]; rfl)))
        ((verdict_leastFindings hn.2 hb.1).holds_of_nil hleast)
        ((verdict_mostFindings hn.2 hb.2).holds_of_nil hmost)
    · obtain ⟨hd, hfraction⟩ := Classical.not_imp.1 hwhole
      rw [hd, convertNumber_of_fraction hsome hfraction] at hclean
      cases hclean

theorem conforms_string [Host] {pattern : Setting Text} (hb : (string h length pattern).MeasuredNode)
    (hclean : (convertString d path length pattern v).findings = []) :
    (string h length pattern).Conforms d v (convertString d path length pattern v).value := by
  cases v with
  | str t =>
    obtain ⟨hlength, hpattern⟩ := List.append_eq_nil_iff.1 hclean
    rw [convertString, Converted.clean_leaf hclean]
    exact .string ((verdict_checkLength hb).holds_of_nil hlength)
      (verdict_checkPattern.holds_of_nil hpattern)
  | _ => cases hclean

theorem conforms_array [Host] {value : Block} (hb : (array h value length).MeasuredNode)
    (hvalue : value.ConformsIfClean d)
    (hclean : (convertArray d path value length v).findings = []) :
    (array h value length).Conforms d v (convertArray d path value length v).value := by
  unfold convertArray at hclean ⊢
  cases hitems : d.items? v with
  | none => rw [hitems] at hclean; cases hclean
  | some xs =>
    rw [hitems, Converted.clean_ofItems] at hclean
    refine .array hitems ((verdict_checkLength hb).holds_of_nil hclean.1)
      (Converted.length_items _ xs) fun p hp => ?_
    obtain ⟨i, hfindings, hsame⟩ := Converted.zip_items hclean.2 p hp
    rw [← hsame]
    exact hvalue _ _ hfindings

theorem conforms_object [Host] {kind : KeyKind} {value : Block}
    (hb : (object h kind value length).MeasuredNode) (hvalue : value.ConformsIfClean d)
    (hclean : (convertObject d path kind value length v).findings = []) :
    (object h kind value length).Conforms d v (convertObject d path kind value length v).value := by
  cases v with
  | dict es =>
    obtain ⟨hlength, hentries⟩ := List.append_eq_nil_iff.1 hclean
    obtain ⟨hcount, hzip⟩ := Converted.zip_entries hentries
    refine .object ((verdict_checkLength hb).holds_of_nil hlength) hcount
      (fun p hp => (hzip p hp).1) fun p hp => ?_
    obtain ⟨-, q, hfindings, hsame⟩ := hzip p hp
    rw [← hsame]
    exact hvalue _ _ hfindings
  | _ => cases hclean

theorem conforms_tuple [Host] {items : List Block} (hitems : ∀ c ∈ items, c.ConformsIfClean d)
    (hclean : (convertTuple d path items v).findings = []) :
    (tuple h items).Conforms d v (convertTuple d path items v).value := by
  unfold convertTuple at hclean ⊢
  cases hlisted : d.items? v with
  | none => rw [hlisted] at hclean; cases hclean
  | some xs =>
    rw [hlisted] at hclean
    dsimp only at hclean ⊢
    split at hclean
    · next hcount =>
      obtain ⟨hlength, hzip⟩ := zip_positions hcount (Converted.clean_ofItems.1 hclean).2
      rw [if_pos hcount]
      refine .tuple hlisted hcount hlength fun p hp => ?_
      obtain ⟨q, hfindings, hsame⟩ := hzip p hp
      rw [← hsame]
      exact hitems _ (List.of_mem_zip hp).1 _ _ hfindings
    · cases hclean

theorem conforms_map [Host] {fields : List (Text × Block)}
    (hfields : ∀ f ∈ fields, f.2.ConformsIfClean d)
    (hclean : (convertMap d path fields v).findings = []) :
    (map h fields).Conforms d v (convertMap d path fields v).value := by
  cases v with
  | dict es =>
    obtain ⟨hentries, hmissing⟩ := List.append_eq_nil_iff.1 hclean
    obtain ⟨hnames, hzip⟩ := zip_fieldEntries hentries
    obtain ⟨habsent, hpresent⟩ := missingFields_of_clean hmissing
    have hcount := congrArg List.length hnames
    rw [List.length_map, List.length_map] at hcount
    rw [convertMap, habsent]
    refine .map (fun e he => ?_) hpresent hnames fun p hp c hc => ?_
    · obtain ⟨g, hg⟩ := exists_zip_of_left hcount he
      obtain ⟨c, hc, -⟩ := hzip _ hg
      exact ⟨c, hc⟩
    · obtain ⟨c', hc', q, hfindings, hsame⟩ := hzip p hp
      obtain rfl := Option.some.inj (hc.symm.trans hc')
      obtain ⟨name, -, hname⟩ := fieldOf?_eq_some.1 hc
      rw [← hsame]
      exact hfields _ (mem_of_lookup hname) _ _ hfindings
  | _ => cases hclean

theorem conforms_enum [Host] {values : List Text}
    (hclean : (convertEnum d path values v).findings = []) :
    (enum h values).Conforms d v (convertEnum d path values v).value := by
  cases v with
  | str t =>
    rw [convertEnum, Converted.clean_leaf hclean]
    rw [convertEnum, Converted.leaf] at hclean
    split at hclean
    · next hmem => exact .enum (List.contains_iff_mem.1 hmem)
    · cases hclean
  | _ => cases hclean

end

/-- **Soundness of the walk.** What a walk finds nothing on conforms, and it yields what is to become
of it. -/
theorem conforms_of_clean [Host] (hb : b.Measured) : b.ConformsIfClean d := by
  induction b using Block.partsInduction with
  | step b ih =>
    intro path v hclean
    have hparts : ∀ c ∈ b.parts, c.ConformsIfClean d := fun c hc => ih c hc (hb.inside c hc)
    by_cases hexcused : b.header.excuses v = true
    · obtain ⟨rfl, hoption⟩ := excuses_eq_true.1 hexcused
      rw [convert_of_excused hexcused]
      exact .excused hoption
    rw [convert_of_not_excused (Bool.eq_false_iff.2 hexcused)] at hclean ⊢
    cases b with
    | flag h =>
      cases v with
      | bool x => exact .flag x
      | _ => cases hclean
    | number h decimal minimum maximum => exact conforms_number hb.here hclean
    | string h length pattern => exact conforms_string hb.here hclean
    | array h value length => exact conforms_array hb.here (hparts value List.mem_cons_self) hclean
    | object h kind value length =>
      exact conforms_object hb.here (hparts value List.mem_cons_self) hclean
    | tuple h items => exact conforms_tuple hparts hclean
    | map h fields => exact conforms_map (fun f hf => hparts f.2 (List.mem_map_of_mem hf)) hclean
    | enum h values => exact conforms_enum hclean

end Block

/-! ## Nothing is found on what conforms -/

namespace Converted

variable {d : Direction} {path : Path} {kind : KeyKind} {index : Nat}

theorem items_of_zip {convert : Nat → Value → Converted} {xs ys : List Value}
    (hcount : xs.length = ys.length)
    (hfree : NoHalt ((items convert index xs).flatMap Converted.findings))
    (h : ∀ p ∈ xs.zip ys, ∀ i, NoHalt (convert i p.1).findings → convert i p.1 = ⟨p.2, []⟩) :
    items convert index xs = ys.map fun y => ⟨y, []⟩ := by
  induction xs generalizing index ys with
  | nil =>
    obtain rfl := List.length_eq_zero_iff.1 hcount.symm
    rfl
  | cons x xs ih =>
    cases ys with
    | nil => cases hcount
    | cons y ys =>
      rw [items, List.flatMap_cons, noHalt_append] at hfree
      rw [List.zip_cons_cons, List.forall_mem_cons] at h
      rw [items, List.map_cons, h.1 index hfree.1, ih (Nat.succ.inj hcount) hfree.2 h.2]

theorem entries_of_zip {convert : Path → Value → Converted} {es gs : Entries}
    (hcount : es.length = gs.length)
    (hfree : NoHalt (entries d path kind convert index es).2)
    (hkeys : ∀ p ∈ es.zip gs, d.KeyAs kind p.1.1 p.2.1)
    (h : ∀ p ∈ es.zip gs, ∀ q, NoHalt (convert q p.1.2).findings →
      convert q p.1.2 = ⟨p.2.2, []⟩) :
    entries d path kind convert index es = (gs, []) := by
  induction es generalizing index gs with
  | nil =>
    obtain rfl := List.length_eq_zero_iff.1 hcount.symm
    rfl
  | cons e es ih =>
    cases gs with
    | nil => cases hcount
    | cons g gs =>
      obtain ⟨k, v⟩ := e
      rw [List.zip_cons_cons, List.forall_mem_cons] at hkeys h
      have hshort : ∀ f, d.key? kind k ≠ some (.error f) := fun f hf =>
        hfree f (by rw [entries_of_halt hf]; exact List.mem_cons_self)
      obtain ⟨shown, hk⟩ := Direction.key?_of_keyAs hkeys.1 hshort
      rw [entries_of_key hk, noHalt_append] at hfree
      rw [entries_of_key hk, h.1 _ hfree.1, ih (Nat.succ.inj hcount) hfree.2 hkeys.2 h.2]
      rfl

end Converted

namespace Block

variable {d : Direction} {path : Path} {b : Block} {v r : Value}

theorem fieldEntries_of_zip [Host] {fields : List (Text × Block)} {es gs : Entries}
    (hdeclared : ∀ e ∈ es, ∃ c, fieldOf? fields e.1 = some c)
    (hnames : es.map Prod.fst = gs.map Prod.fst)
    (hfree : NoHalt (fieldEntries d path fields es).2)
    (h : ∀ p ∈ es.zip gs, ∀ c, fieldOf? fields p.1.1 = some c →
      ∀ q, NoHalt (c.convert d q p.1.2).findings → c.convert d q p.1.2 = ⟨p.2.2, []⟩) :
    fieldEntries d path fields es = (gs, []) := by
  induction es generalizing gs with
  | nil =>
    obtain rfl := List.map_eq_nil_iff.1 hnames.symm
    rfl
  | cons e es ih =>
    cases gs with
    | nil => cases hnames
    | cons g gs =>
      obtain ⟨k, v⟩ := e
      obtain ⟨k', y⟩ := g
      rw [List.map_cons, List.map_cons, List.cons.injEq] at hnames
      obtain ⟨rfl, hnames⟩ := hnames
      rw [List.zip_cons_cons, List.forall_mem_cons] at h
      rw [List.forall_mem_cons] at hdeclared
      obtain ⟨c, hc⟩ := hdeclared.1
      obtain ⟨name, rfl, hname⟩ := fieldOf?_eq_some.1 hc
      rw [fieldEntries_of_field hname, noHalt_append] at hfree
      rw [fieldEntries_of_field hname, h.1 c hc _ hfree.1, ih hdeclared.2 hnames hfree.2 h.2]
      rfl

theorem positions_of_zip [Host] {bs : List Block} {xs ys : List Value} {index : Nat}
    (hcount : xs.length = bs.length) (hcount' : ys.length = bs.length)
    (hfree : NoHalt ((convertPositions d path index bs xs).flatMap Converted.findings))
    (h : ∀ p ∈ bs.zip (xs.zip ys), ∀ q, NoHalt (p.1.convert d q p.2.1).findings →
      p.1.convert d q p.2.1 = ⟨p.2.2, []⟩) :
    convertPositions d path index bs xs = ys.map fun y => ⟨y, []⟩ := by
  induction bs generalizing index xs ys with
  | nil =>
    obtain rfl := List.length_eq_zero_iff.1 hcount'
    rfl
  | cons b bs ih =>
    cases xs with
    | nil => cases hcount
    | cons x xs =>
      cases ys with
      | nil => cases hcount'
      | cons y ys =>
        rw [convertPositions, List.flatMap_cons, noHalt_append] at hfree
        rw [List.zip_cons_cons, List.zip_cons_cons, List.forall_mem_cons] at h
        rw [convertPositions, List.map_cons, h.1 _ hfree.1,
          ih (Nat.succ.inj hcount) (Nat.succ.inj hcount') hfree.2 h.2]

theorem excuses_of_ne_null {h : Header} (hv : v ≠ .null) : h.excuses v = false :=
  Bool.eq_false_iff.2 fun hexcused => hv (excuses_eq_true.1 hexcused).1

theorem convert_of_items? [Host] {xs : List Value} (hitems : d.items? v = some xs) :
    b.convert d path v = b.convertNode d path v := by
  refine convert_of_not_excused (excuses_of_ne_null ?_)
  rintro rfl
  cases d <;> cases hitems

theorem convertNumber_of_conforms {decimal : Option Bool} {minimum maximum : Setting Limit}
    {n : Number} {h : Header} (hb : (Block.number h decimal minimum maximum).MeasuredNode)
    (hn : v.IsNumber n) (hwhole : decimal = some false → ∃ k : ℤ, n.exact = k)
    (hleast : ∀ l, minimum = .given l → l.Precedes n)
    (hgreatest : ∀ l, maximum = .given l → l.Follows n)
    (hfree : NoHalt (convertNumber d path (decimal.getD true) minimum maximum v).findings) :
    convertNumber d path (decimal.getD true) minimum maximum v = ⟨v, []⟩ := by
  have hintegral : decimal.getD true = false → n.isIntegral = true := by
    rw [Number.isIntegral_iff hn.2]
    cases decimal with
    | none => exact fun hd => by cases hd
    | some x => exact fun hd => hwhole (congrArg some hd)
  rw [convertNumber_of_number (Value.finiteNumber?_eq_some.2 hn) hintegral] at hfree ⊢
  obtain ⟨hfreeLeast, hfreeMost⟩ := noHalt_append.1 hfree
  rw [(verdict_leastFindings hn.2 hb.1).eq_nil hleast hfreeLeast,
    (verdict_mostFindings hn.2 hb.2).eq_nil hgreatest hfreeMost]
  rfl

/-- **Completeness of the walk.** Along a value that conforms a walk finds nothing and yields what is
to become of it, unless it breaks off. -/
theorem convert_of_conforms [Host] (hb : b.Measured) (h : b.Conforms d v r)
    (hfree : NoHalt (b.convert d path v).findings) : b.convert d path v = ⟨r, []⟩ := by
  induction h generalizing path with
  | excused optional => exact convert_of_excused (excuses_eq_true.2 ⟨rfl, optional⟩)
  | flag x => rfl
  | number number whole least greatest =>
    have hv := Value.finiteNumber?_eq_some.2 number
    rw [convert_of_not_excused (excuses_of_ne_null (by rintro rfl; cases hv))] at hfree ⊢
    exact convertNumber_of_conforms hb.here number whole least greatest hfree
  | string size found =>
    obtain ⟨hlength, hpattern⟩ := noHalt_append.1 hfree
    rw [convert_of_not_excused rfl, convertNode, convertString,
      (verdict_checkLength hb.here).eq_nil size hlength,
      verdict_checkPattern.eq_nil found hpattern]
    rfl
  | @array h value length v xs ys items size count each ih =>
    rw [convert_of_items? items, convertNode, convertArray, items] at hfree ⊢
    obtain ⟨hlength, hitems⟩ := noHalt_append.1 hfree
    have hvalue := hb.inside value List.mem_cons_self
    dsimp only
    rw [(verdict_checkLength hb.here).eq_nil size hlength,
      Converted.items_of_zip count hitems fun p hp i hi => ih p hp hvalue hi,
      Converted.ofItems_clean]
  | @object h kind value length es gs size count keys values ih =>
    rw [convert_of_not_excused rfl, convertNode, convertObject] at hfree ⊢
    obtain ⟨hlength, hentries⟩ := noHalt_append.1 hfree
    have hvalue := hb.inside value List.mem_cons_self
    rw [(verdict_checkLength hb.here).eq_nil size hlength,
      Converted.entries_of_zip count hentries keys fun p hp q hq => ih p hp hvalue hq]
    rfl
  | @tuple h items v xs ys listed count count' each ih =>
    rw [convert_of_items? listed, convertNode, convertTuple, listed] at hfree ⊢
    dsimp only at hfree ⊢
    rw [if_pos count] at hfree ⊢
    obtain ⟨-, hitems⟩ := noHalt_append.1 hfree
    rw [positions_of_zip count count' hitems fun p hp q hq =>
        ih p hp (hb.inside _ (List.of_mem_zip hp).1) hq,
      Converted.ofItems_clean]
  | @map h fields es gs declared present names values ih =>
    rw [convert_of_not_excused rfl, convertNode, convertMap] at hfree ⊢
    obtain ⟨hentries, -⟩ := noHalt_append.1 hfree
    have hfields {k : Value} {c : Block} (hc : fieldOf? fields k = some c) : c.Measured := by
      obtain ⟨name, -, hname⟩ := fieldOf?_eq_some.1 hc
      exact hb.inside c (List.mem_map_of_mem (mem_of_lookup hname))
    rw [fieldEntries_of_zip declared names hentries fun p hp c hc q hq =>
        ih p hp c hc (hfields hc) hq,
      missingFields_of_present present]
    rfl
  | enum mem =>
    rw [convert_of_not_excused rfl, convertNode, convertEnum,
      if_pos (List.contains_iff_mem.2 mem)]
    rfl

end Block

end DocShape
