import DocShape.Proofs.Conversion.Normal
import DocShape.Proofs.Conversion.Respelling

/-!
# The values of a schema

`Block.Shapes b u` says what a value along a block looks like once it was converted: null only where
it is allowed, lists for arrays and tuples, keys of the right kind, and only fields that the map has.
An encoder that finds nothing gives such a value (`shapes_normalise`).

A value of this form can be written as a document (`Shapes.isPlain`), and reading the document along
the same schema gives it back: putting integers in place of the keys that spell them undoes the
spelling (`Shapes.respell_spelled`).
-/

namespace DocShape

/-- What a value along a block looks like after conversion. -/
inductive Block.Shapes : Block → Value → Prop
  | null {b : Block} (h : b.isOptional = true) : Shapes b .null
  | flag {h : Header} (b : Bool) : Shapes (.flag h) (.bool b)
  | number {h : Header} {decimal : Option Bool} {minimum maximum : Setting Limit} {v : Value}
    {n : Number} (hn : v.finiteNumber? = some n) : Shapes (.number h decimal minimum maximum) v
  | string {h : Header} {length : Setting LengthRule} {pattern : Setting Text} (t : Text) :
    Shapes (.string h length pattern) (.str t)
  | array {h : Header} {value : Block} {length : Setting LengthRule} {xs : List Value}
    (hxs : ∀ x ∈ xs, Shapes value x) : Shapes (.array h value length) (.list xs)
  | object {h : Header} {key : KeyKind} {value : Block} {length : Setting LengthRule}
    {es : Entries} (hkeys : ∀ e ∈ es, key.Fits e.1) (hvalues : ∀ e ∈ es, Shapes value e.2) :
    Shapes (.object h key value length) (.dict es)
  | tuple {h : Header} {items : List Block} {xs : List Value} (hlength : xs.length = items.length)
    (hxs : ∀ p ∈ items.zip xs, Shapes p.1 p.2) : Shapes (.tuple h items) (.list xs)
  | map {h : Header} {fields : List (Text × Block)} {es : Entries}
    (hkeys : ∀ e ∈ es, ∃ name b, e.1 = .str name ∧ fields.lookup name = some b)
    (hvalues : ∀ e ∈ es, ∀ name b, e.1 = .str name → fields.lookup name = some b → Shapes b e.2) :
    Shapes (.map h fields) (.dict es)
  | enum {h : Header} {values : List Text} (t : Text) : Shapes (.enum h values) (.str t)

namespace Block

theorem shapes_alongPositions [Host] {bs : List Block} {path : Path} {index : Nat} {xs : List Value}
    (h : ∀ b ∈ bs, ∀ p x, (b.convert .encoding p x).findings = [] → b.Shapes (b.normalise x))
    (hclean : ∀ c ∈ convertPositions .encoding path index bs xs, c.findings = []) :
    ∀ p ∈ bs.zip (alongPositions normalise bs xs), p.1.Shapes p.2 := by
  induction bs generalizing index xs with
  | nil =>
    intro p hp
    cases hp
  | cons b bs ih =>
    cases xs with
    | nil =>
      intro p hp
      cases hp
    | cons x xs =>
      rw [convertPositions] at hclean
      rw [alongPositions, List.zip_cons_cons]
      exact List.forall_mem_cons.2
        ⟨h b List.mem_cons_self _ x (hclean _ List.mem_cons_self),
          ih (fun c hc => h c (List.mem_cons_of_mem _ hc))
            fun c hc => hclean c (List.mem_cons_of_mem _ hc)⟩

section Parts

variable {path : Path} {h : Header} {value : Block} {length : Setting LengthRule}

theorem shapes_array_of_clean [Host]
    (hvalue : ∀ p x, (value.convert .encoding p x).findings = [] →
      value.Shapes (value.normalise x))
    {xs : List Value}
    (hclean : (convertArray .encoding path value length (.list xs)).findings = []) :
    (array h value length).Shapes (.list (xs.map value.normalise)) := by
  obtain ⟨-, hparts⟩ := Converted.clean_ofItems.1 hclean
  refine .array fun x hx => ?_
  obtain ⟨y, hy, rfl⟩ := List.mem_map.1 hx
  obtain ⟨i, hi⟩ := Converted.exists_mem_items hy
  exact hvalue _ y (hparts _ hi)

theorem shapes_object_of_clean [Host] {key : KeyKind}
    (hvalue : ∀ p x, (value.convert .encoding p x).findings = [] →
      value.Shapes (value.normalise x))
    {es : Entries}
    (hclean : (convertObject .encoding path key value length (.dict es)).findings = []) :
    (object h key value length).Shapes (.dict (es.map fun e => (e.1, value.normalise e.2))) := by
  have hparts := Converted.clean_entries (List.append_eq_nil_iff.1 hclean).2
  refine .object (fun e' he' => ?_) fun e' he' => ?_
  · obtain ⟨e, he, rfl⟩ := List.mem_map.1 he'
    obtain ⟨key, hkey⟩ := (hparts e he).1
    exact (Direction.key?_encoding_eq_ok hkey).2
  · obtain ⟨e, he, rfl⟩ := List.mem_map.1 he'
    obtain ⟨p, hp⟩ := (hparts e he).2
    exact hvalue p e.2 hp

theorem shapes_tuple_of_clean [Host] {items : List Block}
    (hitems : ∀ b ∈ items, ∀ p x, (b.convert .encoding p x).findings = [] →
      b.Shapes (b.normalise x))
    {xs : List Value} (hclean : (convertTuple .encoding path items (.list xs)).findings = []) :
    (tuple h items).Shapes (.list (alongPositions normalise items xs)) := by
  simp only [convertTuple, Direction.items?] at hclean
  split at hclean
  · next hlength =>
    refine .tuple ?_ (shapes_alongPositions hitems (Converted.clean_ofItems.1 hclean).2)
    rw [length_alongPositions, hlength]
  · cases hclean

theorem shapes_map_of_clean [Host] {fields : List (Text × Block)}
    (hfields : ∀ f ∈ fields, ∀ p x, (f.2.convert .encoding p x).findings = [] →
      f.2.Shapes (f.2.normalise x))
    {es : Entries} (hclean : (convertMap .encoding path fields (.dict es)).findings = []) :
    (map h fields).Shapes
      (.dict (es.map (fun e => (e.1, alongField normalise fields e.1 e.2)) ++
        absentFields fields es)) := by
  obtain ⟨hpresent, hmissing⟩ := List.append_eq_nil_iff.1 hclean
  have hparts := clean_fieldEntries hpresent
  obtain ⟨-, hall⟩ := missingFields_of_clean hmissing
  refine .map (fun e' he' => ?keys) fun e' he' name b hname hb => ?values
  case keys =>
    rcases List.mem_append.1 he' with he' | he'
    · obtain ⟨e, he, rfl⟩ := List.mem_map.1 he'
      obtain ⟨name, b, hname, hb, -⟩ := hparts e he
      exact ⟨name, b, hname, hb⟩
    · obtain ⟨f, hf, rfl⟩ := List.mem_map.1 he'
      obtain ⟨b, hb⟩ := exists_lookup (List.mem_filter.1 hf).1
      exact ⟨f.1, b, rfl, hb⟩
  case values =>
    rcases List.mem_append.1 he' with he' | he'
    · obtain ⟨e, he, rfl⟩ := List.mem_map.1 he'
      obtain ⟨name', b', hname', hb', p, hp⟩ := hparts e he
      obtain rfl := Value.str.inj (hname.symm.trans hname')
      obtain rfl := Option.some.inj (hb.symm.trans hb')
      simp only [hname']
      rw [alongField_of_field normalise hb']
      exact hfields _ (mem_of_lookup hb') p e.2 hp
    · -- a field that was added is null, and its block allows that
      obtain ⟨f, hf, rfl⟩ := List.mem_map.1 he'
      obtain rfl := Value.str.inj hname
      have habsent := (List.mem_filter.1 hf).2
      have hhas : ¬ Entries.has es f.1 = true := by
        simpa using (Bool.and_eq_true_iff.1 habsent).1
      exact .null ((hall _ (mem_of_lookup hb)).resolve_left hhas)

end Parts

/-- What the encoder makes of a value, finding nothing, is of the form of its block. -/
theorem shapes_normalise [Host] (b : Block) {path : Path} {v : Value}
    (hclean : (b.convert .encoding path v).findings = []) : b.Shapes (b.normalise v) := by
  induction b using Block.partsInduction generalizing path v with
  | step b ih =>
    by_cases hexcused : b.header.excuses v = true
    · obtain ⟨rfl, hoption⟩ := excuses_eq_true.1 hexcused
      rw [normalise_null]
      exact .null hoption
    rw [convert_of_not_excused (Bool.eq_false_iff.2 hexcused)] at hclean
    cases b with
    | flag h =>
      cases v with
      | bool b => exact .flag b
      | _ => cases hclean
    | number h decimal minimum maximum =>
      have hsame : (number h decimal minimum maximum).normalise v = v := by cases v <;> rfl
      rw [hsame]
      simp only [convertNode, convertNumber] at hclean
      cases hn : v.finiteNumber? with
      | none => rw [hn] at hclean; cases hclean
      | some n => exact .number hn
    | string h length pattern =>
      cases v with
      | str t => exact .string t
      | _ => cases hclean
    | enum h values =>
      cases v with
      | str t => exact .enum t
      | _ => cases hclean
    | array h value length =>
      have hvalue := fun p x => @ih value List.mem_cons_self p x
      cases v with
      | list xs =>
        rw [normalise_array_list]
        exact shapes_array_of_clean hvalue hclean
      | tuple xs =>
        rw [normalise_array_tuple]
        exact shapes_array_of_clean hvalue hclean
      | _ => cases hclean
    | object h key value length =>
      cases v with
      | dict es =>
        rw [normalise_object]
        exact shapes_object_of_clean (fun p x => @ih value List.mem_cons_self p x) hclean
      | _ => cases hclean
    | tuple h items =>
      have hitems := fun b hb p x => @ih b hb p x
      cases v with
      | list xs =>
        rw [normalise_tuple_list]
        exact shapes_tuple_of_clean hitems hclean
      | tuple xs =>
        rw [normalise_tuple_tuple]
        exact shapes_tuple_of_clean hitems hclean
      | _ => cases hclean
    | map h fields =>
      cases v with
      | dict es =>
        rw [normalise_map]
        exact shapes_map_of_clean (fun f hf p x => @ih f.2 (List.mem_map_of_mem hf) p x) hclean
      | _ => cases hclean

end Block

/-! ## Writing and reading values of a schema -/

theorem KeyKind.respell_spelledKey {kind : KeyKind} {k : Value} (h : kind.Fits k) :
    kind.respell k.spelledKey = k := by
  cases kind with
  | integer =>
    cases k with
    | int n => exact respell_ofInt n
    | _ => exact h.elim
  | string =>
    cases k with
    | str t => rfl
    | _ => exact h.elim

theorem Block.alongPositions_spelled {bs : List Block} {xs : List Value}
    (h : ∀ p ∈ bs.zip xs, p.1.respell p.2.spelled = p.2) (hlength : xs.length ≤ bs.length) :
    alongPositions respell bs (xs.map Value.spelled) = xs := by
  induction bs generalizing xs with
  | nil => rw [List.length_eq_zero_iff.1 (Nat.le_zero.1 hlength)]; rfl
  | cons b bs ih =>
    cases xs with
    | nil => rfl
    | cons x xs =>
      rw [List.zip_cons_cons] at h
      rw [List.map_cons, alongPositions, h _ List.mem_cons_self,
        ih (fun p hp => h p (List.mem_cons_of_mem _ hp)) (Nat.le_of_succ_le_succ hlength)]

/-- Keys that are apart are spelled apart if only equal keys are spelled alike. -/
theorem nodup_spelledKey {p : Value → Prop} {es : Entries} (hkeys : ∀ e ∈ es, p e.1)
    (hspelled : ∀ k k', p k → p k' → k.spelledKey = k'.spelledKey → k.equals k' = true)
    (hdistinct : es.Distinct) : (es.map fun e => e.1.spelledKey).Nodup := by
  rw [List.nodup_iff_pairwise_ne, List.pairwise_map]
  refine hdistinct.imp_of_mem fun {a c} ha hc hac heq => ?_
  rw [hspelled _ _ (hkeys a ha) (hkeys c hc) heq] at hac
  cases hac

theorem KeyKind.equals_of_spelledKey {kind : KeyKind} {k k' : Value} (hk : kind.Fits k)
    (hk' : kind.Fits k') (h : k.spelledKey = k'.spelledKey) : k.equals k' = true := by
  have hsame : k = k' := by rw [← respell_spelledKey hk, h, respell_spelledKey hk']
  subst hsame
  cases kind with
  | integer =>
    cases k with
    | int n => rw [Value.equals_int, beq_self_eq_true]
    | _ => exact hk.elim
  | string =>
    cases k with
    | str t => rw [Value.equals_str, beq_self_eq_true]
    | _ => exact hk.elim

theorem equals_of_texts {k k' : Value} (hk : ∃ t, k = .str t) (hk' : ∃ t, k' = .str t)
    (h : k.spelledKey = k'.spelledKey) : k.equals k' = true := by
  obtain ⟨s, rfl⟩ := hk
  obtain ⟨t, rfl⟩ := hk'
  rw [Value.str.inj h, Value.equals_str, beq_self_eq_true]

theorem KeyKind.Fits.exists_spelledKey {kind : KeyKind} {k : Value} (h : kind.Fits k) :
    ∃ t, k.spelledKey = .str t := by
  cases kind with
  | integer =>
    cases k with
    | int n => exact ⟨_, rfl⟩
    | _ => exact h.elim
  | string =>
    cases k with
    | str t => exact ⟨t, rfl⟩
    | _ => exact h.elim

theorem KeyKind.Fits.hasDigits {kind : KeyKind} {n : Int} (h : kind.Fits (.int n)) :
    Text.HasDigits n := by
  cases kind with
  | integer => exact h
  | string => exact h.elim

namespace Block.Shapes

variable {b : Block} {u : Value}

/-- A document spells the value out, and respelling it along the schema gives the value back. -/
theorem respell_spelled (h : b.Shapes u) : b.respell u.spelled = u := by
  induction h with
  | @null b => cases b <;> rfl
  | flag => rfl
  | @number _ _ _ _ v n hn => cases v <;> first | rfl | cases hn
  | string => rfl
  | array _ ih =>
    rw [Value.spelled_list, respell_array, List.map_map]
    exact congrArg Value.list ((List.map_congr_left fun x hx => ih x hx).trans (List.map_id _))
  | object hkeys _ ih =>
    rw [Value.spelled_dict, respell_object, List.map_map]
    refine congrArg Value.dict ((List.map_congr_left fun e he => ?_).trans (List.map_id _))
    exact Prod.ext (KeyKind.respell_spelledKey (hkeys e he)) (ih e he)
  | @tuple h items xs hlength _ ih =>
    rw [Value.spelled_list, respell_tuple, alongPositions_spelled ih (Nat.le_of_eq hlength)]
  | map hkeys _ ih =>
    rw [Value.spelled_dict, respell_map, List.map_map]
    refine congrArg Value.dict ((List.map_congr_left fun e he => ?_).trans (List.map_id _))
    obtain ⟨name, b, hname, hb⟩ := hkeys e he
    have hvalue := ih e he name b hname hb
    obtain ⟨k, v⟩ := e
    obtain rfl : k = .str name := hname
    exact Prod.ext rfl ((alongField_of_field respell hb _).trans hvalue)
  | enum => rfl

theorem mem_zip {bs : List Block} {xs : List Value} (hlength : xs.length = bs.length) {x : Value}
    (hx : x ∈ xs) : ∃ b, (b, x) ∈ bs.zip xs := by
  induction bs generalizing xs with
  | nil => rw [List.length_eq_zero_iff.1 hlength] at hx; cases hx
  | cons b bs ih =>
    cases xs with
    | nil => cases hx
    | cons y xs =>
      rw [List.zip_cons_cons]
      rcases List.mem_cons.1 hx with rfl | hx
      · exact ⟨b, List.mem_cons_self⟩
      · obtain ⟨c, hc⟩ := ih (Nat.succ.inj hlength) hx
        exact ⟨c, List.mem_cons_of_mem _ hc⟩

theorem keyDigits (h : b.Shapes u) : u.KeyDigits := by
  induction h with
  | null => exact .leaf trivial rfl
  | flag => exact .leaf trivial rfl
  | @number _ _ _ _ v n hn =>
    cases v with
    | int n => exact .leaf trivial rfl
    | float x => exact .leaf trivial rfl
    | _ => cases hn
  | string => exact .leaf trivial rfl
  | array _ ih => exact ⟨trivial, ih⟩
  | object hkeys _ ih =>
    refine ⟨fun e he n hn => ?_, fun x hx => ?_⟩
    · have hfits := hkeys e he
      rw [hn] at hfits
      exact hfits.hasDigits
    · obtain ⟨e, he, rfl⟩ := List.mem_map.1 hx
      exact ih e he
  | tuple hlength _ ih =>
    refine ⟨trivial, fun x hx => ?_⟩
    obtain ⟨b, hb⟩ := mem_zip hlength hx
    exact ih _ hb
  | map hkeys _ ih =>
    refine ⟨fun e he n hn => ?_, fun x hx => ?_⟩
    · obtain ⟨name, b, hname, -⟩ := hkeys e he
      rw [hname] at hn
      cases hn
    · obtain ⟨e, he, rfl⟩ := List.mem_map.1 hx
      obtain ⟨name, b, hname, hb⟩ := hkeys e he
      exact ih e he name b hname hb
  | enum => exact .leaf trivial rfl

/-- A document has a place for the value, if its keys are apart. -/
theorem isPlain (h : b.Shapes u) (hu : u.Keyed) : u.IsPlain := by
  induction h with
  | null => exact .leaf trivial rfl
  | flag => exact .leaf trivial rfl
  | @number _ _ _ _ v n hn =>
    cases v with
    | int n => exact .leaf trivial rfl
    | float x =>
      obtain ⟨hx, hfinite⟩ := Option.filter_eq_some_iff.1 hn
      rw [← Option.some.inj hx] at hfinite
      exact .leaf hfinite rfl
    | _ => cases hn
  | string => exact .leaf trivial rfl
  | array _ ih => exact ⟨trivial, fun x hx => ih x hx (hu.item hx)⟩
  | object hkeys _ ih =>
    refine ⟨⟨fun e he => (hkeys e he).exists_spelledKey,
      nodup_spelledKey hkeys (fun _ _ => KeyKind.equals_of_spelledKey) hu.here⟩, fun x hx => ?_⟩
    obtain ⟨e, he, rfl⟩ := List.mem_map.1 hx
    exact ih e he (hu.entry he)
  | tuple hlength _ ih =>
    refine ⟨trivial, fun x hx => ?_⟩
    obtain ⟨b, hb⟩ := mem_zip hlength hx
    exact ih _ hb (hu.item hx)
  | @map _ fields es hkeys _ ih =>
    have htexts : ∀ e ∈ es, ∃ t, e.1 = .str t := fun e he =>
      let ⟨name, _, hname, _⟩ := hkeys e he
      ⟨name, hname⟩
    refine ⟨⟨fun e he => ?_, ?_⟩, fun x hx => ?_⟩
    · obtain ⟨t, ht⟩ := htexts e he
      exact ⟨t, by rw [ht]; rfl⟩
    · exact nodup_spelledKey htexts (fun _ _ => equals_of_texts) hu.here
    · obtain ⟨e, he, rfl⟩ := List.mem_map.1 hx
      obtain ⟨name, b, hname, hb⟩ := hkeys e he
      exact ih e he name b hname hb (hu.entry he)
  | enum => exact .leaf trivial rfl

end Block.Shapes

end DocShape
