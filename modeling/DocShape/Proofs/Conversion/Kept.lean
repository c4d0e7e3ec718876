import DocShape.Proofs.Conversion.Normal
import DocShape.Proofs.Conversion.Respelling

/-!
# What conversion keeps

Normalising a native value gives a native value: no dictionary gets a key twice (`keyed_normalise`).
A decoder that finds nothing on a document has taken no key beyond the digit limit
(`keyDigits_respell`).
-/

namespace DocShape

theorem Value.equals_str_right {k : Value} {name : Text} :
    k.equals (.str name) = true ↔ k = .str name := by
  cases k with
  | str t => rw [equals_str, beq_iff_eq, str.injEq]
  | _ => exact ⟨fun h => (by simp [equals, counted?, number?] at h), fun h => (by cases h)⟩

theorem Value.IsDocument.keyDigits {v : Value} (h : v.IsDocument) : v.KeyDigits := by
  refine Everywhere.mono (fun v hv => ?_) h
  cases v with
  | dict es =>
    intro e he n hn
    obtain ⟨t, ht⟩ := hv.1 e he
    cases ht.symm.trans hn
  | _ => trivial

namespace Block

/-! ## Keys -/

theorem normalise_rewrites (b : Block) (v : Value) : Rewrites normalise b v (b.normalise v) := by
  cases b with
  | array h value length =>
    have hitems {xs : List Value} (hv : 0 < v.depth) (hxs : ∀ x ∈ xs, x ∈ v.parts) :
        Rewrites normalise (array h value length) v (.list (xs.map value.normalise)) := by
      refine .list hv fun y hy => ?_
      obtain ⟨x, hx, rfl⟩ := List.mem_map.1 hy
      exact .rewritten (b := array h value length) List.mem_cons_self (hxs x hx)
    cases v with
    | list xs => rw [normalise_array_list]; exact hitems Value.depth_list_pos fun _ hx => hx
    | tuple xs => rw [normalise_array_tuple]; exact hitems Value.depth_tuple_pos fun _ hx => hx
    | _ => exact .same
  | object h key value length =>
    cases v with
    | dict es =>
      rw [normalise_object]
      refine .dict Value.depth_dict_pos fun e' he' => ?_
      obtain ⟨e, he, rfl⟩ := List.mem_map.1 he'
      exact .rewritten (b := object h key value length) List.mem_cons_self (List.mem_map_of_mem he)
    | _ => exact .same
  | tuple h items =>
    have hitems {xs : List Value} (hv : 0 < v.depth) (hxs : ∀ x ∈ xs, x ∈ v.parts) :
        Rewrites normalise (tuple h items) v (.list (alongPositions normalise items xs)) :=
      .list hv fun y hy => within_of_mem_alongPositions hxs hy
    cases v with
    | list xs => rw [normalise_tuple_list]; exact hitems Value.depth_list_pos fun _ hx => hx
    | tuple xs => rw [normalise_tuple_tuple]; exact hitems Value.depth_tuple_pos fun _ hx => hx
    | _ => exact .same
  | map h fields =>
    cases v with
    | dict es =>
      rw [normalise_map]
      refine .dict Value.depth_dict_pos fun e' he' => ?_
      rcases List.mem_append.1 he' with he' | he'
      · obtain ⟨e, he, rfl⟩ := List.mem_map.1 he'
        exact within_alongField he
      · obtain ⟨f, -, rfl⟩ := List.mem_map.1 he'
        exact .null
    | _ => exact .same
  | _ => cases v <;> exact .same

theorem distinct_absentFields {fields : List (Text × Block)} (h : (fields.map Prod.fst).Nodup)
    (es : Entries) : (absentFields fields es).Distinct := by
  rw [List.nodup_iff_pairwise_ne, List.pairwise_map] at h
  refine List.pairwise_map.2 ((h.filter _).imp fun {a c} hne => ?_)
  rw [Value.equals_str]
  exact beq_eq_false_iff_ne.2 hne

/-- The fields that are added are none of the keys that were there. -/
theorem distinct_normalise {fields : List (Text × Block)} (h : (fields.map Prod.fst).Nodup)
    {es : Entries} (hes : es.Distinct) (g : Value → Value → Value) :
    Entries.Distinct ((es.map fun e => (e.1, g e.1 e.2)) ++ absentFields fields es) := by
  refine List.pairwise_append.2
    ⟨List.pairwise_map.2 hes, distinct_absentFields h es, fun a ha c hc => ?_⟩
  obtain ⟨e, he, rfl⟩ := List.mem_map.1 ha
  obtain ⟨f, hf, rfl⟩ := List.mem_map.1 hc
  have hhas : ¬ es.has f.1 = true := by
    simpa using (Bool.and_eq_true_iff.1 (List.mem_filter.1 hf).2).1
  refine Bool.eq_false_iff.2 fun heq => hhas (Entries.has_iff.2 ⟨e.2, ?_⟩)
  rw [← Value.equals_str_right.1 heq]
  exact he

/-- Normalising keeps the keys of each dictionary apart. -/
theorem keyed_normalise {b : Block} (hb : b.FieldsApart) {v : Value} (hv : v.Keyed) :
    (b.normalise v).Keyed := by
  refine everywhere_of_rewrites normalise_rewrites (fun b hb => hb.inside) trivial
    (fun v hv => hv) (fun b v hb hv => ?_) hb hv
  cases v with
  | dict es =>
    cases b with
    | object h key value length =>
      rw [normalise_object]
      exact List.pairwise_map.2 hv.here
    | map h fields =>
      rw [normalise_map]
      exact distinct_normalise hb.here hv.here _
    | _ => exact hv.here
  | _ => cases b <;> exact trivial

/-! ## Key digits -/

theorem hasDigits_of_key {kind : KeyKind} {t : Text} {key : Value × Text}
    (h : Direction.decoding.key? kind (.str t) = some (.ok key)) {n : Int}
    (hn : kind.respell (.str t) = .int n) : Text.HasDigits n := by
  rcases KeyKind.respell_str kind t with ⟨m, rfl, rfl, hm⟩ | ⟨ht, -⟩
  · obtain rfl := Value.int.inj (hm.symm.trans hn)
    have hcanonical : Direction.isCanonicalInteger (Text.ofInt m) = true :=
      Direction.isCanonicalInteger_iff.2 ⟨m, rfl⟩
    rw [Direction.key?, Direction.integerKey?, if_pos hcanonical,
      Direction.filter_isDigit_ofInt] at h
    by_cases hm : (Text.ofNat m.natAbs).length ≤ digitLimit
    · exact hm
    · simp only [if_neg hm] at h
      cases Option.some.inj h
  · rw [ht] at hn
    cases hn

theorem keyDigits_alongPositions [Host] {bs : List Block} {path : Path} {index : Nat} {xs : List Value}
    (hxs : ∀ x ∈ xs, x.IsDocument)
    (h : ∀ b ∈ bs, ∀ p x, x.IsDocument → (b.convert .decoding p x).findings = [] →
      (b.respell x).KeyDigits) (hlength : xs.length = bs.length)
    (hclean : ∀ c ∈ convertPositions .decoding path index bs xs, c.findings = []) :
    ∀ x ∈ alongPositions respell bs xs, x.KeyDigits := by
  induction bs generalizing index xs with
  | nil =>
    obtain rfl := List.length_eq_zero_iff.1 hlength
    intro x hx
    cases hx
  | cons b bs ih =>
    cases xs with
    | nil => cases hlength
    | cons x xs =>
      rw [convertPositions] at hclean
      rw [alongPositions]
      exact List.forall_mem_cons.2
        ⟨h b List.mem_cons_self _ x (hxs x List.mem_cons_self) (hclean _ List.mem_cons_self),
          ih (fun y hy => hxs y (List.mem_cons_of_mem _ hy))
            (fun c hc => h c (List.mem_cons_of_mem _ hc)) (Nat.succ.inj hlength)
            fun c hc => hclean c (List.mem_cons_of_mem _ hc)⟩

section Parts

variable {path : Path} {value : Block} {length : Setting LengthRule}

theorem keyDigits_array [Host] {xs : List Value} (hxs : ∀ x ∈ xs, x.IsDocument)
    (hvalue : ∀ p x, x.IsDocument → (value.convert .decoding p x).findings = [] →
      (value.respell x).KeyDigits)
    (hclean : (convertArray .decoding path value length (.list xs)).findings = []) :
    (Value.list (xs.map value.respell)).KeyDigits := by
  refine ⟨trivial, fun y hy => ?_⟩
  obtain ⟨x, hx, rfl⟩ := List.mem_map.1 hy
  obtain ⟨i, hi⟩ := Converted.exists_mem_items hx
  exact hvalue _ x (hxs x hx) ((Converted.clean_ofItems.1 hclean).2 _ hi)

theorem keyDigits_object [Host] {key : KeyKind} {es : Entries} (htexts : ∀ e ∈ es, ∃ t, e.1 = .str t)
    (hes : ∀ e ∈ es, e.2.IsDocument)
    (hvalue : ∀ p x, x.IsDocument → (value.convert .decoding p x).findings = [] →
      (value.respell x).KeyDigits)
    (hclean : (convertObject .decoding path key value length (.dict es)).findings = []) :
    (Value.dict (es.map fun e => (key.respell e.1, value.respell e.2))).KeyDigits := by
  have hparts := Converted.clean_entries (List.append_eq_nil_iff.1 hclean).2
  refine ⟨fun e' he' n hn => ?_, fun x hx => ?_⟩
  · obtain ⟨e, he, rfl⟩ := List.mem_map.1 he'
    obtain ⟨t, ht⟩ := htexts e he
    obtain ⟨shown, hkey⟩ := (hparts e he).1
    simp only [ht] at hkey hn
    exact hasDigits_of_key hkey hn
  · obtain ⟨e', he', rfl⟩ := List.mem_map.1 hx
    obtain ⟨e, he, rfl⟩ := List.mem_map.1 he'
    obtain ⟨p, hp⟩ := (hparts e he).2
    exact hvalue p e.2 (hes e he) hp

theorem keyDigits_map [Host] {fields : List (Text × Block)} {es : Entries}
    (htexts : ∀ e ∈ es, ∃ t, e.1 = .str t) (hes : ∀ e ∈ es, e.2.IsDocument)
    (hfields : ∀ f ∈ fields, ∀ p x, x.IsDocument → (f.2.convert .decoding p x).findings = [] →
      (f.2.respell x).KeyDigits)
    (hclean : (convertMap .decoding path fields (.dict es)).findings = []) :
    (Value.dict (es.map fun e => (e.1, alongField respell fields e.1 e.2))).KeyDigits := by
  have hparts := clean_fieldEntries (List.append_eq_nil_iff.1 hclean).1
  refine ⟨fun e' he' n hn => ?_, fun x hx => ?_⟩
  · obtain ⟨e, he, rfl⟩ := List.mem_map.1 he'
    obtain ⟨t, ht⟩ := htexts e he
    cases ht.symm.trans hn
  · obtain ⟨e', he', rfl⟩ := List.mem_map.1 hx
    obtain ⟨e, he, rfl⟩ := List.mem_map.1 he'
    obtain ⟨name, b, hname, hb, p, hp⟩ := hparts e he
    simp only [hname]
    rw [alongField_of_field respell hb]
    exact hfields _ (mem_of_lookup hb) p e.2 (hes e he) hp

end Parts

/-- A decoder that finds nothing on a document has taken no key beyond the digit limit. -/
theorem keyDigits_respell [Host] (b : Block) {path : Path} {w : Value} (hw : w.IsDocument)
    (hclean : (b.convert .decoding path w).findings = []) : (b.respell w).KeyDigits := by
  induction b using Block.partsInduction generalizing path w with
  | step b ih =>
    by_cases hexcused : b.header.excuses w = true
    · obtain ⟨rfl, -⟩ := excuses_eq_true.1 hexcused
      cases b <;> exact .leaf trivial rfl
    rw [convert_of_not_excused (Bool.eq_false_iff.2 hexcused)] at hclean
    cases b with
    | array h value length =>
      cases w with
      | list xs =>
        rw [respell_array]
        exact keyDigits_array (fun x hx => hw.item hx)
          (fun p x hx => @ih value List.mem_cons_self p x hx) hclean
      | _ => exact hw.keyDigits
    | object h key value length =>
      cases w with
      | dict es =>
        rw [respell_object]
        exact keyDigits_object hw.here.1 (fun e he => hw.entry he)
          (fun p x hx => @ih value List.mem_cons_self p x hx) hclean
      | _ => exact hw.keyDigits
    | tuple h items =>
      cases w with
      | list xs =>
        rw [respell_tuple]
        simp only [convertNode, convertTuple, Direction.items?] at hclean
        split at hclean
        · next hlength =>
          exact ⟨trivial, keyDigits_alongPositions (fun x hx => hw.item hx)
            (fun b hb p x hx => ih b hb hx) hlength (Converted.clean_ofItems.1 hclean).2⟩
        · cases hclean
      | _ => exact hw.keyDigits
    | map h fields =>
      cases w with
      | dict es =>
        rw [respell_map]
        exact keyDigits_map hw.here.1 (fun e he => hw.entry he)
          (fun f hf p x hx => @ih f.2 (List.mem_map_of_mem hf) p x hx) hclean
      | _ => exact hw.keyDigits
    | _ => cases w <;> exact hw.keyDigits

end Block

end DocShape
