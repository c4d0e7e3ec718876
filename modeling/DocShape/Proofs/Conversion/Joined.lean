import DocShape.Proofs.Conversion.Paths
import DocShape.Proofs.Conversion.Writable
import DocShape.Proofs.Value.Joined

/-!
# Surrogates in what a conversion saves

The texts among the keys that a conversion saves are names (`isName_of_mem_saved`), and all other texts are
those of the value. So if the texts in a value are joined, then they are in what is saved
(`isJoined_saved`).
-/

namespace DocShape.Block

variable {d : Direction} {b : Block} {v : Value} {es : Entries} {e : Value × Value} {t : Text}

theorem isName_of_mem_savedPair [Host] {kind : KeyKind} {value : Block}
    (he : e ∈ es.filterMap (savedPair? d kind value)) (ht : e.1 = .str t) : t.isName = true := by
  obtain ⟨e', -, hsaved⟩ := List.mem_filterMap.1 he
  obtain ⟨shown, hkey, -⟩ := savedPair?_eq_some.1 hsaved
  obtain ⟨hspelled, -⟩ := Direction.spelledKey_of_key? hkey
  rw [ht] at hspelled
  exact Value.str.inj hspelled ▸ Direction.isName_of_key? hkey

theorem isName_of_mem_savedField [Host] {fields : List (Text × Block)}
    (hfields : ∀ f ∈ fields, f.1.isName = true)
    (he : e ∈ es.filterMap (savedField? d fields) ++ absentFields fields es)
    (ht : e.1 = .str t) : t.isName = true := by
  rcases List.mem_append.1 he with he | he
  · obtain ⟨e', -, hsaved⟩ := List.mem_filterMap.1 he
    obtain ⟨name, c, -, hc, rfl⟩ := savedField?_eq_some.1 hsaved
    exact Value.str.inj ht ▸ hfields _ (mem_of_lookup hc)
  · obtain ⟨f, hf, rfl⟩ := List.mem_map.1 he
    exact Value.str.inj ht ▸ hfields f (List.mem_filter.1 hf).1

/-- The texts among the keys of what is saved are names. -/
theorem isName_of_mem_saved [Host] (hb : ∀ name ∈ b.fieldNames, name.isName = true)
    (hs : b.saved d v = .dict es) (he : e ∈ es) (ht : e.1 = .str t) : t.isName = true := by
  have hleaf (hkind : b.kind.isLeaf = true) : t.isName = true := by
    rcases saved_leaf hkind v with ⟨-, hsame, -, hparts⟩ | ⟨-, hnull⟩
    · -- a node without parts has no keys
      obtain rfl := hsame.symm.trans hs
      exact absurd (List.mem_map_of_mem he) (hparts ▸ List.not_mem_nil)
    · cases hnull.symm.trans hs
  cases b with
  | flag h => exact hleaf rfl
  | number h decimal minimum maximum => exact hleaf rfl
  | string h length pattern => exact hleaf rfl
  | enum h values => exact hleaf rfl
  | array h value length =>
    cases hitems : d.items? v with
    | none => cases (saved_array_of_no_items hitems).symm.trans hs
    | some xs => cases (saved_array hitems).symm.trans hs
  | tuple h items =>
    by_cases hcount : ∃ xs, d.items? v = some xs ∧ xs.length = items.length
    · obtain ⟨xs, hitems, hcount⟩ := hcount
      cases (saved_tuple hitems hcount).symm.trans hs
    · cases (saved_tuple_of_no_items fun xs hxs hlength => hcount ⟨xs, hxs, hlength⟩).symm.trans hs
  | object h kind value length =>
    cases v with
    | dict gs =>
      rw [saved_object] at hs
      exact isName_of_mem_savedPair (Value.dict.inj hs ▸ he) ht
    | _ => cases (saved_object_of_no_dict fun gs hgs => by cases hgs).symm.trans hs
  | map h fields =>
    cases v with
    | dict gs =>
      rw [saved_map] at hs
      exact isName_of_mem_savedField (fun f hf => hb _ (List.mem_map_of_mem hf))
        (Value.dict.inj hs ▸ he) ht
    | _ => cases (saved_map_of_no_dict fun gs hgs => by cases hgs).symm.trans hs

/-- What is saved of a value with joined texts has joined texts. -/
theorem isJoined_saved [Host] (hb : b.WellNamed) (hv : v.IsJoined) : (b.saved d v).IsJoined := by
  refine everywhere_saved (r := fun b v => b.WellNamed ∧ v.IsJoined) ?parts trivial ?node ⟨hb, hv⟩
  case parts =>
    rintro b v ⟨hb, hv⟩ c hc x hx
    exact ⟨hb.inside c hc, hv.inside x hx⟩
  case node =>
    rintro b v ⟨hb, hv⟩
    have hmakes := makes_saved d b v
    generalize hu : b.saved d v = u at hmakes
    cases hmakes with
    | null => trivial
    | same _ _ => exact hv.here
    | list _ => trivial
    | dict _ _ =>
      exact fun e he t ht => Text.IsName.isJoined (isName_of_mem_saved hb.here hu he ht)

end DocShape.Block
