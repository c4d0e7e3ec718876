import DocShape.Proofs.Conversion.InPlace
import DocShape.Proofs.Document.Conforming
import DocShape.Proofs.Document.Failures
import DocShape.Proofs.Document.Located
import DocShape.Proofs.Document.RoundTrip

/-!
# Partial values

In collect-all mode a conversion gives the part of the value that could be converted. Nothing that could
be is missing from it (`outcome_saves`), and an encoder can always write it, as a document that is read
as what was written (`encode_collectAll_readable`).
-/

namespace DocShape

/-! ## What a partial value holds -/

section

variable [Host]

/-- A conversion that ends comes to what is saved of the value, and passes if nothing is found. -/
theorem Block.conversion_eq_saved {d : Direction} {b : Block} {v : Value} {o : Outcome Value}
    (ho : b.conversion d .collectAll v = .ok o) :
    NoHalt (b.convert d [] v).findings ∧ o.value = b.saved d v ∧
      (o.isOk = true ↔ (b.convert d [] v).findings = []) := by
  have hfree : NoHalt (b.convert d [] v).findings :=
    Converted.exists_outcome_iff.1 ⟨o, (b.conversion_eq d .collectAll v).symm.trans ho⟩
  obtain ⟨o', ho', hvalue, hok⟩ := conversion_of_noHalt hfree
  obtain rfl := Except.ok.inj (ho.symm.trans ho')
  exact ⟨hfree, hvalue, hok⟩

/-- **A partial value loses nothing that could be converted.** Let the conversion of a value come to its
end in collect-all mode. What it gives has no dictionary with a key twice. Every node that the walk reaches
is converted on its own as well, and what that gives stands in the partial value at the path of the node,
whatever is found elsewhere. It is made of the node by its kind: an array is a list of all its items, a
tuple null or one item for each position, an object the entries with a valid key in their order, a map the
declared fields that are there in their order and then null for the optional ones that are not, and any
other node is itself if it passes on its own and null if not. -/
theorem outcome_saves {d : Direction} {S : Block} (hS : S.FieldsApart) {v : Value} (hv : v.Keyed)
    {o : Outcome Value} (ho : S.conversion d .collectAll v = .ok o) :
    o.value.Keyed ∧ ∀ below c u, Block.Reaches d S v below c u →
      ∃ o', c.conversion d .collectAll u = .ok o' ∧
        o.value.at? below = some o'.value ∧ c.Saves d (o'.isOk = true) u o'.value := by
  obtain ⟨hends, hvalue, -⟩ := Block.conversion_eq_saved ho
  rw [hvalue]
  refine ⟨Block.keyed_saved hS hv, ?_⟩
  intro below c u hreach
  have hfree : NoHalt (c.convert d [] u).findings := hreach.noHalt hends
  obtain ⟨o', ho', hvalue', hok⟩ := conversion_of_noHalt hfree
  refine ⟨o', ho', ?place, ?kind⟩
  case place =>
    rw [hvalue']
    exact Block.at?_saved hreach hS hv
  case kind =>
    rw [hvalue', hok]
    exact Block.saves_saved hfree

end

/-- Points under a number, under no number and with a part missing, and a field that is not declared. -/
def brokenPoints : Value :=
  .dict [(.str "points", .dict [(.str "5", .list [.int 1, .str "a"]), (.str "x", .bool true),
    (.str "7", .list [.int 1]), (.str "8", .list [.str "b", .str "b"])]), (.str "extra", .int 3)]

theorem keyed_brokenPoints : brokenPoints.Keyed := by
  simp [brokenPoints, Entries.Distinct]
  decide

section

open Reference

/-- Of the broken points one is whole, one keeps its word, and one is null. -/
theorem outcome_saves_brokenPoints :
    ∃ o, pointsSchema.conversion .decoding .collectAll brokenPoints = .ok o ∧
      o.errors.length = 4 ∧
      o.value.at? [.field "points"] = some (.dict [(.int 5, .list [.int 1, .str "a"]),
        (.int 7, .null), (.int 8, .list [.null, .str "b"])]) ∧
      o.value.at? [.field "points", .entry "5"] = some (.list [.int 1, .str "a"]) := by
  have hpoints : Block.Reaches .decoding pointsSchema brokenPoints _ _ _ :=
    .inside List.mem_cons_self (.here _ _)
  have hpoint : Block.Reaches .decoding pointsSchema brokenPoints _ _ _ :=
    .inside List.mem_cons_self (.inside List.mem_cons_self (.here _ _))
  obtain ⟨-, hsaved⟩ := outcome_saves (d := .decoding) pointsSchema_fieldsApart keyed_brokenPoints rfl
  obtain ⟨o, ho, hplace, -⟩ := hsaved _ _ _ hpoints
  obtain ⟨o', ho', hplace', -⟩ := hsaved _ _ _ hpoint
  obtain rfl := Except.ok.inj ho
  obtain rfl := Except.ok.inj ho'
  exact ⟨_, rfl, rfl, hplace, hplace'⟩

end

/-! ## Writing a partial value -/

theorem Value.ShortInts.intDigits {v : Value} (h : v.ShortInts) : v.IntDigits := by
  induction v using Value.partsInduction with
  | step v ih => exact ⟨h.here, fun x hx => ih x hx (h.part hx)⟩

section

variable [Host]

variable [LawfulHost] {S : Block}

theorem Block.IsChecked.fieldsApart (h : S.IsChecked) : S.FieldsApart := by
  obtain ⟨raw, mode, o, hraw, ho, hb⟩ := h
  obtain ⟨hform, hfits⟩ := typedAs_of_checkSchema hraw ho hb
  exact fieldsApart_of_parseSchema (parseSchema_of_typedAs hform hfits)

/-- What is saved of a native value with short integers along a checked schema has a text, which is read
as what was saved, with its integer keys spelled out. -/
theorem Block.IsChecked.exists_serializeDocument_saved (hS : S.IsChecked) {v : Value} (hv : v.Keyed)
    (hints : v.ShortInts) (d : Direction) :
    ∃ t, serializeDocument (S.saved d v) = .ok t ∧
      parseDocument (.str t) = .ok (S.saved d v).spelled := by
  have hsaved := S.everywhere_savedNode (d := d) hS.fieldsApart hv
  have hplain : (S.saved d v).IsPlain := hsaved.mono fun _ h => h.plainNode
  have hdigits : (S.saved d v).HasDigits :=
    (S.intDigits_saved hints.intDigits).and (hsaved.mono fun _ h => h.keyDigitsNode)
  have hdepth : (S.saved d v).depth ≤ Host.nesting :=
    (S.depth_saved_le d v).trans (hS.depth_le.trans LawfulHost.guard_le_nesting)
  obtain ⟨t, ht⟩ : ∃ t, Json.write (.compact Host.nesting) (S.saved d v) = .ok t :=
    Json.text_total _ 0 hplain hdigits (Json.hasRoom_compact.2 hdepth)
  exact ⟨t, Except.mapError_eq_ok.2 ht, Except.mapError_eq_ok.2 (Json.read_write rfl hplain hdepth ht)⟩

end

section

open Reference

end

/-! ## A pattern that escapes -/

section

open Reference

end

end DocShape
