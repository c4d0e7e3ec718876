import DocShape.Proofs.Conversion.Located
import DocShape.Proofs.Document.Failures

/-!
# Error lists are known from single nodes

The errors of a conversion are those of the nodes that it reaches, each found by converting the node on
its own (`errors_located`).
-/

namespace DocShape

/-- What a caller is told of the errors of an outcome. -/
def Outcome.told {α : Type} (o : Outcome α) : List (List Text × Text) :=
  o.errors.map Complaint.told

variable {d : Direction} {S : Block} {v : Value} {o : Outcome Value}

theorem Converted.told_outcome {c : Converted} (h : c.outcome .collectAll = .ok o) :
    o.told = DocShape.told c.findings := by
  have hfree : NoHalt c.findings := exists_outcome_iff.1 ⟨o, h⟩
  simp only [outcome, halted_of_noHalt hfree, Except.ok.injEq] at h
  rw [← h]
  exact told_settle hfree

/-- A node that is reached is converted on its own if the whole is. -/
theorem Block.Reaches.exists_outcome [Host] {below : Path} {c : Block} {u : Value}
    (h : Reaches d S v below c u) (ho : (S.convert d [] v).outcome .collectAll = .ok o) :
    ∃ o', (c.convert d [] u).outcome .collectAll = .ok o' :=
  Converted.exists_outcome_iff.2 (h.noHalt (Converted.exists_outcome_iff.1 ⟨o, ho⟩))

/-- **Errors are located where they belong, and none is missing.** Let the conversion of a value come to
its end in collect-all mode. An error is told of at a path exactly when the path leads through value and
block to a node that, converted on its own, has this error at the root. The conversion of every node
that is reached comes to its end; each of its errors at the root is told of on the whole as often as on
its own; and no other node is at its path. -/
theorem errors_located [Host] (hv : v.Keyed) (ho : S.conversion d .collectAll v = .ok o) :
    (∀ p m, (p, m) ∈ o.told ↔ ∃ below c u o', Block.Reaches d S v below c u ∧
      below.map Segment.text = p ∧ c.conversion d .collectAll u = .ok o' ∧ ([], m) ∈ o'.told) ∧
    ∀ below c u, Block.Reaches d S v below c u →
      (∃ o', c.conversion d .collectAll u = .ok o' ∧
        ∀ m, o.told.count (below.map Segment.text, m) = o'.told.count ([], m)) ∧
      ∀ below' c' u', Block.Reaches d S v below' c' u' →
        below.map Segment.text = below'.map Segment.text → below = below' ∧ c = c' ∧ u = u' := by
  simp only [Block.conversion_eq] at ho ⊢
  have hcount {below : Path} {c : Block} {u : Value} {o' : Outcome Value}
      (hreach : Block.Reaches d S v below c u)
      (ho' : (c.convert d [] u).outcome .collectAll = .ok o') (m : Text) :
      o.told.count (below.map Segment.text, m) = o'.told.count ([], m) := by
    rw [Converted.told_outcome ho, Converted.told_outcome ho']
    exact Block.count_told_of_reaches hv hreach m
  refine ⟨fun p m => ⟨fun hmem => ?_, ?_⟩, fun below c u hreach => ⟨?_, ?_⟩⟩
  · rw [Converted.told_outcome ho] at hmem
    obtain ⟨below, c, u, hreach, hp, hown⟩ := Block.exists_reaches_of_mem_told hmem
    obtain ⟨o', ho'⟩ := hreach.exists_outcome ho
    exact ⟨below, c, u, o', hreach, hp, ho', by rwa [Converted.told_outcome ho']⟩
  · rintro ⟨below, c, u, o', hreach, rfl, ho', hown⟩
    rw [← List.count_pos_iff, hcount hreach ho']
    exact List.count_pos_iff.2 hown
  · obtain ⟨o', ho'⟩ := hreach.exists_outcome ho
    exact ⟨o', ho', hcount hreach ho'⟩
  · intro below' c' u' hreach' htexts
    exact hreach.unique hv hreach' htexts

/-- Lists of entries, each of which may have a note. -/
def notesSchema : Block :=
  let plain : Header := ⟨.absent, .absent, none⟩
  .array plain (.map plain [("note", .string ⟨.absent, .absent, some true⟩ .absent .absent)]) .absent

/-- Two fields that an entry does not have, and that read the same. -/
def oneTwice : Value := .dict [(.int 1, .null), (.str "1", .null)]

section

open Reference

/-- The entry at fault is told twice of one error, and so is the list. -/
theorem errors_located_oneTwice :
    ∃ o, notesSchema.conversion .encoding .collectAll (.list [oneTwice]) = .ok o ∧
      o.told.count ([Segment.text (.item 0)], (Mismatch.unexpectedField "1").text) = 2 := by
  have hdistinct : Entries.Distinct [(.int 1, .null), (.str "1", .null)] :=
    List.pairwise_pair.2 (by decide)
  have hentry : oneTwice.Keyed := by
    refine Value.Keyed.dict_iff.2 ⟨hdistinct, fun e he => ?_⟩
    rcases List.mem_pair.1 he with rfl | rfl <;> exact .leaf trivial rfl
  have hv : Value.Keyed (.list [oneTwice]) :=
    Value.Keyed.list_iff.2 (List.forall_mem_singleton.2 hentry)
  have hreach : Block.Reaches .encoding notesSchema (.list [oneTwice]) _ _ _ :=
    .inside List.mem_cons_self (.here _ _)
  obtain ⟨⟨o', ho', hcount⟩, -⟩ := (errors_located hv rfl).2 _ _ _ hreach
  refine ⟨_, rfl, (hcount _).trans ?_⟩
  obtain rfl := Except.ok.inj ho'
  decide

end

end DocShape
