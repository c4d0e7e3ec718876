import DocShape.Proofs.Conversion.Bounds
import DocShape.Proofs.Schema.Shorthand

/-!
# Conversions along shorthand

The rules find the same on a limit and on its shortest spelling (`checksAlike_shortBounds`). On a
constraint to one length they find something in the same cases and in the same place, and name the same
length; only what they say of it is put in other words (`checksAlike_short`). So does the walk along a
block and along its shortest spelling.
-/

namespace DocShape

/-! ## Other words for a length -/

/-- A mismatch in which a length that is too small or too great is put as a length that is not the one
asked for. -/
def Mismatch.asExact : Mismatch → Mismatch
  | lengthOutOfBounds _ limit => lengthNot limit
  | m => m

/-- An error in those words: place and class stay. -/
def Complaint.asExact : Complaint → Complaint
  | mismatch path cause => mismatch path cause.asExact
  | c => c

@[simp] theorem Complaint.path_asExact (c : Complaint) : c.asExact.path = c.path := by
  cases c <;> rfl

/-- A finding in those words. -/
def Finding.asExact : Finding → Finding := .map Complaint.asExact id id

/-- Findings that differ in nothing but the words for a length. -/
def Reworded (fs gs : List Finding) : Prop := fs.map Finding.asExact = gs.map Finding.asExact

theorem revealing_reworded : Revealing Reworded where
  refl fs := rfl
  append h h' := by rw [Reworded, List.map_append, List.map_append, h, h']
  nil_iff {fs gs} h := by
    rw [← List.map_eq_nil_iff (f := Finding.asExact), h, List.map_eq_nil_iff]

variable {path : Path} {size : ℕ}

theorem asExact_quotingInt (k : ℤ) (relation : Relation) :
    (Finding.quotingInt k fun shown => .mismatch path (.lengthOutOfBounds relation shown)).asExact =
      (Finding.quotingInt k fun shown => .mismatch path (.lengthNot shown)).asExact := by
  unfold Finding.quotingInt
  cases Text.ofIntLimited? k <;> rfl

/-! ## Rules -/

/-- A number at both ends of a constraint is held against a length as the number alone is. -/
theorem reworded_exactly (path : Path) (size : ℕ) (n : Number) :
    Reworded ((LengthRule.exactly n).check path size)
      ((LengthRule.range ⟨.given n, .given n⟩).check path size) := by
  have hends : (LengthRule.range ⟨.given n, .given n⟩).check path size =
      if (checkLengthBound n (fun k => k ≤ size) fun shown =>
          .mismatch path (.lengthOutOfBounds .atLeast shown)).isEmpty then
        checkLengthBound n (fun k => size ≤ k) fun shown =>
          .mismatch path (.lengthOutOfBounds .atMost shown)
      else checkLengthBound n (fun k => k ≤ size) fun shown =>
          .mismatch path (.lengthOutOfBounds .atLeast shown) := rfl
  rw [hends, LengthRule.check]
  unfold checkLengthBound
  cases n.truncate with
  | error f => exact revealing_reworded.refl [.halt f]
  | ok k =>
    rcases lt_trichotomy (size : ℤ) k with hless | rfl | hgreater
    · have htest : ¬ k ≤ size := not_le.2 hless
      simp only [hless.ne, htest, decide_false, Bool.false_eq_true, ↓reduceIte, List.isEmpty_cons]
      exact congrArg (fun f => [f]) (asExact_quotingInt k .atLeast).symm
    · simp [revealing_reworded.refl]
    · have htest : ¬ size ≤ k := not_le.2 hgreater
      simp only [hgreater.ne', hgreater.le, htest, decide_false, decide_true, Bool.false_eq_true,
        ↓reduceIte, List.isEmpty_nil]
      exact congrArg (fun f => [f]) (asExact_quotingInt k .atMost).symm

theorem reworded_short (path : Path) (size : ℕ) (rule : LengthRule) :
    Reworded (rule.short.check path size) (rule.check path size) := by
  unfold LengthRule.short
  split
  · next m n =>
    split
    · next h =>
      subst h
      exact reworded_exactly path size m
    · exact revealing_reworded.refl _
  · exact revealing_reworded.refl _

/-- A limit and its shortest spelling have one number, and exclude it alike. -/
theorem Limit.short_eq (l : Limit) :
    l.short.value = l.value ∧ l.short.isExclusive = l.isExclusive := by
  unfold short
  split <;> exact ⟨rfl, rfl⟩

theorem Limit.checkLeast_short (path : Path) (n : Number) (l : Limit) :
    l.short.checkLeast path n = l.checkLeast path n := by
  rw [checkLeast, checkLeast, l.short_eq.1, l.short_eq.2]

theorem Limit.checkMost_short (path : Path) (n : Number) (l : Limit) :
    l.short.checkMost path n = l.checkMost path n := by
  rw [checkMost, checkMost, l.short_eq.1, l.short_eq.2]

theorem checksAlike_shortBounds : ChecksAlike Eq Limit.short id :=
  ⟨Limit.checkLeast_short, Limit.checkMost_short, fun _ _ _ => rfl⟩

theorem checksAlike_short : ChecksAlike Reworded Limit.short LengthRule.short :=
  ⟨Limit.checkLeast_short, Limit.checkMost_short, reworded_short⟩

/-! ## Walks -/

/-- Along blocks with one shortest spelling of the bounds the walk does the same. -/
theorem Block.convert_of_shortBounds [Host] {b c : Block}
    (h : b.mapBounds Limit.short id = c.mapBounds Limit.short id) (d : Direction) (path : Path)
    (v : Value) : b.convert d path v = c.convert d path v := by
  have hshort (b : Block) :=
    (convert_mapBounds revealing_eq checksAlike_shortBounds (d := d) b path v).eq
  rw [← hshort b, h, hshort c]

/-- Along blocks with one shortest spelling the walk makes the same of a value, and what it finds differs
in nothing but the words for a length. -/
theorem Block.convert_of_short [Host] {b c : Block}
    (h : b.mapBounds Limit.short LengthRule.short = c.mapBounds Limit.short LengthRule.short)
    (d : Direction) (path : Path) (v : Value) :
    (b.convert d path v).SameUpTo Reworded (c.convert d path v) := by
  have hb := convert_mapBounds revealing_reworded checksAlike_short (d := d) b path v
  have hc := convert_mapBounds revealing_reworded checksAlike_short (d := d) c path v
  rw [h] at hb
  exact ⟨hb.value.symm.trans hc.value, Eq.trans (Eq.symm hb.findings) hc.findings⟩

end DocShape
