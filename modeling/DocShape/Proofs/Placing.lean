import DocShape.Proofs.Findings

/-!
# Findings seen from further out

What was found on a part is found on the whole with the path of the part in front (`Finding.under`).
Nothing but paths changes, so what counts of findings is moved along with them (`settle_map_under`), and
a walk that is broken off is broken off alike (`raised?_under`).
-/

namespace DocShape

/-- An error on a part at a path. -/
def Complaint.under (path : Path) : Complaint → Complaint
  | mismatch below cause => mismatch (path ++ below) cause
  | violation below cause => violation (path ++ below) cause

/-- A warning on a part at a path. -/
def Warning.under (path : Path) (w : Warning) : Warning := { w with path := path ++ w.path }

/-- A failure on a part at a path. -/
def Failure.under (path : Path) : Failure → Failure
  | complaint c => complaint (c.under path)
  | f => f

/-- A finding on a part at a path. -/
def Finding.under (path : Path) : Finding → Finding
  | error c => error (c.under path)
  | warning w => warning (w.under path)
  | halt f => halt (f.under path)

/-- What counts of the findings on a part at a path. -/
def Settlement.under (path : Path) (s : Settlement) : Settlement :=
  ⟨s.errors.map (.under path), s.warnings.map (.under path), s.halted.map (.under path)⟩

variable {path below : Path} {fs : List Finding}

@[simp] theorem Finding.under_mismatch {cause : Mismatch} :
    (mismatch below cause).under path = .mismatch (path ++ below) cause := rfl

@[simp] theorem Finding.under_violation {cause : Violation} :
    (violation below cause).under path = .violation (path ++ below) cause := rfl

@[simp] theorem Finding.under_warning {w : Warning} :
    (warning w).under path = .warning (w.under path) := rfl

@[simp] theorem Finding.under_halt {f : Failure} : (halt f).under path = .halt (f.under path) := rfl

@[simp] theorem Complaint.path_under (c : Complaint) : (c.under path).path = path ++ c.path := by
  cases c <;> rfl

@[simp] theorem Complaint.message_under (c : Complaint) : (c.under path).message = c.message := by
  cases c <;> rfl

/-- A finding that quotes a value quotes it from further out too. -/
theorem Finding.under_quoting {v : Value} {finding : Text → Finding} :
    (quoting v finding).under path = quoting v fun shown => (finding shown).under path := by
  unfold quoting
  cases v.display? <;> rfl

theorem Finding.under_quotingInt {n : Int} {finding : Text → Finding} :
    (quotingInt n finding).under path = quotingInt n fun shown => (finding shown).under path := by
  unfold quotingInt
  cases Text.ofIntLimited? n <;> rfl

/-- What counts of findings is the same from further out. -/
theorem settle_map_under (mode : Mode) (path : Path) (fs : List Finding) :
    settle mode (fs.map (.under path)) = (settle mode fs).under path := by
  have hmap : Finding.under path = .map (.under path) (.under path) (.under path) := by
    funext f
    cases f <;> rfl
  rw [hmap, settle_map, Settlement.under]

/-- A walk is broken off for the same reason, which names the place from further out. -/
theorem Settlement.raised?_under (mode : Mode) (path : Path) (s : Settlement) :
    (s.under path).raised? mode = (s.raised? mode).map (.under path) := by
  rcases s with ⟨errors, warnings, halted⟩
  cases halted with
  | some f => rfl
  | none =>
    cases errors with
    | nil => rfl
    | cons c errors => cases mode <;> rfl

theorem noHalt_map_under : NoHalt (fs.map (.under path)) ↔ NoHalt fs := by
  rw [← halted_eq_none_iff, ← halted_eq_none_iff, settle_map_under, Settlement.under,
    Option.map_eq_none_iff]

end DocShape
