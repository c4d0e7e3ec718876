import DocShape.Proofs.Prelude
import DocShape.Proofs.Listing.Finding

/-!
# Settling findings

What `settle` makes of the findings of a walk in either mode. Errors that count were found
(`mem_errors_settle`). Findings that leave no error and no reason to break off are advice
(`onlyAdvice_of_settle`), and in collect-all mode a walk breaks off if anything asks for it
(`halted_eq_none_iff`). A walk that lists its findings is packaged as what counts of them
(`Walk.Lists.run_eq`). Fail-fast sees what collect-all sees up to the
first error: `Settlement.Cut` relates the two, and `settle_cut` shows it for all findings.
-/

namespace DocShape

variable {mode : Mode} {fs : List Finding}

theorem settle_warning (mode : Mode) (w : Warning) (fs : List Finding) :
    settle mode (.warning w :: fs) =
      { settle mode fs with warnings := w :: (settle mode fs).warnings } := rfl

theorem settle_failFast_error (c : Complaint) (fs : List Finding) :
    settle .failFast (.error c :: fs) = ⟨[c], [], none⟩ := rfl

theorem settle_collectAll_error (c : Complaint) (fs : List Finding) :
    settle .collectAll (.error c :: fs) =
      { settle .collectAll fs with errors := c :: (settle .collectAll fs).errors } := rfl

theorem mem_errors_settle {c : Complaint} (h : c ∈ (settle mode fs).errors) : .error c ∈ fs := by
  induction fs with
  | nil => cases h
  | cons f fs ih =>
    cases f with
    | halt f => cases h
    | warning w => exact List.mem_cons_of_mem _ (ih h)
    | error d =>
      cases mode with
      | failFast =>
        rw [settle_failFast_error] at h
        rw [List.mem_singleton.1 h]
        exact List.mem_cons_self
      | collectAll =>
        rw [settle_collectAll_error] at h
        rcases List.mem_cons.1 h with rfl | h
        · exact List.mem_cons_self
        · exact List.mem_cons_of_mem _ (ih h)

theorem warning_mem_of_settle {w : Warning} (h : w ∈ (settle mode fs).warnings) :
    .warning w ∈ fs := by
  induction fs with
  | nil => cases h
  | cons f fs ih =>
    cases f with
    | halt f => cases h
    | warning v =>
      rw [settle_warning] at h
      rcases List.mem_cons.1 h with rfl | h
      · exact List.mem_cons_self
      · exact List.mem_cons_of_mem _ (ih h)
    | error c =>
      cases mode with
      | failFast => cases h
      | collectAll => exact List.mem_cons_of_mem _ (ih h)

/-- Fail-fast stops at the first error, before which there are warnings alone. -/
theorem exists_of_settle_failFast {c : Complaint} {cs : List Complaint} {ws : List Warning}
    (h : settle .failFast fs = ⟨c :: cs, ws, none⟩) :
    ∃ rest, fs = ws.map .warning ++ .error c :: rest := by
  induction fs generalizing ws with
  | nil => cases h
  | cons f fs ih =>
    cases f with
    | halt f => cases h
    | warning w =>
      rw [settle_warning, Settlement.mk.injEq] at h
      obtain ⟨herrors, rfl, hhalted⟩ := h
      obtain ⟨rest, hrest⟩ := ih (by rw [← herrors, ← hhalted])
      exact ⟨rest, by rw [List.map_cons, List.cons_append, ← hrest]⟩
    | error d =>
      rw [settle_failFast_error, Settlement.mk.injEq] at h
      obtain ⟨herrors, rfl, -⟩ := h
      obtain ⟨rfl, -⟩ := List.cons.inj herrors
      exact ⟨fs, rfl⟩

/-! ## Kinds of findings -/

/-- Nothing was found but advice. -/
def OnlyAdvice (fs : List Finding) : Prop := ∀ f ∈ fs, ∃ w, f = .warning w

/-- A relation of findings that holds of all the findings if it holds piece by piece. -/
structure Piecewise (R : List Finding → List Finding → Prop) : Prop where
  refl (fs : List Finding) : R fs fs
  append {fs fs' gs gs' : List Finding} (first : R fs fs') (second : R gs gs') :
    R (fs ++ gs) (fs' ++ gs')

theorem piecewise_eq : Piecewise Eq :=
  ⟨fun _ => rfl, fun h h' => by rw [h, h']⟩

/-- Nothing was found that breaks a walk off. -/
def NoHalt (fs : List Finding) : Prop := ∀ f, Finding.halt f ∉ fs

section

variable {gs : List Finding} {path : Path} {cause : Violation}

@[simp] theorem onlyAdvice_nil : OnlyAdvice [] := fun _ h => by cases h

@[simp] theorem onlyAdvice_append : OnlyAdvice (fs ++ gs) ↔ OnlyAdvice fs ∧ OnlyAdvice gs :=
  List.forall_mem_append

@[simp] theorem not_onlyAdvice_violation : ¬ OnlyAdvice (.violation path cause :: fs) := fun h => by
  obtain ⟨w, hw⟩ := h _ List.mem_cons_self
  cases hw

@[simp] theorem noHalt_nil : NoHalt [] := fun _ h => by cases h

@[simp] theorem noHalt_append : NoHalt (fs ++ gs) ↔ NoHalt fs ∧ NoHalt gs := by
  simp only [NoHalt, List.mem_append, not_or, forall_and]

@[simp] theorem noHalt_violation : NoHalt (.violation path cause :: fs) ↔ NoHalt fs := by
  simp [NoHalt, Finding.violation]

@[simp] theorem noHalt_warning {w : Warning} : NoHalt (.warning w :: fs) ↔ NoHalt fs := by
  simp [NoHalt]

theorem NoHalt.tail {f : Finding} (h : NoHalt (f :: fs)) : NoHalt fs :=
  fun g hg => h g (List.mem_cons_of_mem f hg)

end

theorem halted_of_noHalt (h : NoHalt fs) : (settle mode fs).halted = none := by
  induction fs with
  | nil => rfl
  | cons f fs ih =>
    have hrest := h.tail
    cases f with
    | halt f => exact absurd List.mem_cons_self (h f)
    | warning w => exact ih hrest
    | error c =>
      cases mode with
      | failFast => rfl
      | collectAll => exact ih hrest

theorem halt_mem_of_halted {f : Failure} (h : (settle mode fs).halted = some f) : .halt f ∈ fs := by
  induction fs with
  | nil => cases h
  | cons g fs ih =>
    cases g with
    | halt g =>
      obtain rfl : g = f := Option.some.inj h
      exact List.mem_cons_self
    | warning w => exact List.mem_cons_of_mem _ (ih h)
    | error c =>
      cases mode with
      | failFast => cases h
      | collectAll => exact List.mem_cons_of_mem _ (ih h)

/-- In collect-all mode a walk comes to its end if nothing asks for breaking it off. -/
theorem halted_eq_none_iff : (settle .collectAll fs).halted = none ↔ NoHalt fs := by
  refine ⟨fun h => ?_, halted_of_noHalt⟩
  induction fs with
  | nil => exact noHalt_nil
  | cons g fs ih =>
    cases g with
    | halt g => cases h
    | warning w => exact noHalt_warning.2 (ih h)
    | error c =>
      intro f hf
      rcases List.mem_cons.1 hf with hf | hf
      · cases hf
      · exact ih h f hf

theorem onlyAdvice_of_settle (herrors : (settle mode fs).errors = [])
    (hhalted : (settle mode fs).halted = none) : OnlyAdvice fs := by
  induction fs with
  | nil => exact onlyAdvice_nil
  | cons f fs ih =>
    cases f with
    | halt f => cases hhalted
    | warning w => exact List.forall_mem_cons.2 ⟨⟨w, rfl⟩, ih herrors hhalted⟩
    | error c =>
      cases mode with
      | failFast => cases herrors
      | collectAll => cases herrors

/-- Findings without warnings that come to nothing are none. -/
theorem eq_nil_of_settle (hwarnings : ∀ w, .warning w ∉ fs) (herrors : (settle mode fs).errors = [])
    (hhalted : (settle mode fs).halted = none) : fs = [] := by
  refine List.eq_nil_iff_forall_not_mem.2 fun f hf => ?_
  obtain ⟨w, rfl⟩ := onlyAdvice_of_settle herrors hhalted f hf
  exact hwarnings w hf

@[simp] theorem settle_map_warning (mode : Mode) (ws : List Warning) :
    settle mode (ws.map .warning) = ⟨[], ws, none⟩ := by
  induction ws with
  | nil => rfl
  | cons w ws ih => rw [List.map_cons, settle_warning, ih]

/-! ## Findings changed, and findings after findings -/

/-- A finding with its error, its warning or its reason to break off put through a function. -/
def Finding.map (onError : Complaint → Complaint) (onWarning : Warning → Warning)
    (onHalt : Failure → Failure) : Finding → Finding
  | error c => error (onError c)
  | warning w => warning (onWarning w)
  | halt f => halt (onHalt f)

/-- What counts of changed findings is what counts of the findings, changed. -/
theorem settle_map (onError : Complaint → Complaint) (onWarning : Warning → Warning)
    (onHalt : Failure → Failure) (mode : Mode) (fs : List Finding) :
    settle mode (fs.map (.map onError onWarning onHalt)) =
      ⟨(settle mode fs).errors.map onError, (settle mode fs).warnings.map onWarning,
        (settle mode fs).halted.map onHalt⟩ := by
  induction fs with
  | nil => rfl
  | cons f fs ih =>
    rw [List.map_cons]
    cases f with
    | halt f => rfl
    | warning w =>
      rw [Finding.map, settle_warning, settle_warning, ih]
      rfl
    | error c =>
      cases mode with
      | failFast => rfl
      | collectAll =>
        rw [Finding.map, settle_collectAll_error, settle_collectAll_error, ih]
        rfl

theorem halted_append {gs : List Finding} :
    (settle .collectAll (fs ++ gs)).halted =
      (settle .collectAll fs).halted.or (settle .collectAll gs).halted := by
  induction fs with
  | nil => rfl
  | cons f fs ih =>
    cases f with
    | halt f => rfl
    | warning w => exact ih
    | error c => exact ih

theorem errors_append_eq_nil {gs : List Finding} :
    (settle .collectAll (fs ++ gs)).errors = [] ↔
      (settle .collectAll fs).errors = [] ∧
        ((settle .collectAll fs).halted = none → (settle .collectAll gs).errors = []) := by
  induction fs with
  | nil => exact ⟨fun h => ⟨rfl, fun _ => h⟩, fun h => h.2 rfl⟩
  | cons f fs ih =>
    cases f with
    | halt f => exact iff_of_true rfl ⟨rfl, nofun⟩
    | warning w => exact ih
    | error c => exact iff_of_false nofun fun h => (by cases h.1)

/-- Where nothing was found but advice, all of it counts. -/
theorem mem_warnings_settle {w : Warning} (h : OnlyAdvice fs) :
    w ∈ (settle mode fs).warnings ↔ .warning w ∈ fs := by
  induction fs with
  | nil => exact iff_of_false List.not_mem_nil List.not_mem_nil
  | cons f fs ih =>
    obtain ⟨⟨v, rfl⟩, hrest⟩ := List.forall_mem_cons.1 h
    rw [settle_warning, List.mem_cons, List.mem_cons, ih hrest, Finding.warning.injEq]

/-! ## The package of a walk -/

/-- What a walk to a value is packaged as. -/
def Settlement.package {α : Type} (mode : Mode) (s : Settlement) (a : α) :
    Except Failure (Outcome (Option α)) :=
  match s.halted with
  | some f => .error f
  | none =>
    .ok ⟨if mode = .failFast ∧ !s.errors.isEmpty then none else some a, s.errors, s.warnings⟩

/-- An error that unwinds a walk without being reported is none of those that are reported. -/
def ToldApart (fs : List Finding) : Prop := ∀ c, .halt (.complaint c) ∈ fs → .error c ∉ fs

/-- What a walk is packaged as is what counts of its findings: being unwound by a reported error is
told from being unwound by any other. -/
theorem Walk.Lists.run_eq {α : Type} {walk : Walk α} {a : α} (h : walk.Lists fs a)
    (hfs : ToldApart fs) (mode : Mode) : walk.run mode = (settle mode fs).package mode a := by
  rw [Walk.run, h.on_eq mode .empty, Settlement.package, Settlement.result, Settlement.raised?]
  cases hhalted : (settle mode fs).halted with
  | some f =>
    cases f with
    | complaint c =>
      have hunreported : c ∉ (settle mode fs).errors := fun hc =>
        hfs c (halt_mem_of_halted hhalted) (mem_errors_settle hc)
      simp [Record.append, Record.empty, hunreported]
    | _ => rfl
  | none =>
    cases herrors : (settle mode fs).errors with
    | nil => simp [Record.append, Record.empty, herrors]
    | cons c errors =>
      cases mode with
      | failFast => simp [Record.append, Record.empty, herrors]
      | collectAll => simp [Record.append, Record.empty, herrors]

/-! ## Fail-fast and collect-all -/

/-- What fail-fast and collect-all make of the same findings. -/
inductive Settlement.Cut : Settlement → Settlement → Prop
  /-- No error comes before the end or before the walk breaks off: the modes do not differ. -/
  | uncut (warnings : List Warning) (halted : Option Failure) :
    Cut ⟨[], warnings, halted⟩ ⟨[], warnings, halted⟩
  /-- At the first error fail-fast stops, and collect-all goes on. -/
  | first (c : Complaint) (before : List Warning) (errors : List Complaint)
    (warnings : List Warning) (halted : Option Failure) :
    Cut ⟨[c], before, none⟩ ⟨c :: errors, before ++ warnings, halted⟩

theorem Settlement.Cut.warning {s t : Settlement} (w : Warning) (h : Cut s t) :
    Cut { s with warnings := w :: s.warnings } { t with warnings := w :: t.warnings } := by
  cases h with
  | uncut warnings halted => exact .uncut _ _
  | first c before errors warnings halted => exact .first c (w :: before) errors warnings halted

/-- Fail-fast cuts at the first error what collect-all makes of the findings. -/
theorem settle_cut (fs : List Finding) : (settle .failFast fs).Cut (settle .collectAll fs) := by
  induction fs with
  | nil => exact .uncut [] none
  | cons f fs ih =>
    cases f with
    | halt f => exact .uncut [] (some f)
    | warning w => exact ih.warning w
    | error c =>
      exact .first c [] (settle .collectAll fs).errors (settle .collectAll fs).warnings
        (settle .collectAll fs).halted

end DocShape
