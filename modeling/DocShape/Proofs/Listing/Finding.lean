import DocShape.Walk

/-!
# Findings

What a walk reports can be listed without running it: errors, warnings, and at most one reason to
break off, after which nothing counts. `Walk.tell` reports findings in order, and a walk `Lists` its
findings if it does what telling them does. Listings are put together as walks are (`Lists.bind`), so
that the findings of a walk follow its parts, in both modes at once.

What running a walk comes to is then read off its findings: `settle` takes them in a mode, fail-fast
up to the first error and collect-all to the end, and `Lists.on_eq` says that what the walk comes to,
and the record after it, are what `settle` makes of them.
-/

namespace DocShape

/-- What a walk comes upon. -/
inductive Finding where
  | error (c : Complaint)
  | warning (w : Warning)
  | halt (f : Failure)
deriving DecidableEq

/-- The errors and warnings that count, in order, and why the walk broke off, if it did. -/
structure Settlement where
  errors : List Complaint
  warnings : List Warning
  halted : Option Failure
deriving DecidableEq

/-- What counts of some findings in a mode. -/
def settle (mode : Mode) : List Finding → Settlement
  | [] => ⟨[], [], none⟩
  | .halt f :: _ => ⟨[], [], some f⟩
  | .warning w :: rest =>
    let s := settle mode rest
    { s with warnings := w :: s.warnings }
  | .error c :: rest =>
    match mode with
    | .failFast => ⟨[c], [], none⟩
    | .collectAll =>
      let s := settle mode rest
      { s with errors := c :: s.errors }

/-- Why a walk was unwound: its own failure or, in fail-fast mode, its first error. -/
def Settlement.raised? (mode : Mode) (s : Settlement) : Option Failure :=
  match s.halted, s.errors with
  | some f, _ => some f
  | none, [] => none
  | none, c :: _ => if mode = .failFast then some (.complaint c) else none

/-- What a walk to a value comes to. -/
def Settlement.result {α : Type} (mode : Mode) (s : Settlement) (a : α) : Except Failure α :=
  match s.raised? mode with
  | some f => .error f
  | none => .ok a

/-- A record with what counts of some findings behind it. -/
def Record.append (record : Record) (s : Settlement) : Record :=
  ⟨record.errors ++ s.errors, record.warnings ++ s.warnings⟩

/-- In collect-all mode errors are no reason to break a walk off. -/
@[simp] theorem Settlement.raised?_collectAll (s : Settlement) : s.raised? .collectAll = s.halted := by
  rcases s with ⟨errors, warnings, halted⟩
  cases halted <;> cases errors <;> rfl

/-- A mismatch at a path. -/
def Finding.mismatch (path : Path) (cause : Mismatch) : Finding := .error (.mismatch path cause)

/-- A violation at a path. -/
def Finding.violation (path : Path) (cause : Violation) : Finding := .error (.violation path cause)

/-- A finding that quotes a value; a value without a literal breaks the walk off. -/
def Finding.quoting (v : Value) (finding : Text → Finding) : Finding :=
  match v.display? with
  | some shown => finding shown
  | none => .halt (.unwritable .tooManyDigits)

/-- A finding that quotes an integer. -/
def Finding.quotingInt (n : Int) (finding : Text → Finding) : Finding :=
  match Text.ofIntLimited? n with
  | some shown => finding shown
  | none => .halt (.unwritable .tooManyDigits)

namespace Walk

/-- Reports findings in order, up to the first that unwinds the walk. -/
def tell : List Finding → Walk Unit
  | [] => pure ()
  | .error c :: rest => do
    error c
    tell rest
  | .warning w :: rest => do
    warning w
    tell rest
  | .halt f :: _ => throw f

/-- A walk does what telling some findings does, and comes to a value if none of them unwinds it. -/
def Lists {α : Type} (walk : Walk α) (findings : List Finding) (a : α) : Prop :=
  walk = (tell findings >>= fun _ => pure a)

theorem throw_bind {α β : Type} (f : Failure) (next : α → Walk β) :
    ((throw f : Walk α) >>= next) = throw f := rfl

theorem tell_append (fs gs : List Finding) : tell (fs ++ gs) = (tell fs >>= fun _ => tell gs) := by
  induction fs with
  | nil => rw [List.nil_append, tell, pure_bind]
  | cons f fs ih =>
    cases f with
    | error c => rw [List.cons_append, tell, tell, ih, bind_assoc]
    | warning w => rw [List.cons_append, tell, tell, ih, bind_assoc]
    | halt f => rw [List.cons_append, tell, tell, throw_bind]

namespace Lists

variable {α β : Type} {walk : Walk α} {fs gs : List Finding} {a : α}

protected theorem pure (a : α) : (pure a : Walk α).Lists [] a := (pure_bind _ _).symm

protected theorem tell (fs : List Finding) : (tell fs).Lists fs () := (bind_pure_unit).symm

protected theorem error (c : Complaint) : (error c).Lists [.error c] () := by
  rw [Lists, tell, tell, bind_pure_unit, bind_pure_unit]

protected theorem mismatch (path : Path) (cause : Mismatch) :
    (mismatch path cause).Lists [.mismatch path cause] () := .error _

protected theorem violation (path : Path) (cause : Violation) :
    (violation path cause).Lists [.violation path cause] () := .error _

protected theorem warning (w : Warning) : (warning w).Lists [.warning w] () := by
  rw [Lists, tell, tell, bind_pure_unit, bind_pure_unit]

/-- A failure that is not reported unwinds a walk, whatever was to come of it. -/
protected theorem throw (f : Failure) (fs : List Finding) (a : α) :
    (throw f : Walk α).Lists (.halt f :: fs) a := rfl

/-- What a walk lists, and then what the rest lists that goes on from its value. -/
protected theorem bind {k : α → Walk β} {b : β} (h : walk.Lists fs a)
    (hk : (k a).Lists gs b) : (walk >>= k).Lists (fs ++ gs) b := by
  rw [Lists] at h hk ⊢
  rw [h, tell_append, bind_assoc, bind_assoc, pure_bind, hk]

/-- A last step that reports nothing. -/
protected theorem andPure (h : walk.Lists fs a) (b : β) :
    (walk >>= fun _ => pure b).Lists fs b := by
  have hbind := h.bind (k := fun _ => pure b) (.pure b)
  rwa [List.append_nil] at hbind

/-- A last step on the value that reports nothing. -/
protected theorem map (h : walk.Lists fs a) (f : α → β) :
    (walk >>= fun a => pure (f a)).Lists fs (f a) := by
  have hbind := h.bind (k := fun a => pure (f a)) (.pure (f a))
  rwa [List.append_nil] at hbind

end Lists

/-! ## Running what is listed -/

/-- A record takes of some findings what counts of them, and the walk that tells them is unwound if
one of them asks for it. -/
theorem on_tell (mode : Mode) (record : Record) (fs : List Finding) :
    (tell fs).on mode record =
      ((settle mode fs).result mode (), record.append (settle mode fs)) := by
  induction fs generalizing record with
  | nil => simp [Walk.on, tell, settle, Record.append, Settlement.result, Settlement.raised?]; rfl
  | cons f fs ih =>
    cases f with
    | halt f => simp [Walk.on, tell, settle, Record.append, Settlement.result, Settlement.raised?]; rfl
    | warning w =>
      calc (tell (.warning w :: fs)).on mode record
          = (tell fs).on mode ⟨record.errors, record.warnings ++ [w]⟩ := rfl
        _ = _ := by rw [ih]; simp [settle, Record.append, Settlement.result, Settlement.raised?]
    | error c =>
      cases mode with
      | failFast =>
        simp only [settle, Record.append, Settlement.result, Settlement.raised?, List.append_nil]
        rfl
      | collectAll =>
        calc (tell (.error c :: fs)).on .collectAll record
            = (tell fs).on .collectAll ⟨record.errors ++ [c], record.warnings⟩ := rfl
          _ = _ := by
            rw [ih]
            simp [settle, Record.append, Settlement.result, Settlement.raised?_collectAll]

theorem on_bind_of_ok {α β : Type} {walk : Walk α} {next : α → Walk β} {mode : Mode}
    {record later : Record} {a : α} (h : walk.on mode record = (.ok a, later)) :
    (walk >>= next).on mode record = (next a).on mode later := by
  simp only [Walk.on, bind, ReaderT.bind, ExceptT.bind, ExceptT.mk, StateT.bind] at h ⊢
  rw [h]
  rfl

theorem on_bind_of_error {α β : Type} {walk : Walk α} {next : α → Walk β} {mode : Mode}
    {record later : Record} {f : Failure} (h : walk.on mode record = (.error f, later)) :
    (walk >>= next).on mode record = (.error f, later) := by
  simp only [Walk.on, bind, ReaderT.bind, ExceptT.bind, ExceptT.mk, StateT.bind] at h ⊢
  rw [h]
  rfl

/-- What a walk comes to, and the record after it, are what counts of its findings. -/
theorem Lists.on_eq {α : Type} {walk : Walk α} {fs : List Finding} {a : α} (h : walk.Lists fs a)
    (mode : Mode) (record : Record) :
    walk.on mode record = ((settle mode fs).result mode a, record.append (settle mode fs)) := by
  have htell := on_tell mode record fs
  rw [h]
  cases hraised : (settle mode fs).raised? mode with
  | none =>
    simp only [Settlement.result, hraised] at htell ⊢
    exact on_bind_of_ok htell
  | some f =>
    simp only [Settlement.result, hraised] at htell ⊢
    exact on_bind_of_error htell

end Walk

end DocShape
