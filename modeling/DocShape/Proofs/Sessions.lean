import DocShape.Proofs.Document.Modes
import DocShape.Reference
import DocShape.Session

/-!
# Sessions of calls

Callers pass collections to calls, and may pass one again after clearing it. A call ends in one of five
ways (`Session.Ends`): it is refused or fails and leaves every collection as it was, it raises its first
error and delivers the warnings before it, it returns and delivers its warnings, or it delivers warnings
and errors (`ends_perform`). Deliveries are to empty collections alone, so what a collection holds is
never of two calls, whatever came before (`get_run`).
-/

namespace DocShape

namespace Session

variable {s : Session} {name : Text}

/-! ## Collections by name -/

theorem find?_replace (cs : List (Text × List Note)) (a : Text) (notes : List Note) (name : Text) :
    (cs.map fun c => if c.1 = a then (a, notes) else c).find? (·.1 = name) =
      if name = a then (cs.find? (·.1 = a)).map fun _ => (a, notes)
      else cs.find? (·.1 = name) := by
  induction cs with
  | nil => simp
  | cons c cs ih =>
    rw [List.map_cons, List.find?_cons, List.find?_cons, List.find?_cons, ih]
    by_cases hc : c.1 = a
    · by_cases hname : name = a
      · simp [hc, hname]
      · simp [hc, hname, Ne.symm hname]
    · by_cases hname : name = a
      · simp [hc, hname]
      · simp [hc, hname]

@[simp] theorem get_set (s : Session) (a : Text) (notes : List Note) (name : Text) :
    (s.set a notes).get name = if name = a then notes else s.get name := by
  by_cases hany : s.collections.any (·.1 = a) = true
  · have hfound : (s.collections.find? (·.1 = a)).isSome = true := by
      rw [List.find?_isSome, ← List.any_eq_true]
      exact hany
    obtain ⟨c, hc⟩ := Option.isSome_iff_exists.1 hfound
    rw [set, if_pos hany, get, find?_replace, hc]
    by_cases hname : name = a
    · simp [hname]
    · simp [hname, get]
  · have hnone : s.collections.find? (·.1 = a) = none := by
      rw [List.find?_eq_none]
      exact fun c hc h => hany (List.any_eq_true.2 ⟨c, hc, h⟩)
    rw [set, if_neg hany, get, List.find?_append]
    by_cases hname : name = a
    · simp [hname, hnone]
    · simp [hname, Ne.symm hname, get]

end Session

/-- What arrives in a collection of some notes that are delivered to a parameter. -/
def Parameter.share (p : Parameter) (name : Text) (notes : List Note) : List Note :=
  match p with
  | .named a => if name = a then notes else []
  | _ => []

namespace Session

variable {s : Session} {p : Parameter} {name : Text} {notes : List Note}

@[simp] theorem get_touch : (s.touch p).get name = s.get name := by
  cases p with
  | named a =>
    rw [touch, get_set]
    split
    · next h => rw [h]
    · rfl
  | _ => rfl

@[simp] theorem get_append : (s.append p notes).get name = s.get name ++ p.share name notes := by
  cases p with
  | named a =>
    rw [append, get_set, Parameter.share]
    split
    · next h => rw [h]
    · rw [List.append_nil]
  | _ => simp [append, Parameter.share]

@[simp] theorem isFit_touch {q : Parameter} : (s.touch q).isFit p = s.isFit p := by
  cases p with
  | named a => simp [isFit]
  | absent => rfl
  | literal v =>
    cases v with
    | list xs => cases xs <;> rfl
    | _ => rfl

/-- A collection that gets a share is passed under its name. -/
theorem eq_nil_of_share (hfit : s.isFit p = true) (h : p.share name notes ≠ []) :
    s.get name = [] := by
  cases p with
  | named a =>
    rw [Parameter.share] at h
    split at h
    · next hname =>
      rw [hname]
      exact List.isEmpty_iff.1 hfit
    · exact absurd rfl h
  | _ => exact absurd rfl h

/-! ## Operations with collections -/

section

variable {α : Type} {errors warnings : Parameter} {operation : Mode → Except Failure (Outcome α)}
  {mode : Mode} {f : Failure} {o : Outcome α}

theorem selectMode_touch {q : Parameter} :
    ((s.touch p).touch q).selectMode errors warnings = s.selectMode errors warnings := by
  simp only [selectMode, isFit_touch]

theorem call_of_refused (h : s.selectMode errors warnings = .error f) :
    s.call errors warnings operation = ((s.touch errors).touch warnings, .error f) := by
  simp only [call, selectMode_touch, h, bind, Except.bind]

theorem call_of_error (h : s.selectMode errors warnings = .ok mode)
    (hf : operation mode = .error f) :
    s.call errors warnings operation = ((s.touch errors).touch warnings, .error f) := by
  simp only [call, selectMode_touch, h, bind, Except.bind, hf]

theorem call_of_ok (h : s.selectMode errors warnings = .ok mode) (ho : operation mode = .ok o) :
    s.call errors warnings operation =
      (let t := ((s.touch errors).touch warnings).append warnings (o.warnings.map .warning)
        if isAbsent errors then (t, o.orFirstError)
        else (t.append errors (o.errors.map .error), .ok o.value)) := by
  simp only [call, selectMode_touch, h, bind, Except.bind, ho]

theorem call_map {β : Type} (g : α → β) :
    s.call errors warnings (fun mode => (operation mode).map (.map g)) =
      ((s.call errors warnings operation).1, (s.call errors warnings operation).2.map g) := by
  cases hmode : s.selectMode errors warnings with
  | error f => rw [call_of_refused hmode, call_of_refused hmode]; rfl
  | ok mode =>
    cases hop : operation mode with
    | error f =>
      rw [call_of_error hmode hop, call_of_error hmode (by rw [hop]; rfl)]
      rfl
    | ok o =>
      rw [call_of_ok hmode hop, call_of_ok (o := o.map g) hmode (by rw [hop]; rfl)]
      by_cases habsent : isAbsent errors = true
      · cases herrors : o.errors with
        | nil => simp [habsent, Outcome.map, Outcome.orFirstError, herrors, Except.map]
        | cons e errors => simp [habsent, Outcome.map, Outcome.orFirstError, herrors, Except.map]
      · simp [habsent, Outcome.map, Except.map]

end

end Session

/-! ## Calls -/

/-- The functions that take collections, with their other arguments. A schema is raw or typed. -/
inductive Operation where
  | validateSchema (schema : GivenSchema)
  | documentToObject (document : Value) (schema : GivenSchema)
  | objectToDocument (v : Value) (schema : GivenSchema)

/-- What a call returns: nothing, an object or a document. -/
inductive Answer where
  | nothing
  | object (v : Value)
  | document (t : Option Text)

namespace Operation

/-- What an operation comes to in a mode. -/
def outcome [Host] : Operation → Mode → Except Failure (Outcome Answer)
  | validateSchema schema, mode => (schema.check mode).map (.map fun _ => .nothing)
  | documentToObject document schema, mode => (schema.decode document mode).map (.map .object)
  | objectToDocument v schema, mode => (schema.encode v mode).map (.map .document)

/-- What the walk of an operation comes upon, or why there is no walk. -/
def walk [Host] : Operation → Except Failure (List Finding)
  | validateSchema (.raw v) => .ok (Grammar.block [] v)
  | validateSchema (.typed b) => .ok (Grammar.block [] b.dump)
  | documentToObject document schema => do
    let S ← schema.block
    let data ← parseDocument document
    return (S.convert .decoding [] data).findings
  | objectToDocument v schema => do
    let S ← schema.block
    return (S.convert .encoding [] v).findings

variable {r : Operation} {mode : Mode}

theorem outcome_map_eq_ok {α : Type} {x : Except Failure (Outcome α)} {g : α → Answer}
    {o : Outcome Answer} (h : x.map (.map g) = .ok o) :
    ∃ o', x = .ok o' ∧ o'.errors = o.errors ∧ o'.warnings = o.warnings := by
  cases x with
  | error f => cases h
  | ok o' =>
    obtain rfl := Except.ok.inj h
    exact ⟨o', rfl, rfl, rfl⟩

theorem settle_of_conversion [Host] {S : Block} {d : Direction} {v : Value} {o : Outcome Value}
    (h : S.conversion d mode v = .ok o) :
    settle mode (S.convert d [] v).findings = ⟨o.errors, o.warnings, none⟩ := by
  rw [Block.conversion_eq] at h
  simp only [Converted.outcome] at h
  split at h
  · cases h
  · next hhalted =>
    rw [← Except.ok.inj h, ← hhalted]

theorem settle_of_checkSchema [Host] {raw : Value} {o : Outcome (Option Block)}
    (h : checkSchema raw mode = .ok o) :
    settle mode (Grammar.block [] raw) = ⟨o.errors, o.warnings, none⟩ := by
  rw [checkSchema_eq] at h
  simp only [Settlement.checked] at h
  split at h
  · cases h
  · next hhalted =>
    split at h
    · obtain ⟨b, -, ho⟩ := Except.bind_eq_ok.1 h
      rw [← Except.ok.inj ho, ← hhalted]
    · rw [← Except.ok.inj h, ← hhalted]

/-- What an operation comes to is what counts of its walk. -/
theorem exists_walk [Host] {o : Outcome Answer} (h : r.outcome mode = .ok o) :
    ∃ fs, r.walk = .ok fs ∧ settle mode fs = ⟨o.errors, o.warnings, none⟩ := by
  cases r with
  | validateSchema schema =>
    obtain ⟨o', ho', herrors, hwarnings⟩ := outcome_map_eq_ok h
    rw [← herrors, ← hwarnings]
    cases schema with
    | raw v => exact ⟨_, rfl, settle_of_checkSchema ho'⟩
    | typed b => exact ⟨_, rfl, settle_of_checkSchema ho'⟩
  | documentToObject document schema =>
    obtain ⟨o', ho', herrors, hwarnings⟩ := outcome_map_eq_ok h
    obtain ⟨S, hS, hdecode⟩ := Except.bind_eq_ok.1 ho'
    obtain ⟨data, hdata, houtcome⟩ := Except.bind_eq_ok.1 hdecode
    rw [← herrors, ← hwarnings]
    refine ⟨(S.convert .decoding [] data).findings, ?_, settle_of_conversion houtcome⟩
    rw [walk, hS]
    show (parseDocument document >>= _) = _
    rw [hdata]
    rfl
  | objectToDocument v schema =>
    obtain ⟨o', ho', herrors, hwarnings⟩ := outcome_map_eq_ok h
    obtain ⟨S, hS, hencode⟩ := Except.bind_eq_ok.1 ho'
    obtain ⟨o'', houtcome, hwrite⟩ := Except.bind_eq_ok.1 hencode
    rw [← herrors, ← hwarnings]
    refine ⟨(S.convert .encoding [] v).findings, ?_, ?_⟩
    · rw [walk, hS]
      rfl
    · rw [settle_of_conversion houtcome]
      split at hwrite
      · obtain ⟨t, -, ho⟩ := Except.bind_eq_ok.1 hwrite
        rw [← Except.ok.inj ho]
      · rw [← Except.ok.inj hwrite]

end Operation

structure Call where
  errors : Parameter
  warnings : Parameter
  operation : Operation

namespace Call

/-- The mode of a call: eager unless a collection for errors is passed. -/
def mode (c : Call) : Mode := if Session.isAbsent c.errors then .failFast else .collectAll

/-- What a call delivers to a collection: its warnings and, where it collects them, its errors. -/
def delivered [Host] (c : Call) (name : Text) : List Note :=
  match c.operation.outcome c.mode with
  | .error _ => []
  | .ok o =>
    c.warnings.share name (o.warnings.map .warning) ++ c.errors.share name (o.errors.map .error)

/-- The collection passed to a call under one of its two parameters. -/
def parameter (c : Call) : Collection → Parameter
  | .errors => c.errors
  | .warnings => c.warnings

variable {c : Call} {name : Text} {o : Outcome Answer}

theorem delivered_of_ok [Host] (h : c.operation.outcome c.mode = .ok o) :
    c.delivered name = c.warnings.share name (o.warnings.map .warning) ++
      c.errors.share name (o.errors.map .error) := by
  rw [delivered, h]

theorem delivered_of_eager [Host] (heager : c.mode = .failFast)
    (h : c.operation.outcome c.mode = .ok o) :
    c.delivered name = c.warnings.share name (o.warnings.map .warning) := by
  have hnone : c.errors.share name (o.errors.map .error) = [] := by
    cases herrors : c.errors with
    | named a =>
      rw [mode, herrors] at heager
      cases heager
    | _ => rfl
  rw [delivered_of_ok h, hnone, List.append_nil]

theorem exists_share [Host] (h : c.delivered name ≠ []) :
    ∃ which notes, (c.parameter which).share name notes ≠ [] := by
  by_contra hnone
  simp only [ne_eq, not_exists, not_not] at hnone
  refine h ?_
  rw [delivered]
  split
  · rfl
  · rw [List.append_eq_nil_iff]
    exact ⟨hnone .warnings _, hnone .errors _⟩

end Call

namespace Session

variable {s : Session} {c : Call}

def perform [Host] (s : Session) (c : Call) : Session × Except Failure Answer :=
  s.call c.errors c.warnings c.operation.outcome

/-- Each collection passed to a call is left out or an empty list. -/
def Accepts (s : Session) (c : Call) : Prop := ∀ which, s.isFit (c.parameter which) = true

/-- Nothing is in other collections than before. -/
def Same (s t : Session) : Prop := ∀ name, t.get name = s.get name

theorem selectMode_of_accepts (h : s.Accepts c) : s.selectMode c.errors c.warnings = .ok c.mode := by
  have herrors : s.isFit c.errors = true := h .errors
  have hwarnings : s.isFit c.warnings = true := h .warnings
  simp [selectMode, herrors, hwarnings, Call.mode]

theorem selectMode_of_not_accepts (h : ¬ s.Accepts c) :
    ∃ which, s.isFit (c.parameter which) = false ∧
      s.selectMode c.errors c.warnings = .error (.misuse which) := by
  cases herrors : s.isFit c.errors with
  | false => exact ⟨.errors, herrors, by simp [selectMode, herrors]⟩
  | true =>
    cases hwarnings : s.isFit c.warnings with
    | false => exact ⟨.warnings, hwarnings, by simp [selectMode, herrors, hwarnings]⟩
    | true =>
      refine absurd (fun which => ?_) h
      cases which with
      | errors => exact herrors
      | warnings => exact hwarnings

/-! With a raw schema these are the calls of `Session`, whose results are told apart by `Answer`. -/

section

variable {errors warnings : Parameter} {raw : Value}

theorem perform_validateSchema [Host] :
    s.perform ⟨errors, warnings, .validateSchema (.raw raw)⟩ =
      ((s.validateSchema errors warnings raw).1,
        (s.validateSchema errors warnings raw).2.map fun _ => .nothing) := by
  refine (call_map fun _ => Answer.nothing).trans ?_
  show ((s.call errors warnings fun mode => checkSchema raw mode).1,
    (s.call errors warnings fun mode => checkSchema raw mode).2.map _) = _
  rw [validateSchema]
  obtain ⟨t, result⟩ := s.call errors warnings fun mode => checkSchema raw mode
  cases result <;> rfl

theorem perform_documentToObject [Host] {document : Value} :
    s.perform ⟨errors, warnings, .documentToObject document (.raw raw)⟩ =
      ((s.documentToObject errors warnings document raw).1,
        (s.documentToObject errors warnings document raw).2.map .object) :=
  call_map Answer.object

theorem perform_objectToDocument [Host] {v : Value} :
    s.perform ⟨errors, warnings, .objectToDocument v (.raw raw)⟩ =
      ((s.objectToDocument errors warnings v raw).1,
        (s.objectToDocument errors warnings v raw).2.map .document) :=
  call_map Answer.document

end

/-! ## How a call ends -/

/-- How a call ends, and what it leaves in the collections. -/
inductive Ends [Host] (s : Session) (c : Call) (t : Session) : Except Failure Answer → Prop
  /-- A collection is no empty list. -/
  | refused {which : Collection} (unfit : s.isFit (c.parameter which) = false) (same : s.Same t) :
    Ends s c t (.error (.misuse which))
  /-- There is no outcome, so nothing was collected either. -/
  | failed {f : Failure} (accepts : s.Accepts c) (outcome : c.operation.outcome c.mode = .error f)
    (same : s.Same t) : Ends s c t (.error f)
  /-- An eager call raises its first error and delivers the warnings found before it. -/
  | raised {o : Outcome Answer} {e : Complaint} {rest : List Finding} (accepts : s.Accepts c)
    (eager : c.mode = .failFast) (outcome : c.operation.outcome c.mode = .ok o)
    (walk : c.operation.walk = .ok (o.warnings.map .warning ++ .error e :: rest))
    (gains : ∀ name, t.get name = s.get name ++ c.warnings.share name (o.warnings.map .warning)) :
    Ends s c t (.error (.complaint e))
  /-- An eager call without errors delivers its warnings. -/
  | returned {o : Outcome Answer} (accepts : s.Accepts c) (eager : c.mode = .failFast)
    (outcome : c.operation.outcome c.mode = .ok o) (clean : o.errors = [])
    (gains : ∀ name, t.get name = s.get name ++ c.warnings.share name (o.warnings.map .warning)) :
    Ends s c t (.ok o.value)
  /-- A collecting call delivers its warnings and then its errors. -/
  | collected {o : Outcome Answer} (accepts : s.Accepts c) (lazy : c.mode = .collectAll)
    (outcome : c.operation.outcome c.mode = .ok o)
    (gains : ∀ name, t.get name = s.get name ++
      (c.warnings.share name (o.warnings.map .warning) ++
        c.errors.share name (o.errors.map .error))) :
    Ends s c t (.ok o.value)

theorem ends_perform [Host] (s : Session) (c : Call) : s.Ends c (s.perform c).1 (s.perform c).2 := by
  have htouched : s.Same ((s.touch c.errors).touch c.warnings) := fun name => by
    rw [get_touch, get_touch]
  by_cases haccepts : s.Accepts c
  · have hmode := selectMode_of_accepts haccepts
    cases houtcome : c.operation.outcome c.mode with
    | error f =>
      rw [perform, call_of_error hmode houtcome]
      exact .failed haccepts houtcome htouched
    | ok o =>
      rw [perform, call_of_ok hmode houtcome]
      by_cases habsent : isAbsent c.errors = true
      · have heager : c.mode = .failFast := by rw [Call.mode, if_pos habsent]
        rw [if_pos habsent]
        cases herrors : o.errors with
        | nil =>
          rw [Outcome.orFirstError, herrors]
          exact .returned haccepts heager houtcome herrors fun name => by simp
        | cons e errors =>
          rw [Outcome.orFirstError, herrors]
          obtain ⟨fs, hwalk, hsettle⟩ := Operation.exists_walk houtcome
          rw [heager, herrors] at hsettle
          obtain ⟨rest, rfl⟩ := exists_of_settle_failFast hsettle
          exact .raised haccepts heager houtcome hwalk fun name => by simp
      · have hlazy : c.mode = .collectAll := by rw [Call.mode, if_neg habsent]
        rw [if_neg habsent]
        exact .collected haccepts hlazy houtcome fun name => by simp
  · obtain ⟨which, hunfit, hmode⟩ := selectMode_of_not_accepts haccepts
    rw [perform, call_of_refused hmode]
    exact .refused hunfit htouched

theorem Ends.refused_of_not_accepts [Host] {t : Session} {r : Except Failure Answer} (h : s.Ends c t r)
    (hunfit : ¬ s.Accepts c) : ∃ which, r = .error (.misuse which) ∧ s.Same t := by
  cases h with
  | refused _ same => exact ⟨_, rfl, same⟩
  | failed accepts _ _ => exact absurd accepts hunfit
  | raised accepts _ _ _ _ => exact absurd accepts hunfit
  | returned accepts _ _ _ _ => exact absurd accepts hunfit
  | collected accepts _ _ _ => exact absurd accepts hunfit

theorem Ends.same_of_unreadable [Host] {t : Session} {fault : Json.Fault}
    (h : s.Ends c t (.error (.unreadable fault))) : s.Same t := by
  cases h with
  | failed _ _ same => exact same

/-- A call without an outcome leaves every collection as it was. -/
theorem Ends.same_of_error [Host] {t : Session} {r : Except Failure Answer} {f : Failure}
    (h : s.Ends c t r) (hf : c.operation.outcome c.mode = .error f) : s.Same t := by
  cases h with
  | refused _ same => exact same
  | failed _ _ same => exact same
  | raised _ _ outcome _ _ => cases hf.symm.trans outcome
  | returned _ _ outcome _ _ => cases hf.symm.trans outcome
  | collected _ _ outcome _ => cases hf.symm.trans outcome

theorem Ends.gains [Host] {t : Session} {r : Except Failure Answer} (h : s.Ends c t r) (name : Text) :
    t.get name = s.get name ∨ s.Accepts c ∧ t.get name = s.get name ++ c.delivered name := by
  cases h with
  | refused _ same => exact .inl (same name)
  | failed _ _ same => exact .inl (same name)
  | raised accepts eager outcome _ gains =>
    refine .inr ⟨accepts, ?_⟩
    rw [gains, Call.delivered_of_eager eager outcome]
  | returned accepts eager outcome _ gains =>
    refine .inr ⟨accepts, ?_⟩
    rw [gains, Call.delivered_of_eager eager outcome]
  | collected accepts _ outcome gains =>
    refine .inr ⟨accepts, ?_⟩
    rw [gains, Call.delivered_of_ok outcome]

/-- A call leaves a collection as it was, or it was empty and holds what the call delivers. -/
theorem get_perform [Host] (s : Session) (c : Call) (name : Text) :
    (s.perform c).1.get name = s.get name ∨
      s.Accepts c ∧ (s.perform c).1.get name = c.delivered name := by
  rcases (ends_perform s c).gains name with hsame | ⟨haccepts, hgains⟩
  · exact .inl hsame
  · by_cases hnothing : c.delivered name = []
    · rw [hnothing, List.append_nil] at hgains
      exact .inl hgains
    · refine .inr ⟨haccepts, ?_⟩
      obtain ⟨which, notes, hshare⟩ := Call.exists_share hnothing
      rw [hgains, eq_nil_of_share (haccepts which) hshare, List.nil_append]

/-! ## Sessions -/

/-- What a caller does: a call, or clearing a collection. -/
inductive Step where
  | call (c : Call)
  | clear (name : Text)

def step [Host] (s : Session) : Step → Session
  | .call c => (s.perform c).1
  | .clear name => s.clear name

def run [Host] (s : Session) (steps : List Step) : Session := steps.foldl step s

/-- After some steps a collection holds what one of the calls delivered to it, and it was not cleared
since. -/
def HoldsOneCall [Host] (steps : List Step) (name : Text) : Prop :=
  ∃ before c after, steps = before ++ .call c :: after ∧ .clear name ∉ after ∧
    (empty.run before).Accepts c ∧ (empty.run steps).get name = c.delivered name

theorem run_append_singleton [Host] (s : Session) (steps : List Step) (x : Step) :
    s.run (steps ++ [x]) = (s.run steps).step x := by
  rw [run, List.foldl_append]
  rfl

theorem HoldsOneCall.append_singleton [Host] {steps : List Step} {name : Text} {x : Step}
    (h : HoldsOneCall steps name) (hx : x ≠ .clear name)
    (hsame : (empty.run (steps ++ [x])).get name = (empty.run steps).get name) :
    HoldsOneCall (steps ++ [x]) name := by
  obtain ⟨before, c, after, rfl, hafter, haccepts, hholds⟩ := h
  refine ⟨before, c, after ++ [x], ?_, ?_, haccepts, hsame.trans hholds⟩
  · rw [List.append_assoc, List.cons_append]
  · rw [List.mem_append, List.mem_singleton, not_or]
    exact ⟨hafter, Ne.symm hx⟩

/-- After any steps, a collection is empty or holds what one call delivered to it. -/
theorem get_run [Host] (steps : List Step) (name : Text) :
    (empty.run steps).get name = [] ∨ HoldsOneCall steps name := by
  induction steps using List.reverseRecOn with
  | nil => exact .inl rfl
  | append_singleton steps x ih =>
    have hrun := run_append_singleton empty steps x
    cases x with
    | clear a =>
      have hget : (empty.run (steps ++ [.clear a])).get name =
          if name = a then [] else (empty.run steps).get name := by
        rw [hrun, step, clear, get_set]
      by_cases hname : name = a
      · rw [if_pos hname] at hget
        exact .inl hget
      · rw [if_neg hname] at hget
        refine ih.imp hget.trans fun h => h.append_singleton ?_ hget
        exact fun hclear => hname (Step.clear.inj hclear).symm
    | call c =>
      -- a call changes no collection but an empty one
      rcases get_perform (empty.run steps) c name with hsame | ⟨haccepts, hdelivered⟩
      · have hget : (empty.run (steps ++ [.call c])).get name = (empty.run steps).get name := by
          rw [hrun]
          exact hsame
        exact ih.imp hget.trans fun h => h.append_singleton (fun hclear => by cases hclear) hget
      · refine .inr ⟨steps, c, [], rfl, List.not_mem_nil, haccepts, ?_⟩
        rw [hrun]
        exact hdelivered

/-- **Collections are never mixed, lost or half-written.** After any calls and clears a collection is
empty or holds exactly what one call delivered to it since it was last cleared: its warnings, its errors,
or its warnings and then its errors. Each call ends in one of five ways. One that is given a collection
with something in it is refused; it leaves every collection as it was, and so does a call whose document
cannot be read and any other call without an outcome. -/
theorem collections_hold_one_call [Host] :
    (∀ steps name, (empty.run steps).get name = [] ∨ HoldsOneCall steps name) ∧
    ∀ (s : Session) (c : Call),
      s.Ends c (s.perform c).1 (s.perform c).2 ∧
      (∀ which name, c.parameter which = .named name → s.get name ≠ [] →
        ∃ which, (s.perform c).2 = .error (.misuse which) ∧
          (Failure.misuse which).className = "PreconditionError" ∧ s.Same (s.perform c).1) ∧
      (∀ fault, (s.perform c).2 = .error (.unreadable fault) → s.Same (s.perform c).1) ∧
      ∀ f, c.operation.outcome c.mode = .error f → s.Same (s.perform c).1 := by
  refine ⟨get_run, fun s c => ?_⟩
  have hends := ends_perform s c
  refine ⟨hends, ?_, fun fault hr => ?_, fun f hf => hends.same_of_error hf⟩
  · intro which name hnamed hnonempty
    have hunfit : ¬ s.Accepts c := fun haccepts => by
      have hfit : s.isFit (.named name) = true := hnamed ▸ haccepts which
      exact hnonempty (List.isEmpty_iff.1 hfit)
    obtain ⟨which', hr, hsame⟩ := hends.refused_of_not_accepts hunfit
    exact ⟨which', hr, rfl, hsame⟩
  · rw [hr] at hends
    exact hends.same_of_unreadable

open Reference in
/-- A length that is negative and no integer: an eager call raises the error and delivers the warning, a
second call is refused the collection, and after a clear one collection takes both. -/
example :
    let fault : Value := .float (.finite true ⟨Nat.pow 2 1073, by decide +kernel⟩)
    let schema : GivenSchema := .raw (.dict [(.str "type", .str "string"), (.str "length", fault)])
    let eager : Step := .call ⟨.absent, .named "a", .validateSchema schema⟩
    let collecting : Step := .call ⟨.named "a", .named "a", .validateSchema schema⟩
    let warning : Note := .warning ⟨[.property "length"], .fractionalLength⟩
    let error : Note := .error (.violation [.property "length"] .negativeLength)
    (empty.run [eager]).get "a" = [warning] ∧
      (empty.run [eager, collecting]).get "a" = [warning] ∧
      (empty.run [eager, .clear "a", collecting]).get "a" = [warning, error] := by
  decide +kernel

end Session

end DocShape
