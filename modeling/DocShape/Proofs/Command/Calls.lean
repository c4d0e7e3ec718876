import DocShape.Command
import DocShape.Proofs.Prelude

/-!
# What a command has the library do

`Invocation.call` is the one call of the library that a command comes to, with what it gives put as the
image in JSON output. A command ends as that call does (`Invocation.follows_perform`): besides the call it
does nothing but log.
-/

namespace DocShape

/-! ## Work without its log -/

namespace Attempt

variable {α β : Type}

/-- Whatever is in the log, some work comes to a result. -/
def ComesTo (work : Attempt α) (result : Except Failure α) : Prop :=
  ∀ log, (work.run.run log).1 = result

theorem comesTo_pure (a : α) : (pure a : Attempt α).ComesTo (.ok a) := fun _ => rfl

theorem comesTo_lift (x : Except Failure α) : (liftM x : Attempt α).ComesTo x := fun _ => rfl

theorem comesTo_log (source : String) (message : Text) : (log source message).ComesTo (.ok ()) :=
  fun _ => rfl

/-- The next steps are taken with the result and the log of those before. -/
theorem run_bind (work : Attempt α) (next : α → Attempt β) (log : List Text) :
    (work >>= next).run.run log =
      ExceptT.bindCont next (work.run.run log).1 (work.run.run log).2 := rfl

theorem lift_bind (a : α) (next : α → Attempt β) :
    ((liftM (.ok a : Except Failure α) : Attempt α) >>= next) = next a := rfl

theorem ComesTo.bind {work : Attempt α} {next : α → Attempt β} {x : Except Failure α}
    {f : α → Except Failure β} (h : work.ComesTo x) (hnext : ∀ a, (next a).ComesTo (f a)) :
    (work >>= next).ComesTo (x >>= f) := by
  intro log
  rw [run_bind, h log]
  cases x with
  | error e => rfl
  | ok a => exact hnext a _

/-- What is logged first does not count. -/
theorem ComesTo.logged {work : Attempt α} {x : Except Failure α} (source : String) (message : Text)
    (h : work.ComesTo x) : (log source message >>= fun _ => work).ComesTo x :=
  (comesTo_log source message).bind fun _ => h

theorem comesTo_load [Host] (files : Files) (path : Text) :
    (load files path).ComesTo (loadSchemaFile files path) :=
  (comesTo_lift _).bind fun file => (comesTo_lift file.load).logged _ _

theorem comesTo_check [Host] (raw : Value) (mode : Mode) :
    (check raw mode).ComesTo (checkSchema raw mode) := by
  have hcheck : checkSchema raw mode = checkSchema raw mode >>= .ok := (bind_pure _).symm
  rw [hcheck]
  exact (comesTo_lift _).bind fun o => (comesTo_pure o).logged _ _

end Attempt

/-- The schema in a file, checked up to its first error. -/
def Validator.ofFile [Host] (files : Files) (path : Text) : Except Failure Validator := do
  ofRaw (← loadSchemaFile files path)

theorem Attempt.comesTo_schema [Host] (files : Files) (path : Text) :
    (schema files path).ComesTo ((Validator.ofFile files path).map Validator.schema) := by
  have hmap : (Validator.ofFile files path).map Validator.schema =
      loadSchemaFile files path >>= fun raw => checkSchema raw .failFast >>= fun o =>
        o.orFirstError >>= fun block? => .ok (block?.getD (.flag ⟨.absent, .absent, none⟩)) := by
    rw [Validator.ofFile]
    cases loadSchemaFile files path with
    | error f => rfl
    | ok raw =>
      show (Validator.ofRaw raw).map Validator.schema = checkSchema raw .failFast >>= _
      rw [Validator.ofRaw]
      cases checkSchema raw .failFast with
      | error f => rfl
      | ok o =>
        show Except.map _ (o.orFirstError >>= _) = o.orFirstError >>= _
        cases o.orFirstError with
        | error f => rfl
        | ok block? => cases block? <;> rfl
  rw [hmap]
  refine (comesTo_load files path).bind fun raw => (comesTo_check raw .failFast).bind fun o => ?_
  refine (comesTo_lift o.orFirstError).bind fun block? => ?_
  cases block? <;> exact comesTo_pure _

/-! ## The call of the library -/

/-- The call of the library that a command comes to. Its value is the image of the result. -/
def Invocation.call [Host] (i : Invocation) (around : Surroundings) :
    Except Failure (Outcome Value) :=
  match i.command with
  | .validate => do
    let o ← checkSchema (← loadSchemaFile around.files i.schema) (i.mode around)
    return ⟨.dict ((.str "valid", .bool true) :: diagnosticsImage o.errors o.warnings), o.errors,
      o.warnings⟩
  | .decode => do
    let validator ← Validator.ofFile around.files i.schema
    let o ← decodeDocument (.str (← i.sourceText around)) validator.schema (i.mode around)
    return ⟨.dict [(.str "value", o.value)], o.errors, o.warnings⟩
  | .encode => do
    let validator ← Validator.ofFile around.files i.schema
    let v ← i.sourceFormat.load (← i.sourceText around)
    let o ← encodeDocument v validator.schema (i.mode around)
    return ⟨.dict [(.str "document", (o.value.map .str).getD .null)], o.errors, o.warnings⟩

theorem Invocation.call_of_decode [Host] (i : Invocation) (around : Surroundings)
    {validator : Validator} {t : Text} {o : Outcome Value} (hi : i.command = .decode)
    (hvalidator : Validator.ofFile around.files i.schema = .ok validator)
    (ht : i.sourceText around = .ok t)
    (ho : decodeDocument (.str t) validator.schema (i.mode around) = .ok o) :
    i.call around = .ok ⟨.dict [(.str "value", o.value)], o.errors, o.warnings⟩ := by
  rw [call, hi]
  simp only [hvalidator, ht, ho, bind, Except.bind, pure, Except.pure]

/-- A decode command that comes to something has read a schema and a source, and decoded the one along the
other. -/
theorem Invocation.exists_decode_of_call [Host] {i : Invocation} {around : Surroundings}
    {o : Outcome Value} (hi : i.command = .decode) (h : i.call around = .ok o) :
    ∃ validator t o', Validator.ofFile around.files i.schema = .ok validator ∧
      i.sourceText around = .ok t ∧
      decodeDocument (.str t) validator.schema (i.mode around) = .ok o' ∧
      o = ⟨.dict [(.str "value", o'.value)], o'.errors, o'.warnings⟩ := by
  rw [call, hi] at h
  obtain ⟨validator, hvalidator, h⟩ := Except.bind_eq_ok.1 h
  obtain ⟨t, ht, h⟩ := Except.bind_eq_ok.1 h
  obtain ⟨o', ho', h⟩ := Except.bind_eq_ok.1 h
  exact ⟨validator, t, o', hvalidator, ht, ho', (Except.ok.inj h).symm⟩

/-- A value that is encoded without errors has a text. -/
theorem exists_text_of_encodeDocument [Host] {v : Value} {S : Block} {mode : Mode}
    {o : Outcome (Option Text)} (ho : encodeDocument v S mode = .ok o) (hclean : o.errors = []) :
    ∃ t, o.value = some t := by
  obtain ⟨o', -, ho⟩ := Except.bind_eq_ok.1 ho
  split at ho
  · obtain ⟨t, -, ho⟩ := Except.bind_eq_ok.1 ho
    exact ⟨t, congrArg Outcome.value (Except.ok.inj ho).symm⟩
  · next hnone =>
    obtain rfl := Except.ok.inj ho
    exact absurd (.inl (List.isEmpty_iff.2 hclean)) hnone

/-- An ending that tells what a call of the library gave. -/
inductive Ending.Follows : Except Failure (Outcome Value) → Ending → Prop
  | product {o : Outcome Value} {p : Product} (clean : o.errors = []) (image : p.image = o.value) :
    Follows (.ok o) (.product p)
  | nonconforming {o : Outcome Value} (found : o.errors ≠ []) :
    Follows (.ok o) (.nonconforming o.errors o.warnings)
  | failure (f : Failure) : Follows (.error f) (.failure f)

namespace Ending

variable {α : Type}

/-- What the steps of a command come to, as an ending. -/
def ofResult : Except Failure Ending → Ending
  | .ok ending => ending
  | .error f => .failure f

/-- How a command ends that found something. -/
def ofOutcome (o : Outcome α) (product : α → Product) : Ending :=
  if o.isOk then .product (product o.value) else .nonconforming o.errors o.warnings

theorem comesTo_conclude (source : String) (complaint : Text) (o : Outcome α)
    (product : α → Product) :
    (Invocation.conclude source complaint o product).ComesTo (.ok (ofOutcome o product)) := by
  unfold Invocation.conclude ofOutcome
  split
  · exact Attempt.comesTo_pure _
  · exact (Attempt.comesTo_pure _).logged _ _

theorem follows_ofOutcome {o : Outcome α} {product : α → Product} {image : Value}
    (himage : o.errors = [] → (product o.value).image = image) :
    Follows (.ok ⟨image, o.errors, o.warnings⟩) (ofResult (.ok (ofOutcome o product))) := by
  show Follows _ (ofOutcome o product)
  unfold ofOutcome
  split
  · next hclean =>
    have hclean := List.isEmpty_iff.1 hclean
    exact .product hclean (himage hclean)
  · next hfound => exact .nonconforming fun h => hfound (List.isEmpty_iff.2 h)

/-- Steps that both follow a first one end alike if the first one fails. -/
theorem Follows.bind {x : Except Failure α} {f : α → Except Failure (Outcome Value)}
    {g : α → Except Failure Ending} (h : ∀ a, x = .ok a → Follows (f a) (ofResult (g a))) :
    Follows (x >>= f) (ofResult (x >>= g)) := by
  cases x with
  | error f => exact .failure f
  | ok a => exact h a rfl

end Ending

namespace Invocation

variable [Host] (i : Invocation) (around : Surroundings)

theorem follows_validate (hi : i.command = .validate) :
    Ending.Follows (i.call around) (.ofResult ((i.validate around).run.run []).1) := by
  have hwork : (i.validate around).ComesTo (loadSchemaFile around.files i.schema >>= fun raw =>
      checkSchema raw (i.mode around) >>= fun o => .ok (Ending.ofOutcome o _)) :=
    (Attempt.comesTo_load _ _).bind fun raw => (Attempt.comesTo_check raw _).bind fun o =>
      Ending.comesTo_conclude _ _ o _
  rw [hwork, call, hi]
  exact .bind fun raw _ => .bind fun o _ => Ending.follows_ofOutcome fun _ => rfl

theorem follows_decode (hi : i.command = .decode) :
    Ending.Follows (i.call around) (.ofResult ((i.decode around).run.run []).1) := by
  have hwork : (i.decode around).ComesTo (
      (Validator.ofFile around.files i.schema).map Validator.schema >>= fun S =>
        i.sourceText around >>= fun t => decodeDocument (.str t) S (i.mode around) >>= fun o =>
          .ok (Ending.ofOutcome o _)) :=
    (Attempt.comesTo_schema _ _).bind fun S => (Attempt.comesTo_lift _).bind fun t =>
      (Attempt.comesTo_lift _).bind fun o => (Ending.comesTo_conclude _ _ o _).logged _ _
  rw [hwork, call, hi]
  cases Validator.ofFile around.files i.schema with
  | error f => exact .failure f
  | ok validator =>
    show Ending.Follows (i.sourceText around >>= _) (.ofResult (i.sourceText around >>= _))
    exact .bind fun t _ => .bind fun o _ => Ending.follows_ofOutcome fun _ => rfl

theorem follows_encode (hi : i.command = .encode) :
    Ending.Follows (i.call around) (.ofResult ((i.encode around).run.run []).1) := by
  have hwork : (i.encode around).ComesTo (
      (Validator.ofFile around.files i.schema).map Validator.schema >>= fun S =>
        i.sourceText around >>= fun t => i.sourceFormat.load t >>= fun v =>
          encodeDocument v S (i.mode around) >>= fun o => .ok (Ending.ofOutcome o _)) :=
    (Attempt.comesTo_schema _ _).bind fun S => (Attempt.comesTo_lift _).bind fun t =>
      (Attempt.comesTo_lift _).bind fun v => (Attempt.comesTo_lift _).bind fun o =>
        (Ending.comesTo_conclude _ _ o _).logged _ _
  rw [hwork, call, hi]
  cases Validator.ofFile around.files i.schema with
  | error f => exact .failure f
  | ok validator =>
    show Ending.Follows (i.sourceText around >>= _) (.ofResult (i.sourceText around >>= _))
    refine .bind fun t _ => .bind fun v _ => .bind fun o ho => Ending.follows_ofOutcome ?_
    intro hclean
    obtain ⟨t, ht⟩ := exists_text_of_encodeDocument ho hclean
    rw [ht]
    rfl

/-- The steps of a command. -/
def steps : Attempt Ending :=
  match i.command with
  | .validate => i.validate around
  | .decode => i.decode around
  | .encode => i.encode around

/-- A command is performed by taking its steps with an empty log. -/
theorem perform_eq : i.perform around =
    (.ofResult ((i.steps around).run.run []).1, ((i.steps around).run.run []).2) := by
  rw [perform, steps]
  cases i.command with
  | validate =>
    dsimp only
    rcases (i.validate around).run.run [] with ⟨_ | _, log⟩ <;> rfl
  | decode =>
    dsimp only
    rcases (i.decode around).run.run [] with ⟨_ | _, log⟩ <;> rfl
  | encode =>
    dsimp only
    rcases (i.encode around).run.run [] with ⟨_ | _, log⟩ <;> rfl

/-- A command ends as its call of the library does. -/
theorem follows_perform : Ending.Follows (i.call around) (i.perform around).1 := by
  rw [perform_eq]
  cases hi : i.command with
  | validate =>
    have hsteps : i.steps around = i.validate around := by rw [steps, hi]
    rw [hsteps]
    exact i.follows_validate around hi
  | decode =>
    have hsteps : i.steps around = i.decode around := by rw [steps, hi]
    rw [hsteps]
    exact i.follows_decode around hi
  | encode =>
    have hsteps : i.steps around = i.encode around := by rw [steps, hi]
    rw [hsteps]
    exact i.follows_encode around hi

end Invocation

end DocShape
