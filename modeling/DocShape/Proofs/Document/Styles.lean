import DocShape.Proofs.Document.Checking
import DocShape.Proofs.Sessions

/-!
# The styles of calling agree

Values are converted by calls without collections, by calls with a collection for errors, and by a
validator that holds a checked schema. A call without collections runs the operation in fail-fast mode
and raises its first error (`Session.call_eager`); one with an empty collection delivers what the
operation finds in collect-all mode (`Session.call_collecting`). A validator does the same along the
schema it was made of, and is made again from its own raw form (`styles_agree`).
-/

namespace DocShape

/-! ## Calls -/

/-- What an operation leaves in a collection for its errors. -/
def collected {α : Type} : Except Failure (Outcome α) → List Note
  | .ok o => o.errors.map .error
  | .error _ => []

namespace Session

variable {α : Type} {s : Session} {name : Text} {operation : Mode → Except Failure (Outcome α)}

theorem call_eager (s : Session) (operation : Mode → Except Failure (Outcome α)) :
    s.call .absent .absent operation = (s, operation .failFast >>= Outcome.orFirstError) := by
  have hmode : s.selectMode .absent .absent = .ok .failFast := rfl
  cases hop : operation .failFast with
  | error f => rw [call_of_error hmode hop]; rfl
  | ok o => rw [call_of_ok hmode hop]; rfl

theorem call_collecting (hempty : s.get name = [])
    (operation : Mode → Except Failure (Outcome α)) :
    (s.call (.named name) .absent operation).2 = (operation .collectAll).map Outcome.value ∧
      ∀ other, (s.call (.named name) .absent operation).1.get other =
        if other = name then collected (operation .collectAll) else s.get other := by
  have hmode : s.selectMode (.named name) .absent = .ok .collectAll := by
    simp [selectMode, isFit, isAbsent, hempty]
  have hget (other : Text) (notes : List Note) :
      s.get other ++ (Parameter.named name).share other notes =
        if other = name then notes else s.get other := by
    rw [Parameter.share]
    split
    · next h => rw [h, hempty, List.nil_append]
    · rw [List.append_nil]
  cases hop : operation .collectAll with
  | error f =>
    rw [call_of_error hmode hop]
    refine ⟨rfl, fun other => ?_⟩
    rw [get_touch, get_touch, ← hget other (collected _)]
    simp [collected, Parameter.share]
  | ok o =>
    rw [call_of_ok hmode hop]
    refine ⟨rfl, fun other => ?_⟩
    show ((((s.touch (.named name)).touch .absent).append .absent _).append (.named name) _).get
      other = _
    have hwarnings : Parameter.absent.share other (o.warnings.map .warning) = [] := rfl
    rw [get_append, get_append, get_touch, get_touch, hwarnings, List.append_nil]
    exact hget other _

end Session

/-- Where fail-fast is cut out of collect-all, it raises the first of all errors, or gives the value. -/
theorem IsCutOf.orFirstError {α : Type} {nothing : α} {fast full : Except Failure (Outcome α)}
    (h : IsCutOf nothing fast full) {R : Outcome α} (hR : full = .ok R) :
    fast >>= Outcome.orFirstError = R.orFirstError := by
  obtain ⟨o, rfl, hcut⟩ := h.returns R hR
  show o.orFirstError = R.orFirstError
  have herrors := hcut.errors
  have hvalue := hcut.value
  rcases R with ⟨value, errors, warnings⟩
  cases errors with
  | nil => simp [Outcome.orFirstError, herrors, hvalue, Outcome.isOk]
  | cons c errors => simp [Outcome.orFirstError, herrors]

/-! ## Validators -/

namespace Validator

variable [Host] [LawfulHost] {raw : Value} {S : Block}

theorem ofRaw_of_typedAs (h : raw.TypedAs S) (hfits : S.depth ≤ Host.guard) :
    ofRaw raw = .ok ⟨S⟩ := by
  rw [ofRaw, checkSchema_of_typedAs h hfits .failFast]
  rfl

theorem ofRaw_schemaDict (h : raw.TypedAs S) (hfits : S.depth ≤ Host.guard) :
    ofRaw (Validator.mk S).schemaDict = .ok ⟨S⟩ := by
  have hdump : (Validator.mk S).schemaDict = raw.arranged := Value.dump_of_typedAs h
  rw [hdump]
  exact ofRaw_of_typedAs (Value.typedAs_arranged h) hfits

theorem documentToObject_eq (h : raw.TypedAs S) (hfits : S.depth ≤ Host.guard) (s : Session)
    (errors warnings : Parameter) (document : Value) :
    s.documentToObject errors warnings document raw =
      s.call errors warnings fun mode => decodeDocument document S mode := by
  rw [Session.documentToObject, parseSchema_of_typedAs h hfits]
  rfl

theorem objectToDocument_eq (h : raw.TypedAs S) (hfits : S.depth ≤ Host.guard) (s : Session)
    (errors warnings : Parameter) (v : Value) :
    s.objectToDocument errors warnings v raw =
      s.call errors warnings fun mode => encodeDocument v S mode := by
  rw [Session.objectToDocument, parseSchema_of_typedAs h hfits]
  rfl

end Validator

/-- **The styles of calling agree.** A schema that a check accepts makes a validator, which is made again
from its own raw form. Calls along the schema without collections give what the validator gives, or
raise what it raises. Calls with an empty collection for errors give the value that the validator gives
with all errors and leave exactly these errors there, or fail as it does and leave nothing; other
collections stay as they were. And wherever the validator gives an outcome with all errors, what it
raises without is the first of them, and it gives the same value if there are none. -/
theorem styles_agree [Host] [LawfulHost] {raw : Value} {mode : Mode} {accepted : Outcome (Option Block)}
    (hraw : raw.Keyed) (hchecked : checkSchema raw mode = .ok accepted)
    (hok : accepted.isOk = true) :
    ∃ V, Validator.ofRaw raw = .ok V ∧ Validator.ofRaw V.schemaDict = .ok V ∧
      (∀ s document, Session.documentToObject s .absent .absent document raw =
        (s, V.decode document)) ∧
      (∀ s v, Session.objectToDocument s .absent .absent v raw = (s, V.encode v)) ∧
      (∀ s name document, Session.get s name = [] →
        (s.documentToObject (.named name) .absent document raw).2 =
          (V.validateDocument document).map Outcome.value ∧
        ∀ other, (s.documentToObject (.named name) .absent document raw).1.get other =
          if other = name then collected (V.validateDocument document) else s.get other) ∧
      (∀ s name v, Session.get s name = [] →
        (s.objectToDocument (.named name) .absent v raw).2 =
          (V.validateObject v).map Outcome.value ∧
        ∀ other, (s.objectToDocument (.named name) .absent v raw).1.get other =
          if other = name then collected (V.validateObject v) else s.get other) ∧
      (∀ document o, V.validateDocument document = .ok o → V.decode document = o.orFirstError) ∧
      ∀ v o, V.validateObject v = .ok o → V.encode v = o.orFirstError := by
  have hvalue := (isSome_value_iff hraw hchecked).2 (List.isEmpty_iff.1 hok)
  obtain ⟨S, hS⟩ := Option.isSome_iff_exists.1 hvalue
  obtain ⟨htyped, hfits⟩ := typedAs_of_checkSchema hraw hchecked hS
  refine ⟨⟨S⟩, Validator.ofRaw_of_typedAs htyped hfits, Validator.ofRaw_schemaDict htyped hfits,
    fun s document => ?_, fun s v => ?_, fun s name document hempty => ?_,
    fun s name v hempty => ?_, fun document o ho => ?_, fun v o ho => ?_⟩
  · rw [Validator.documentToObject_eq htyped hfits, Session.call_eager]
    rfl
  · rw [Validator.objectToDocument_eq htyped hfits, Session.call_eager]
    rfl
  · rw [Validator.documentToObject_eq htyped hfits]
    exact Session.call_collecting hempty _
  · rw [Validator.objectToDocument_eq htyped hfits]
    exact Session.call_collecting hempty _
  · exact (cutAtFirst_decodeDocument document S).isCutOf.orFirstError ho
  · exact (cutAtFirst_encodeDocument v S).isCutOf.orFirstError ho

/-- A tuple of one truth value, with a native tuple of blocks, which a raw form has as a list. -/
def switchRaw : Value :=
  .dict [(.str "items", .tuple [.dict [(.str "type", .str "flag")]]), (.str "type", .str "tuple")]

section

open Reference

/-- A call without collections raises the one error that the validator finds. -/
theorem styles_agree_switch :
    switchRaw.Keyed ∧ (checkSchema switchRaw .failFast).toOption.map Outcome.isOk = some true ∧
      (Session.empty.documentToObject .absent .absent (.str "[1]") switchRaw).2 =
        .error (.complaint (.mismatch [.position 0] (.expected .boolean .decoding))) := by
  have hkeyed : switchRaw.Keyed := by
    simp [switchRaw, Entries.Distinct]
    decide
  have hchecked : checkSchema switchRaw .failFast = .ok _ := rfl
  obtain ⟨V, hV, -, heager, -⟩ := styles_agree hkeyed hchecked rfl
  obtain rfl := Except.ok.inj hV
  refine ⟨hkeyed, rfl, ?_⟩
  rw [heager]
  rfl

end

end DocShape
