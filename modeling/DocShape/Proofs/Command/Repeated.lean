import DocShape.Proofs.Command.Endings

/-!
# Decoding what was decoded

What the decode command prints is a document along the same schema. Decoded again it gives what it was made
of, so the command prints it once more (`Invocation.decode_again`). The text is spread over lines and printed
with a newline behind it, which the reader takes for white space, and nothing in it is changed on the way: no
styling is taken out, and there are no line ends but newlines.
-/

namespace DocShape

/-! ## Printed texts -/

namespace Json

variable {style : Style} {t : Text} {v : Value}

theorem written_line (ht : write style v = .ok t) : ∀ c ∈ line t, Written style c :=
  List.forall_mem_append.2 ⟨written_text v ht, List.forall_mem_singleton.2 (.inl rfl)⟩

/-- A newline behind a document changes nothing. -/
theorem read_line {dialect : Dialect} {nesting : Nat} (hstyle : style.asciiOnly = false)
    (hv : v.IsPlain) (hdepth : v.depth ≤ nesting) (ht : write style v = .ok t) :
    read dialect nesting (line t) = .ok v.spelled := by
  let newline : Gap := ⟨"\n", List.forall_mem_singleton.2 (.inr (.inr (.inl rfl)))⟩
  exact read_spaced hstyle hv hdepth ht Gap.none newline

end Json

/-! ## Runs of the decode command -/

namespace Invocation

/-- Standard input is always there. -/
theorem problem?_stdin {i : Invocation} {files : Files} (h : i.problem? files = none) :
    Invocation.problem? { i with source := "-" } files = none := by
  unfold problem? at h ⊢
  split at h
  · cases h
  · next hschema =>
    rw [if_neg hschema]
    cases i.command <;> rfl

section

variable [Host] {i : Invocation} {around : Surroundings} {validator : Validator} {v : Value}

/-- A command that succeeds was not refused. -/
theorem problem?_of_exitCode (hexit : ((Request.invoke i).run around).exitCode = 0) :
    i.problem? around.files = none := by
  cases hproblem : i.problem? around.files with
  | none => rfl
  | some problem =>
    rw [Request.run, hproblem] at hexit
    cases hexit

/-- A command decodes a document along a schema to a value, and finds nothing. -/
structure Decodes (i : Invocation) (around : Surroundings) (validator : Validator) (v : Value) : Prop where
  command : i.command = .decode
  schema : Validator.ofFile around.files i.schema = .ok validator
  document : ∃ s w, i.sourceText around = .ok s ∧ Json.read .strict Host.nesting s = .ok w ∧
    validator.schema.convert .decoding [] w = ⟨v, []⟩

namespace Decodes

/-- What is decoded is no deeper than the document, which was read. -/
theorem depth_le (h : i.Decodes around validator v) : v.depth ≤ Host.nesting := by
  obtain ⟨s, w, -, hread, hdecoded⟩ := h.document
  exact (Block.depth_le_of_decoded (Json.isDocument_of_read hread) hdecoded).trans
    (Json.depth_of_read hread)

/-- The product shows the value, and the log the schema file and the mode. Neither tells of the source. -/
theorem perform_eq (h : i.Decodes around validator v) : i.perform around =
    (.product ⟨.dict [(.str "value", v)], (Json.write .readable v).mapError .unwritable, []⟩,
      ((Attempt.logFindings "Document decoded" (i.mode around) false (⟨v, [], []⟩ : Outcome Value)).run.run
        ((Attempt.schema around.files i.schema).run.run []).2).2) := by
  obtain ⟨s, w, hs, hread, hdecoded⟩ := h.document
  have hsteps : i.steps around = i.decode around := by rw [steps, h.command]
  have hschema : ((Attempt.schema around.files i.schema).run.run []).1 = .ok validator.schema := by
    have hcomes := Attempt.comesTo_schema around.files i.schema []
    rwa [h.schema] at hcomes
  rw [Invocation.perform_eq, hsteps, decode, Attempt.run_bind, hschema]
  simp only [ExceptT.bindCont, hs, Attempt.lift_bind, decodeDocument_of_clean _ hread hdecoded]
  rfl

end Decodes

variable [LawfulHost]

/-- What is decoded is in order, as the schema was checked. -/
theorem Decodes.inOrder (h : i.Decodes around validator v) : validator.schema.InOrder v := by
  obtain ⟨s, w, -, hread, hdecoded⟩ := h.document
  have hfields := (Validator.isChecked h.schema).fieldsApart
  exact Block.inOrder_of_decoded hfields (Json.isDocument_of_read hread) hdecoded

/-- A decode command with plain output that succeeds has decoded a document and printed the value. -/
theorem exists_decodes (hi : i.command = .decode) (hplain : i.options.jsonOutput = false)
    (hexit : (i.run around).exitCode = 0) : ∃ validator v t, i.Decodes around validator v ∧
      Json.write .readable v = .ok t ∧ t.NoSurrogates ∧ (i.run around).stdout = unstyled (line t) := by
  have hends := i.ends_run around hplain
  generalize hcall : i.call around = result at hends
  generalize i.run around = report at hends hexit ⊢
  cases hends with
  | @result o t stderr clean rendered printable =>
    obtain ⟨validator, s, o', hvalidator, hs, ho', rfl⟩ := exists_decode_of_call hi hcall
    obtain ⟨w, hread, hdecoded⟩ := decodeDocument_of_isOk ho' (List.isEmpty_iff.2 clean)
    cases rendered with
    | decode _ written =>
      exact ⟨validator, o'.value, t, ⟨hi, hvalidator, s, w, hs, hread, hdecoded⟩, written, printable, rfl⟩
    | validate hi' => cases hi.symm.trans hi'
  | nonconforming => cases hexit
  | failure => cases hexit
  | unprintable => cases hexit

/-- The text that is printed of a decoded value is decoded to the value. -/
theorem Decodes.again (h : i.Decodes around validator v) {t : Text}
    (ht : Json.write .readable v = .ok t)
    (hprintable : t.NoSurrogates) :
    Decodes { i with source := "-" } { around with stdin := (line t).flatMap Encoding.utf8Bytes }
      validator v where
  command := h.command
  schema := h.schema
  document := by
    have hsource : textOfFile ((line t).flatMap Encoding.utf8Bytes) = .ok (line t) :=
      textOfFile_bytes (noSurrogates_line.2 hprintable) fun c hc =>
        (Json.written_line ht c hc).ne_of_control (by decide) (by decide)
    exact ⟨line t, v.spelled, hsource, Json.read_line rfl h.inOrder.isPlain h.depth_le ht,
      h.inOrder.decoded⟩

/-- **Decoding what was decoded prints it again.** Let a decode command with plain output succeed, whatever
its schema file, its source and its options are. The same command with the printed text on standard input
succeeds as well and prints the same text, and what it tells on standard error is the same too. -/
theorem decode_again (i : Invocation) (around : Surroundings) (hi : i.command = .decode)
    (hplain : i.options.jsonOutput = false) (hexit : ((Request.invoke i).run around).exitCode = 0) :
    (Request.invoke { i with source := "-" }).run
        { around with stdin := ((Request.invoke i).run around).stdout.flatMap Encoding.utf8Bytes } =
      (Request.invoke i).run around := by
  have hfiles := problem?_of_exitCode hexit
  have hrun : (Request.invoke i).run around = i.run around := by rw [Request.run, hfiles]
  rw [hrun] at hexit ⊢
  obtain ⟨validator, v, t, hdecodes, hwritten, hprintable, hstdout⟩ := exists_decodes hi hplain hexit
  have hstyling : unstyled (line t) = line t :=
    unstyled_eq_self fun c hc =>
      (Json.written_line hwritten c hc).ne_of_control (by decide) (by decide)
  rw [hstdout, hstyling, Request.run, problem?_stdin hfiles]
  show Invocation.run _ _ = Invocation.run _ _
  rw [run, run, hdecodes.perform_eq, (hdecodes.again hwritten hprintable).perform_eq]
  rfl

end

/-- A schema of scores by number and an optional note. -/
def scoresSchemaText : Text :=
  "\x7b\"type\": \"map\", \"fields\": \x7b\"scores\": \x7b\"type\": \"object\", \"key\": \"integer\", " ++
    "\"value\": \x7b\"type\": \"number\"\x7d\x7d, \"note\": \x7b\"type\": \"string\", \"option\": true\x7d\x7d\x7d"

/-- A decoder along the scores, of a file. -/
def scoresInvocation : Invocation := ⟨.decode, "schema.json", "scores.json", ⟨false, false, false⟩⟩

/-- The schema of the scores and some scores in files, and nothing on standard input. -/
def scoresSurroundings : Surroundings :=
  ⟨⟨[("schema.json", asciiBytes scoresSchemaText),
    ("scores.json", asciiBytes "\x7b\"scores\": \x7b\"7\": 1.50\x7d\x7d")], []⟩, [], none, none⟩

/-- What is printed of the scores: the number of the score as a text, the score in its shortest spelling, and
null for the note that is not there. -/
def scoresText : Text :=
  "\x7b\n  \"scores\": \x7b\n    \"7\": 1.5\n  \x7d,\n  \"note\": null\n\x7d\n"

section

open Reference

theorem decode_again_scores :
    (Request.invoke scoresInvocation).run scoresSurroundings = ⟨0, scoresText, [], none⟩ ∧
    (Request.invoke { scoresInvocation with source := "-" }).run
        { scoresSurroundings with stdin := scoresText.flatMap Encoding.utf8Bytes } =
      ⟨0, scoresText, [], none⟩ := by
  have hfirst : (Request.invoke scoresInvocation).run scoresSurroundings = ⟨0, scoresText, [], none⟩ := by
    decide +kernel
  have hagain := decode_again scoresInvocation scoresSurroundings rfl rfl (by rw [hfirst])
  rw [hfirst] at hagain
  exact ⟨hfirst, hagain⟩

end

end Invocation

end DocShape
