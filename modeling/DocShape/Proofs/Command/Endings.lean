import DocShape.Proofs.Command.JsonOutput
import DocShape.Proofs.Command.Products

/-!
# How commands end

A command prints its result and succeeds, or prints what is wrong and is aborted. The one thing else that
can happen is that the text of a result holds a surrogate, which no output can hold, so that a failure
escapes (`Invocation.run_escapes_iff`). With JSON output, where characters are escaped, it cannot happen.
A document with an escaped surrogate for its one text shows that it does (`Invocation.run_lone_escapes`).
-/

namespace DocShape

/-! ## Reports -/

theorem Report.success_of_surrogates {t stderr : Text} (h : ¬ t.NoSurrogates) :
    success (.ok t) stderr = ⟨1, [], stderr, some (.unprintable t)⟩ := by
  have hsome : t.any CodePoint.isSurrogate = true := by
    simpa [Text.NoSurrogates] using h
  rw [success, hsome]
  rfl

/-- Without JSON output a product is printed, and all else is told on standard error. -/
theorem Ending.report_of_plain [Host] {options : Options} (hplain : options.jsonOutput = false)
    (ending : Ending) (log : Text) : ending.report options log =
      let stderr := log ++ escapeSurrogates (unstyled (ending.messages options.debug))
      match ending with
      | product p => Report.success (p.plain.map fun t => unstyled (line t)) stderr
      | _ => ⟨1, [], stderr ++ line "Aborted!", none⟩ := by
  rw [report, hplain]
  cases ending <;> rfl

namespace Invocation

/-- How a command ends without JSON output, by what its call of the library gave. -/
inductive Ends [Host] (i : Invocation) : Except Failure (Outcome Value) → Report → Prop
  /-- The result is printed. -/
  | result {o : Outcome Value} {t : Text} (stderr : Text) (clean : o.errors = [])
    (rendered : i.Renders o.value t) (printable : t.NoSurrogates) :
    Ends i (.ok o) ⟨0, unstyled (line t), stderr, none⟩
  /-- The warnings and errors are told. -/
  | nonconforming {o : Outcome Value} (log : Text) (found : o.errors ≠ []) :
    Ends i (.ok o) ⟨1, [], log ++ escapeSurrogates (unstyled
      (o.warnings.flatMap warningLine ++ o.errors.flatMap errorLine)) ++ line "Aborted!", none⟩
  /-- The failure is told. -/
  | failure (log : Text) (f : Failure) :
    Ends i (.error f) ⟨1, [], log ++ escapeSurrogates (unstyled (line ("Error: " ++ f.message) ++
      if i.options.debug then line "\nTraceback:" ++ line (Host.traceback f) else [])) ++
        line "Aborted!", none⟩
  /-- The text of the result has a surrogate, and none of it is printed. -/
  | unprintable {o : Outcome Value} {t : Text} (stderr : Text) (clean : o.errors = [])
    (rendered : i.Renders o.value t) (surrogates : ¬ t.NoSurrogates) :
    Ends i (.ok o) ⟨1, [], stderr, some (.unprintable (unstyled (line t)))⟩

namespace Ends

variable [Host] {i : Invocation} {result : Except Failure (Outcome Value)} {report : Report}

/-- What escapes is the text of a result, and it has a surrogate. -/
theorem escaped_iff (h : i.Ends result report) (f : Failure) : report.escaped = some f ↔
    ∃ o t, result = .ok o ∧ o.errors = [] ∧ i.Renders o.value t ∧ ¬ t.NoSurrogates ∧
      f = .unprintable (unstyled (line t)) := by
  cases h with
  | result _ clean rendered printable =>
    refine iff_of_false nofun ?_
    rintro ⟨o, t, ⟨⟩, -, hrendered, hsurrogates, -⟩
    exact hsurrogates (rendered.unique hrendered ▸ printable)
  | nonconforming _ found =>
    refine iff_of_false nofun ?_
    rintro ⟨o, t, ⟨⟩, hclean, -⟩
    exact found hclean
  | failure _ _ =>
    refine iff_of_false nofun ?_
    rintro ⟨o, t, ⟨⟩, -⟩
  | unprintable _ clean rendered surrogates =>
    constructor
    · rintro ⟨⟩
      exact ⟨_, _, rfl, clean, rendered, surrogates, rfl⟩
    · rintro ⟨o, t, ⟨⟩, -, hrendered, -, rfl⟩
      rw [rendered.unique hrendered]

/-- Without an escape a command succeeds or tells that it is aborted. -/
theorem exitCode_of_contained (h : i.Ends result report) (hcontained : report.escaped = none) :
    report.exitCode = 0 ∨ report.exitCode = 1 ∧ line "Aborted!" <:+ report.stderr := by
  cases h with
  | result => exact .inl rfl
  | nonconforming => exact .inr ⟨rfl, List.suffix_append _ _⟩
  | failure => exact .inr ⟨rfl, List.suffix_append _ _⟩
  | unprintable => cases hcontained

end Ends

theorem Prints.exitCode {report : Report} {t status : Text} {object : Entries}
    (h : Prints report t status object) :
    report.exitCode = 0 ∨ report.exitCode = 1 ∧ line "Aborted!" <:+ report.stderr := by
  by_cases hok : status = "ok"
  · exact .inl (h.succeeds.1 hok)
  · exact .inr (h.aborts hok)

section

variable [Host] [LawfulHost] (i : Invocation) (around : Surroundings)

theorem ends_run (hplain : i.options.jsonOutput = false) :
    i.Ends (i.call around) (i.run around) := by
  obtain ⟨log, hrun⟩ : ∃ log, i.run around = (i.perform around).1.report i.options log := ⟨_, rfl⟩
  have hfollows := i.follows_perform around
  have hmakes : ∀ p, (i.perform around).1 = .product p → i.Makes p := i.makes_perform
  rw [hrun, Ending.report_of_plain hplain]
  generalize (i.perform around).1 = ending at *
  generalize hcall : i.call around = result at *
  cases hfollows with
  | @product o p clean image =>
    obtain ⟨t, ht, hrenders⟩ := (hmakes p rfl).exists_renders (image ▸ isImage_call hcall clean)
    rw [image] at hrenders
    simp only [ht, Except.map]
    by_cases hsurrogates : (unstyled (line t)).NoSurrogates
    · rw [Report.success_of_noSurrogates hsurrogates]
      rw [noSurrogates_unstyled, noSurrogates_line] at hsurrogates
      exact .result _ clean hrenders hsurrogates
    · rw [Report.success_of_surrogates hsurrogates]
      rw [noSurrogates_unstyled, noSurrogates_line] at hsurrogates
      exact .unprintable _ clean hrenders hsurrogates
  | nonconforming found => exact .nonconforming log found
  | failure f => exact .failure log f

/-- **How commands end.** Let the files that a command line names be there, whatever is in them and on
standard input. With JSON output the command prints one object, as `Prints` and `Shows` say. Otherwise it
prints the text of its result, or tells all errors or the failure and that it is aborted (`Ends`). A failure
escapes exactly if the output is plain and the text of a result holds a surrogate. In all other cases the
command succeeds with exit code 0, or with exit code 1 it tells last that it is aborted. A command line that
names a directory, or a source that is not there, is refused before that. -/
theorem run_escapes_iff :
    (i.problem? around.files = none →
      (i.options.jsonOutput = true → ∃ t status object,
        Prints ((Request.invoke i).run around) t status object ∧
        Shows i.options.debug (i.call around) status object) ∧
      (i.options.jsonOutput = false → i.Ends (i.call around) ((Request.invoke i).run around)) ∧
      (∀ f, ((Request.invoke i).run around).escaped = some f ↔ i.options.jsonOutput = false ∧
        ∃ o t, i.call around = .ok o ∧ o.errors = [] ∧ i.Renders o.value t ∧ ¬ t.NoSurrogates ∧
          f = .unprintable (unstyled (line t))) ∧
      (((Request.invoke i).run around).escaped = none →
        ((Request.invoke i).run around).exitCode = 0 ∨
        ((Request.invoke i).run around).exitCode = 1 ∧
          line "Aborted!" <:+ ((Request.invoke i).run around).stderr)) ∧
    ∀ problem, i.problem? around.files = some problem →
      (Request.invoke i).run around = problem.report (some i.command) := by
  refine ⟨fun hfiles => ?_, fun problem hproblem => by rw [Request.run, hproblem]⟩
  have hrun : (Request.invoke i).run around = i.run around := by rw [Request.run, hfiles]
  rw [hrun]
  refine ⟨i.exists_prints around, i.ends_run around, ?_⟩
  cases hjson : i.options.jsonOutput with
  | true =>
    obtain ⟨t, status, object, hprints, -⟩ := i.exists_prints around hjson
    refine ⟨fun f => iff_of_false ?_ (fun h => by cases h.1), fun _ => hprints.exitCode⟩
    rw [hprints.contained]
    exact nofun
  | false =>
    have hends := i.ends_run around hjson
    exact ⟨fun f => (hends.escaped_iff f).trans (and_iff_right rfl).symm, hends.exitCode_of_contained⟩

end

/-- A decoder along a text, on standard input. -/
def loneInvocation : Invocation := ⟨.decode, "text.json", "-", ⟨false, false, false⟩⟩

/-- A text in a schema file, and on standard input a document that spells a surrogate by its escape. -/
def loneSurroundings : Surroundings :=
  ⟨⟨[("text.json", asciiBytes "\x7b\"type\":\"string\"\x7d")], []⟩, asciiBytes "\"\\ud800\"", none, none⟩

section

open Reference

/-- The document decodes, and a failure escapes: nothing is printed, neither the text nor that the command is
aborted. With JSON output the command succeeds. -/
theorem run_lone_escapes :
    loneInvocation.problem? loneSurroundings.files = none ∧
    (Request.invoke loneInvocation).run loneSurroundings =
      ⟨1, [], [], some (.unprintable [0x22, 0xD800, 0x22, 0x0A])⟩ ∧
    (Failure.unprintable [0x22, 0xD800, 0x22, 0x0A]).className = "UnicodeEncodeError" ∧
    ((Request.invoke { loneInvocation with options := ⟨false, true, false⟩ }).run loneSurroundings).exitCode =
      0 := by
  refine ⟨?_, ?_, rfl, ?_⟩ <;> decide +kernel

/-- The failure that escapes comes of the decoded text. -/
theorem run_escapes_iff_lone :
    loneInvocation.problem? loneSurroundings.files = none ∧
    ∃ o t, loneInvocation.call loneSurroundings = .ok o ∧ o.errors = [] ∧
      loneInvocation.Renders o.value t ∧ ¬ t.NoSurrogates ∧
      unstyled (line t) = [0x22, 0xD800, 0x22, 0x0A] := by
  have hfiles : loneInvocation.problem? loneSurroundings.files = none := by decide +kernel
  have hescaped : ((Request.invoke loneInvocation).run loneSurroundings).escaped =
      some (.unprintable [0x22, 0xD800, 0x22, 0x0A]) := by decide +kernel
  obtain ⟨-, -, hiff, -⟩ := (run_escapes_iff loneInvocation loneSurroundings).1 hfiles
  obtain ⟨-, o, t, hcall, hclean, hrenders, hsurrogates, htext⟩ := (hiff _).1 hescaped
  exact ⟨hfiles, o, t, hcall, hclean, hrenders, hsurrogates, (Failure.unprintable.inj htext).symm⟩

end

end Invocation

end DocShape
