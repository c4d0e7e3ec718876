import DocShape.Proofs.Command.Raises
import DocShape.Proofs.Json.Ascii

/-!
# JSON output

With JSON output a command prints one object, which tells what its call of the library gave
(`Invocation.jsonOutput_mirrors`). A schema that is well-formed and nests deeper than the host types shows
that a check can fail where neither loading nor a conversion does (`Invocation.jsonOutput_escapes_nested`).
-/

namespace DocShape

theorem Report.success_of_noSurrogates {t stderr : Text} (h : t.NoSurrogates) :
    success (.ok t) stderr = ⟨0, t, stderr, none⟩ := by
  have hnone : t.any CodePoint.isSurrogate = false :=
    List.any_eq_false.2 fun c hc => Bool.eq_false_iff.1 (h c hc)
  rw [success, hnone]
  rfl

theorem Ending.report_of_write [Host] {ending : Ending} {options : Options} {log t : Text}
    (hjson : options.jsonOutput = true)
    (ht : Json.write .ascii (ending.image options.debug) = .ok t) (hascii : t.IsAscii) :
    ending.report options log =
      match ending with
      | product _ => ⟨0, line t, log, none⟩
      | _ => ⟨1, line t, log ++ line "Aborted!", none⟩ := by
  have hline : (line t).IsAscii := Text.isAscii_append.2 ⟨hascii, by decide⟩
  rw [report, if_pos hjson, ht]
  cases ending with
  | product p => exact Report.success_of_noSurrogates hline.noSurrogates
  | nonconforming errors warnings => rfl
  | failure f => rfl

namespace Invocation

/-- The object that tells what a call of the library gave, and the status in it. -/
inductive Shows [Host] (debug : Bool) : Except Failure (Outcome Value) → Text → Entries → Prop
  | ok {o : Outcome Value} (clean : o.errors = []) :
    Shows debug (.ok o) "ok" [(.str "status", .str "ok"), (.str "result", o.value)]
  | failed {o : Outcome Value} (found : o.errors ≠ []) :
    Shows debug (.ok o) "failed"
      ((.str "status", .str "failed") :: diagnosticsImage o.errors o.warnings)
  | error (f : Failure) :
    Shows debug (.error f) "error"
      ([(.str "status", .str "error"), (.str "error", .str f.message)] ++
        if debug then [(.str "traceback", .str (Host.traceback f)), (.str "type", .str f.className)]
        else [])

namespace Shows

variable [Host] {debug : Bool} {result : Except Failure (Outcome Value)} {status : Text} {object : Entries}

theorem status_ok_iff (h : Shows debug result status object) :
    status = "ok" ↔ ∃ o, result = .ok o ∧ o.errors = [] := by
  cases h with
  | ok clean => exact iff_of_true rfl ⟨_, rfl, clean⟩
  | failed found =>
    refine iff_of_false (by decide) ?_
    rintro ⟨o, ho, hclean⟩
    exact found (Except.ok.inj ho ▸ hclean)
  | error f => exact iff_of_false (by decide) fun ⟨o, ho, _⟩ => by cases ho

theorem status_failed_iff (h : Shows debug result status object) :
    status = "failed" ↔ ∃ o, result = .ok o ∧ o.errors ≠ [] := by
  cases h with
  | ok clean =>
    refine iff_of_false (by decide) ?_
    rintro ⟨o, ho, hfound⟩
    exact hfound (Except.ok.inj ho ▸ clean)
  | failed found => exact iff_of_true rfl ⟨_, rfl, found⟩
  | error f => exact iff_of_false (by decide) fun ⟨o, ho, _⟩ => by cases ho

theorem status_error_iff (h : Shows debug result status object) :
    status = "error" ↔ ∃ f, result = .error f := by
  cases h with
  | ok clean => exact iff_of_false (by decide) fun ⟨f, hf⟩ => by cases hf
  | failed found => exact iff_of_false (by decide) fun ⟨f, hf⟩ => by cases hf
  | error f => exact iff_of_true rfl ⟨f, rfl⟩

end Shows

/-- A command prints the text `t` of one object and a newline, and ends as its status tells. -/
structure Prints (report : Report) (t status : Text) (object : Entries) : Prop where
  stdout : report.stdout = line t
  written : Json.write .ascii (.dict object) = .ok t
  /-- Where there is room for it, the object is read back, with pairs of surrogates joined and integer
  keys spelled out. -/
  read : ∀ nesting, (Value.dict object).depth ≤ nesting →
    Json.read .strict nesting t = .ok (Value.dict object).joined.spelled
  contained : report.escaped = none
  succeeds : status = "ok" ↔ report.exitCode = 0
  aborts : status ≠ "ok" → report.exitCode = 1 ∧ line "Aborted!" <:+ report.stderr

section

variable [Host] [LawfulHost] (i : Invocation) (around : Surroundings)

theorem exists_prints (hjson : i.options.jsonOutput = true) :
    ∃ t status object, Prints (i.run around) t status object ∧
      Shows i.options.debug (i.call around) status object := by
  obtain ⟨t, ht, hascii, hread⟩ :=
    Json.exists_ascii (i.isImage_image around i.options.debug).isPlain
      (i.isImage_image around i.options.debug).hasDigits
      (i.isImage_image around i.options.debug).keysJoined .strict
  have hfollows := i.follows_perform around
  obtain ⟨log, hrun⟩ : ∃ log, i.run around = (i.perform around).1.report i.options log := ⟨_, rfl⟩
  rw [Ending.report_of_write hjson ht hascii] at hrun
  generalize (i.perform around).1 = ending at *
  generalize i.call around = result at *
  rw [hrun]
  cases hfollows with
  | @product o p clean image =>
    have himage : (Ending.product p).image i.options.debug =
        .dict [(.str "status", .str "ok"), (.str "result", o.value)] := by
      rw [Ending.image, image]
    rw [himage] at ht hread
    exact ⟨t, _, _, ⟨rfl, ht, hread, rfl, iff_of_true rfl rfl, fun h => absurd rfl h⟩, .ok clean⟩
  | nonconforming found =>
    exact ⟨t, _, _, ⟨rfl, ht, hread, rfl, iff_of_false (by decide) Nat.one_ne_zero,
      fun _ => ⟨rfl, List.suffix_append log _⟩⟩, .failed found⟩
  | failure f =>
    exact ⟨t, _, _, ⟨rfl, ht, hread, rfl, iff_of_false (by decide) Nat.one_ne_zero,
      fun _ => ⟨rfl, List.suffix_append log _⟩⟩, .error f⟩

/-- A decoded value is no deeper than the host types, and is read back as it is, with its integer keys
spelled out. -/
theorem read_decoded {t status : Text} {object : Entries} (hi : i.command = .decode)
    (hprints : Prints (i.run around) t status object)
    (hshows : Shows i.options.debug (i.call around) status object) (hok : status = "ok") :
    ∃ v, object = [(.str "status", .str "ok"), (.str "result", .dict [(.str "value", v)])] ∧
      v.depth ≤ Host.guard ∧ ∀ nesting, v.depth + 2 ≤ nesting →
        Json.read .strict nesting t = .ok (.dict
          [(.str "status", .str "ok"), (.str "result", .dict [(.str "value", v.spelled)])]) := by
  generalize hcall : i.call around = result at hshows
  cases hshows with
  | @ok o clean =>
    obtain ⟨v, hv, hdecoded⟩ := exists_decoded hi hcall clean
    have hread := hprints.read
    rw [hv] at hread ⊢
    refine ⟨v, rfl, hdecoded.depth_le, fun nesting hroom => (hread nesting ?_).trans ?_⟩
    · simp only [Value.depth, Value.entriesDepth]
      omega
    · simp only [Value.joined_dict, Value.spelled_dict, List.map_cons, List.map_nil,
        Value.joined_eq_self hdecoded.isJoined]
      rfl
  | failed found => cases hok
  | error f => cases hok

/-- **JSON output mirrors the library.** Let a command be run with JSON output, on any files, any standard
input, and in either mode. Standard output is the text of one JSON object and a newline, and no failure
escapes. The object is that of what the call of the library gave: `ok` with the result if there are no
errors, `failed` with all errors and warnings in order if there are some, and `error` with the message of
the failure if there is no result. The exit code is 0 exactly if the status is `ok`; otherwise it is 1, and
standard error ends with the notice of the abort. A decoded value is read back as it is, with its integer
keys spelled out, and an encoded value has a text. With integers within the digit limit the call fails
exactly if the schema file cannot be loaded, if the schema is well-formed but nests deeper than the host
types, if the check before a conversion finds an error in the schema, if the source cannot be read as a
document or a value, or if the walk comes to a pattern that cannot be used. What the loader of YAML takes,
and how it words what it refuses, is the host's. -/
theorem jsonOutput_mirrors (hjson : i.options.jsonOutput = true) :
    (∃ t status object, Prints (i.run around) t status object ∧
      Shows i.options.debug (i.call around) status object ∧
      (status = "ok" ↔ ∃ o, i.call around = .ok o ∧ o.errors = []) ∧
      (status = "failed" ↔ ∃ o, i.call around = .ok o ∧ o.errors ≠ []) ∧
      (status = "error" ↔ ∃ f, i.call around = .error f) ∧
      (i.command = .decode → status = "ok" → ∃ v,
        object = [(.str "status", .str "ok"), (.str "result", .dict [(.str "value", v)])] ∧
        v.depth ≤ Host.guard ∧ ∀ nesting, v.depth + 2 ≤ nesting → Json.read .strict nesting t =
          .ok (.dict [(.str "status", .str "ok"), (.str "result", .dict [(.str "value", v.spelled)])])) ∧
      (i.command = .encode → status = "ok" → ∃ document, object =
        [(.str "status", .str "ok"), (.str "result", .dict [(.str "document", .str document)])])) ∧
    (i.HasShortInts around → ∀ f, i.call around = .error f ↔ i.Raises around f) := by
  obtain ⟨t, status, object, hprints, hshows⟩ := i.exists_prints around hjson
  refine ⟨⟨t, status, object, hprints, hshows, hshows.status_ok_iff, hshows.status_failed_iff,
    hshows.status_error_iff, fun hi hok => i.read_decoded around hi hprints hshows hok, ?encoded⟩,
    fun hints f => call_eq_error_iff hints⟩
  intro hi hok
  generalize hcall : i.call around = result at hshows
  cases hshows with
  | ok clean =>
    obtain ⟨document, hdocument⟩ := exists_encoded hi hcall clean
    exact ⟨document, by rw [hdocument]⟩
  | failed found => cases hok
  | error f => cases hok

end

/-- A decoder along the texts by number, on standard input. -/
def numberedInvocation : Invocation := ⟨.decode, "numbered.json", "-", ⟨false, true, false⟩⟩

/-- The texts by number as a document. -/
def numberedText : Text :=
  "\x7b\"type\":\"object\",\"key\":\"integer\",\"value\":\x7b\"type\":\"string\"\x7d\x7d"

/-- The bytes of an ASCII text. -/
def asciiBytes (t : Text) : List UInt8 := t.map fun c : CodePoint => UInt8.ofNat c.val

/-- The texts by number in a file, and one text on standard input. -/
def numberedSurroundings : Surroundings :=
  ⟨⟨[("numbered.json", asciiBytes numberedText)], []⟩, asciiBytes "\x7b\"7\":\"a\"\x7d", none, none⟩

section

open Reference

/-- The number is printed as a text, and nothing goes wrong. -/
theorem jsonOutput_mirrors_numbered :
    numberedInvocation.options.jsonOutput = true ∧
      numberedInvocation.HasShortInts numberedSurroundings ∧
      (∀ f, ¬ numberedInvocation.Raises numberedSurroundings f) ∧
      (numberedInvocation.run numberedSurroundings).exitCode = 0 ∧
      ∃ t, (numberedInvocation.run numberedSurroundings).stdout = line t ∧
        Json.read .strict 3 t = .ok (.dict [(.str "status", .str "ok"),
          (.str "result", .dict [(.str "value", .dict [(.str "7", .str "a")])])]) := by
  have hload : loadSchemaFile numberedSurroundings.files "numbered.json" = .ok numberedRaw := by
    have hfile : numberedSurroundings.files.lookup "numbered.json" =
        .file (asciiBytes numberedText) := by decide +kernel
    have htext : textOfFile (asciiBytes numberedText) = .ok numberedText := by decide +kernel
    have hformat : Format.ofPath "numbered.json" = .ok .json := by decide +kernel
    exact loadSchemaFile_of_file hfile hformat htext (by cbv)
  have hsource : numberedInvocation.sourceText numberedSurroundings = .ok "\x7b\"7\":\"a\"\x7d" := by
    decide +kernel
  have hread : Json.read .strict Host.nesting "\x7b\"7\":\"a\"\x7d" =
      .ok (.dict [(.str "7", .str "a")]) := by cbv
  have hgiven : numberedInvocation.given numberedSurroundings .decoding =
      .ok (.dict [(.str "7", .str "a")]) := by
    have hparse : parseDocument (.str "\x7b\"7\":\"a\"\x7d") = .ok (.dict [(.str "7", .str "a")]) := by
      rw [parseDocument, hread]
      rfl
    rw [given, hsource]
    exact hparse
  have hvalidator : Validator.ofFile numberedSurroundings.files "numbered.json" =
      .ok ⟨numberedSchema⟩ := by
    have hwalk : settle .failFast (Grammar.block [] numberedRaw) = ⟨[], [], none⟩ := by
      decide +kernel
    rw [Validator.ofFile, hload]
    show Validator.ofRaw numberedRaw = _
    rw [Validator.ofRaw, checkSchema_of_walk (rfl : parseSchema numberedRaw = .ok numberedSchema) hwalk]
    rfl
  have hclean : numberedSchema.convert .decoding [] (.dict [(.str "7", .str "a")]) =
      ⟨.dict [(.int 7, .str "a")], []⟩ := by cbv
  have hdecode := decodeDocument_of_clean .failFast hread hclean
  have hcall : numberedInvocation.call numberedSurroundings =
      .ok ⟨.dict [(.str "value", .dict [(.int 7, .str "a")])], [], []⟩ := by
    exact call_of_decode numberedInvocation numberedSurroundings rfl hvalidator hsource hdecode
  have hints : numberedInvocation.HasShortInts numberedSurroundings := by
    refine ⟨fun raw hraw => ?_, fun _ data hdata => ?_, fun h => by cases h⟩
    · obtain rfl := Except.ok.inj (hload.symm.trans hraw)
      simp [numberedRaw]
    · obtain rfl := Except.ok.inj (hgiven.symm.trans hdata)
      refine ⟨fun e he n hn => ?_, fun x hx => ?_⟩
      · obtain rfl := List.mem_singleton.1 he
        exact Text.hasDigits_of_length (Value.str.inj hn ▸ by decide)
      · obtain rfl := List.mem_singleton.1 hx
        exact .leaf trivial rfl
  obtain ⟨⟨t, status, object, hprints, hshows, hok, -, -, hdecoded, -⟩, hraises⟩ :=
    jsonOutput_mirrors numberedInvocation numberedSurroundings rfl
  have hstatus : status = "ok" := hok.2 ⟨_, hcall, rfl⟩
  obtain ⟨v, hobject, -, hprinted⟩ := hdecoded rfl hstatus
  have hv : v = .dict [(.int 7, .str "a")] := by
    clear hdecoded hraises
    rw [hcall] at hshows
    cases hshows with
    | ok clean =>
      simp only [List.cons.injEq, Prod.mk.injEq, Value.dict.injEq, true_and, and_true] at hobject
      exact hobject.symm
    | failed found => cases hstatus
  rw [hv] at hprinted
  refine ⟨rfl, hints, fun f hf => ?_, hprints.succeeds.1 hstatus, t, hprints.stdout,
    hprinted 3 (by decide)⟩
  cases hcall.symm.trans ((hraises hints f).2 hf)

end

end Invocation

/-! ## A schema that nests too deep -/

theorem isImage_nestedRaw (n : Nat) : (nestedRaw n).IsImage := by
  have hnone : ∀ e ∈ ([] : Entries), e.2.IsImage := fun e he => absurd he List.not_mem_nil
  induction n with
  | zero =>
    exact .record ["type"] rfl (by decide) (by decide) (List.forall_mem_cons.2 ⟨.of_str _, hnone⟩)
  | succ n ih =>
    refine .record ["type", "value"] rfl (by decide) (by decide) ?_
    exact List.forall_mem_cons.2 ⟨.of_str _, List.forall_mem_cons.2 ⟨ih, hnone⟩⟩

/-- There is nothing to join or to spell out in a flag in its arrays. -/
theorem spelled_joined_nestedRaw (n : Nat) : (nestedRaw n).joined.spelled = nestedRaw n := by
  induction n with
  | zero => rfl
  | succ n ih =>
    show (Value.dict [(.str "type", .str "array"), (.str "value", nestedRaw n)]).joined.spelled = _
    simp only [Value.joined_dict, Value.spelled_dict, List.map_cons, List.map_nil, ih]
    rfl

theorem depth_nestedRaw (n : Nat) : (nestedRaw n).depth = n + 1 := by
  induction n with
  | zero => rfl
  | succ n ih =>
    show (Value.dict [(.str "type", .str "array"), (.str "value", nestedRaw n)]).depth = _
    simp [Value.depth, Value.entriesDepth, ih]

namespace Invocation

/-- A validator of one file. -/
def nestedInvocation : Invocation := ⟨.validate, "nested.json", "-", ⟨true, true, false⟩⟩

/-- That file with a text. -/
def nestedSurroundings (t : Text) : Surroundings :=
  ⟨⟨[("nested.json", t.flatMap Encoding.utf8Bytes)], []⟩, [], none, none⟩

section

variable [Host]

/-- What is written of the flag in its arrays is loaded as it. -/
theorem loadSchemaFile_nestedSurroundings {n : Nat} {t : Text}
    (ht : Json.write .ascii (nestedRaw n) = .ok t) (hn : n < Host.nesting) :
    loadSchemaFile (nestedSurroundings t).files "nested.json" = .ok (nestedRaw n) := by
  have himage := isImage_nestedRaw n
  obtain ⟨t', ht', hascii, hread⟩ :=
    Json.exists_ascii himage.isPlain himage.hasDigits himage.keysJoined .relaxed
  obtain rfl := Except.ok.inj (ht'.symm.trans ht)
  have hfile : (nestedSurroundings t').files.lookup "nested.json" =
      .file (t'.flatMap Encoding.utf8Bytes) := rfl
  have hformat : Format.ofPath "nested.json" = .ok .json := by decide +kernel
  have htext : textOfFile (t'.flatMap Encoding.utf8Bytes) = .ok t' :=
    textOfFile_bytes hascii.noSurrogates fun c hc =>
      (Json.written_text _ ht' c hc).ne_of_control (by decide) (by decide)
  refine loadSchemaFile_of_file hfile hformat htext (Except.mapError_eq_ok.2 ?_)
  rw [hread Host.nesting (by rw [depth_nestedRaw]; exact hn), spelled_joined_nestedRaw]

end

section

open Reference

/-- A well-formed schema in a file, and a command that prints that it cannot be performed. -/
theorem jsonOutput_escapes_nested :
    nestedInvocation.command = .validate ∧ nestedInvocation.options.jsonOutput = true ∧
      ∃ t, Json.write .ascii (nestedRaw 254) = .ok t ∧
        loadSchemaFile (nestedSurroundings t).files "nested.json" = .ok (nestedRaw 254) ∧
        (nestedRaw 254).ShortInts ∧ (nestedRaw 254).IsSchema ∧
        ∃ s object, Prints (nestedInvocation.run (nestedSurroundings t)) s "error" object := by
  obtain ⟨t, ht⟩ : ∃ t, Json.text .ascii 0 (nestedRaw 254) = .ok t :=
    Json.text_total _ 0 (isImage_nestedRaw 254).isPlain (isImage_nestedRaw 254).hasDigits
      (Json.hasRoom_of_unlimited rfl)
  have hload := loadSchemaFile_nestedSurroundings ht (by decide)
  refine ⟨rfl, rfl, t, ht, hload, shortInts_nestedRaw 254, (typedAs_nestedRaw 254).isSchema, ?_⟩
  obtain ⟨fault, -, hcheck⟩ :=
    exists_checkSchema_of_deep (typedAs_nestedRaw 254) (by rw [depth_nestedBlock]; decide)
  have hcall : nestedInvocation.call (nestedSurroundings t) =
      .error (.complaint (.violation [] (.untyped fault))) :=
    (call_validate_eq_error_iff rfl).2 (.inr ⟨_, hload, hcheck _⟩)
  obtain ⟨s, status, object, hprints, hshows⟩ :=
    nestedInvocation.exists_prints (nestedSurroundings t) rfl
  rw [hcall] at hshows
  cases hshows with
  | error f => exact ⟨s, _, hprints⟩

end

end Invocation

end DocShape
