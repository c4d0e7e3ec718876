import DocShape.Proofs.Command.Calls
import DocShape.Proofs.Conversion.Joined
import DocShape.Proofs.Document.Saved
import DocShape.Proofs.Json.Documents
import DocShape.Proofs.Loading
import DocShape.Proofs.Text.Bytes

/-!
# What commands have to print

A value is an image if it can be written in ASCII and read back (`Value.IsImage`). Whatever a call of the
library gives a command to tell, the object for it is an image (`Ending.isImage_image`). What a decoder
gives has joined texts too and is no deeper than the host types, so that it is read back unchanged
(`Invocation.exists_decoded`).
-/

namespace DocShape

/-! ## Images -/

namespace Value

/-- At one place a value can be written in ASCII and read back. -/
def ImageNode (v : Value) : Prop :=
  v.PlainNode ∧ v.IntDigitsNode ∧ v.KeyDigitsNode ∧ v.KeysJoinedNode

/-- A value can be written in ASCII and read back. -/
def IsImage : Value → Prop := Everywhere ImageNode

namespace IsImage

variable {v : Value}

theorem isPlain (h : v.IsImage) : v.IsPlain := h.mono fun _ hv => hv.1

theorem hasDigits (h : v.IsImage) : v.HasDigits := h.mono fun _ hv => ⟨hv.2.1, hv.2.2.1⟩

theorem keysJoined (h : v.IsImage) : v.KeysJoined := h.mono fun _ hv => hv.2.2.2

theorem of_bool (b : Bool) : (bool b).IsImage := .leaf ⟨trivial, trivial, trivial, trivial⟩ rfl

theorem of_str (t : Text) : (str t).IsImage := .leaf ⟨trivial, trivial, trivial, trivial⟩ rfl

theorem of_list {xs : List Value} (h : ∀ x ∈ xs, x.IsImage) : (list xs).IsImage :=
  ⟨⟨trivial, trivial, trivial, trivial⟩, h⟩

/-- A dictionary with different names for its keys. -/
theorem record {es : Entries} (names : List Text) (hkeys : es.map Prod.fst = names.map str)
    (hapart : names.Nodup) (hnames : names.all Text.isName = true)
    (h : ∀ e ∈ es, e.2.IsImage) : (dict es).IsImage := by
  have hkey : ∀ e ∈ es, ∃ name ∈ names, e.1 = str name := fun e he => by
    have hmem : e.1 ∈ es.map Prod.fst := List.mem_map_of_mem he
    rw [hkeys] at hmem
    obtain ⟨name, hname, heq⟩ := List.mem_map.1 hmem
    exact ⟨name, hname, heq.symm⟩
  have hspelled : es.map (fun e => e.1.spelledKey) = names.map str := by
    rw [← hkeys]
    refine List.map_congr_left fun e he => ?_
    obtain ⟨name, -, hname⟩ := hkey e he
    rw [hname]
    rfl
  refine ⟨⟨⟨fun e he => ?_, ?_⟩, trivial, fun e he n hn => ?_, fun e he t ht => ?_⟩, fun x hx => ?_⟩
  · obtain ⟨name, -, hname⟩ := hkey e he
    exact ⟨name, by rw [hname]; rfl⟩
  · rw [hspelled]
    exact hapart.map fun s t hst => str.inj hst
  · obtain ⟨name, -, hname⟩ := hkey e he
    cases hname.symm.trans hn
  · obtain ⟨name, hmem, hname⟩ := hkey e he
    exact Value.str.inj (hname.symm.trans ht) ▸ Text.IsName.isJoined (List.all_eq_true.1 hnames name hmem)
  · obtain ⟨e, he, rfl⟩ := List.mem_map.1 hx
    exact h e he

end IsImage

end Value

/-! ## What the objects hold -/

theorem Invocation.isImage_diagnosticImage (path : Path) (message : Text) :
    (diagnosticImage path message).IsImage := by
  refine .record ["path", "location", "message"] rfl (by decide) (by decide) ?_
  simp only [List.forall_mem_cons]
  refine ⟨.of_list (List.forall_mem_map.2 fun s _ => .of_str _), .of_str _, .of_str _, ?_⟩
  exact fun e he => absurd he List.not_mem_nil

theorem Invocation.isImage_diagnostics (errors : List Complaint) (warnings : List Warning) :
    ∀ e ∈ diagnosticsImage errors warnings, e.2.IsImage := by
  simp only [diagnosticsImage, List.forall_mem_cons]
  refine ⟨.of_list (List.forall_mem_map.2 fun c _ => isImage_diagnosticImage c.path c.message),
    .of_list (List.forall_mem_map.2 fun w _ => isImage_diagnosticImage w.path w.message), ?_⟩
  exact fun e he => absurd he List.not_mem_nil

/-- The object for an ending is an image, if the image of a product is. -/
theorem Ending.isImage_image [Host] {ending : Ending} (debug : Bool)
    (h : ∀ p, ending = .product p → p.image.IsImage) : (ending.image debug).IsImage := by
  have hnone : ∀ e ∈ ([] : Entries), e.2.IsImage := fun e he => absurd he List.not_mem_nil
  cases ending with
  | product p =>
    refine .record ["status", "result"] rfl (by decide) (by decide) ?_
    exact List.forall_mem_cons.2 ⟨.of_str _, List.forall_mem_cons.2 ⟨h p rfl, hnone⟩⟩
  | nonconforming errors warnings =>
    refine .record ["status", "errors", "warnings"] rfl (by decide) (by decide) ?_
    exact List.forall_mem_cons.2 ⟨.of_str _, Invocation.isImage_diagnostics errors warnings⟩
  | failure f =>
    cases debug with
    | true =>
      refine .record ["status", "error", "traceback", "type"] rfl (by decide) (by decide) ?_
      simp only [↓reduceIte, List.cons_append, List.nil_append, List.forall_mem_cons]
      exact ⟨.of_str _, .of_str _, .of_str _, .of_str _, hnone⟩
    | false =>
      refine .record ["status", "error"] rfl (by decide) (by decide) ?_
      exact List.forall_mem_cons.2 ⟨.of_str _, List.forall_mem_cons.2 ⟨.of_str _, hnone⟩⟩

/-! ## Texts of files -/

theorem Text.noSurrogates_withNewlines {t : Text} (h : t.NoSurrogates) :
    t.withNewlines.NoSurrogates := by
  have hnewline : (CodePoint.ofChar '\n').isSurrogate = false := by decide
  induction t using withNewlines.induct with
  | case1 => exact h
  | case2 more ih =>
    obtain ⟨-, hrest⟩ := List.forall_mem_cons.1 h
    rw [withNewlines, if_pos rfl]
    exact List.forall_mem_cons.2 ⟨hnewline, ih (List.forall_mem_cons.1 hrest).2⟩
  | case3 d more hd ih =>
    rw [withNewlines.eq_def]
    simp only [↓reduceIte, if_neg hd]
    exact List.forall_mem_cons.2 ⟨hnewline, ih (List.forall_mem_cons.1 h).2⟩
  | case4 => exact List.forall_mem_singleton.2 hnewline
  | case5 c rest hc ih =>
    obtain ⟨hfirst, hrest⟩ := List.forall_mem_cons.1 h
    rw [withNewlines.eq_def]
    simp only [if_neg hc]
    exact List.forall_mem_cons.2 ⟨hfirst, ih hrest⟩

theorem noSurrogates_textOfFile {content : List UInt8} {t : Text} (h : textOfFile content = .ok t) :
    t.NoSurrogates := by
  cases hu : Encoding.utf8Text content with
  | error fault =>
    rw [textOfFile, hu] at h
    cases h
  | ok u =>
    rw [textOfFile, hu] at h
    exact Except.ok.inj h ▸ Text.noSurrogates_withNewlines (Encoding.noSurrogates_utf8Text hu)

theorem Text.withNewlines_eq_self {t : Text} (h : ∀ c ∈ t, c ≠ CodePoint.ofChar '\r') :
    t.withNewlines = t := by
  induction t with
  | nil => rfl
  | cons c rest ih =>
    obtain ⟨hc, hrest⟩ := List.forall_mem_cons.1 h
    rw [withNewlines.eq_def]
    simp only [if_neg hc]
    rw [ih hrest]

/-- A text with newlines for its line ends is read from its bytes. -/
theorem textOfFile_bytes {t : Text} (ht : t.NoSurrogates) (h : ∀ c ∈ t, c ≠ CodePoint.ofChar '\r') :
    textOfFile (t.flatMap Encoding.utf8Bytes) = .ok t := by
  rw [textOfFile, Encoding.utf8Text_bytes ht]
  exact congrArg Except.ok (Text.withNewlines_eq_self h)

theorem Invocation.noSurrogates_sourceText {i : Invocation} {around : Surroundings} {t : Text}
    (h : i.sourceText around = .ok t) : t.NoSurrogates := by
  unfold sourceText at h
  split at h
  · exact noSurrogates_textOfFile h
  · split at h
    · exact noSurrogates_textOfFile h
    · cases h

/-! ## Schemas of files -/

section

variable [Host] [LawfulHost]

theorem Validator.exists_checked {files : Files} {path : Text} {validator : Validator}
    (h : ofFile files path = .ok validator) :
    ∃ raw o, loadSchemaFile files path = .ok raw ∧ raw.Keyed ∧
      checkSchema raw .failFast = .ok o ∧ o.value = some validator.schema := by
  obtain ⟨raw, hload, hraw⟩ := Except.bind_eq_ok.1 h
  have hkeyed : raw.Keyed := keyed_loadSchemaFile files path raw hload
  obtain ⟨o, ho, hchecked⟩ := Except.bind_eq_ok.1 hraw
  obtain ⟨block?, hfirst, hvalidator⟩ := Except.bind_eq_ok.1 hchecked
  have herrors : o.errors = [] ∧ o.value = block? := by
    unfold Outcome.orFirstError at hfirst
    split at hfirst
    · next herrors => exact ⟨herrors, Except.ok.inj hfirst⟩
    · cases hfirst
  obtain ⟨S, hS⟩ := Option.isSome_iff_exists.1 ((isSome_value_iff hkeyed ho).2 herrors.1)
  rw [← herrors.2, hS] at hvalidator
  obtain rfl : ⟨S⟩ = validator := Except.ok.inj hvalidator
  exact ⟨raw, o, hload, hkeyed, ho, hS⟩

/-- The schema of a file is checked. -/
theorem Validator.isChecked {files : Files} {path : Text} {validator : Validator}
    (h : ofFile files path = .ok validator) : validator.schema.IsChecked := by
  obtain ⟨raw, o, -, hkeyed, ho, hS⟩ := exists_checked h
  exact ⟨raw, .failFast, o, hkeyed, ho, hS⟩

theorem Validator.exists_typedAs {files : Files} {path : Text} {validator : Validator}
    (h : ofFile files path = .ok validator) :
    ∃ raw, loadSchemaFile files path = .ok raw ∧ raw.Keyed ∧ raw.TypedAs validator.schema := by
  obtain ⟨raw, o, hload, hkeyed, ho, hS⟩ := exists_checked h
  exact ⟨raw, hload, hkeyed, (typedAs_of_checkSchema hkeyed ho hS).1⟩

end

/-! ## Products -/

theorem Converted.value_of_outcome {c : Converted} {mode : Mode} {o : Outcome Value}
    (h : c.outcome mode = .ok o) (hclean : o.errors = []) : o.value = c.value := by
  simp only [outcome] at h
  split at h
  · cases h
  · obtain rfl := Except.ok.inj h
    simp [show (settle mode c.findings).errors = [] from hclean]

/-- What a decoder gives can be printed: it is an image, its texts are joined, and it is no deeper than
the host types. -/
structure Value.IsDecoded [Host] (v : Value) : Prop where
  isImage : v.IsImage
  isJoined : v.IsJoined
  depth_le : v.depth ≤ Host.guard

section

variable [Host] [LawfulHost]

theorem isDecoded_decodeDocument {S : Block} (hS : S.IsChecked) {t : Text} (ht : t.NoSurrogates)
    {mode : Mode} {o : Outcome Value} (ho : decodeDocument (.str t) S mode = .ok o)
    (hclean : o.errors = []) : o.value.IsDecoded := by
  obtain ⟨raw, hraw⟩ := hS.exists_typedAs
  obtain ⟨data, hdata, hconvert⟩ := Except.bind_eq_ok.1 ho
  have hread : Json.read .strict Host.nesting t = .ok data := Except.mapError_eq_ok.1 hdata
  have hkeyed : data.Keyed := (Json.isDocument_of_read hread).keyed
  have hints : data.IntDigits := (Json.hasDigits_of_read hread).mono fun _ h => h.1
  have hjoined : (S.saved .decoding data).IsJoined :=
    Block.isJoined_saved (Value.wellNamed_of_typedAs hraw) (Json.isJoined_of_read ht hread)
  have hsaved := S.everywhere_savedNode (d := .decoding) hS.fieldsApart hkeyed
  rw [Block.conversion_eq] at hconvert
  rw [Converted.value_of_outcome hconvert hclean]
  refine ⟨?_, hjoined, (S.depth_saved_le .decoding data).trans hS.depth_le⟩
  refine ((hsaved.and (S.intDigits_saved hints)).and hjoined.keysJoined).mono fun u hu => ?_
  exact ⟨hu.1.1.plainNode, hu.1.2, hu.1.1.keyDigitsNode, hu.2⟩

end

namespace Invocation

variable [Host] {i : Invocation} {around : Surroundings} {o : Outcome Value}

/-- What an encoder gives is under `document`. -/
theorem exists_encoded (hi : i.command = .encode) (h : i.call around = .ok o)
    (hclean : o.errors = []) : ∃ t, o.value = .dict [(.str "document", .str t)] := by
  rw [call, hi] at h
  obtain ⟨validator, hvalidator, h⟩ := Except.bind_eq_ok.1 h
  obtain ⟨t, ht, h⟩ := Except.bind_eq_ok.1 h
  obtain ⟨v, hv, h⟩ := Except.bind_eq_ok.1 h
  obtain ⟨o', ho', h⟩ := Except.bind_eq_ok.1 h
  obtain rfl := Except.ok.inj h
  obtain ⟨document, hdocument⟩ := exists_text_of_encodeDocument ho' hclean
  exact ⟨document, by rw [hdocument]; rfl⟩

variable [LawfulHost]

/-- What a decoder gives is under `value`. -/
theorem exists_decoded (hi : i.command = .decode) (h : i.call around = .ok o)
    (hclean : o.errors = []) :
    ∃ v, o.value = .dict [(.str "value", v)] ∧ v.IsDecoded := by
  obtain ⟨validator, t, o', hvalidator, ht, ho', rfl⟩ := exists_decode_of_call hi h
  exact ⟨o'.value, rfl, isDecoded_decodeDocument (Validator.isChecked hvalidator)
    (noSurrogates_sourceText ht) ho' hclean⟩

/-- The result of a command is an image. -/
theorem isImage_call (h : i.call around = .ok o) (hclean : o.errors = []) : o.value.IsImage := by
  have hnone : ∀ e ∈ ([] : Entries), e.2.IsImage := fun e he => absurd he List.not_mem_nil
  cases hi : i.command with
  | validate =>
    rw [call, hi] at h
    obtain ⟨raw, -, h⟩ := Except.bind_eq_ok.1 h
    obtain ⟨o', -, h⟩ := Except.bind_eq_ok.1 h
    obtain rfl := Except.ok.inj h
    refine .record ["valid", "errors", "warnings"] rfl (by decide) (by decide) ?_
    exact List.forall_mem_cons.2 ⟨.of_bool true, isImage_diagnostics o'.errors o'.warnings⟩
  | decode =>
    obtain ⟨v, hv, hdecoded⟩ := exists_decoded hi h hclean
    rw [hv]
    exact .record ["value"] rfl (by decide) (by decide)
      (List.forall_mem_cons.2 ⟨hdecoded.isImage, hnone⟩)
  | encode =>
    obtain ⟨t, ht⟩ := exists_encoded hi h hclean
    rw [ht]
    exact .record ["document"] rfl (by decide) (by decide)
      (List.forall_mem_cons.2 ⟨.of_str t, hnone⟩)

/-- The object that a command prints is an image. -/
theorem isImage_image (i : Invocation) (around : Surroundings) (debug : Bool) :
    ((i.perform around).1.image debug).IsImage := by
  refine Ending.isImage_image debug fun p hp => ?_
  have hfollows := i.follows_perform around
  rw [hp] at hfollows
  generalize hcall : i.call around = result at hfollows
  cases hfollows with
  | product clean image =>
    rw [image]
    exact isImage_call hcall clean

end Invocation

end DocShape
