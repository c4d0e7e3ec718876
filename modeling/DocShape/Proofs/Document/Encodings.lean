import DocShape.Proofs.Document.Codec
import DocShape.Proofs.Document.Failures
import DocShape.Proofs.Json.Characters

/-!
# Documents in bytes

What a text is read as, its bytes are read as, in every encoding and with or without a byte order mark
(`parseDocument_bytes`): the encoding of a text that can be read shows in its first bytes. So a document
decodes alike as a text and as bytes. Bytes that are no document are told as that, unless too many brackets
open in their text (`encoding_never_matters`).
-/

namespace DocShape

section

variable [Host]

/-- The bytes of a text are read as the text is. -/
theorem parseDocument_bytes {t : Text} {v : Value} (ht : t.NoSurrogates)
    (h : parseDocument (.str t) = .ok v) (scheme : Encoding.Scheme) (marked : Bool) :
    parseDocument (.bytes (scheme.bytes marked t)) = .ok v := by
  have hread : Json.read .strict Host.nesting t = .ok v := Except.mapError_eq_ok.1 h
  have hdecode : Encoding.decode (scheme.bytes marked t) = .ok t :=
    Encoding.decode_bytes scheme marked (Json.showsEncoding_of_read hread) ht
  rw [Json.read] at hread
  split at hread
  · cases hread
  · rw [parseDocument, Json.readBytes, hdecode]
    exact Except.mapError_eq_ok.2 hread

/-- A document is decoded along what it is read as. -/
theorem GivenSchema.decode_congr {document document' : Value}
    (h : parseDocument document = parseDocument document') (schema : GivenSchema) (mode : Mode) :
    schema.decode document mode = schema.decode document' mode := by
  simp only [decode, decodeDocument, h]

/-- Bytes are refused as too deep only where more brackets open in their text than the host allows. -/
theorem openings_of_parseDocument_bytes {bytes : List UInt8} {container : Json.Container}
    (h : parseDocument (.bytes bytes) = .error (.unreadable (.tooDeep container))) :
    ∃ t, Encoding.decode bytes = .ok t ∧ Host.nesting < Json.openings t := by
  obtain ⟨fault, hfault, htold⟩ := Except.mapError_eq_error.1 h
  obtain rfl := Failure.unreadable.inj htold
  rw [Json.readBytes] at hfault
  split at hfault
  · cases hfault
  · next t ht =>
    obtain ⟨raw, hraw, hlocate⟩ := Except.mapError_eq_error.1 hfault
    cases raw with
    | tooDeep container => exact ⟨t, ht, Json.openings_of_whole hraw⟩
    | _ => cases hlocate

/-- **The encoding of a document does not matter.** The bytes of a text that can be read are read as the
same value, in UTF-8, UTF-16 and UTF-32, of either byte order and with or without a byte order mark, and
they decode as the text does along every schema and in either mode. Whatever bytes are given, they are read
as a value, or are told to be no document, or are refused as too deep; then more brackets open in their
text than the host allows, but for the headroom. -/
theorem encoding_never_matters :
    (∀ (t : Text) (v : Value), t.NoSurrogates → parseDocument (.str t) = .ok v →
      ∀ (scheme : Encoding.Scheme) (marked : Bool),
        parseDocument (.bytes (scheme.bytes marked t)) = .ok v ∧
        ∀ (schema : GivenSchema) (mode : Mode),
          schema.decode (.bytes (scheme.bytes marked t)) mode = schema.decode (.str t) mode) ∧
    ∀ bytes : List UInt8, (∃ v, parseDocument (.bytes bytes) = .ok v) ∨
      ∃ fault, parseDocument (.bytes bytes) = .error (.unreadable fault) ∧
        ((Failure.unreadable fault).className = "ParseError" ∨
          ((Failure.unreadable fault).className = "RecursionError" ∧
            ∃ t, Encoding.decode bytes = .ok t ∧ Host.nesting < Json.openings t + Json.headroom)) := by
  refine ⟨fun t v ht h scheme marked => ?_, fun bytes => ?_⟩
  · have hbytes := parseDocument_bytes ht h scheme marked
    exact ⟨hbytes, GivenSchema.decode_congr (hbytes.trans h.symm)⟩
  · cases hparse : parseDocument (.bytes bytes) with
    | ok v => exact .inl ⟨v, rfl⟩
    | error f =>
      obtain ⟨fault, rfl⟩ := unreadable_of_parseDocument (.inr ⟨bytes, rfl⟩) hparse
      refine .inr ⟨fault, rfl, ?_⟩
      cases fault with
      | tooDeep container =>
        obtain ⟨t, ht, hopenings⟩ := openings_of_parseDocument_bytes hparse
        exact .inr ⟨rfl, t, ht, Nat.lt_add_right _ hopenings⟩
      | _ => exact .inl rfl

end

theorem mem_openBrackets {n : Nat} {c : CodePoint} (h : c ∈ openBrackets n) : c = .ofChar '[' :=
  List.eq_of_mem_replicate h

theorem showsEncoding_openBrackets {n : Nat} (h : 0 < n) : (openBrackets n).ShowsEncoding := by
  obtain ⟨n, rfl⟩ := Nat.exists_eq_add_one.2 h
  refine ⟨⟨.ofChar '[', rfl, by decide⟩, fun c hc => ?_⟩
  rw [mem_openBrackets hc]
  decide

theorem noSurrogates_openBrackets (n : Nat) : (openBrackets n).NoSurrogates := fun c hc => by
  rw [mem_openBrackets hc]
  decide

section

open Reference

/-- A list of characters of one to four bytes, the last outside the basic plane, in all ten encodings. -/
theorem encoding_never_matters_planes :
    (Text.NoSurrogates "[\"aé€😀\"]" ∧
      parseDocument (.str "[\"aé€😀\"]") = .ok (.list [.str "aé€😀"])) ∧
    ∀ (scheme : Encoding.Scheme) (marked : Bool),
      parseDocument (.bytes (scheme.bytes marked "[\"aé€😀\"]")) = .ok (.list [.str "aé€😀"]) := by
  have ht : Text.NoSurrogates "[\"aé€😀\"]" := by decide
  have hread : parseDocument (.str "[\"aé€😀\"]") = .ok (.list [.str "aé€😀"]) := rfl
  exact ⟨⟨ht, hread⟩, fun scheme marked =>
    (encoding_never_matters.1 _ _ ht hread scheme marked).1⟩

/-- Bytes that are neither read as a value nor told to be no document: in whatever encoding, their brackets
only open. -/
theorem parseDocument_escapes_bracketBytes :
    (∀ (scheme : Encoding.Scheme) (marked : Bool),
      parseDocument (.bytes (scheme.bytes marked (openBrackets 1000))) =
        .error (.unreadable (.tooDeep .array))) ∧
      (Failure.unreadable (.tooDeep .array)).className = "RecursionError" := by
  refine ⟨fun scheme marked => ?_, rfl⟩
  have hdecode : Encoding.decode (scheme.bytes marked (openBrackets 1000)) = .ok (openBrackets 1000) :=
    Encoding.decode_bytes scheme marked (showsEncoding_openBrackets (by decide))
      (noSurrogates_openBrackets 1000)
  rw [parseDocument, Json.readBytes, hdecode]
  simp only [Json.whole_openBrackets (show Host.nesting < 1000 by decide)]
  rfl

end

end DocShape
