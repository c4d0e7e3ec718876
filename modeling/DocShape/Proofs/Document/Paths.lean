import DocShape.Proofs.Conversion.Paths
import DocShape.Proofs.Document.Failures
import DocShape.Proofs.Schema.Paths

/-!
# Locations tell paths

A caller is shown the location of an error or a warning, which is its path as one text. All that a check
reports on any schema, and all that a conversion reports along an accepted one, is at paths of names; so
the location tells the path, and which of the diagnostics of a call are at one place
(`location_determines_path`).
-/

namespace DocShape

/-- The paths of all errors and warnings that an operation reports. An error that is raised is
reported too. -/
def reportedPaths {α : Type} : Except Failure (Outcome α) → List Path
  | .ok o => o.errors.map Complaint.path ++ o.warnings.map Warning.path
  | .error (.complaint c) => [c.path]
  | .error _ => []

/-- The locations of what an operation reports tell the paths. -/
structure TellsPaths {α : Type} (result : Except Failure (Outcome α)) : Prop where
  segments : ∀ path ∈ reportedPaths result, ∀ s ∈ path,
    s.text ≠ [] ∧ CodePoint.ofChar '.' ∉ s.text
  split : ∀ path ∈ reportedPaths result, path.location ≠ "<root>" →
    Text.splitOn '.' path.location = path.map Segment.text
  root : ∀ path ∈ reportedPaths result, path.location = "<root>" ↔ path = []
  apart : ∀ path ∈ reportedPaths result, ∀ path' ∈ reportedPaths result,
    path.location = path'.location → path = path'

variable {mode : Mode}

/-- Paths of names are told by their locations. -/
theorem TellsPaths.of_named {α : Type} {result : Except Failure (Outcome α)}
    (h : ∀ path ∈ reportedPaths result, path.IsNamed) : TellsPaths result where
  segments path hpath s hs :=
    ⟨Segment.text_ne_nil (h path hpath s hs), Segment.point_notMem_text (h path hpath s hs)⟩
  split path hpath hne :=
    Path.splitOn_location (h path hpath) fun hnil =>
      hne ((Path.location_eq_root_iff (h path hpath)).2 hnil)
  root path hpath := Path.location_eq_root_iff (h path hpath)
  apart path hpath path' hpath' := Path.location_inj (h path hpath) (h path' hpath')

theorem TellsPaths.congr {α β : Type} {result : Except Failure (Outcome α)}
    {result' : Except Failure (Outcome β)} (h : TellsPaths result)
    (hpaths : reportedPaths result' = reportedPaths result) : TellsPaths result' :=
  ⟨hpaths ▸ h.segments, hpaths ▸ h.split, hpaths ▸ h.root, hpaths ▸ h.apart⟩

/-! ## What comes of named findings -/

section Named

variable {fs : List Finding} {path : Path}

/-- What counts of findings is found somewhere. -/
theorem isNamed_of_settle (h : AllNamed fs)
    (hpath : path ∈ (settle mode fs).errors.map Complaint.path ++
      (settle mode fs).warnings.map Warning.path) : path.IsNamed := by
  rcases List.mem_append.1 hpath with hpath | hpath
  · obtain ⟨c, hc, rfl⟩ := List.mem_map.1 hpath
    exact h _ (mem_errors_settle hc) _ rfl
  · obtain ⟨w, hw, rfl⟩ := List.mem_map.1 hpath
    exact h _ (warning_mem_of_settle hw) _ rfl

theorem isNamed_of_halted {f : Failure} {α : Type} (h : AllNamed fs)
    (hf : (settle mode fs).halted = some f)
    (hpath : path ∈ reportedPaths (.error f : Except Failure (Outcome α))) : path.IsNamed := by
  cases f with
  | complaint c =>
    rw [List.mem_singleton.1 hpath]
    exact h _ (halt_mem_of_halted hf) _ rfl
  | _ => cases hpath

theorem isNamed_of_outcome {c : Converted} (h : AllNamed c.findings)
    (hpath : path ∈ reportedPaths (c.outcome mode)) : path.IsNamed := by
  unfold Converted.outcome at hpath
  dsimp only at hpath
  split at hpath
  · next f hf => exact isNamed_of_halted h hf hpath
  · exact isNamed_of_settle h hpath

theorem isNamed_of_parseSchema [Host] {raw : Value} {f : Failure} {α : Type}
    (hf : parseSchema raw = .error f)
    (hpath : path ∈ reportedPaths (.error f : Except Failure (Outcome α))) : path.IsNamed := by
  unfold parseSchema at hf
  split at hf
  · cases hf
  · obtain rfl := Except.error.inj hf
    rw [List.mem_singleton.1 hpath]
    exact Path.isNamed_nil

end Named

/-! ## The operations -/

section

variable [Host]

theorem tellsPaths_checkSchema (raw : Value) (mode : Mode) : TellsPaths (checkSchema raw mode) := by
  have hnamed : AllNamed (Grammar.block [] raw) := Grammar.allNamed_block raw [] Path.isNamed_nil
  refine .of_named fun path hpath => ?_
  rw [checkSchema_eq] at hpath
  unfold Settlement.checked at hpath
  split at hpath
  · next f hf => exact isNamed_of_halted hnamed hf hpath
  · split at hpath
    · cases hparse : parseSchema raw with
      | error f =>
        rw [hparse] at hpath
        exact isNamed_of_parseSchema hparse hpath
      | ok b =>
        rw [hparse] at hpath
        exact isNamed_of_settle hnamed hpath
    · exact isNamed_of_settle hnamed hpath

/-- A document that cannot be read is at no path. -/
theorem reportedPaths_of_parseDocument {α : Type} {document : Value} {f : Failure}
    (h : parseDocument document = .error f) :
    reportedPaths (.error f : Except Failure (Outcome α)) = [] := by
  cases document with
  | str t =>
    obtain ⟨fault, -, rfl⟩ := Except.mapError_eq_error.1 h
    rfl
  | bytes b =>
    obtain ⟨fault, -, rfl⟩ := Except.mapError_eq_error.1 h
    rfl
  | _ =>
    obtain rfl := Except.error.inj h
    rfl

variable [LawfulHost] {S : Block}

theorem tellsPaths_conversion (hS : S.IsChecked) (d : Direction) (v : Value) (mode : Mode) :
    TellsPaths (S.conversion d mode v) := by
  rw [Block.conversion_eq]
  obtain ⟨raw, hraw⟩ := hS.exists_typedAs
  have hnamed := S.allNamed_convert (Value.wellNamed_of_typedAs hraw)
    (Value.measured_of_typedAs hraw) d v
  exact .of_named fun path hpath => isNamed_of_outcome hnamed hpath

theorem tellsPaths_decodeDocument (hS : S.IsChecked) (document : Value) (mode : Mode) :
    TellsPaths (decodeDocument document S mode) := by
  unfold decodeDocument
  cases hdata : parseDocument document with
  | error f =>
    refine .of_named fun path hpath => ?_
    have hnone : path ∈ ([] : List Path) := reportedPaths_of_parseDocument hdata ▸ hpath
    cases hnone
  | ok data => exact tellsPaths_conversion hS .decoding data mode

/-- An encoder reports what the conversion reports, unless the value cannot be written. -/
theorem tellsPaths_encodeDocument (hS : S.IsChecked) (v : Value) (mode : Mode) :
    TellsPaths (encodeDocument v S mode) := by
  have htells := tellsPaths_conversion hS .encoding v mode
  unfold encodeDocument
  cases ho : S.conversion .encoding mode v with
  | error f =>
    rw [ho] at htells
    exact htells.congr (by cases f <;> rfl)
  | ok o =>
    rw [ho] at htells
    have hreported : ∀ t : Option Text, TellsPaths (.ok ⟨t, o.errors, o.warnings⟩) := fun t =>
      htells.congr rfl
    show TellsPaths (if o.isOk = true ∨ mode = .collectAll then _ else _)
    split
    · cases hwrite : serializeDocument o.value with
      | error f =>
        obtain ⟨reason, -, rfl⟩ := Except.mapError_eq_error.1 hwrite
        exact .of_named fun path hpath => by cases hpath
      | ok t => exact hreported (some t)
    · exact hreported none

/-- **A location determines its path.** Take what a check reports on a schema, accepted or not, or what
a conversion of any value reports along a schema that is accepted, in either direction and either mode.
No segment of the paths is empty or holds a point. So a location other than that of the root, split at
its points, gives the segments back; the root's is the location of the empty path alone; and what is
at one location is at one path. -/
theorem location_determines_path (schema : GivenSchema) (mode : Mode) :
    TellsPaths (schema.check mode) ∧
    ∀ S, schema.Accepted S →
      (∀ d v, TellsPaths (S.conversion d mode v)) ∧
      (∀ document, TellsPaths (schema.decode document mode)) ∧
      ∀ v, TellsPaths (schema.encode v mode) := by
  constructor
  · cases schema with
    | raw v => exact tellsPaths_checkSchema v mode
    | typed b => exact tellsPaths_checkSchema b.dump mode
  · intro S hS
    have hchecked := hS.isChecked
    refine ⟨fun d v => tellsPaths_conversion hchecked d v mode, fun document => ?_, fun v => ?_⟩
    · rw [GivenSchema.decode, hS.block_eq]
      exact tellsPaths_decodeDocument hchecked document mode
    · rw [GivenSchema.encode, hS.block_eq]
      exact tellsPaths_encodeDocument hchecked v mode

end

/-- Keys of which one is an integer, and the other would be split where it has a point. -/
def pointedKeys : Value := .dict [(.int (-1), .null), (.str "1.5", .str "a")]

section

open Reference

/-- The key with a point is an error at the root and stands in no path. -/
theorem location_determines_path_pointedKeys :
    (GivenSchema.raw numberedRaw).Accepted numberedSchema ∧
      reportedPaths (numberedSchema.conversion .encoding .collectAll pointedKeys) =
        [[.entry "-1"], []] ∧
      Text.splitOn '.' (Path.location [.entry "-1"]) = [Segment.text (.entry "-1")] := by
  have hpaths : reportedPaths (numberedSchema.conversion .encoding .collectAll pointedKeys) =
      [[.entry "-1"], []] := by
    decide +kernel
  obtain ⟨htells, -⟩ := (location_determines_path (.raw numberedRaw) .collectAll).2 numberedSchema
    accepted_numberedRaw
  refine ⟨accepted_numberedRaw, hpaths, ?_⟩
  refine (htells .encoding pointedKeys).split [.entry "-1"] ?_ (by decide)
  rw [hpaths]
  exact List.mem_cons_self

end

end DocShape
