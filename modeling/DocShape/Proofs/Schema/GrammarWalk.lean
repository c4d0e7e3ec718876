import DocShape.Proofs.Findings
import DocShape.Proofs.Schema.WellFormed
import DocShape.Proofs.Value.Literals
import DocShape.Proofs.Listing.Grammar

/-!
# The walk of the grammar

What `Grammar.block` yields on a raw schema, in terms of what stands under each property
(`block_dict` and `Grammar.body`). A walk that yields nothing but advice was on a well-formed schema
(`isSchema_of_onlyAdvice`).
-/

namespace DocShape

variable {path : Path} {fs : List Finding}

@[simp] theorem not_onlyAdvice_quoting {v : Value} {cause : Text → Violation} :
    ¬ OnlyAdvice (Finding.quoting v (fun shown => .violation path (cause shown)) :: fs) := fun h => by
  obtain ⟨w, hw⟩ := h _ List.mem_cons_self
  rw [Finding.quoting] at hw
  split at hw <;> cases hw

namespace Grammar

variable {name : Text} {es : Entries} {v : Value}

/-! ## Properties -/

theorem isBool_eq_true : isBool v = true ↔ v.IsTruth := by
  cases v with
  | bool b => exact ⟨fun _ => ⟨b, rfl⟩, fun _ => rfl⟩
  | _ => exact ⟨fun h => (by cases h), fun ⟨_, h⟩ => (by cases h)⟩

theorem isSome_text?_eq_true : v.text?.isSome = true ↔ v.IsText := by
  cases v with
  | str t => exact ⟨fun _ => ⟨t, rfl⟩, fun _ => rfl⟩
  | _ => exact ⟨fun h => (by cases h), fun ⟨_, h⟩ => (by cases h)⟩

theorem optional_eq_nil {requirement : Requirement} {test : Value → Bool}
    (h : es.Optional name fun v => test v = true) : optional path name requirement test es = [] := by
  unfold optional
  split
  · rfl
  · next v hv => rw [require, if_pos (h v hv)]

theorem onlyAdvice_optional {requirement : Requirement} {test : Value → Bool} :
    OnlyAdvice (optional path name requirement test es) ↔
      es.Optional name fun v => test v = true := by
  refine ⟨fun h v hv => ?_, fun h => by rw [optional_eq_nil h]; exact onlyAdvice_nil⟩
  rw [optional, hv] at h
  by_contra htest
  simp [require, htest] at h

theorem noHalt_optional {requirement : Requirement} {test : Value → Bool} :
    NoHalt (optional path name requirement test es) := by
  unfold optional
  split
  · exact noHalt_nil
  · rw [require]
    split <;> simp

theorem isExtra_eq_false {legal : List Text} : isExtra legal v = false ↔ ∃ t ∈ legal, v = .str t := by
  cases v with
  | str t => simp [isExtra]
  | _ => simp [isExtra]

theorem unexpected_eq_nil (path : Path) {legal : List Text} :
    unexpected path legal es = [] ↔ es.Only legal := by
  rw [unexpected, List.map_eq_nil_iff, List.filter_eq_nil_iff, Entries.Only]
  exact forall₂_congr fun e _ => by rw [Bool.not_eq_true, isExtra_eq_false]

theorem onlyAdvice_unexpected {legal : List Text} :
    OnlyAdvice (unexpected path legal es) ↔ es.Only legal := by
  rw [← unexpected_eq_nil path]
  unfold unexpected
  cases es.filter fun e => isExtra legal e.1 with
  | nil => exact iff_of_true onlyAdvice_nil rfl
  | cons e extras => exact iff_of_false not_onlyAdvice_quoting (List.cons_ne_nil _ _)

theorem onlyAdvice_common : OnlyAdvice (common path es) ↔
    es.Optional "name" Value.IsText ∧ es.Optional "description" Value.IsText ∧
      es.Optional "option" Value.IsTruth := by
  simp only [common, onlyAdvice_append, onlyAdvice_optional, isSome_text?_eq_true, isBool_eq_true,
    and_assoc]

theorem noHalt_common : NoHalt (common path es) := by
  simp [common, noHalt_optional]

/-! ## Bounds -/

theorem bound_of_isBound {n : Number} (h : v.IsBound n) : bound path v = ([], some n) := by
  cases h with
  | bare h => simp only [bound, Value.finiteNumber?_eq_some.2 h]
  | @object es w n only value number exclusive =>
    have hextras : unexpected path ["exclusive", "value"] es = [] :=
      (unexpected_eq_nil path).2 only
    have hexclusive : optional path "exclusive" .bool isBool es = [] :=
      optional_eq_nil fun v hv => isBool_eq_true.2 (exclusive v hv)
    show boundObject path es = _
    simp only [boundObject, hextras, hexclusive, value, Value.finiteNumber?_eq_some.2 number,
      List.isEmpty_nil, ↓reduceIte]

theorem isBound_of_onlyAdvice (h : OnlyAdvice (bound path v).1) : ∃ n, v.IsBound n := by
  unfold bound at h
  split at h
  · next n hn => exact ⟨n, .bare (Value.finiteNumber?_eq_some.1 hn)⟩
  · split at h
    · next es =>
      simp only [boundObject] at h
      split at h
      · next hextras =>
        have honly := (unexpected_eq_nil path).1 (List.isEmpty_iff.1 hextras)
        split at h
        · simp at h
        · next w hw =>
          split at h
          · next n hn =>
            refine ⟨n, .object honly hw (Value.finiteNumber?_eq_some.1 hn) fun v hv => ?_⟩
            exact isBool_eq_true.1 (onlyAdvice_optional.1 h v hv)
          · simp at h
      · next hextras =>
        exact absurd
          (List.isEmpty_iff.2 ((unexpected_eq_nil path).2 (onlyAdvice_unexpected.1 h))) hextras
    · simp at h

theorem crossing_eq_nil {m n : Number} (hm : m.isFinite = true) (hn : n.isFinite = true) :
    crossing path (some m) (some n) = [] ↔ m.exact ≤ n.exact := by
  rw [crossing]
  by_cases h : n.lt m = true
  · rw [if_pos h]
    simpa using (Number.lt_iff hn hm).1 h
  · rw [if_neg h]
    simpa [Number.lt_iff hn hm] using h

theorem onlyAdvice_crossing {m n : Option Number} :
    OnlyAdvice (crossing path m n) ↔ crossing path m n = [] := by
  unfold crossing
  split
  · split <;> simp
  · simp

theorem noHalt_crossing {m n : Option Number} : NoHalt (crossing path m n) := by
  unfold crossing
  split
  · split <;> simp
  · simp

theorem optionalBound_of_get? (h : es.get? name = some v) :
    optionalBound path name es = bound (path ++ [.property name]) v := by
  simp only [optionalBound, h]

theorem optionalBound_of_absent (h : es.get? name = none) :
    optionalBound path name es = ([], none) := by
  simp only [optionalBound, h]

theorem isBound_of_onlyAdvice_optional (h : OnlyAdvice (optionalBound path name es).1) :
    es.Optional name fun v => ∃ n, v.IsBound n := by
  intro v hv
  rw [optionalBound_of_get? hv] at h
  exact isBound_of_onlyAdvice h

/-- The properties of a number block are found in order when they are. -/
theorem onlyAdvice_number (h : OnlyAdvice (number path es)) :
    es.Optional "decimal" Value.IsTruth ∧ es.Optional "minimum" (fun v => ∃ n, v.IsBound n) ∧
      es.Optional "maximum" (fun v => ∃ n, v.IsBound n) ∧
      ∀ v w m n, es.get? "minimum" = some v → v.IsBound m → es.get? "maximum" = some w →
        w.IsBound n → ¬ n.exact < m.exact := by
  simp only [number, onlyAdvice_append, onlyAdvice_optional, isBool_eq_true, and_assoc] at h
  obtain ⟨hdecimal, hminimum, hmaximum, hcrossing⟩ := h
  refine ⟨hdecimal, isBound_of_onlyAdvice_optional hminimum,
    isBound_of_onlyAdvice_optional hmaximum, fun v w m n hv hm hw hn => ?_⟩
  rw [onlyAdvice_crossing, optionalBound_of_get? hv, optionalBound_of_get? hw, bound_of_isBound hm,
    bound_of_isBound hn, crossing_eq_nil hm.isFinite hn.isFinite] at hcrossing
  exact not_lt.2 hcrossing

/-! ## Lengths -/

/-- What a walk has to say on a number that a length may be compared with. -/
theorem lengthNumber_of_nonneg {n : Number} (hn : n.isFinite = true) (h : 0 ≤ n.exact) :
    lengthNumber path n =
      if n.isIntegral then [] else [.warning ⟨path, .fractionalLength⟩] := by
  have hlt : ¬ n.lt (.int 0) = true := by
    rw [Number.lt_iff hn rfl, Number.exact, Int.cast_zero, not_lt]
    exact h
  rw [lengthNumber, if_neg hlt, List.append_nil]

theorem nonneg_of_onlyAdvice {n : Number} (hn : n.isFinite = true)
    (h : OnlyAdvice (lengthNumber path n)) : 0 ≤ n.exact := by
  by_contra hneg
  have hlt : n.lt (.int 0) = true := by
    rw [Number.lt_iff hn rfl, Number.exact, Int.cast_zero]
    exact not_le.1 hneg
  simp [lengthNumber, hlt] at h

theorem noHalt_lengthNumber {n : Number} : NoHalt (lengthNumber path n) := by
  unfold lengthNumber
  split <;> split <;> simp

theorem lengthBound_of_number {n : Number} (hv : es.get? name = some v) (hn : v.IsNumber n) :
    lengthBound path name es = (lengthNumber (path ++ [.property name]) n, some n) := by
  simp only [lengthBound, hv, Value.finiteNumber?_eq_some.2 hn]

theorem lengthBound_of_absent (h : es.get? name = none) : lengthBound path name es = ([], none) := by
  simp only [lengthBound, h]

theorem isLengthNumber_of_onlyAdvice (h : OnlyAdvice (lengthBound path name es).1) :
    es.Optional name Value.IsLengthNumber := by
  intro v hv
  simp only [lengthBound, hv] at h
  split at h
  · next n hn =>
    have hn := Value.finiteNumber?_eq_some.1 hn
    exact ⟨n, hn, nonneg_of_onlyAdvice hn.2 h⟩
  · simp at h

theorem noHalt_lengthBound : NoHalt (lengthBound path name es).1 := by
  unfold lengthBound
  split
  · exact noHalt_nil
  · dsimp only
    split
    · exact noHalt_lengthNumber
    · simp

theorem isLength_of_onlyAdvice (h : OnlyAdvice (length path es)) :
    es.Optional "length" Value.IsLength := by
  intro v hv
  simp only [length, hv] at h
  split at h
  · next n hn =>
    have hn := Value.finiteNumber?_eq_some.1 hn
    exact .exactly ⟨n, hn, nonneg_of_onlyAdvice hn.2 h⟩
  · split at h
    · next object =>
      simp only [lengthObject] at h
      split at h
      · next hextras =>
        simp only [onlyAdvice_append] at h
        obtain ⟨⟨hminimum, hmaximum⟩, hcrossing⟩ := h
        refine .range ((unexpected_eq_nil _).1 (List.isEmpty_iff.1 hextras))
          (isLengthNumber_of_onlyAdvice hminimum) (isLengthNumber_of_onlyAdvice hmaximum)
          fun v w m n hv hm hw hn => ?_
        rw [onlyAdvice_crossing, lengthBound_of_number hv hm, lengthBound_of_number hw hn,
          crossing_eq_nil hm.2 hn.2] at hcrossing
        exact hcrossing
      · next hextras =>
        exact absurd (List.isEmpty_iff.2 ((unexpected_eq_nil _).2 (onlyAdvice_unexpected.1 h)))
          hextras
    · simp at h

/-! ## Keys and enumerations -/

theorem keyKind_of_name {kind : KeyKind} (h : es.get? "key" = some (.str kind.name)) :
    keyKind path es = [] := by
  simp only [keyKind, h, Value.text?]
  cases kind <;> simp

theorem name_of_onlyAdvice (h : OnlyAdvice (keyKind path es)) :
    ∃ kind : KeyKind, es.get? "key" = some (.str kind.name) := by
  unfold keyKind at h
  split at h
  · simp at h
  · next v hv =>
    cases v with
    | str t =>
      simp only [Value.text?] at h
      split at h
      · next ht =>
        rcases ht with rfl | rfl
        · exact ⟨.integer, hv⟩
        · exact ⟨.string, hv⟩
      · simp at h
    | _ => simp [Value.text?] at h

theorem noHalt_keyKind : NoHalt (keyKind path es) := by
  unfold keyKind
  split
  · simp
  · split
    · split <;> simp
    · simp

theorem sequence?_eq_some {xs : List Value} : sequence? v = some xs ↔ v.IsSequence xs := by
  cases v <;> simp [sequence?, Value.IsSequence]

theorem filter_isName_eq_some {t : Text} :
    v.text?.filter Text.isName = some t ↔ v = .str t ∧ t.isName = true := by
  rw [Option.filter_eq_some_iff]
  cases v <;> simp [Value.text?]

/-- The values of an enumeration are in order when they are names, each given once. -/
theorem enumValues_eq_nil {xs : List Value} {seen : List Text} (hnames : ∀ x ∈ xs, x.isName = true)
    (hdistinct : xs.Nodup) (hseen : ∀ t ∈ seen, .str t ∉ xs) : enumValues path seen xs = [] := by
  induction xs generalizing seen with
  | nil => rfl
  | cons x xs ih =>
    obtain ⟨hx, hrest⟩ := List.nodup_cons.1 hdistinct
    obtain ⟨t, rfl, ht⟩ := Value.isName_iff.1 (hnames x List.mem_cons_self)
    have hnew : seen.contains t = false := by
      rw [Bool.eq_false_iff, Ne, List.contains_iff_mem]
      exact fun hmem => hseen t hmem List.mem_cons_self
    rw [enumValues, filter_isName_eq_some.2 ⟨rfl, ht⟩]
    simp only [hnew, Bool.false_eq_true, ↓reduceIte]
    refine ih (fun y hy => hnames y (List.mem_cons_of_mem _ hy)) hrest fun s hs => ?_
    rcases List.mem_append.1 hs with hs | hs
    · exact fun hmem => hseen s hs (List.mem_cons_of_mem _ hmem)
    · rw [List.mem_singleton.1 hs]
      exact hx

theorem names_of_onlyAdvice {xs : List Value} {seen : List Text}
    (h : OnlyAdvice (enumValues path seen xs)) :
    (∀ x ∈ xs, x.isName = true) ∧ xs.Nodup ∧ ∀ t ∈ seen, .str t ∉ xs := by
  induction xs generalizing seen with
  | nil => exact ⟨fun x hx => (by cases hx), List.nodup_nil, fun t _ hx => (by cases hx)⟩
  | cons x xs ih =>
    rw [enumValues] at h
    split at h
    · simp at h
    · next t hname =>
      obtain ⟨rfl, ht⟩ := filter_isName_eq_some.1 hname
      split at h
      · simp at h
      · next hnew =>
        obtain ⟨hnames, hdistinct, hseen⟩ := ih h
        refine ⟨List.forall_mem_cons.2 ⟨ht, hnames⟩,
          List.nodup_cons.2 ⟨hseen t (by simp), hdistinct⟩, fun s hs hmem => ?_⟩
        rcases List.mem_cons.1 hmem with heq | hmem
        · rw [Value.str.inj heq] at hs
          exact hnew (List.contains_iff_mem.2 hs)
        · exact hseen s (List.mem_append_left _ hs) hmem

/-! ## Blocks -/

theorem kind_eq_ok {k : Kind} : kind path es = .ok k ↔ es.get? "type" = some (.str k.name) := by
  unfold kind
  split
  · next h => simp [h]
  · next v h =>
    rw [h, Option.some_inj, ← Value.kind?_eq_some]
    split
    · next k' hk => simp [hk]
    · next hk => simp [hk]

theorem not_onlyAdvice_kind {fs : List Finding} (h : kind path es = .error fs) :
    ¬ OnlyAdvice fs := by
  unfold kind at h
  split at h
  · cases h
    exact not_onlyAdvice_violation
  · split at h <;> cases h
    exact not_onlyAdvice_violation

theorem noHalt_kind {fs : List Finding} (h : kind path es = .error fs) : NoHalt fs := by
  unfold kind at h
  split at h
  · cases h
    simp
  · split at h <;> cases h
    simp

/-- The block under `value`, which must be there. -/
def requiredValue (path inner : Path) (es : Entries) : List Finding :=
  match es.get? "value" with
  | none => [.violation path (.missingProperty "value")]
  | some v => block inner v

/-- What is found in the properties that a kind has beside the common ones. -/
def body (path : Path) (es : Entries) : Kind → List Finding
  | .flag => []
  | .number => number path es
  | .string => length path es ++ optional path "pattern" .string (fun v => v.text?.isSome) es
  | .array =>
    requiredValue path (path ++ [.items]) es ++ if es.has "value" then length path es else []
  | .object =>
    requiredValue path (path ++ [.values]) es ++ keyKind path es ++ length path es
  | .tuple => items path es
  | .map => fields path es
  | .enum => enumeration path es

theorem value_eq (path : Path) (es : Entries) :
    value path es = (es.get? "value").elim [] (block path) :=
  Entries.look_eq rfl (fun _ _ _ => rfl) (fun k _ _ _ => by cases k <;> trivial) es

theorem items_eq (path : Path) (es : Entries) :
    items path es = (es.get? "items").elim [.violation path (.missingProperty "items")]
      (itemList path) :=
  Entries.look_eq rfl (fun _ _ _ => rfl) (fun k _ _ _ => by cases k <;> trivial) es

theorem fields_eq (path : Path) (es : Entries) :
    fields path es = (es.get? "fields").elim [.violation path (.missingProperty "fields")]
      (fieldDict path) :=
  Entries.look_eq rfl (fun _ _ _ => rfl) (fun k _ _ _ => by cases k <;> trivial) es

theorem requiredValue_eq (path inner : Path) (es : Entries) :
    requiredValue path inner es =
      if es.has "value" then value inner es else [.violation path (.missingProperty "value")] := by
  rw [requiredValue, value_eq, Entries.has]
  cases es.get? "value" <;> rfl

/-- A dictionary of a known kind is looked at for properties that the kind does not have, for its own
properties and for the common ones. -/
theorem block_dict {k : Kind} (h : es.get? "type" = some (.str k.name)) :
    block path (.dict es) =
      unexpected path k.legalProperties es ++ body path es k ++ common path es := by
  rw [block, kind_eq_ok.2 h]
  cases k with
  | array =>
    simp only [body, requiredValue_eq]
    split
    · rfl
    · rw [List.append_nil]
  | object => simp only [body, requiredValue_eq]
  | _ => rfl

theorem block_unknown {fs : List Finding} (h : kind path es = .error fs) :
    block path (.dict es) = fs := by
  rw [block, h]

/-! ## Only well-formed schemas pass -/

theorem enumeration_of_onlyAdvice (h : OnlyAdvice (enumeration path es)) :
    ∃ v xs, es.get? "values" = some v ∧ v.IsSequence xs ∧ xs ≠ [] ∧
      (∀ x ∈ xs, x.isName = true) ∧ xs.Nodup := by
  unfold enumeration at h
  split at h
  · simp at h
  · next v hv =>
    dsimp only at h
    split at h
    · simp at h
    · simp at h
    · next xs hne hxs =>
      obtain ⟨hnames, hdistinct, -⟩ := names_of_onlyAdvice h
      exact ⟨v, xs, hv, sequence?_eq_some.1 hxs, hne, hnames, hdistinct⟩

theorem requiredValue_of_onlyAdvice {inner : Path} (h : OnlyAdvice (requiredValue path inner es)) :
    ∃ v, es.get? "value" = some v ∧ OnlyAdvice (block inner v) := by
  unfold requiredValue at h
  split at h
  · simp at h
  · next v hv => exact ⟨v, hv, h⟩

theorem blocks_of_onlyAdvice {index : Nat} {xs : List Value}
    (h : OnlyAdvice (blocks path index xs)) : ∀ x ∈ xs, ∃ inner, OnlyAdvice (block inner x) := by
  induction xs generalizing index with
  | nil => exact fun x hx => by cases hx
  | cons x xs ih =>
    rw [blocks, onlyAdvice_append] at h
    exact List.forall_mem_cons.2 ⟨⟨_, h.1⟩, ih h.2⟩

theorem items_of_onlyAdvice (h : OnlyAdvice (items path es)) :
    ∃ v xs, es.get? "items" = some v ∧ v.IsSequence xs ∧ xs ≠ [] ∧
      ∀ x ∈ xs, ∃ inner, OnlyAdvice (block inner x) := by
  rw [items_eq] at h
  cases hv : es.get? "items" with
  | none => simp [hv] at h
  | some v =>
    simp only [hv, Option.elim_some] at h
    unfold itemList at h
    split at h
    · simp at h
    · simp at h
    · next xs hne =>
      exact ⟨_, xs, rfl, .inl rfl, fun hnil => hne (by rw [hnil]), blocks_of_onlyAdvice h⟩
    · next xs hne =>
      exact ⟨_, xs, rfl, .inr rfl, fun hnil => hne (by rw [hnil]), blocks_of_onlyAdvice h⟩
    · simp at h

theorem fieldBlocks_of_onlyAdvice {fs : Entries} (h : OnlyAdvice (fieldBlocks path fs)) :
    ∀ f ∈ fs, f.1.isName = true ∧ ∃ inner, OnlyAdvice (block inner f.2) := by
  induction fs with
  | nil => exact fun f hf => by cases hf
  | cons f fs ih =>
    obtain ⟨k, v⟩ := f
    rw [fieldBlocks, onlyAdvice_append] at h
    refine List.forall_mem_cons.2 ⟨?_, ih h.2⟩
    have hfield := h.1
    split at hfield
    · next name hname =>
      obtain ⟨rfl, ht⟩ := filter_isName_eq_some.1 hname
      exact ⟨ht, _, hfield⟩
    · simp at hfield

theorem fields_of_onlyAdvice (h : OnlyAdvice (fields path es)) :
    ∃ fs, es.get? "fields" = some (.dict fs) ∧ fs ≠ [] ∧
      ∀ f ∈ fs, f.1.isName = true ∧ ∃ inner, OnlyAdvice (block inner f.2) := by
  rw [fields_eq] at h
  cases hv : es.get? "fields" with
  | none => simp [hv] at h
  | some v =>
    simp only [hv, Option.elim_some] at h
    unfold fieldDict at h
    split at h
    · simp at h
    · next fs hne => exact ⟨fs, rfl, fun hnil => hne (by rw [hnil]), fieldBlocks_of_onlyAdvice h⟩
    · simp at h

/-- A raw schema in which the walk finds nothing wrong is well-formed. -/
theorem isSchema_of_onlyAdvice (h : OnlyAdvice (block path v)) : v.IsSchema := by
  induction v using Value.innerInduction generalizing path with
  | step v ih =>
    cases v with
    | dict es =>
      cases hkind : kind path es with
      | error fs =>
        rw [block_unknown hkind] at h
        exact absurd h (not_onlyAdvice_kind hkind)
      | ok k =>
        have htype := kind_eq_ok.1 hkind
        rw [block_dict htype, onlyAdvice_append, onlyAdvice_append] at h
        obtain ⟨⟨hextras, hbody⟩, hcommon⟩ := h
        obtain ⟨hname, hdescription, hoption⟩ := onlyAdvice_common.1 hcommon
        have hblock : Entries.IsBlock es k :=
          ⟨htype, onlyAdvice_unexpected.1 hextras, hname, hdescription, hoption⟩
        cases k with
        | flag => exact .flag hblock
        | number =>
          obtain ⟨hdecimal, hminimum, hmaximum, horder⟩ := onlyAdvice_number hbody
          exact .number hblock hdecimal hminimum hmaximum horder
        | string =>
          obtain ⟨hlength, hpattern⟩ := onlyAdvice_append.1 hbody
          exact .string hblock (isLength_of_onlyAdvice hlength) fun v hv =>
            isSome_text?_eq_true.1 (onlyAdvice_optional.1 hpattern v hv)
        | array =>
          obtain ⟨hvalue, hlength⟩ := onlyAdvice_append.1 hbody
          obtain ⟨v, hv, hschema⟩ := requiredValue_of_onlyAdvice hvalue
          rw [if_pos (Entries.has_of_get? hv)] at hlength
          exact .array hblock hv ((ih v (Entries.mem_parts_of_get? hv)).1 hschema)
            (isLength_of_onlyAdvice hlength)
        | object =>
          obtain ⟨hrest, hlength⟩ := onlyAdvice_append.1 hbody
          obtain ⟨hvalue, hkey⟩ := onlyAdvice_append.1 hrest
          obtain ⟨v, hv, hschema⟩ := requiredValue_of_onlyAdvice hvalue
          exact .object hblock hv ((ih v (Entries.mem_parts_of_get? hv)).1 hschema)
            (name_of_onlyAdvice hkey) (isLength_of_onlyAdvice hlength)
        | tuple =>
          obtain ⟨v, xs, hv, hxs, hne, hschemas⟩ := items_of_onlyAdvice hbody
          refine .tuple hblock hv hxs hne fun x hx => ?_
          obtain ⟨inner, hx'⟩ := hschemas x hx
          exact (ih v (Entries.mem_parts_of_get? hv)).2 x (hxs.parts ▸ hx) hx'
        | map =>
          obtain ⟨fs, hfs, hne, hfields⟩ := fields_of_onlyAdvice hbody
          refine .map hblock hfs hne (fun f hf => (hfields f hf).1) fun f hf => ?_
          obtain ⟨inner, hf'⟩ := (hfields f hf).2
          exact (ih _ (Entries.mem_parts_of_get? hfs)).2 f.2 (List.mem_map_of_mem hf) hf'
        | enum =>
          obtain ⟨v, xs, hv, hxs, hne, hnames, hdistinct⟩ := enumeration_of_onlyAdvice hbody
          exact .enum hblock hv hxs hne hnames hdistinct
    | _ => simp [block] at h

end Grammar

end DocShape
