import DocShape.Proofs.Schema.GrammarWalk

/-!
# What the walk of the grammar quotes

A violation may quote the offending value: a property that is none of its kind, a field name, a value
of an enumeration. `Value.Quotes` says which values the walk comes to quote, at any depth, and quoting
is all that can break the walk off (`Grammar.halt_mem_block_iff`): it does so exactly where a quoted
value holds an integer beyond the digit limit.
-/

namespace DocShape

/-- Quoting a value breaks a walk off. -/
def Value.Hides (w : Value) (f : Failure) : Prop := ¬ w.ShortInts ∧ f = .unwritable .tooManyDigits

/-- A key that is none of some names. -/
def Entries.Extra (es : Entries) (legal : List Text) (k : Value) : Prop :=
  ∃ v, (k, v) ∈ es ∧ ∀ t ∈ legal, k ≠ .str t

/-- Whether the walk looks at the length of a block. An array without a block under `value` is
left before that. -/
def Entries.LengthRead (es : Entries) : Kind → Prop
  | .string | .object => True
  | .array => es.has "value" = true
  | _ => False

/-- The values that the walk quotes for the properties which a kind has of its own. -/
inductive Entries.Quotes (es : Entries) : Kind → Value → Prop
  | bound {name : Text} {object : Entries} {w : Value} (bound : name = "minimum" ∨ name = "maximum")
    (given : es.get? name = some (.dict object)) (extra : object.Extra ["exclusive", "value"] w) :
    Quotes es .number w
  | length {k : Kind} {object : Entries} {w : Value} (read : es.LengthRead k)
    (given : es.get? "length" = some (.dict object))
    (extra : object.Extra ["minimum", "maximum"] w) : Quotes es k w
  | field {fs : Entries} {e : Value × Value} (given : es.get? "fields" = some (.dict fs))
    (mem : e ∈ fs) (bad : ¬ e.1.isName = true) : Quotes es .map e.1
  | value {v w : Value} {xs : List Value} (given : es.get? "values" = some v)
    (sequence : v.IsSequence xs) (mem : w ∈ xs) (bad : ¬ w.isName = true) : Quotes es .enum w

/-- The raw blocks directly inside a block of some kind, as far as the walk enters them. -/
inductive Entries.Holds (es : Entries) : Kind → Value → Prop
  | items {x : Value} (given : es.get? "value" = some x) : Holds es .array x
  | values {x : Value} (given : es.get? "value" = some x) : Holds es .object x
  | position {v x : Value} {xs : List Value} (given : es.get? "items" = some v)
    (sequence : v.IsSequence xs) (mem : x ∈ xs) : Holds es .tuple x
  | field {fs : Entries} {e : Value × Value} (given : es.get? "fields" = some (.dict fs))
    (mem : e ∈ fs) (name : e.1.isName = true) : Holds es .map e.2

/-- The values that the walk over a raw schema quotes. -/
inductive Value.Quotes : Value → Value → Prop
  | property {es : Entries} {k : Kind} {w : Value} (kind : es.get? "type" = some (.str k.name))
    (extra : es.Extra k.legalProperties w) : Quotes (.dict es) w
  | own {es : Entries} {k : Kind} {w : Value} (kind : es.get? "type" = some (.str k.name))
    (quotes : es.Quotes k w) : Quotes (.dict es) w
  | inside {es : Entries} {k : Kind} {x w : Value} (kind : es.get? "type" = some (.str k.name))
    (holds : es.Holds k x) (quotes : Quotes x w) : Quotes (.dict es) w

theorem Entries.Holds.inside {es : Entries} {k : Kind} {x : Value} (h : es.Holds k x) :
    x ∈ (Value.dict es).parts ∨ ∃ v ∈ (Value.dict es).parts, x ∈ v.parts := by
  cases h with
  | items given => exact .inl (mem_parts_of_get? given)
  | values given => exact .inl (mem_parts_of_get? given)
  | position given sequence mem =>
    exact .inr ⟨_, mem_parts_of_get? given, sequence.parts.symm ▸ mem⟩
  | field given mem _ => exact .inr ⟨_, mem_parts_of_get? given, List.mem_map_of_mem mem⟩

variable {path : Path} {f : Failure}

theorem Finding.halt_eq_quoting_iff {w : Value} {cause : Text → Violation} :
    .halt f = Finding.quoting w (fun shown => .violation path (cause shown)) ↔ w.Hides f := by
  rw [Value.Hides, ← Value.display?_eq_none_iff, quoting]
  cases w.display? with
  | some shown => simp [violation]
  | none => simp

@[simp] theorem Finding.halt_ne_violation {cause : Violation} :
    Finding.halt f ≠ .violation path cause := fun h => by cases h

namespace Grammar

variable {name : Text} {es : Entries} {v : Value}

theorem halt_mem_unexpected_iff (path : Path) {legal : List Text} :
    .halt f ∈ unexpected path legal es ↔ ∃ w, es.Extra legal w ∧ w.Hides f := by
  have hextra (w : Value) : isExtra legal w = true ↔ ∀ t ∈ legal, w ≠ .str t := by
    rw [← Bool.not_eq_false, isExtra_eq_false]
    simp
  simp only [unexpected, List.mem_map, List.mem_filter, eq_comm (b := Finding.halt f),
    Finding.halt_eq_quoting_iff, hextra]
  constructor
  · rintro ⟨e, ⟨hmem, hkey⟩, hhides⟩
    exact ⟨e.1, ⟨e.2, hmem, hkey⟩, hhides⟩
  · rintro ⟨w, ⟨x, hmem, hkey⟩, hhides⟩
    exact ⟨(w, x), ⟨hmem, hkey⟩, hhides⟩

/-! ## Bounds and lengths -/

theorem halt_mem_bound_iff :
    .halt f ∈ (bound path v).1 ↔ ∃ (object : Entries) (w : Value), v = .dict object ∧
      object.Extra ["exclusive", "value"] w ∧ w.Hides f := by
  unfold bound
  split
  · next n hn =>
    refine iff_of_false List.not_mem_nil ?_
    rintro ⟨object, w, rfl, -⟩
    exact absurd (Value.finiteNumber?_eq_some.1 hn) Value.not_isNumber_dict
  · split
    · next object =>
      simp only [Value.dict.injEq, exists_and_left, ↓existsAndEq, true_and,
        ← halt_mem_unexpected_iff path, boundObject]
      split
      · next hextras =>
        -- nothing is extra, and the rest of the object is not quoted
        rw [List.isEmpty_iff.1 hextras]
        split
        · simp [noHalt_optional f]
        · split <;> simp [noHalt_optional f]
      · exact Iff.rfl
    · next hdict =>
      refine iff_of_false (by simp) ?_
      rintro ⟨object, w, rfl, -⟩
      exact hdict object rfl

theorem halt_mem_optionalBound_iff :
    .halt f ∈ (optionalBound path name es).1 ↔ ∃ (object : Entries) (w : Value),
      es.get? name = some (.dict object) ∧ object.Extra ["exclusive", "value"] w ∧ w.Hides f := by
  cases h : es.get? name with
  | none => simp [optionalBound_of_absent h]
  | some v => simp only [optionalBound_of_get? h, halt_mem_bound_iff, Option.some_inj]

theorem halt_mem_number_iff :
    .halt f ∈ number path es ↔ ∃ w, es.Quotes .number w ∧ w.Hides f := by
  simp only [number, List.mem_append, halt_mem_optionalBound_iff, noHalt_optional f,
    noHalt_crossing f, false_or, or_false]
  constructor
  · rintro (⟨object, w, hgiven, hextra, hhides⟩ | ⟨object, w, hgiven, hextra, hhides⟩)
    · exact ⟨w, .bound (.inl rfl) hgiven hextra, hhides⟩
    · exact ⟨w, .bound (.inr rfl) hgiven hextra, hhides⟩
  · rintro ⟨w, hquotes, hhides⟩
    cases hquotes with
    | bound hbound hgiven hextra =>
      rcases hbound with rfl | rfl
      · exact .inl ⟨_, w, hgiven, hextra, hhides⟩
      · exact .inr ⟨_, w, hgiven, hextra, hhides⟩
    | length hread _ _ => exact hread.elim

theorem quotes_iff_of_lengthRead {k : Kind} {w : Value} (hread : es.LengthRead k) :
    es.Quotes k w ↔ ∃ object : Entries, es.get? "length" = some (.dict object) ∧
      object.Extra ["minimum", "maximum"] w := by
  constructor
  · intro hquotes
    cases hquotes with
    | length _ hgiven hextra => exact ⟨_, hgiven, hextra⟩
    | _ => exact hread.elim
  · rintro ⟨object, hgiven, hextra⟩
    exact .length hread hgiven hextra

theorem halt_mem_length_iff {k : Kind} (hread : es.LengthRead k) :
    .halt f ∈ length path es ↔ ∃ w, es.Quotes k w ∧ w.Hides f := by
  simp only [quotes_iff_of_lengthRead hread]
  unfold length
  split
  · next hget => simp [hget]
  · next v hget =>
    simp only [hget, Option.some_inj]
    split
    · next n hn =>
      refine iff_of_false (noHalt_lengthNumber f) ?_
      rintro ⟨w, ⟨object, rfl, -⟩, -⟩
      exact Value.not_isNumber_dict (Value.finiteNumber?_eq_some.1 hn)
    · split
      · next object =>
        simp only [Value.dict.injEq, ↓existsAndEq, true_and,
          ← halt_mem_unexpected_iff (path ++ [.property "length"]), lengthObject]
        split
        · next hextras =>
          rw [List.isEmpty_iff.1 hextras]
          simp [noHalt_lengthBound f, noHalt_crossing f]
        · exact Iff.rfl
      · next hdict =>
        refine iff_of_false (by simp) ?_
        rintro ⟨w, ⟨object, rfl, -⟩, -⟩
        exact hdict object rfl

/-! ## Enumerations, positions and fields -/

theorem filter_isName_eq_none : v.text?.filter Text.isName = none ↔ ¬ v.isName = true := by
  rw [Option.eq_none_iff_forall_ne_some, Value.isName_iff, not_exists]
  exact forall_congr' fun t => not_congr filter_isName_eq_some

theorem halt_mem_enumValues_iff {seen : List Text} {xs : List Value} :
    .halt f ∈ enumValues path seen xs ↔ ∃ w ∈ xs, ¬ w.isName = true ∧ w.Hides f := by
  induction xs generalizing seen with
  | nil => simp [enumValues]
  | cons x xs ih =>
    rw [enumValues, List.exists_mem_cons_iff]
    split
    · next hname =>
      rw [List.mem_cons, Finding.halt_eq_quoting_iff, ih,
        and_iff_right (filter_isName_eq_none.1 hname)]
    · next t hname =>
      obtain ⟨rfl, ht⟩ := filter_isName_eq_some.1 hname
      have hname : (Value.str t).isName = true := ht
      split
      · rw [List.mem_cons, ih]
        simp [hname]
      · rw [ih]
        simp [hname]

theorem halt_mem_enumeration_iff :
    .halt f ∈ enumeration path es ↔ ∃ w, es.Quotes .enum w ∧ w.Hides f := by
  have hquotes (w : Value) : es.Quotes .enum w ↔ ∃ v xs, es.get? "values" = some v ∧
      sequence? v = some xs ∧ w ∈ xs ∧ ¬ w.isName = true := by
    constructor
    · intro hquotes
      cases hquotes with
      | length hread _ _ => exact hread.elim
      | value hgiven hxs hmem hbad => exact ⟨_, _, hgiven, sequence?_eq_some.2 hxs, hmem, hbad⟩
    · rintro ⟨v, xs, hgiven, hxs, hmem, hbad⟩
      exact .value hgiven (sequence?_eq_some.1 hxs) hmem hbad
  simp only [hquotes]
  unfold enumeration
  split
  · next hget => simp [hget]
  · next v hget =>
    simp only [hget, Option.some_inj, ↓existsAndEq, true_and]
    split
    · next hxs => simp [hxs]
    · next hxs => simp [hxs]
    · next xs _ hxs => simp [hxs, halt_mem_enumValues_iff, and_assoc]

theorem halt_mem_blocks_iff {P : Value → Prop} {index : Nat} {xs : List Value}
    (h : ∀ x ∈ xs, ∀ inner, .halt f ∈ block inner x ↔ P x) :
    .halt f ∈ blocks path index xs ↔ ∃ x ∈ xs, P x := by
  induction xs generalizing index with
  | nil => simp [blocks]
  | cons x xs ih =>
    obtain ⟨hx, hxs⟩ := List.forall_mem_cons.1 h
    rw [blocks, List.mem_append, hx, ih hxs, List.exists_mem_cons_iff]

theorem halt_mem_itemList_iff {P : Value → Prop}
    (h : ∀ xs, v.IsSequence xs → ∀ x ∈ xs, ∀ inner, .halt f ∈ block inner x ↔ P x) :
    .halt f ∈ itemList path v ↔ ∃ xs, v.IsSequence xs ∧ ∃ x ∈ xs, P x := by
  unfold itemList
  split
  · simp [Value.IsSequence]
  · simp [Value.IsSequence]
  · next xs _ => simp [halt_mem_blocks_iff (h xs (.inl rfl)), Value.IsSequence]
  · next xs _ => simp [halt_mem_blocks_iff (h xs (.inr rfl)), Value.IsSequence]
  · next hlist htuple =>
    refine iff_of_false (by simp) ?_
    rintro ⟨xs, rfl | rfl, -⟩
    · exact hlist xs rfl
    · exact htuple xs rfl

theorem halt_mem_items_iff {P : Value → Prop}
    (h : ∀ x, es.Holds .tuple x → ∀ inner, .halt f ∈ block inner x ↔ P x) :
    .halt f ∈ items path es ↔ ∃ x, es.Holds .tuple x ∧ P x := by
  have hitems : (.halt f ∈ items path es) ↔
      ∃ v xs, es.get? "items" = some v ∧ v.IsSequence xs ∧ ∃ x ∈ xs, P x := by
    rw [items_eq]
    cases hget : es.get? "items" with
    | none => simp
    | some v =>
      rw [Option.elim_some, halt_mem_itemList_iff fun xs hxs x hx => h x (.position hget hxs hx)]
      simp
  rw [hitems]
  constructor
  · rintro ⟨v, xs, hgiven, hxs, x, hx, hP⟩
    exact ⟨x, .position hgiven hxs hx, hP⟩
  · rintro ⟨x, hholds, hP⟩
    cases hholds with
    | position hgiven hxs hx => exact ⟨_, _, hgiven, hxs, x, hx, hP⟩

theorem halt_mem_fieldBlocks_iff {P : Value → Prop} {fs : Entries}
    (h : ∀ e ∈ fs, e.1.isName = true → ∀ inner, .halt f ∈ block inner e.2 ↔ P e.2) :
    .halt f ∈ fieldBlocks path fs ↔
      (∃ e ∈ fs, ¬ e.1.isName = true ∧ e.1.Hides f) ∨ ∃ e ∈ fs, e.1.isName = true ∧ P e.2 := by
  induction fs with
  | nil => simp [fieldBlocks]
  | cons e fs ih =>
    obtain ⟨k, v⟩ := e
    obtain ⟨hv, h⟩ := List.forall_mem_cons.1 h
    rw [fieldBlocks, List.mem_append, ih h, List.exists_mem_cons_iff, List.exists_mem_cons_iff]
    split
    · next name hname =>
      obtain ⟨rfl, ht⟩ := filter_isName_eq_some.1 hname
      have hname : (Value.str name).isName = true := ht
      rw [hv hname]
      simp only [hname, not_true_eq_false, false_and, true_and, false_or]
      exact or_left_comm
    · next hname =>
      have hbad := filter_isName_eq_none.1 hname
      rw [List.mem_singleton, Finding.halt_eq_quoting_iff]
      simp only [hbad, not_false_eq_true, true_and, false_and, Bool.false_eq_true, false_or]
      exact or_assoc.symm

theorem halt_mem_fieldDict_iff {P : Value → Prop}
    (h : ∀ fs, v = .dict fs → ∀ e ∈ fs, e.1.isName = true → ∀ inner,
      .halt f ∈ block inner e.2 ↔ P e.2) :
    .halt f ∈ fieldDict path v ↔ ∃ fs : Entries, v = .dict fs ∧
      ((∃ e ∈ fs, ¬ e.1.isName = true ∧ e.1.Hides f) ∨ ∃ e ∈ fs, e.1.isName = true ∧ P e.2) := by
  unfold fieldDict
  split
  · simp
  · next fs _ => simp only [halt_mem_fieldBlocks_iff (h fs rfl), Value.dict.injEq, ↓existsAndEq,
      true_and]
  · next hdict =>
    refine iff_of_false (by simp) ?_
    rintro ⟨fs, rfl, -⟩
    exact hdict fs rfl

theorem halt_mem_fields_iff {P : Value → Prop}
    (h : ∀ x, es.Holds .map x → ∀ inner, .halt f ∈ block inner x ↔ P x) :
    .halt f ∈ fields path es ↔
      (∃ w, es.Quotes .map w ∧ w.Hides f) ∨ ∃ x, es.Holds .map x ∧ P x := by
  have hfields : (.halt f ∈ fields path es) ↔ ∃ fs : Entries, es.get? "fields" = some (.dict fs) ∧
      ((∃ e ∈ fs, ¬ e.1.isName = true ∧ e.1.Hides f) ∨ ∃ e ∈ fs, e.1.isName = true ∧ P e.2) := by
    rw [fields_eq]
    cases hget : es.get? "fields" with
    | none => simp
    | some v =>
      rw [Option.elim_some, halt_mem_fieldDict_iff (P := P)]
      · simp only [Option.some_inj]
      · rintro fs rfl e he hname
        exact h e.2 (.field hget he hname)
  rw [hfields]
  constructor
  · rintro ⟨fs, hgiven, ⟨e, he, hbad, hhides⟩ | ⟨e, he, hname, hP⟩⟩
    · exact .inl ⟨e.1, .field hgiven he hbad, hhides⟩
    · exact .inr ⟨e.2, .field hgiven he hname, hP⟩
  · rintro (⟨w, hquotes, hhides⟩ | ⟨x, hholds, hP⟩)
    · cases hquotes with
      | length hread _ _ => exact hread.elim
      | field hgiven he hbad => exact ⟨_, hgiven, .inl ⟨_, he, hbad, hhides⟩⟩
    · cases hholds with
      | field hgiven he hname => exact ⟨_, hgiven, .inr ⟨_, he, hname, hP⟩⟩

/-! ## Blocks -/

theorem halt_mem_requiredValue_iff {P : Value → Prop} {inner : Path}
    (h : ∀ x, es.get? "value" = some x → ∀ inner, .halt f ∈ block inner x ↔ P x) :
    .halt f ∈ requiredValue path inner es ↔ ∃ x, es.get? "value" = some x ∧ P x := by
  unfold requiredValue
  split
  · next hget => simp [hget]
  · next v hget => simp [hget, h v hget]

/-- What breaks the walk off among the own properties of a kind: a value quoted there, or something
in a block further in. -/
theorem halt_mem_body_iff {k : Kind} {P : Value → Prop}
    (h : ∀ x, es.Holds k x → ∀ inner, .halt f ∈ block inner x ↔ P x) :
    .halt f ∈ body path es k ↔ (∃ w, es.Quotes k w ∧ w.Hides f) ∨ ∃ x, es.Holds k x ∧ P x := by
  cases k with
  | flag =>
    refine iff_of_false List.not_mem_nil ?_
    rintro (⟨w, hquotes, -⟩ | ⟨x, hholds, -⟩)
    · cases hquotes with
      | length hread _ _ => exact hread.elim
    · cases hholds
  | number =>
    have hnone : ¬ ∃ x, es.Holds .number x ∧ P x := by
      rintro ⟨x, hholds, -⟩
      cases hholds
    rw [body, halt_mem_number_iff, or_iff_left hnone]
  | string =>
    have hnone : ¬ ∃ x, es.Holds .string x ∧ P x := by
      rintro ⟨x, hholds, -⟩
      cases hholds
    rw [body, List.mem_append, halt_mem_length_iff (k := .string) trivial, or_iff_left hnone,
      or_iff_left (noHalt_optional f)]
  | array =>
    have hholds (x : Value) : es.Holds .array x ↔ es.get? "value" = some x :=
      ⟨fun hholds => (by cases hholds; assumption), .items⟩
    simp only [hholds] at h ⊢
    rw [body, List.mem_append, halt_mem_requiredValue_iff h, or_comm]
    refine or_congr_left ?_
    split
    · next hvalue => exact halt_mem_length_iff hvalue
    · next hvalue =>
      refine iff_of_false List.not_mem_nil ?_
      rintro ⟨w, hquotes, -⟩
      cases hquotes with
      | length hread _ _ => exact hvalue hread
  | object =>
    have hholds (x : Value) : es.Holds .object x ↔ es.get? "value" = some x :=
      ⟨fun hholds => (by cases hholds; assumption), .values⟩
    simp only [hholds] at h ⊢
    rw [body, List.mem_append, List.mem_append, halt_mem_requiredValue_iff h,
      or_iff_left (noHalt_keyKind f), halt_mem_length_iff (k := .object) trivial, or_comm]
  | tuple =>
    have hnone : ¬ ∃ w, es.Quotes .tuple w ∧ w.Hides f := by
      rintro ⟨w, hquotes, -⟩
      cases hquotes with
      | length hread _ _ => exact hread.elim
    rw [body, halt_mem_items_iff h, or_iff_right hnone]
  | map => exact halt_mem_fields_iff h
  | enum =>
    have hnone : ¬ ∃ x, es.Holds .enum x ∧ P x := by
      rintro ⟨x, hholds, -⟩
      cases hholds
    rw [body, halt_mem_enumeration_iff, or_iff_left hnone]

theorem exists_kind_of_quotes {w : Value} (h : (Value.dict es).Quotes w) :
    ∃ k : Kind, es.get? "type" = some (.str k.name) := by
  cases h with
  | property kind _ => exact ⟨_, kind⟩
  | own kind _ => exact ⟨_, kind⟩
  | inside kind _ _ => exact ⟨_, kind⟩

theorem quotes_dict_iff {k : Kind} (hkind : es.get? "type" = some (.str k.name)) {w : Value} :
    (Value.dict es).Quotes w ↔
      es.Extra k.legalProperties w ∨ es.Quotes k w ∨ ∃ x, es.Holds k x ∧ x.Quotes w := by
  have hunique {l : Kind} (hl : es.get? "type" = some (.str l.name)) : l = k := by
    have hk : Grammar.kind [] es = .ok k := kind_eq_ok.2 hkind
    exact Except.ok.inj ((kind_eq_ok.2 hl).symm.trans hk)
  constructor
  · intro hquotes
    cases hquotes with
    | property kind extra => exact .inl (hunique kind ▸ extra)
    | own kind quotes => exact .inr (.inl (hunique kind ▸ quotes))
    | inside kind holds quotes => exact .inr (.inr ⟨_, hunique kind ▸ holds, quotes⟩)
  · rintro (hextra | hquotes | ⟨x, hholds, hquotes⟩)
    · exact .property hkind hextra
    · exact .own hkind hquotes
    · exact .inside hkind hholds hquotes

/-- The walk over a raw schema breaks off at the quoted values that hold a huge integer, and nowhere
else. -/
theorem halt_mem_block_iff : .halt f ∈ block path v ↔ ∃ w, v.Quotes w ∧ w.Hides f := by
  induction v using Value.innerInduction generalizing path with
  | step v ih =>
    cases v with
    | dict es =>
      cases hkind : kind path es with
      | error fs =>
        rw [block_unknown hkind]
        refine iff_of_false (noHalt_kind hkind f) ?_
        rintro ⟨w, hquotes, -⟩
        obtain ⟨k, hk⟩ := exists_kind_of_quotes hquotes
        cases hkind.symm.trans (kind_eq_ok.2 hk)
      | ok k =>
        have htype := kind_eq_ok.1 hkind
        have hinner : ∀ x, Entries.Holds es k x → ∀ inner,
            .halt f ∈ block inner x ↔ ∃ w, x.Quotes w ∧ w.Hides f := by
          intro x hholds inner
          rcases hholds.inside with hx | ⟨v, hv, hx⟩
          · exact (ih x hx).1
          · exact (ih v hv).2 x hx
        rw [block_dict htype, List.mem_append, List.mem_append, halt_mem_unexpected_iff,
          halt_mem_body_iff hinner, or_iff_left (noHalt_common f)]
        simp only [quotes_dict_iff htype, or_and_right, exists_or]
        refine or_congr_right (or_congr_right ?_)
        constructor
        · rintro ⟨x, hholds, w, hquotes, hhides⟩
          exact ⟨w, ⟨x, hholds, hquotes⟩, hhides⟩
        · rintro ⟨w, ⟨x, hholds, hquotes⟩, hhides⟩
          exact ⟨x, hholds, w, hquotes, hhides⟩
    | _ =>
      refine iff_of_false (by simp [block]) ?_
      rintro ⟨w, hquotes, -⟩
      cases hquotes

/-! ## Short integers -/

theorem shortInts_of_extra {legal : List Text} {w : Value} (hv : (Value.dict es).ShortInts)
    (h : es.Extra legal w) : w.ShortInts := by
  obtain ⟨x, hmem, -⟩ := h
  exact hv.key hmem

theorem shortInts_of_quotes {w : Value} (hv : v.ShortInts) (h : v.Quotes w) : w.ShortInts := by
  have hgiven {es : Entries} {name : Text} {x : Value} (hes : (Value.dict es).ShortInts)
      (h : es.get? name = some x) : x.ShortInts := hes.value (Entries.mem_of_get? h)
  induction h with
  | property _ extra => exact shortInts_of_extra hv extra
  | own _ quotes =>
    cases quotes with
    | bound _ given extra => exact shortInts_of_extra (hgiven hv given) extra
    | length _ given extra => exact shortInts_of_extra (hgiven hv given) extra
    | field given mem _ => exact (hgiven hv given).key mem
    | value given sequence mem _ => exact (hgiven hv given).part (sequence.parts.symm ▸ mem)
  | inside _ holds _ ih =>
    refine ih ?_
    rcases holds.inside with hx | ⟨v, hv', hx⟩
    · exact hv.part hx
    · exact (hv.part hv').part hx

theorem noHalt_block_iff (path : Path) :
    NoHalt (block path v) ↔ ∀ w, v.Quotes w → w.ShortInts := by
  simp only [NoHalt, halt_mem_block_iff, Value.Hides]
  constructor
  · intro h w hquotes
    by_contra hlong
    exact h _ ⟨w, hquotes, hlong, rfl⟩
  · rintro h f ⟨w, hquotes, hlong, -⟩
    exact hlong (h w hquotes)

end Grammar

end DocShape
