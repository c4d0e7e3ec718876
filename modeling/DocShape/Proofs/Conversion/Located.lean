import DocShape.Proofs.Conversion.Nodes
import DocShape.Proofs.Conversion.Placing
import DocShape.Proofs.Conversion.WalkFindings
import DocShape.Proofs.Paths

/-!
# Errors are found where they belong

A caller is told of an error where it is and what it says (`Complaint.told`). Following the path of an
error from the root through value and block leads to one node (`Reaches.unique`), and converting that
node on its own finds the error at the root, as often as it is found on the whole
(`exists_reaches_of_mem_told`, `count_told_of_reaches`).
-/

namespace DocShape

/-- What a caller is told of an error: the segments of its path, and what it says. -/
def Complaint.told (c : Complaint) : List Text × Text := (c.path.map Segment.text, c.message)

/-- What a caller is told of a finding, if it is an error. -/
def Finding.told? : Finding → Option (List Text × Text)
  | error c => some c.told
  | _ => none

/-- What a caller is told of the errors among some findings. -/
def told (fs : List Finding) : List (List Text × Text) := fs.filterMap Finding.told?

section Told

variable {fs gs : List Finding}

theorem told_append : told (fs ++ gs) = told fs ++ told gs := List.filterMap_append

theorem told_flatMap {α : Type} (l : List α) (f : α → List Finding) :
    told (l.flatMap f) = l.flatMap fun a => told (f a) := by
  rw [told, List.filterMap_flatMap]
  rfl

theorem Finding.told?_under (path : Path) (f : Finding) :
    (f.under path).told? = f.told?.map fun e => (path.map Segment.text ++ e.1, e.2) := by
  cases f with
  | error c => simp [Finding.under, Finding.told?, Complaint.told]
  | warning w => rfl
  | halt f => rfl

theorem told_map_under (path : Path) (fs : List Finding) :
    told (fs.map (.under path)) = (told fs).map fun e => (path.map Segment.text ++ e.1, e.2) := by
  rw [told, told, List.filterMap_map, List.map_filterMap]
  exact congrArg (fun g => fs.filterMap g) (funext (Finding.told?_under path))

/-- In collect-all mode all errors count, unless the walk is broken off. -/
theorem told_settle (h : NoHalt fs) :
    (settle .collectAll fs).errors.map Complaint.told = told fs := by
  induction fs with
  | nil => rfl
  | cons f fs ih =>
    have hrest := h.tail
    cases f with
    | error c =>
      rw [settle_collectAll_error, List.map_cons, ih hrest]
      rfl
    | warning w => exact ih hrest
    | halt f => exact absurd List.mem_cons_self (h f)

end Told

/-! ## Findings at one node -/

/-- A finding at the node at a path, or a reason to break off. -/
inductive Finding.IsAt (path : Path) : Finding → Prop
  | mismatch (cause : Mismatch) : IsAt path (.mismatch path cause)
  | halt (f : Failure) : IsAt path (.halt f)

namespace Finding

variable {path : Path} {f : Finding}

theorem OfRule.isAt (h : OfRule path f) : IsAt path f := by
  cases h with
  | mismatch cause _ => exact .mismatch cause
  | halt f => exact .halt f

theorem IsAt.path_of_told {e : List Text × Text} (h : IsAt path f) (he : f.told? = some e) :
    e.1 = path.map Segment.text := by
  cases h with
  | mismatch cause => rw [← Option.some.inj he]; rfl
  | halt f => cases he

theorem isAt_quoting {v : Value} {cause : Text → Mismatch} :
    IsAt path (quoting v fun shown => .mismatch path (cause shown)) := by
  unfold quoting
  split
  · exact .mismatch _
  · exact .halt _

theorem isAt_of_singleton {cause : Mismatch} (h : f ∈ [Finding.mismatch path cause]) :
    IsAt path f := by
  rw [List.mem_singleton.1 h]
  exact .mismatch cause

end Finding

namespace Block

variable {d : Direction} {path : Path} {b c : Block} {v u : Value} {f : Finding}

theorem isAt_keyFindings {kind : KeyKind} {index : Nat} {es : Entries}
    (h : f ∈ keyFindings d path kind index es) : f.IsAt path := by
  induction es generalizing index with
  | nil => cases h
  | cons e es ih =>
    obtain ⟨k, x⟩ := e
    rw [keyFindings] at h
    split at h
    · rcases List.mem_cons.1 h with rfl | h
      · exact .mismatch _
      · exact ih h
    · rcases List.mem_cons.1 h with rfl | h
      · exact .halt _
      · exact ih h
    · exact ih h

theorem isAt_fieldFindings {fields : List (Text × Block)} {es : Entries}
    (h : f ∈ es.filterMap (fieldFinding? path fields)) : f.IsAt path := by
  obtain ⟨e, -, he⟩ := List.mem_filterMap.1 h
  rw [fieldFinding?] at he
  split at he
  · rw [← Option.some.inj he]
    exact Finding.isAt_quoting
  · cases he

theorem isAt_missingFields {es : Entries} {fields : List (Text × Block)}
    (h : f ∈ (missingFields path es fields).2) : f.IsAt path := by
  induction fields with
  | nil => cases h
  | cons g fields ih =>
    cases hhas : es.has g.1 with
    | true =>
      rw [missingFields_of_has hhas] at h
      exact ih h
    | false =>
      cases hoption : g.2.isOptional with
      | true =>
        rw [missingFields_of_optional hhas hoption] at h
        exact ih h
      | false =>
        rw [missingFields_of_missing hhas hoption] at h
        rcases List.mem_cons.1 h with rfl | h
        · exact .mismatch _
        · exact ih h

theorem isAt_convertNumber {decimal : Bool} {minimum maximum : Setting Limit}
    (h : f ∈ (convertNumber d path decimal minimum maximum v).findings) : f.IsAt path := by
  unfold convertNumber at h
  split at h
  · exact Finding.isAt_of_singleton h
  · split at h
    · exact Finding.isAt_of_singleton h
    · rcases List.mem_append.1 (Converted.mem_findings_leaf h) with h | h
      · split at h
        · cases h
        · exact (ofRule_checkLeast h).isAt
      · split at h
        · cases h
        · exact (ofRule_checkMost h).isAt

/-- What is found at a node apart from its parts is found there. -/
theorem isAt_ownFindings [Host] (h : f ∈ b.ownFindings d path v) : f.IsAt path := by
  rw [ownFindings] at h
  split at h
  · cases h
  cases b with
  | flag h' =>
    cases v with
    | bool x => cases h
    | _ => exact Finding.isAt_of_singleton h
  | number h' decimal minimum maximum => exact isAt_convertNumber h
  | string h' length pattern =>
    cases v with
    | str t =>
      rcases List.mem_append.1 (Converted.mem_findings_leaf h) with h | h
      · exact (ofRule_checkLength h).isAt
      · exact (ofRule_checkPattern h).isAt
    | _ => exact Finding.isAt_of_singleton h
  | array h' value length =>
    rw [ownNodeFindings] at h
    split at h
    · exact Finding.isAt_of_singleton h
    · exact (ofRule_checkLength h).isAt
  | object h' kind value length =>
    cases v with
    | dict es =>
      rcases List.mem_append.1 h with h | h
      · exact (ofRule_checkLength h).isAt
      · exact isAt_keyFindings h
    | _ => exact Finding.isAt_of_singleton h
  | tuple h' items =>
    rw [ownNodeFindings] at h
    split at h
    · exact Finding.isAt_of_singleton h
    · split at h
      · cases h
      · exact Finding.isAt_of_singleton h
  | map h' fields =>
    cases v with
    | dict es =>
      rcases List.mem_append.1 h with h | h
      · exact isAt_fieldFindings h
      · exact isAt_missingFields h
    | _ => exact Finding.isAt_of_singleton h
  | enum h' values =>
    cases v with
    | str t =>
      have h := Converted.mem_findings_leaf h
      split at h
      · cases h
      · exact Finding.isAt_of_singleton h
    | _ => exact Finding.isAt_of_singleton h

/-! ## A path leads to one node -/

end Block

theorem Text.ofInt_injective : Function.Injective Text.ofInt := by
  intro m n h
  rw [← Direction.readInteger_ofInt m, h, Direction.readInteger_ofInt]

/-- Two keys of a kind that are named alike in paths are one key. -/
theorem Direction.key?_unique {d : Direction} {kind : KeyKind} {k k' key key' : Value} {shown : Text}
    (h : d.key? kind k = some (.ok (key, shown))) (h' : d.key? kind k' = some (.ok (key', shown))) :
    k = k' ∧ k.equals k = true := by
  cases kind with
  | integer =>
    obtain ⟨m, hm, -, -, hshown⟩ := exists_int_of_integerKey?_ok h
    obtain ⟨n, hn, -, -, hshown'⟩ := exists_int_of_integerKey?_ok h'
    -- an integer key is named by the integer it is read as, in its one spelling
    obtain rfl : m = n := Text.ofInt_injective (hshown.symm.trans hshown')
    cases hm with
    | spelled =>
      cases hn
      exact ⟨rfl, by simp⟩
    | native =>
      cases hn
      exact ⟨rfl, by simp [Value.equals_int]⟩
  | string =>
    cases k with
    | str s =>
      cases k' with
      | str t =>
        simp only [key?] at h h'
        split at h
        · split at h'
          · obtain ⟨-, rfl⟩ := Prod.mk.inj (Except.ok.inj (Option.some.inj h))
            obtain ⟨-, rfl⟩ := Prod.mk.inj (Except.ok.inj (Option.some.inj h'))
            exact ⟨rfl, by simp⟩
          · cases h'
        · cases h
      | _ => cases h'
    | _ => cases h

namespace Block

variable {d : Direction} {path : Path} {b c : Block} {v u : Value}

/-- Parts numbered upwards from an index, with segments that are apart. -/
structure NumberedFrom (segment : Nat → Segment) (index : Nat) (ps : List Part) : Prop where
  numbered : ∀ part ∈ ps, ∃ i, index ≤ i ∧ part.segment = segment i
  apart : (ps.map fun part => part.segment.text).Nodup

theorem numberedFrom_nil (segment : Nat → Segment) (index : Nat) : NumberedFrom segment index [] :=
  ⟨fun _ h => (by cases h), List.nodup_nil⟩

theorem NumberedFrom.cons {segment : Nat → Segment} {index : Nat} {ps : List Part} {part : Part}
    (hsegment : Function.Injective fun i => (segment i).text) (hpart : part.segment = segment index)
    (h : NumberedFrom segment (index + 1) ps) : NumberedFrom segment index (part :: ps) := by
  constructor
  · intro q hq
    rcases List.mem_cons.1 hq with rfl | hq
    · exact ⟨index, le_rfl, hpart⟩
    · obtain ⟨i, hi, hq⟩ := h.numbered q hq
      exact ⟨i, (Nat.le_succ index).trans hi, hq⟩
  · rw [List.map_cons, List.nodup_cons]
    refine ⟨?_, h.apart⟩
    intro hmem
    obtain ⟨q, hq, htext⟩ := List.mem_map.1 hmem
    obtain ⟨i, hi, hnumber⟩ := h.numbered q hq
    rw [hnumber, hpart] at htext
    exact absurd (hsegment htext) (Nat.ne_of_gt hi)

theorem numberedFrom_items (value : Block) (index : Nat) (xs : List Value) :
    NumberedFrom .item index (Part.items value index xs) := by
  induction xs generalizing index with
  | nil => exact numberedFrom_nil _ index
  | cons x xs ih => exact (ih (index + 1)).cons Segment.item_text_injective rfl

theorem numberedFrom_positions (index : Nat) (bs : List Block) (xs : List Value) :
    NumberedFrom .position index (Part.positions index bs xs) := by
  induction bs generalizing index xs with
  | nil => exact numberedFrom_nil _ index
  | cons b bs ih =>
    cases xs with
    | nil => exact numberedFrom_nil _ index
    | cons x xs => exact (ih (index + 1) xs).cons Segment.position_text_injective rfl

theorem nodup_entries (kind : KeyKind) (value : Block) {es : Entries} (hes : es.Distinct) :
    ((es.filterMap (Part.entry? d kind value)).map fun part => part.segment.text).Nodup := by
  rw [List.nodup_iff_pairwise_ne, List.pairwise_map, List.pairwise_filterMap]
  refine hes.imp fun {e e'} hne part hpart part' hpart' htext => ?_
  obtain ⟨key, shown, hkey, rfl⟩ := entry?_eq_some.1 hpart
  obtain ⟨key', shown', hkey', rfl⟩ := entry?_eq_some.1 hpart'
  obtain rfl := Segment.entry_text_injective htext
  obtain ⟨hsame, hequals⟩ := Direction.key?_unique hkey hkey'
  rw [← hsame, hequals] at hne
  cases hne

theorem nodup_fields (fields : List (Text × Block)) {es : Entries} (hes : es.Distinct) :
    ((es.filterMap (Part.field? fields)).map fun part => part.segment.text).Nodup := by
  rw [List.nodup_iff_pairwise_ne, List.pairwise_map, List.pairwise_filterMap]
  refine hes.imp fun {e e'} hne part hpart part' hpart' htext => ?_
  obtain ⟨name, c, hname, -, rfl⟩ := field?_eq_some.1 hpart
  obtain ⟨name', c', hname', -, rfl⟩ := field?_eq_some.1 hpart'
  rw [hname, hname', Segment.field_text_injective htext, Value.equals_str, beq_self_eq_true] at hne
  cases hne

/-- The segments that lead to the parts of a node are apart. -/
theorem nodup_segments (hv : v.Keyed) :
    ((b.partsIn d v).map fun part => part.segment.text).Nodup := by
  cases b with
  | array h value length => exact (numberedFrom_items value 0 _).apart
  | object h kind value length =>
    cases v with
    | dict es => exact nodup_entries kind value hv.here
    | _ => exact List.nodup_nil
  | tuple h items =>
    rw [partsIn]
    split
    · split
      · exact (numberedFrom_positions 0 items _).apart
      · exact List.nodup_nil
    · exact List.nodup_nil
  | map h fields =>
    cases v with
    | dict es => exact nodup_fields fields hv.here
    | _ => exact List.nodup_nil
  | _ => exact List.nodup_nil

theorem keyed_part {part : Part} (hv : v.Keyed) (h : part ∈ b.partsIn d v) : part.value.Keyed :=
  hv.inside _ (value_mem_parts h)

/-- Paths that are told alike lead to one node. -/
theorem Reaches.unique {c' : Block} {u' : Value} {below below' : Path} (hv : v.Keyed)
    (h : Reaches d b v below c u) (h' : Reaches d b v below' c' u')
    (htexts : below.map Segment.text = below'.map Segment.text) :
    below = below' ∧ c = c' ∧ u = u' := by
  induction h generalizing below' with
  | here =>
    cases h' with
    | here => exact ⟨rfl, rfl, rfl⟩
    | inside => cases htexts
  | inside mem _ ih =>
    cases h' with
    | here => cases htexts
    | inside mem' rest' =>
      obtain ⟨htext, hrest⟩ := List.cons.inj htexts
      obtain rfl := List.inj_on_of_nodup_map (nodup_segments hv) mem mem' htext
      obtain ⟨rfl, hc, hu⟩ := ih (keyed_part hv mem) rest' hrest
      exact ⟨rfl, hc, hu⟩

/-! ## What is told of a part -/

/-- What is found on a node that is reached is found on the whole. -/
theorem Reaches.findings_subset [Host] {below : Path} (h : Reaches d b v below c u) (path : Path)
    {f : Finding} (hf : f ∈ (c.convert d (path ++ below) u).findings) :
    f ∈ (b.convert d path v).findings := by
  induction h generalizing path with
  | here => rwa [List.append_nil] at hf
  | @inside b _ v _ part _ mem _ ih =>
    rw [(findings_perm d path b v).mem_iff, List.mem_append, List.mem_flatMap]
    refine .inr ⟨part, mem, ih (path ++ [part.segment]) ?_⟩
    rwa [List.append_assoc]

theorem Reaches.noHalt [Host] {below : Path} (h : Reaches d b v below c u)
    (hfree : NoHalt (b.convert d [] v).findings) : NoHalt (c.convert d [] u).findings := by
  have hbelow : NoHalt (c.convert d below u).findings :=
    fun f hf => hfree f (h.findings_subset [] hf)
  rwa [findings_convert, noHalt_map_under] at hbelow

/-- What is told of the part at a segment, among parts whose segments are apart. -/
theorem count_told_parts [Host] {ps : List Part} (hps : (ps.map fun part => part.segment.text).Nodup)
    {part : Part} (hpart : part ∈ ps) (p : List Text) (m : Text) :
    (told (ps.flatMap (Part.findings d []))).count (part.segment.text :: p, m) =
      (told (part.block.convert d [] part.value).findings).count (p, m) := by
  have htold (q : Part) : told (q.findings d []) =
      (told (q.block.convert d [] q.value).findings).map fun e => (q.segment.text :: e.1, e.2) := by
    rw [Part.findings, findings_convert, told_map_under]
    rfl
  have hinjective (s : Text) :
      Function.Injective fun e : List Text × Text => (s :: e.1, e.2) := by
    rintro ⟨q, n⟩ ⟨q', n'⟩ h
    simpa using h
  have hother {q : Part} (hq : q.segment.text ≠ part.segment.text) :
      (part.segment.text :: p, m) ∉ told (q.findings d []) := by
    rw [htold, List.mem_map]
    rintro ⟨e, -, he⟩
    exact hq (List.cons.inj (Prod.mk.inj he).1).1
  induction ps with
  | nil => cases hpart
  | cons q ps ih =>
    obtain ⟨hq, hrest⟩ := List.nodup_cons.1 hps
    rw [List.flatMap_cons, told_append, List.count_append]
    rcases List.mem_cons.1 hpart with rfl | hpart
    · have hnone : (told (ps.flatMap (Part.findings d []))).count (part.segment.text :: p, m) = 0 := by
        rw [List.count_eq_zero, told_flatMap, List.mem_flatMap]
        rintro ⟨q, hmem, he⟩
        exact hother (fun heq => hq (List.mem_map.2 ⟨q, hmem, heq⟩)) he
      rw [hnone, Nat.add_zero, htold]
      exact List.count_map_of_injective _ _ (hinjective _) (p, m)
    · have hne : q.segment.text ≠ part.segment.text :=
        fun heq => hq (List.mem_map.2 ⟨part, hpart, heq.symm⟩)
      rw [List.count_eq_zero.2 (hother hne), Nat.zero_add, ih hrest hpart]

/-- An error on a node that is reached is told of as often as when the node is converted on its own. -/
theorem count_told_of_reaches [Host] {below : Path} (hv : v.Keyed) (h : Reaches d b v below c u)
    (m : Text) :
    (told (b.convert d [] v).findings).count (below.map Segment.text, m) =
      (told (c.convert d [] u).findings).count ([], m) := by
  induction h with
  | here => rfl
  | @inside b _ v _ part below mem _ ih =>
    have hown : (told (b.ownFindings d [] v)).count
        (part.segment.text :: below.map Segment.text, m) = 0 := by
      rw [List.count_eq_zero, told, List.mem_filterMap]
      rintro ⟨f, hf, he⟩
      cases (isAt_ownFindings hf).path_of_told he
    have hperm := (findings_perm d [] b v).filterMap Finding.told?
    rw [List.map_cons, told, hperm.count_eq, ← told, told_append, List.count_append, hown,
      Nat.zero_add, count_told_parts (nodup_segments hv) mem, ih (keyed_part hv mem)]

/-- An error that is told of stands at a node that is reached, and is told of the node on its own. -/
theorem exists_reaches_of_mem_told [Host] {p : List Text} {m : Text}
    (h : (p, m) ∈ told (b.convert d [] v).findings) :
    ∃ below c u, Reaches d b v below c u ∧ below.map Segment.text = p ∧
      ([], m) ∈ told (c.convert d [] u).findings := by
  obtain ⟨f, hf, he⟩ := List.mem_filterMap.1 h
  obtain ⟨below, c, u, hreach, hown⟩ := mem_findings_iff.1 hf
  rw [List.nil_append] at hown
  obtain rfl : p = below.map Segment.text := (isAt_ownFindings hown).path_of_told he
  refine ⟨below, c, u, hreach, rfl, ?_⟩
  have hfound : f ∈ (c.convert d below u).findings := by
    rw [(findings_perm d below c u).mem_iff]
    exact List.mem_append_left _ hown
  have hmem : (below.map Segment.text, m) ∈ told (c.convert d below u).findings :=
    List.mem_filterMap.2 ⟨f, hfound, he⟩
  rw [findings_convert, told_map_under] at hmem
  obtain ⟨⟨q, n⟩, halone, heq⟩ := List.mem_map.1 hmem
  obtain ⟨hpath, rfl⟩ := Prod.mk.inj heq
  obtain rfl : q = [] := List.append_right_eq_self.1 hpath
  exact halone

end Block

end DocShape
