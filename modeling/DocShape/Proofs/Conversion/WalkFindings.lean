import DocShape.Proofs.Conversion.Walk
import DocShape.Proofs.Findings

/-!
# What a walk finds

Rules on single nodes yield findings of one form (`Finding.OfRule`): an error at that very node that
is not about its shape, or a reason to break off. So nothing in the walk warns (`not_warning`), only
the words for a shape depend on the direction, and an error lies where the walk went
(`ofWalk_convert`). What breaks the walk off is never a mismatch of the value, so it is told from what the
walk reports (`toldApart_convert`). A walk that finds nothing found nothing at any step (`clean_entries`,
`clean_fieldEntries`).
-/

namespace DocShape

/-! ## Findings of rules -/

/-- Whether a mismatch is about the shape of a node. -/
def Mismatch.isExpectation : Mismatch → Bool
  | expected _ _ => true
  | _ => false

/-- A mismatch about the shape of a node names the direction of the walk. -/
def Mismatch.InWordsOf (d : Direction) : Mismatch → Prop
  | expected _ d' => d' = d
  | _ => True

/-- A failure that is no mismatch of a value. -/
def Failure.NoMismatch (f : Failure) : Prop := ∀ path cause, f ≠ .complaint (.mismatch path cause)

theorem Number.noMismatch_truncate {n : Number} {f : Failure} (h : n.truncate = .error f) :
    f.NoMismatch := by
  unfold Number.truncate at h
  split at h
  · cases h
  · obtain rfl := Except.error.inj h
    exact nofun
  · obtain rfl := Except.error.inj h
    exact nofun
  · cases h

theorem Pattern.Refusal.noMismatch (refusal : Pattern.Refusal) (path : Path) :
    (refusal.failure path).NoMismatch := by
  cases refusal <;> exact nofun

theorem Direction.noMismatch_key {d : Direction} {kind : KeyKind} {k : Value} {f : Failure}
    (h : d.key? kind k = some (.error f)) : f.NoMismatch := by
  unfold Direction.key? Direction.integerKey? at h
  split at h
  · split at h
    · split at h
      · obtain h := Option.some.inj h
        split at h
        · cases h
        · obtain rfl := Except.error.inj h
          exact nofun
      · cases h
    · split at h
      · cases h
      · obtain rfl := Except.error.inj (Option.some.inj h)
        exact nofun
    · cases h
  · split at h <;> cases h
  · cases h

/-- What a rule yields on the node at a path. -/
inductive Finding.OfRule (path : Path) : Finding → Prop
  | mismatch (cause : Mismatch) (h : cause.isExpectation = false) :
    OfRule path (.mismatch path cause)
  | halt (f : Failure) (h : f.NoMismatch) : OfRule path (.halt f)

section Rules

variable {path : Path} {f : Finding}

theorem Finding.ofRule_quotingInt {n : Int} {cause : Text → Mismatch}
    (hcause : ∀ t, (cause t).isExpectation = false) :
    OfRule path (quotingInt n fun shown => .mismatch path (cause shown)) := by
  unfold quotingInt
  split
  · exact .mismatch _ (hcause _)
  · exact .halt _ nofun

theorem ofRule_checkLeast {node : Number} {limit : Limit} (h : f ∈ limit.checkLeast path node) :
    f.OfRule path := by
  unfold Limit.checkLeast at h
  split at h
  · rw [List.mem_singleton.1 h]
    exact .halt _ nofun
  · split at h <;> split at h
    · cases h
    · rw [List.mem_singleton.1 h]
      exact .mismatch _ rfl
    · cases h
    · rw [List.mem_singleton.1 h]
      exact .mismatch _ rfl

theorem ofRule_checkMost {node : Number} {limit : Limit} (h : f ∈ limit.checkMost path node) :
    f.OfRule path := by
  unfold Limit.checkMost at h
  split at h
  · rw [List.mem_singleton.1 h]
    exact .halt _ nofun
  · split at h <;> split at h
    · cases h
    · rw [List.mem_singleton.1 h]
      exact .mismatch _ rfl
    · cases h
    · rw [List.mem_singleton.1 h]
      exact .mismatch _ rfl

theorem ofRule_checkLengthBound {bound : Number} {test : Int → Bool} {cause : Text → Mismatch}
    (hcause : ∀ t, (cause t).isExpectation = false)
    (h : f ∈ checkLengthBound bound test fun shown => .mismatch path (cause shown)) :
    f.OfRule path := by
  unfold checkLengthBound at h
  split at h
  · next htruncate =>
    rw [List.mem_singleton.1 h]
    exact .halt _ (Number.noMismatch_truncate htruncate)
  · split at h
    · cases h
    · rw [List.mem_singleton.1 h]
      exact Finding.ofRule_quotingInt hcause

theorem ofRule_checkOptionalBound {bound : Setting Number} {test : Int → Bool}
    {cause : Text → Mismatch} (hcause : ∀ t, (cause t).isExpectation = false)
    (h : f ∈ checkOptionalBound bound test fun shown => .mismatch path (cause shown)) :
    f.OfRule path := by
  unfold checkOptionalBound at h
  split at h
  · cases h
  · exact ofRule_checkLengthBound hcause h

theorem ofRule_checkLength {size : Nat} {rule : Setting LengthRule}
    (h : f ∈ checkLength path size rule) : f.OfRule path := by
  unfold checkLength at h
  split at h
  · cases h
  · next r _ =>
    cases r with
    | exactly n => exact ofRule_checkLengthBound (fun _ => rfl) h
    | range r =>
      rw [LengthRule.check] at h
      split at h
      · exact ofRule_checkOptionalBound (fun _ => rfl) h
      · exact ofRule_checkOptionalBound (fun _ => rfl) h

theorem ofRule_checkPattern [Host] {t : Text} {pattern : Setting Text}
    (h : f ∈ checkPattern path t pattern) : f.OfRule path := by
  unfold checkPattern at h
  split at h
  · cases h
  · split at h
    · rw [List.mem_singleton.1 h]
      exact .halt _ (Pattern.Refusal.noMismatch _ path)
    · split at h
      · cases h
      · rw [List.mem_singleton.1 h]
        exact .mismatch _ rfl

end Rules

/-! ## Findings of the walk -/

/-- What a walk yields on a node at a path: an error at that node or inside it, in the words of its
direction, or a reason to break off. -/
inductive Finding.OfWalk (d : Direction) (path : Path) : Finding → Prop
  | mismatch (below : Path) (cause : Mismatch) (h : cause.InWordsOf d) :
    OfWalk d path (.mismatch (path ++ below) cause)
  | halt (f : Failure) (h : f.NoMismatch) : OfWalk d path (.halt f)

namespace Finding

variable {d : Direction} {path : Path} {f : Finding}

theorem ofWalk_here {cause : Mismatch} (hcause : cause.InWordsOf d) :
    OfWalk d path (.mismatch path cause) := by
  have h : OfWalk d path (.mismatch (path ++ []) cause) := .mismatch [] cause hcause
  rwa [List.append_nil] at h

theorem OfRule.ofWalk (h : OfRule path f) : OfWalk d path f := by
  cases h with
  | mismatch cause hcause =>
    refine ofWalk_here ?_
    cases cause with
    | expected => cases hcause
    | _ => trivial
  | halt f hf => exact .halt f hf

theorem OfWalk.up {segment : Segment} (h : OfWalk d (path ++ [segment]) f) : OfWalk d path f := by
  cases h with
  | mismatch below cause hcause =>
    rw [List.append_assoc]
    exact .mismatch _ _ hcause
  | halt f hf => exact .halt f hf

theorem OfWalk.not_warning (h : OfWalk d path f) (w : Warning) : f ≠ .warning w := by
  cases h with
  | mismatch below cause => exact fun h => by cases h
  | halt f => exact fun h => by cases h

end Finding

namespace Converted

variable {path : Path} {f : Finding}

theorem mem_items {convert : Nat → Value → Converted} {index : Nat} {xs : List Value}
    {c : Converted} (h : c ∈ items convert index xs) : ∃ i, ∃ x ∈ xs, c = convert i x := by
  induction xs generalizing index with
  | nil => cases h
  | cons x xs ih =>
    rcases List.mem_cons.1 h with rfl | h
    · exact ⟨index, x, List.mem_cons_self, rfl⟩
    · obtain ⟨i, y, hy, hc⟩ := ih h
      exact ⟨i, y, List.mem_cons_of_mem _ hy, hc⟩

theorem mem_findings_ofItems {before : List Finding} {parts : List Converted}
    (h : f ∈ (ofItems before parts).findings) : f ∈ before ∨ ∃ c ∈ parts, f ∈ c.findings :=
  (List.mem_append.1 h).imp_right List.mem_flatMap.1

theorem mem_findings_leaf {v : Value} {findings : List Finding}
    (h : f ∈ (leaf v findings).findings) : f ∈ findings := h

theorem ofWalk_entries {d : Direction} {kind : KeyKind} {convert : Path → Value → Converted}
    (hconvert : ∀ path x, ∀ f ∈ (convert path x).findings, f.OfWalk d path) {index : Nat}
    {es : Entries} (h : f ∈ (entries d path kind convert index es).2) : f.OfWalk d path := by
  induction es generalizing index with
  | nil => cases h
  | cons e es ih =>
    obtain ⟨k, v⟩ := e
    cases hk : d.key? kind k with
    | none =>
      rw [entries_of_bad hk] at h
      rcases List.mem_cons.1 h with rfl | h
      · exact Finding.ofWalk_here trivial
      · exact ih h
    | some r =>
      cases r with
      | error failure =>
        rw [entries_of_halt hk] at h
        rcases List.mem_cons.1 h with rfl | h
        · exact .halt _ (Direction.noMismatch_key hk)
        · exact ih h
      | ok key =>
        rw [entries_of_key hk] at h
        rcases List.mem_append.1 h with h | h
        · exact (hconvert _ _ f h).up
        · exact ih h

end Converted

theorem ofWalk_missingFields {d : Direction} {path : Path} {es : Entries} {fields : List (Text × Block)}
    {f : Finding} (h : f ∈ (missingFields path es fields).2) : f.OfWalk d path := by
  induction fields with
  | nil => cases h
  | cons field fields ih =>
    cases hhas : es.has field.1 with
    | true =>
      rw [missingFields_of_has hhas] at h
      exact ih h
    | false =>
      cases hoption : field.2.isOptional with
      | true =>
        rw [missingFields_of_optional hhas hoption] at h
        exact ih h
      | false =>
        rw [missingFields_of_missing hhas hoption] at h
        rcases List.mem_cons.1 h with rfl | h
        · exact Finding.ofWalk_here trivial
        · exact ih h

namespace Block

theorem mem_convertPositions [Host] {d : Direction} {path : Path} {index : Nat} {bs : List Block}
    {xs : List Value} {c : Converted} (h : c ∈ convertPositions d path index bs xs) :
    ∃ i, ∃ b ∈ bs, ∃ x, c = b.convert d (path ++ [.position i]) x := by
  induction bs generalizing index xs with
  | nil => cases h
  | cons b bs ih =>
    cases xs with
    | nil => cases h
    | cons x xs =>
      rcases List.mem_cons.1 h with rfl | h
      · exact ⟨index, b, List.mem_cons_self, x, rfl⟩
      · obtain ⟨i, b', hb', y, hc⟩ := ih h
        exact ⟨i, b', List.mem_cons_of_mem _ hb', y, hc⟩

/-- The walk along a block finds nothing but what a walk may find. -/
def FindsInWalk [Host] (b : Block) (d : Direction) : Prop :=
  ∀ path v, ∀ f ∈ (b.convert d path v).findings, f.OfWalk d path

theorem ofWalk_fieldEntries [Host] {d : Direction} {path : Path} {fields : List (Text × Block)}
    (hfields : ∀ g ∈ fields, g.2.FindsInWalk d) {es : Entries} {f : Finding}
    (h : f ∈ (fieldEntries d path fields es).2) : f.OfWalk d path := by
  induction es with
  | nil => cases h
  | cons e es ih =>
    obtain ⟨k, v⟩ := e
    cases hb : fieldOf? fields k with
    | some b =>
      obtain ⟨name, rfl, hname⟩ := fieldOf?_eq_some.1 hb
      rw [fieldEntries_of_field hname] at h
      rcases List.mem_append.1 h with h | h
      · exact (hfields _ (mem_of_lookup hname) _ _ f h).up
      · exact ih h
    | none =>
      rw [fieldEntries_of_unexpected hb] at h
      rcases List.mem_cons.1 h with rfl | h
      · rw [Finding.quoting]
        split
        · exact Finding.ofWalk_here trivial
        · exact .halt _ nofun
      · exact ih h

section Kinds

variable {d : Direction} {path : Path} {v : Value} {f : Finding}

theorem ofWalk_failed {cause : Mismatch}
    (h : f ∈ (Converted.failed [.mismatch path cause]).findings) (hcause : cause.InWordsOf d) :
    f.OfWalk d path := by
  rw [List.mem_singleton.1 h]
  exact Finding.ofWalk_here hcause

theorem ofWalk_convertFlag (h : f ∈ (convertFlag d path v).findings) : f.OfWalk d path := by
  cases v with
  | bool b => cases h
  | _ => exact ofWalk_failed h rfl

theorem ofWalk_convertNumber {decimal : Bool} {minimum maximum : Setting Limit}
    (h : f ∈ (convertNumber d path decimal minimum maximum v).findings) : f.OfWalk d path := by
  unfold convertNumber at h
  split at h
  · exact ofWalk_failed h rfl
  · split at h
    · exact ofWalk_failed h trivial
    · rcases List.mem_append.1 (Converted.mem_findings_leaf h) with h | h
      · split at h
        · cases h
        · exact (ofRule_checkLeast h).ofWalk
      · split at h
        · cases h
        · exact (ofRule_checkMost h).ofWalk

theorem ofWalk_convertString [Host] {length : Setting LengthRule} {pattern : Setting Text}
    (h : f ∈ (convertString d path length pattern v).findings) : f.OfWalk d path := by
  unfold convertString at h
  split at h
  · rcases List.mem_append.1 (Converted.mem_findings_leaf h) with h | h
    · exact (ofRule_checkLength h).ofWalk
    · exact (ofRule_checkPattern h).ofWalk
  · exact ofWalk_failed h rfl

theorem ofWalk_convertArray [Host] {value : Block} {length : Setting LengthRule}
    (hvalue : value.FindsInWalk d) (h : f ∈ (convertArray d path value length v).findings) :
    f.OfWalk d path := by
  unfold convertArray at h
  split at h
  · exact ofWalk_failed h rfl
  · rcases Converted.mem_findings_ofItems h with h | ⟨c, hc, h⟩
    · exact (ofRule_checkLength h).ofWalk
    · obtain ⟨i, x, -, rfl⟩ := Converted.mem_items hc
      exact (hvalue _ _ f h).up

theorem ofWalk_convertObject [Host] {key : KeyKind} {value : Block} {length : Setting LengthRule}
    (hvalue : value.FindsInWalk d) (h : f ∈ (convertObject d path key value length v).findings) :
    f.OfWalk d path := by
  unfold convertObject at h
  split at h
  · rcases List.mem_append.1 h with h | h
    · exact (ofRule_checkLength h).ofWalk
    · exact Converted.ofWalk_entries hvalue h
  · exact ofWalk_failed h rfl

theorem ofWalk_convertTuple [Host] {items : List Block} (hitems : ∀ b ∈ items, b.FindsInWalk d)
    (h : f ∈ (convertTuple d path items v).findings) : f.OfWalk d path := by
  unfold convertTuple at h
  split at h
  · exact ofWalk_failed h rfl
  · split at h
    · rcases Converted.mem_findings_ofItems h with h | ⟨c, hc, h⟩
      · cases h
      · obtain ⟨i, b, hb, x, rfl⟩ := mem_convertPositions hc
        exact (hitems b hb _ _ f h).up
    · exact ofWalk_failed h trivial

theorem ofWalk_convertMap [Host] {fields : List (Text × Block)}
    (hfields : ∀ g ∈ fields, g.2.FindsInWalk d)
    (h : f ∈ (convertMap d path fields v).findings) : f.OfWalk d path := by
  unfold convertMap at h
  split at h
  · rcases List.mem_append.1 h with h | h
    · exact ofWalk_fieldEntries hfields h
    · exact ofWalk_missingFields h
  · exact ofWalk_failed h rfl

theorem ofWalk_convertEnum {values : List Text} (h : f ∈ (convertEnum d path values v).findings) :
    f.OfWalk d path := by
  unfold convertEnum at h
  split at h
  · have h := Converted.mem_findings_leaf h
    split at h
    · cases h
    · rw [List.mem_singleton.1 h]
      exact Finding.ofWalk_here trivial
  · exact ofWalk_failed h rfl

end Kinds

/-- Whatever the walk finds on a node lies at the node or inside it, and is no warning. -/
theorem ofWalk_convert [Host] (b : Block) (d : Direction) (path : Path) (v : Value) :
    ∀ f ∈ (b.convert d path v).findings, f.OfWalk d path := by
  induction b using Block.partsInduction generalizing path v with
  | step b ih =>
    intro f hf
    by_cases hv : b.header.excuses v = true
    · rw [convert_of_excused hv] at hf
      cases hf
    rw [convert_of_not_excused (by simpa using hv)] at hf
    cases b with
    | flag h => exact ofWalk_convertFlag hf
    | number h decimal minimum maximum => exact ofWalk_convertNumber hf
    | string h length pattern => exact ofWalk_convertString hf
    | array h value length => exact ofWalk_convertArray (ih value List.mem_cons_self) hf
    | object h key value length => exact ofWalk_convertObject (ih value List.mem_cons_self) hf
    | tuple h items => exact ofWalk_convertTuple ih hf
    | map h fields =>
      exact ofWalk_convertMap (fun g hg => ih g.2 (List.mem_map_of_mem hg)) hf
    | enum h values => exact ofWalk_convertEnum hf

/-- What breaks a conversion off is none of the mismatches that it reports. -/
theorem toldApart_convert [Host] (b : Block) (d : Direction) (path : Path) (v : Value) :
    ToldApart (b.convert d path v).findings := by
  intro c hhalt herror
  cases ofWalk_convert b d path v _ hhalt with
  | halt f hf =>
    cases ofWalk_convert b d path v _ herror with
    | mismatch below cause _ => exact hf _ _ rfl

end Block

/-! ## Walks without findings -/

namespace Converted

theorem clean_ofItems {before : List Finding} {parts : List Converted} :
    (ofItems before parts).findings = [] ↔ before = [] ∧ ∀ c ∈ parts, c.findings = [] := by
  rw [ofItems, List.append_eq_nil_iff, List.flatMap_eq_nil_iff]

theorem exists_mem_items {convert : Nat → Value → Converted} {index : Nat} {xs : List Value}
    {x : Value} (h : x ∈ xs) : ∃ i, convert i x ∈ items convert index xs := by
  induction xs generalizing index with
  | nil => cases h
  | cons y xs ih =>
    rcases List.mem_cons.1 h with rfl | h
    · exact ⟨index, List.mem_cons_self⟩
    · obtain ⟨i, hi⟩ := ih h
      exact ⟨i, List.mem_cons_of_mem _ hi⟩

/-- If nothing is found on entries, every key was taken, and nothing found on any value. -/
theorem clean_entries {d : Direction} {kind : KeyKind} {convert : Path → Value → Converted}
    {path : Path} {index : Nat} {es : Entries}
    (hclean : (entries d path kind convert index es).2 = []) :
    ∀ e ∈ es, (∃ key, d.key? kind e.1 = some (.ok key)) ∧ ∃ p, (convert p e.2).findings = [] := by
  induction es generalizing index with
  | nil =>
    intro e he
    cases he
  | cons e es ih =>
    obtain ⟨k, v⟩ := e
    obtain ⟨key, shown, hk, hvalue, hrest⟩ := exists_key_of_clean hclean
    exact List.forall_mem_cons.2 ⟨⟨⟨_, hk⟩, _, hvalue⟩, ih hrest⟩

end Converted

/-- If nothing is found on the fields that are there, every key is a field, and nothing is found on
any value. -/
theorem Block.clean_fieldEntries [Host] {d : Direction} {path : Path} {fields : List (Text × Block)}
    {es : Entries} (hclean : (fieldEntries d path fields es).2 = []) :
    ∀ e ∈ es, ∃ name b, e.1 = .str name ∧ fields.lookup name = some b ∧
      ∃ p, (b.convert d p e.2).findings = [] := by
  induction es with
  | nil =>
    intro e he
    cases he
  | cons e es ih =>
    obtain ⟨k, v⟩ := e
    obtain ⟨name, b, rfl, hname, hvalue, hrest⟩ := exists_field_of_clean hclean
    exact List.forall_mem_cons.2 ⟨⟨name, b, rfl, hname, _, hvalue⟩, ih hrest⟩

end DocShape
