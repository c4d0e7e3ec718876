import DocShape.Proofs.Conversion.Keys
import DocShape.Proofs.Conversion.Nodes
import DocShape.Proofs.Conversion.Rules
import DocShape.Proofs.Findings
import DocShape.Proofs.Schema.Arranged
import DocShape.Proofs.Value.Literals

/-!
# Why a walk breaks off

A walk breaks off where it would show an integer with too many digits, be it a bound, a key or a name
that is no field, or where it meets an integer key with too many digits, or a pattern that cannot be
used (`Block.Refuses`, `halt_mem_findings_iff`). It never does for a bound that cannot be compared with
or a length that cannot be cut to an integer: the numbers of a checked block are finite
(`Block.Measured`, `measured_of_typedAs`). With short integers and good patterns a walk comes to its
end (`noHalt_convert`).
-/

namespace DocShape

namespace Block

/-! ## Blocks with finite numbers -/

/-- The bounds of a block are finite, and its lengths are numbers that may be lengths. -/
def MeasuredNode : Block → Prop
  | number _ _ minimum maximum =>
    (∀ l, minimum = .given l → l.value.isFinite = true) ∧
      ∀ l, maximum = .given l → l.value.isFinite = true
  | string _ length _ | array _ _ length | object _ _ _ length =>
    ∀ r, length = .given r → r.IsMeasured
  | _ => True

/-- The numbers of a block and of those in it are as a check asks for. -/
inductive Measured : Block → Prop
  | intro {b : Block} (here : b.MeasuredNode) (inside : ∀ c ∈ b.parts, Measured c) : Measured b

theorem Measured.here {b : Block} (h : b.Measured) : b.MeasuredNode := by
  cases h with
  | intro here _ => exact here

theorem Measured.inside {b : Block} (h : b.Measured) : ∀ c ∈ b.parts, c.Measured := by
  cases h with
  | intro _ inside => exact inside

end Block

namespace Value

theorem isFinite_of_stands {v? : Option Value} {s : Setting Limit} {l : Limit}
    (h : Setting.Stands LimitAs v? s) (hl : s = .given l) : l.value.isFinite = true := by
  subst hl
  obtain ⟨v, -, hv⟩ := h.given_inv
  exact (isBound_of_limitAs hv).isFinite

theorem isMeasured_of_stands {v? : Option Value} {s : Setting LengthRule} {r : LengthRule}
    (h : Setting.Stands LengthAs v? s) (hr : s = .given r) : r.IsMeasured := by
  have hnumber {v? : Option Value} {s : Setting Number} {n : Number}
      (h : Setting.Stands LengthNumberAs v? s) (hn : s = .given n) : n.IsLength := by
    subst hn
    obtain ⟨v, -, hv⟩ := h.given_inv
    exact ⟨hv.1.2, hv.2⟩
  subst hr
  obtain ⟨v, -, hv⟩ := h.given_inv
  cases hv with
  | exactly number => exact ⟨number.1.2, number.2⟩
  | range _ least greatest _ => exact ⟨fun n => hnumber least, fun n => hnumber greatest⟩

theorem measured_of_typedAs {v : Value} {b : Block} (h : v.TypedAs b) : b.Measured := by
  have hleaf {b : Block} (hb : b.MeasuredNode) (hparts : b.parts = []) : b.Measured :=
    ⟨hb, fun c hc => by rw [hparts] at hc; cases hc⟩
  induction h with
  | flag _ => exact hleaf trivial rfl
  | number _ _ least greatest _ =>
    exact hleaf ⟨fun l => isFinite_of_stands least, fun l => isFinite_of_stands greatest⟩ rfl
  | string _ size _ => exact hleaf (fun r => isMeasured_of_stands size) rfl
  | array _ _ _ size ih =>
    exact ⟨fun r => isMeasured_of_stands size, List.forall_mem_singleton.2 ih⟩
  | object _ _ _ _ size ih =>
    exact ⟨fun r => isMeasured_of_stands size, List.forall_mem_singleton.2 ih⟩
  | tuple _ _ _ _ count _ ih =>
    refine ⟨trivial, fun c hc => ?_⟩
    obtain ⟨x, hx⟩ := exists_zip_of_right count hc
    exact ih _ hx
  | map _ _ _ keys _ _ _ ih =>
    refine ⟨trivial, fun c hc => ?_⟩
    obtain ⟨f, hf, rfl⟩ := List.mem_map.1 hc
    have hcount := congrArg List.length keys
    rw [List.length_map, List.length_map] at hcount
    obtain ⟨e, he⟩ := exists_zip_of_right hcount hf
    exact ih _ he
  | enum _ _ _ _ _ _ => exact hleaf trivial rfl

end Value

/-! ## Refusals -/

/-- A block makes a walk break off at a node for some reason. -/
inductive Block.Refuses [Host] (d : Direction) (path : Path) : Block → Value → Failure → Prop
  | minimum {h : Header} {decimal : Option Bool} {l : Limit} {maximum : Setting Limit} {v : Value}
    {n : Number} {f : Failure} (number : v.IsNumber n)
    (whole : decimal = some false → n.isIntegral = true) (unwritable : l.Unwritable f) :
    Refuses d path (.number h decimal (.given l) maximum) v f
  | maximum {h : Header} {decimal : Option Bool} {minimum : Setting Limit} {l : Limit} {v : Value}
    {n : Number} {f : Failure} (number : v.IsNumber n)
    (whole : decimal = some false → n.isIntegral = true) (unwritable : l.Unwritable f) :
    Refuses d path (.number h decimal minimum (.given l)) v f
  | text {h : Header} {r : LengthRule} {pattern : Setting Text} {t : Text} {f : Failure}
    (unwritable : r.Unwritable t.length f) :
    Refuses d path (.string h (.given r) pattern) (.str t) f
  | pattern {h : Header} {length : Setting LengthRule} {p t : Text} {refusal : Pattern.Refusal}
    (read : Pattern.compile p = .error refusal) :
    Refuses d path (.string h length (.given p)) (.str t) (refusal.failure path)
  | array {h : Header} {value : Block} {r : LengthRule} {v : Value} {xs : List Value} {f : Failure}
    (items : d.items? v = some xs) (unwritable : r.Unwritable xs.length f) :
    Refuses d path (.array h value (.given r)) v f
  | object {h : Header} {kind : KeyKind} {value : Block} {r : LengthRule} {es : Entries}
    {f : Failure} (unwritable : r.Unwritable es.length f) :
    Refuses d path (.object h kind value (.given r)) (.dict es) f
  | key {h : Header} {kind : KeyKind} {value : Block} {length : Setting LengthRule} {es : Entries}
    {e : Value × Value} {f : Failure} (mem : e ∈ es) (long : d.KeyTooLong kind e.1 f) :
    Refuses d path (.object h kind value length) (.dict es) f
  | field {h : Header} {fields : List (Text × Block)} {es : Entries} {e : Value × Value}
    (mem : e ∈ es) (undeclared : ∀ f ∈ fields, e.1 ≠ .str f.1) (hidden : e.1.display? = none) :
    Refuses d path (.map h fields) (.dict es) (.unwritable .tooManyDigits)

namespace Block

variable {d : Direction} {path : Path} {b : Block} {v : Value} {f : Failure}

@[simp] theorem not_halt_mem_mismatch {cause : Mismatch} :
    Finding.halt f ∉ [Finding.mismatch path cause] := by
  simp [Finding.mismatch]

theorem halt_mem_keyFindings_iff {kind : KeyKind} {index : Nat} {es : Entries} :
    .halt f ∈ keyFindings d path kind index es ↔ ∃ e ∈ es, d.KeyTooLong kind e.1 f := by
  simp only [← Direction.key?_eq_error_iff]
  induction es generalizing index with
  | nil => simp [keyFindings]
  | cons e es ih =>
    obtain ⟨k, x⟩ := e
    rw [keyFindings, List.exists_mem_cons_iff]
    split
    · next hk => simp [hk, ih, Finding.mismatch]
    · next g hk => simp [hk, ih, eq_comm]
    · next key hk => simp [hk, ih]

theorem fieldOf?_eq_none_iff {fields : List (Text × Block)} {k : Value} :
    fieldOf? fields k = none ↔ ∀ f ∈ fields, k ≠ .str f.1 := by
  constructor
  · rintro h f hf rfl
    rw [fieldOf?, Value.text?, Option.bind_some, List.lookup_eq_none_iff] at h
    simpa using h f hf
  · intro h
    by_contra hsome
    obtain ⟨c, hc⟩ := Option.ne_none_iff_exists'.1 hsome
    obtain ⟨name, rfl, hname⟩ := fieldOf?_eq_some.1 hc
    exact h _ (mem_of_lookup hname) rfl

theorem halt_mem_fieldFindings_iff {fields : List (Text × Block)} {es : Entries} :
    .halt f ∈ es.filterMap (fieldFinding? path fields) ↔
      ∃ e ∈ es, (∀ g ∈ fields, e.1 ≠ .str g.1) ∧ e.1.display? = none ∧
        f = .unwritable .tooManyDigits := by
  rw [List.mem_filterMap]
  refine exists_congr fun e => and_congr_right fun _ => ?_
  rw [fieldFinding?, ← fieldOf?_eq_none_iff]
  split
  · next h =>
    rw [Finding.quoting, h]
    split
    · next hshown => simp [hshown, Finding.mismatch]
    · next hshown => simp [hshown, eq_comm]
  · next h => simp [h]

theorem halt_not_mem_missingFields {fields : List (Text × Block)} {es : Entries} :
    .halt f ∉ (missingFields path es fields).2 := by
  induction fields with
  | nil => exact List.not_mem_nil
  | cons g fields ih =>
    cases hhas : es.has g.1 with
    | true =>
      rw [missingFields_of_has hhas]
      exact ih
    | false =>
      cases hoption : g.2.isOptional with
      | true =>
        rw [missingFields_of_optional hhas hoption]
        exact ih
      | false =>
        rw [missingFields_of_missing hhas hoption, List.mem_cons, not_or]
        exact ⟨fun h => (by cases h), ih⟩

theorem halt_mem_numberFindings_iff [Host] {h : Header} {decimal : Option Bool}
    {minimum maximum : Setting Limit} (hb : (number h decimal minimum maximum).MeasuredNode) :
    .halt f ∈ (convertNumber d path (decimal.getD true) minimum maximum v).findings ↔
      (number h decimal minimum maximum).Refuses d path v f := by
  cases hsome : v.finiteNumber? with
  | none =>
    rw [convertNumber, hsome]
    refine iff_of_false not_halt_mem_mismatch fun hrefuses => ?_
    cases hrefuses with
    | minimum number => cases hsome.symm.trans (Value.finiteNumber?_eq_some.2 number)
    | maximum number => cases hsome.symm.trans (Value.finiteNumber?_eq_some.2 number)
  | some n =>
    have hn := Value.finiteNumber?_eq_some.1 hsome
    by_cases hwhole : decimal = some false → n.isIntegral = true
    · rw [convertNumber_of_number hsome fun h => hwhole (by cases decimal <;> simp_all),
        Converted.leaf, List.mem_append, (verdict_leastFindings hn.2 hb.1).halt_mem_iff,
        (verdict_mostFindings hn.2 hb.2).halt_mem_iff]
      constructor
      · rintro (⟨l, rfl, hl⟩ | ⟨l, rfl, hl⟩)
        · exact .minimum hn hwhole hl
        · exact .maximum hn hwhole hl
      · intro hrefuses
        cases hrefuses with
        | minimum _ _ unwritable => exact .inl ⟨_, rfl, unwritable⟩
        | maximum _ _ unwritable => exact .inr ⟨_, rfl, unwritable⟩
    · obtain ⟨rfl, hfraction⟩ := Classical.not_imp.1 hwhole
      rw [Option.getD_some, convertNumber_of_fraction hsome hfraction]
      refine iff_of_false not_halt_mem_mismatch fun hrefuses => ?_
      cases hrefuses with
      | minimum number whole => exact hwhole (hn.unique number ▸ whole)
      | maximum number whole => exact hwhole (hn.unique number ▸ whole)

/-- A walk breaks off at a node when its block refuses. -/
theorem halt_mem_ownFindings_iff [Host] (hb : b.MeasuredNode) :
    .halt f ∈ b.ownFindings d path v ↔ b.Refuses d path v f := by
  by_cases hv : b.header.excuses v = true
  · obtain ⟨rfl, -⟩ := excuses_eq_true.1 hv
    rw [ownFindings, if_pos hv]
    refine iff_of_false List.not_mem_nil fun hrefuses => ?_
    cases hrefuses with
    | minimum number => cases Value.finiteNumber?_eq_some.2 number
    | maximum number => cases Value.finiteNumber?_eq_some.2 number
    | array items => cases d <;> cases items
  rw [ownFindings, if_neg hv]
  cases b with
  | flag h =>
    refine iff_of_false ?_ fun hrefuses => by cases hrefuses
    cases v with
    | bool x => exact List.not_mem_nil
    | _ => exact not_halt_mem_mismatch
  | number h decimal minimum maximum => exact halt_mem_numberFindings_iff hb
  | string h length pattern =>
    cases v with
    | str t =>
      rw [ownNodeFindings, convertString, Converted.leaf, List.mem_append,
        (verdict_checkLength hb).halt_mem_iff, verdict_checkPattern.halt_mem_iff]
      constructor
      · rintro (⟨r, rfl, hr⟩ | ⟨p, refusal, rfl, hread, rfl⟩)
        · exact .text hr
        · exact .pattern hread
      · intro hrefuses
        cases hrefuses with
        | text unwritable => exact .inl ⟨_, rfl, unwritable⟩
        | pattern read => exact .inr ⟨_, _, rfl, read, rfl⟩
    | _ => exact iff_of_false not_halt_mem_mismatch fun hrefuses => by cases hrefuses
  | array h value length =>
    rw [ownNodeFindings]
    split
    · next hnone =>
      refine iff_of_false not_halt_mem_mismatch fun hrefuses => ?_
      cases hrefuses with
      | array items => rw [items] at hnone; cases hnone
    · next xs hxs =>
      rw [(verdict_checkLength hb).halt_mem_iff]
      constructor
      · rintro ⟨r, rfl, hr⟩
        exact .array hxs hr
      · intro hrefuses
        cases hrefuses with
        | array items unwritable =>
          obtain rfl := Option.some.inj (hxs.symm.trans items)
          exact ⟨_, rfl, unwritable⟩
  | object h kind value length =>
    cases v with
    | dict es =>
      rw [ownNodeFindings, List.mem_append, (verdict_checkLength hb).halt_mem_iff,
        halt_mem_keyFindings_iff]
      constructor
      · rintro (⟨r, rfl, hr⟩ | ⟨e, he, hlong⟩)
        · exact .object hr
        · exact .key he hlong
      · intro hrefuses
        cases hrefuses with
        | object unwritable => exact .inl ⟨_, rfl, unwritable⟩
        | key mem long => exact .inr ⟨_, mem, long⟩
    | _ => exact iff_of_false not_halt_mem_mismatch fun hrefuses => by cases hrefuses
  | tuple h items =>
    refine iff_of_false ?_ fun hrefuses => by cases hrefuses
    rw [ownNodeFindings]
    split
    · exact not_halt_mem_mismatch
    · split
      · exact List.not_mem_nil
      · exact not_halt_mem_mismatch
  | map h fields =>
    cases v with
    | dict es =>
      rw [ownNodeFindings, List.mem_append, halt_mem_fieldFindings_iff,
        or_iff_left halt_not_mem_missingFields]
      constructor
      · rintro ⟨e, he, hundeclared, hhidden, rfl⟩
        exact .field he hundeclared hhidden
      · intro hrefuses
        cases hrefuses with
        | field mem undeclared hidden => exact ⟨_, mem, undeclared, hidden, rfl⟩
    | _ => exact iff_of_false not_halt_mem_mismatch fun hrefuses => by cases hrefuses
  | enum h values =>
    refine iff_of_false ?_ fun hrefuses => by cases hrefuses
    cases v with
    | str t =>
      rw [ownNodeFindings, convertEnum, Converted.leaf]
      split
      · exact List.not_mem_nil
      · exact not_halt_mem_mismatch
    | _ => exact not_halt_mem_mismatch

theorem Reaches.measured {c : Block} {u : Value} {below : Path} (h : Reaches d b v below c u)
    (hb : b.Measured) : c.Measured := by
  induction h with
  | here => exact hb
  | inside mem _ ih => exact ih (hb.inside _ (block_mem_parts mem))

/-- A walk breaks off when a block refuses at a node that the walk reaches. -/
theorem halt_mem_findings_iff [Host] (hb : b.Measured) :
    .halt f ∈ (b.convert d path v).findings ↔
      ∃ below c u, Reaches d b v below c u ∧ c.Refuses d (path ++ below) u f := by
  rw [mem_findings_iff]
  refine exists_congr fun below => exists_congr fun c => exists_congr fun u =>
    and_congr_right fun hreach => ?_
  exact halt_mem_ownFindings_iff (hreach.measured hb).here

end Block

/-! ## Short integers and good patterns -/

theorem Value.shortInts_ofNumber {n : Number} :
    (ofNumber n).ShortInts ↔ ∀ k, n = .int k → Text.HasDigits k := by
  cases n with
  | int k => simp [ofNumber]
  | float x => simp [ofNumber]

/-- The whole part of a length is within the digit limit if the length is. -/
theorem Number.hasDigits_floor {n : Number} (hn : n.IsLength) (h : (Value.ofNumber n).ShortInts) :
    Text.HasDigits ⌊n.exact⌋ := by
  have htruncate := n.truncate_of_nonneg hn.1 hn.2
  cases n with
  | int k =>
    rw [← Except.ok.inj htruncate]
    exact Value.shortInts_ofNumber.1 h k rfl
  | float x =>
    have hx := hn.1
    cases x with
    | finite negative m =>
      cases negative with
      | false =>
        rw [← Except.ok.inj htruncate]
        exact m.hasDigits_floor
      | true =>
        rw [← Except.ok.inj htruncate]
        show Text.HasDigits (-(m.floor : ℤ))
        rw [Text.HasDigits, Int.natAbs_neg]
        exact m.hasDigits_floor
    | _ => cases hx

namespace Block

variable {d : Direction} {path : Path} {b : Block} {v : Value} {f : Failure}

theorem shortInts_setting {α : Type} {name : Text} {raw : α → Value} {s : Setting α} {a : α}
    (hs : s = .given a) {es : Entries} (h : (Value.dict es).ShortInts)
    (hes : ∀ e ∈ Extent.setting .given name raw s, e ∈ es) : (raw a).ShortInts := by
  subst hs
  exact (Value.ShortInts.dict_iff.1 h _ (hes _ (List.mem_singleton_self _))).2

theorem shortInts_limit {l : Limit} (h : (l.raw .given).ShortInts) {k : Int}
    (hk : l.value = .int k) : Text.HasDigits k := by
  cases l with
  | bare n => exact Value.shortInts_ofNumber.1 h k hk
  | bound b =>
    have hvalue := (Value.ShortInts.dict_iff.1 h _ List.mem_cons_self).2
    exact Value.shortInts_ofNumber.1 hvalue k hk

theorem shortInts_length {rule : LengthRule} (hrule : rule.IsMeasured)
    (h : (rule.raw .given).ShortInts) {size : Nat} {k : ℤ} (hk : rule.Shows size k) :
    Text.HasDigits k := by
  cases hk with
  | exactly _ => exact Number.hasDigits_floor hrule h
  | minimum given _ =>
    exact Number.hasDigits_floor (hrule.1 _ given)
      (shortInts_setting given h fun e he => List.mem_append_left _ he)
  | maximum _ given _ =>
    exact Number.hasDigits_floor (hrule.2 _ given)
      (shortInts_setting given h fun e he => List.mem_append_right _ he)

/-- The parts of a block have short integers in their raw forms if the block has. -/
theorem shortInts_part (h : b.dump.ShortInts) {c : Block} (hc : c ∈ b.parts) :
    c.dump.ShortInts := by
  cases b with
  | array header value length =>
    obtain rfl := List.mem_singleton.1 hc
    exact h.value (List.mem_append_left _ (List.mem_append_right _ List.mem_cons_self))
  | object header kind value length =>
    obtain rfl := List.mem_singleton.1 hc
    exact h.value (List.mem_append_left _
      (List.mem_append_right _ (List.mem_cons_of_mem _ List.mem_cons_self)))
  | tuple header items =>
    have hitems : (Value.list (rawItems .given items)).ShortInts :=
      h.value (List.mem_append_right _ List.mem_cons_self)
    rw [rawItems_eq] at hitems
    exact Value.ShortInts.list_iff.1 hitems _ (List.mem_map_of_mem hc)
  | map header fields =>
    obtain ⟨field, hfield, rfl⟩ := List.mem_map.1 hc
    have hfields : (Value.dict (rawFields .given fields)).ShortInts :=
      h.value (List.mem_append_right _ List.mem_cons_self)
    rw [rawFields_eq] at hfields
    exact hfields.value (List.mem_map_of_mem hfield)
  | _ => cases hc

theorem Reaches.shortInts {c : Block} {u : Value} {below : Path} (h : Reaches d b v below c u)
    (hb : b.dump.ShortInts) (hv : v.ShortInts) : c.dump.ShortInts ∧ u.ShortInts := by
  induction h with
  | here => exact ⟨hb, hv⟩
  | inside mem _ ih =>
    exact ih (shortInts_part hb (block_mem_parts mem)) (hv.part (value_mem_parts mem))

/-- The integer keys that a walk meets at a node are within the digit limit. -/
def KeysShortNode (d : Direction) : Block → Value → Prop
  | object _ .integer _ _, .dict es =>
    ∀ e ∈ es, ∀ n, d.KeyAs .integer e.1 (.int n) → Text.HasDigits n
  | _, _ => True

/-- The integer keys that a walk meets are within the digit limit. -/
def KeysShort (d : Direction) (b : Block) (v : Value) : Prop :=
  ∀ below c u, Reaches d b v below c u → c.KeysShortNode d u

/-- A pattern that a walk meets at a node can be used. -/
def PatternUsableNode [Host] : Block → Value → Prop
  | string _ _ (.given p), .str _ => ∃ node, Pattern.compile p = .ok node
  | _, _ => True

/-- The patterns that a walk meets can be used. -/
def PatternsUsable [Host] (d : Direction) (b : Block) (v : Value) : Prop :=
  ∀ below c u, Reaches d b v below c u → c.PatternUsableNode u

/-- With short integers a block refuses over a pattern only. -/
theorem Refuses.pattern_of_shortInts [Host] (h : b.Refuses d path v f) (hb : b.MeasuredNode)
    (hraw : b.dump.ShortInts) (hv : v.ShortInts) (hkeys : b.KeysShortNode d v) :
    ∃ h length p t refusal, b = .string h length (.given p) ∧ v = .str t ∧
      Pattern.compile p = .error refusal ∧ f = refusal.failure path := by
  cases h with
  | minimum _ _ unwritable =>
    obtain ⟨⟨k, hk, hlong⟩, -⟩ := unwritable
    exact absurd (shortInts_limit (shortInts_setting rfl hraw fun e he =>
      List.mem_append_left _ (List.mem_append_right _ he)) hk) hlong
  | maximum _ _ unwritable =>
    obtain ⟨⟨k, hk, hlong⟩, -⟩ := unwritable
    exact absurd (shortInts_limit (shortInts_setting rfl hraw fun e he =>
      List.mem_append_right _ he) hk) hlong
  | text unwritable =>
    obtain ⟨⟨k, hk, hlong⟩, -⟩ := unwritable
    exact absurd (shortInts_length (hb _ rfl) (shortInts_setting rfl hraw fun e he =>
      List.mem_append_left _ (List.mem_append_right _ he)) hk) hlong
  | pattern read => exact ⟨_, _, _, _, _, rfl, rfl, read, rfl⟩
  | array _ unwritable =>
    obtain ⟨⟨k, hk, hlong⟩, -⟩ := unwritable
    exact absurd (shortInts_length (hb _ rfl) (shortInts_setting rfl hraw fun e he =>
      List.mem_append_right _ he) hk) hlong
  | object unwritable =>
    obtain ⟨⟨k, hk, hlong⟩, -⟩ := unwritable
    exact absurd (shortInts_length (hb _ rfl) (shortInts_setting rfl hraw fun e he =>
      List.mem_append_right _ he) hk) hlong
  | key mem long =>
    obtain ⟨rfl, n, hn, hlong⟩ := long.exists_int
    exact absurd (hkeys _ mem n hn) hlong
  | field mem _ hidden =>
    obtain ⟨shown, hshown⟩ := Value.exists_display (hv.key mem)
    cases hshown.symm.trans hidden

/-- A walk with short integers breaks off over a pattern only. -/
theorem exists_pattern_of_halt [Host] (hb : b.Measured) (hints : b.dump.ShortInts) (hv : v.ShortInts)
    (hkeys : b.KeysShort d v) (hf : .halt f ∈ (b.convert d path v).findings) :
    ∃ below h length p t refusal, Reaches d b v below (.string h length (.given p)) (.str t) ∧
      Pattern.compile p = .error refusal ∧ f = refusal.failure (path ++ below) := by
  obtain ⟨below, c, u, hreach, hrefuses⟩ := (halt_mem_findings_iff hb).1 hf
  obtain ⟨hraw, hu⟩ := hreach.shortInts hints hv
  obtain ⟨h, length, p, t, refusal, rfl, rfl, hread, hfailure⟩ :=
    hrefuses.pattern_of_shortInts (hreach.measured hb).here hraw hu (hkeys below c u hreach)
  exact ⟨below, h, length, p, t, refusal, hreach, hread, hfailure⟩

/-- A walk with short integers and good patterns comes to its end. -/
theorem noHalt_convert [Host] (hb : b.Measured) (hints : b.dump.ShortInts) (hv : v.ShortInts)
    (hkeys : b.KeysShort d v) (hpatterns : b.PatternsUsable d v) :
    NoHalt (b.convert d path v).findings := by
  intro f hf
  obtain ⟨below, h, length, p, t, refusal, hreach, hread, -⟩ :=
    exists_pattern_of_halt hb hints hv hkeys hf
  obtain ⟨node, hnode⟩ := hpatterns _ _ _ hreach
  cases hnode.symm.trans hread

/-- An encoder meets the integer keys of the value, and no others. -/
theorem keysShort_encoding (hv : v.ShortInts) : b.KeysShort .encoding v := by
  intro below c u hreach
  have hu : u.ShortInts := by
    induction hreach with
    | here => exact hv
    | inside mem _ ih => exact ih (hv.part (value_mem_parts mem))
  unfold KeysShortNode
  split
  · rintro ⟨k, x⟩ he n hn
    cases hn
    exact Value.ShortInts.int_iff.1 (hu.key he)
  · trivial

/-- A walk that comes to its end has met no integer key beyond the digit limit. -/
theorem keysShort_of_noHalt [Host] (hb : b.Measured) (hfree : NoHalt (b.convert d path v).findings) :
    b.KeysShort d v := by
  intro below c u hreach
  unfold KeysShortNode
  split
  · intro e he n hn
    by_contra hlong
    obtain ⟨f, hf⟩ := hn.exists_tooLong hlong
    exact hfree f ((halt_mem_findings_iff hb).2 ⟨below, _, _, hreach, .key he hf⟩)
  · trivial

/-- A walk that comes to its end has met no pattern that cannot be used. -/
theorem patternsUsable_of_noHalt [Host] (hb : b.Measured)
    (hfree : NoHalt (b.convert d path v).findings) :
    b.PatternsUsable d v := by
  intro below c u hreach
  unfold PatternUsableNode
  split
  · next p _ =>
    cases hread : Pattern.compile p with
    | ok node => exact ⟨node, rfl⟩
    | error refusal =>
      exact absurd ((halt_mem_findings_iff hb).2 ⟨below, _, _, hreach, .pattern hread⟩) (hfree _)
  · trivial

end Block

end DocShape
