import DocShape.Proofs.Conversion.Conforming
import DocShape.Proofs.Schema.Looser

/-!
# Conversion along looser blocks

What a walk finds nothing on along a block, it finds nothing on along a looser one, and it makes the same
of it (`keeps_of_looser`). Each rule is kept by the wider rule; a wider bound or length breaks the walk off
no more than before, since nothing is to be shown of it but a bound with few digits.
-/

namespace DocShape

variable {d : Direction} {path : Path} {v : Value}

/-! ## Rules -/

/-- A bound can be shown. -/
def Limit.IsShort (l : Limit) : Prop := ∀ k, l.value = .int k → Text.HasDigits k

/-- Nothing is found on a bound that holds and can be shown. -/
theorem Finding.Verdict.eq_nil_of_short {bound : Setting Limit} {holds : Limit → Prop}
    {fs : List Finding}
    (h : Verdict path (∀ l, bound = .given l → holds l)
      (fun f => ∃ l, bound = .given l ∧ l.Unwritable f) fs)
    (hholds : ∀ l, bound = .given l → holds l) (hshort : ∀ l, bound = .given l → l.IsShort) :
    fs = [] := by
  apply h.eq_nil hholds
  intro f hf
  obtain ⟨l, hl, ⟨k, hk, hlong⟩, -⟩ := h.halt_mem_iff.1 hf
  exact hlong (hshort l hl k hk)

theorem leastFindings_of_looser {minimum minimum' : Setting Limit} {n : Number}
    (h : minimum.Looser (Limit.Looser (· < ·)) minimum') (hn : n.isFinite = true)
    (hminimum : ∀ l, minimum = .given l → l.value.isFinite = true)
    (hminimum' : ∀ l, minimum' = .given l → l.value.isFinite = true)
    (hshort : ∀ l, minimum' = .given l → l.IsShort) (hclean : leastFindings path n minimum = []) :
    leastFindings path n minimum' = [] := by
  apply (verdict_leastFindings hn hminimum').eq_nil_of_short _ hshort
  intro l' hl'
  obtain ⟨l, hl, hlooser⟩ := h l' hl'
  exact hlooser.precedes ((verdict_leastFindings hn hminimum).holds_of_nil hclean l hl)

theorem mostFindings_of_looser {maximum maximum' : Setting Limit} {n : Number}
    (h : maximum.Looser (Limit.Looser (· > ·)) maximum') (hn : n.isFinite = true)
    (hmaximum : ∀ l, maximum = .given l → l.value.isFinite = true)
    (hmaximum' : ∀ l, maximum' = .given l → l.value.isFinite = true)
    (hshort : ∀ l, maximum' = .given l → l.IsShort) (hclean : mostFindings path n maximum = []) :
    mostFindings path n maximum' = [] := by
  apply (verdict_mostFindings hn hmaximum').eq_nil_of_short _ hshort
  intro l' hl'
  obtain ⟨l, hl, hlooser⟩ := h l' hl'
  exact hlooser.follows ((verdict_mostFindings hn hmaximum).holds_of_nil hclean l hl)

theorem LengthRule.Shows.not_admits {rule : LengthRule} {size : ℕ} {k : ℤ} (h : rule.Shows size k) :
    ¬ rule.Admits size := by
  cases h with
  | exactly h => exact h
  | minimum given h => exact fun hadmits => absurd (hadmits.1 _ given) (not_le.2 h)
  | maximum _ given h => exact fun hadmits => absurd (hadmits.2 _ given) (not_le.2 h)

/-- Where nothing is found on a length by one constraint, nothing is found on it by another. -/
def KeepsLength (length length' : Setting LengthRule) : Prop :=
  ∀ path size, checkLength path size length = [] → checkLength path size length' = []

theorem keepsLength_of_looser {length length' : Setting LengthRule}
    (h : length.Looser LengthRule.Within length') (hlength : ∀ r, length = .given r → r.IsMeasured)
    (hlength' : ∀ r, length' = .given r → r.IsMeasured) : KeepsLength length length' := by
  intro path size hclean
  have hadmits : ∀ r', length' = .given r' → r'.Admits size := by
    intro r' hr'
    obtain ⟨r, hr, hwithin⟩ := h r' hr'
    exact hwithin.admits ((verdict_checkLength hlength).holds_of_nil hclean r hr)
  apply (verdict_checkLength hlength').eq_nil hadmits
  intro f hf
  obtain ⟨r', hr', ⟨k, hk, -⟩, -⟩ := (verdict_checkLength hlength').halt_mem_iff.1 hf
  exact hk.not_admits (hadmits r' hr')

theorem checkPattern_of_looser [Host] {pattern pattern' : Setting Text} {t : Text}
    (h : pattern.Looser Eq pattern') (hclean : checkPattern path t pattern = []) :
    checkPattern path t pattern' = [] := by
  cases pattern' with
  | given p =>
    obtain ⟨q, rfl, rfl⟩ := h p rfl
    exact hclean
  | absent => rfl
  | null => rfl

/-! ## Parts on which nothing is found -/

namespace Converted

theorem items_eq_of_clean {f f' : Nat → Value → Converted} {index : Nat} {xs : List Value}
    (h : ∀ i x, (f i x).findings = [] → f' i x = f i x)
    (hclean : ∀ c ∈ items f index xs, c.findings = []) :
    items f' index xs = items f index xs := by
  induction xs generalizing index with
  | nil => rfl
  | cons x xs ih =>
    rw [items, List.forall_mem_cons] at hclean
    rw [items, items, h index x hclean.1, ih hclean.2]

theorem entries_eq_of_clean {f f' : Path → Value → Converted} {kind : KeyKind} {index : Nat}
    {es : Entries} (h : ∀ p x, (f p x).findings = [] → f' p x = f p x)
    (hclean : (entries d path kind f index es).2 = []) :
    entries d path kind f' index es = entries d path kind f index es := by
  induction es generalizing index with
  | nil => rfl
  | cons e es ih =>
    obtain ⟨k, x⟩ := e
    obtain ⟨key, shown, hk, hvalue, hrest⟩ := exists_key_of_clean hclean
    rw [entries_of_key hk, entries_of_key hk, h _ x hvalue, ih hrest]

end Converted

namespace Block

/-- What a walk finds nothing on along a block, it finds nothing on along another block, and it makes the
same of it. -/
def Keeps [Host] (d : Direction) (b b' : Block) : Prop :=
  ∀ path v, (b.convert d path v).findings = [] → b'.convert d path v = b.convert d path v

theorem positions_eq_of_clean [Host] {bs bs' : List Block} {index : Nat} {xs : List Value}
    (h : List.Forall₂ (Keeps d) bs bs')
    (hclean : ∀ c ∈ convertPositions d path index bs xs, c.findings = []) :
    convertPositions d path index bs' xs = convertPositions d path index bs xs := by
  induction h generalizing index xs with
  | nil => rfl
  | cons hb _ ih =>
    cases xs with
    | nil => rfl
    | cons x xs =>
      rw [convertPositions, List.forall_mem_cons] at hclean
      rw [convertPositions, convertPositions, hb _ x hclean.1, ih hclean.2]

/-- A field of a map stands for a field of another by the same name, may be missing if it may, and keeps
what is accepted along it. -/
structure KeepsField [Host] (d : Direction) (f f' : Text × Block) : Prop where
  name : f.1 = f'.1
  optional : f.2.isOptional = true → f'.2.isOptional = true
  block : f.2.Keeps d f'.2

theorem lookup_of_keepsField [Host] {fields fields' : List (Text × Block)} {name : Text} {b : Block}
    (h : List.Forall₂ (KeepsField d) fields fields') (hb : fields.lookup name = some b) :
    ∃ b', fields'.lookup name = some b' ∧ b.Keeps d b' := by
  induction h with
  | nil => cases hb
  | @cons f f' _ _ hf _ ih =>
    obtain ⟨n, c⟩ := f
    obtain ⟨n', c'⟩ := f'
    obtain rfl : n = n' := hf.name
    rw [List.lookup_cons] at hb ⊢
    split at hb
    · rw [← Option.some.inj hb]
      exact ⟨c', rfl, hf.block⟩
    · exact ih hb

theorem fieldEntries_eq_of_clean [Host] {fields fields' : List (Text × Block)} {es : Entries}
    (h : List.Forall₂ (KeepsField d) fields fields')
    (hclean : (fieldEntries d path fields es).2 = []) :
    fieldEntries d path fields' es = fieldEntries d path fields es := by
  induction es with
  | nil => rfl
  | cons e es ih =>
    obtain ⟨k, x⟩ := e
    obtain ⟨name, b, rfl, hname, hvalue, hrest⟩ := exists_field_of_clean hclean
    obtain ⟨b', hname', hkeeps⟩ := lookup_of_keepsField h hname
    rw [fieldEntries_of_field hname, fieldEntries_of_field hname', hkeeps _ x hvalue, ih hrest]

theorem missingFields_eq_of_clean [Host] {fields fields' : List (Text × Block)} {es : Entries}
    (h : List.Forall₂ (KeepsField d) fields fields')
    (hclean : (missingFields path es fields).2 = []) :
    missingFields path es fields' = missingFields path es fields := by
  induction h with
  | nil => rfl
  | @cons f f' _ _ hf _ ih =>
    obtain ⟨name, b⟩ := f
    obtain ⟨name', b'⟩ := f'
    obtain rfl : name = name' := hf.name
    cases hhas : es.has name with
    | true =>
      rw [missingFields_of_has hhas] at hclean
      rw [missingFields_of_has hhas, missingFields_of_has hhas, ih hclean]
    | false =>
      cases hoption : b.isOptional with
      | true =>
        rw [missingFields_of_optional hhas hoption] at hclean
        rw [missingFields_of_optional hhas hoption,
          missingFields_of_optional hhas (hf.optional hoption), ih hclean]
      | false =>
        rw [missingFields_of_missing hhas hoption] at hclean
        cases hclean

/-! ## Nodes -/

/-- The numbers of a block are such that a rule on them never breaks a walk off where it holds. -/
structure Sound (b : Block) : Prop where
  measured : b.Measured
  short : b.dump.ShortInts

theorem Sound.inside {b : Block} (h : b.Sound) {c : Block} (hc : c ∈ b.parts) : c.Sound :=
  ⟨h.measured.inside c hc, shortInts_part h.short hc⟩

theorem convertNumber_of_looser {h h' : Header} {decimal decimal' : Option Bool}
    {minimum minimum' maximum maximum' : Setting Limit}
    (hnode : LooserNode (.number h decimal minimum maximum) (.number h' decimal' minimum' maximum'))
    (hb : (number h decimal minimum maximum).MeasuredNode)
    (hb' : (number h' decimal' minimum' maximum').Sound)
    (hclean : (convertNumber d path (decimal.getD true) minimum maximum v).findings = []) :
    convertNumber d path (decimal'.getD true) minimum' maximum' v =
      convertNumber d path (decimal.getD true) minimum maximum v := by
  cases hnode with
  | number _ fractions lower higher =>
    have hleastShort : ∀ l, minimum' = .given l → l.IsShort := fun l hl k hk =>
      shortInts_limit (shortInts_setting hl hb'.short fun e he =>
        List.mem_append_left _ (List.mem_append_right _ he)) hk
    have hmostShort : ∀ l, maximum' = .given l → l.IsShort := fun l hl k hk =>
      shortInts_limit (shortInts_setting hl hb'.short fun e he => List.mem_append_right _ he) hk
    cases hsome : v.finiteNumber? with
    | none =>
      rw [convertNumber, hsome] at hclean
      cases hclean
    | some n =>
      have hn := (Value.finiteNumber?_eq_some.1 hsome).2
      by_cases hwhole : decimal.getD true = false → n.isIntegral = true
      · have hwhole' : decimal'.getD true = false → n.isIntegral = true := by
          intro hdecimal'
          apply hwhole
          by_contra hdecimal
          rw [fractions (by simpa using hdecimal)] at hdecimal'
          cases hdecimal'
        rw [convertNumber_of_number hsome hwhole] at hclean
        obtain ⟨hleast, hmost⟩ := List.append_eq_nil_iff.1 hclean
        rw [convertNumber_of_number hsome hwhole, convertNumber_of_number hsome hwhole', hleast, hmost,
          leastFindings_of_looser lower hn hb.1 hb'.measured.here.1 hleastShort hleast,
          mostFindings_of_looser higher hn hb.2 hb'.measured.here.2 hmostShort hmost]
      · obtain ⟨hdecimal, hfraction⟩ := Classical.not_imp.1 hwhole
        rw [hdecimal, convertNumber_of_fraction hsome hfraction] at hclean
        cases hclean

theorem convertString_of_looser [Host] {length length' : Setting LengthRule}
    {pattern pattern' : Setting Text}
    (hlength : KeepsLength length length') (hpattern : pattern.Looser Eq pattern')
    (hclean : (convertString d path length pattern v).findings = []) :
    convertString d path length' pattern' v = convertString d path length pattern v := by
  cases v with
  | str t =>
    obtain ⟨hsize, hfound⟩ := List.append_eq_nil_iff.1 hclean
    rw [convertString, convertString, hsize, hfound, hlength _ _ hsize,
      checkPattern_of_looser hpattern hfound]
  | _ => rfl

theorem convertArray_of_looser [Host] {value value' : Block} {length length' : Setting LengthRule}
    (hvalue : value.Keeps d value') (hlength : KeepsLength length length')
    (hclean : (convertArray d path value length v).findings = []) :
    convertArray d path value' length' v = convertArray d path value length v := by
  unfold convertArray at hclean ⊢
  cases hitems : d.items? v with
  | none => rfl
  | some xs =>
    rw [hitems, Converted.clean_ofItems] at hclean
    dsimp only
    rw [hclean.1, hlength _ _ hclean.1,
      Converted.items_eq_of_clean (fun i x => hvalue _ x) hclean.2]

theorem convertObject_of_looser [Host] {key : KeyKind} {value value' : Block}
    {length length' : Setting LengthRule} (hvalue : value.Keeps d value')
    (hlength : KeepsLength length length')
    (hclean : (convertObject d path key value length v).findings = []) :
    convertObject d path key value' length' v = convertObject d path key value length v := by
  cases v with
  | dict es =>
    obtain ⟨hsize, hentries⟩ := List.append_eq_nil_iff.1 hclean
    rw [convertObject, convertObject, hsize, hlength _ _ hsize,
      Converted.entries_eq_of_clean hvalue hentries]
  | _ => rfl

theorem convertTuple_of_looser [Host] {items items' : List Block}
    (hitems : List.Forall₂ (Keeps d) items items')
    (hclean : (convertTuple d path items v).findings = []) :
    convertTuple d path items' v = convertTuple d path items v := by
  unfold convertTuple at hclean ⊢
  cases hlisted : d.items? v with
  | none => rfl
  | some xs =>
    rw [hlisted] at hclean
    dsimp only at hclean ⊢
    split at hclean
    · next hcount =>
      rw [if_pos hcount, if_pos (hcount.trans hitems.length_eq),
        positions_eq_of_clean hitems (Converted.clean_ofItems.1 hclean).2]
    · cases hclean

theorem convertMap_of_looser [Host] {fields fields' : List (Text × Block)}
    (hfields : List.Forall₂ (KeepsField d) fields fields')
    (hclean : (convertMap d path fields v).findings = []) :
    convertMap d path fields' v = convertMap d path fields v := by
  cases v with
  | dict es =>
    obtain ⟨hpresent, hmissing⟩ := List.append_eq_nil_iff.1 hclean
    rw [convertMap, convertMap, fieldEntries_eq_of_clean hfields hpresent,
      missingFields_eq_of_clean hfields hmissing]
  | _ => rfl

theorem convertEnum_of_looser {values values' : List Text} (hmore : ∀ t ∈ values, t ∈ values')
    (hclean : (convertEnum d path values v).findings = []) :
    convertEnum d path values' v = convertEnum d path values v := by
  cases v with
  | str t =>
    by_cases ht : t ∈ values
    · rw [convertEnum, convertEnum, if_pos (List.contains_iff_mem.2 ht),
        if_pos (List.contains_iff_mem.2 (hmore t ht))]
    · rw [convertEnum, if_neg fun h => ht (List.contains_iff_mem.1 h)] at hclean
      cases hclean
  | _ => rfl

/-- Null is found wherever it is not excused. -/
theorem findings_convertNode_null [Host] (d : Direction) (path : Path) (b : Block) :
    (b.convertNode d path .null).findings ≠ [] := by
  cases b <;> cases d <;> exact List.cons_ne_nil _ _

theorem LooserNode.header {b b' : Block} (h : b.LooserNode b') : b.header.Looser b'.header := by
  cases h <;> assumption

theorem keepsField_of_names [Host] {fields fields' : List (Text × Block)}
    (hnames : fields.map Prod.fst = fields'.map Prod.fst)
    (h : List.Forall₂ (fun b b' => (b.isOptional = true → b'.isOptional = true) ∧ b.Keeps d b')
      (fields.map Prod.snd) (fields'.map Prod.snd)) :
    List.Forall₂ (KeepsField d) fields fields' := by
  induction fields generalizing fields' with
  | nil =>
    obtain rfl := List.map_eq_nil_iff.1 hnames.symm
    exact .nil
  | cons f fields ih =>
    cases fields' with
    | nil => cases hnames
    | cons f' fields' =>
      obtain ⟨hname, hnames⟩ := List.cons.inj hnames
      cases h with
      | cons hf hrest => exact .cons ⟨hname, hf.1, hf.2⟩ (ih hnames hrest)

/-- **A looser block keeps what was accepted.** -/
theorem keeps_of_looser [Host] {b b' : Block} (h : b.Looser b') (hb : b.Measured) (hb' : b'.Sound) :
    b.Keeps d b' := by
  induction b using Block.partsInduction generalizing b' with
  | step b ih =>
    intro path v hclean
    have hparts : List.Forall₂ (fun c c' =>
        (c.isOptional = true → c'.isOptional = true) ∧ c.Keeps d c') b.parts b'.parts := by
      have hinside := List.forall₂_iff_zip.1 h.inside
      refine List.forall₂_iff_zip.2 ⟨hinside.1, fun hmem => ?_⟩
      obtain ⟨hc, hc'⟩ := List.of_mem_zip hmem
      have hlooser := hinside.2 hmem
      exact ⟨hlooser.here.header, ih _ hc hlooser (hb.inside _ hc) (hb'.inside hc')⟩
    have hkeeps : List.Forall₂ (Keeps d) b.parts b'.parts := hparts.imp fun _ _ h => h.2
    have hheader := h.here.header
    by_cases hexcused : b.header.excuses v = true
    · obtain ⟨rfl, hoption⟩ := excuses_eq_true.1 hexcused
      rw [convert_of_excused hexcused,
        convert_of_excused (excuses_eq_true.2 ⟨rfl, hheader hoption⟩)]
    rw [convert_of_not_excused (Bool.eq_false_iff.2 hexcused)] at hclean ⊢
    by_cases hexcused' : b'.header.excuses v = true
    · -- null was no value here before
      obtain ⟨rfl, -⟩ := excuses_eq_true.1 hexcused'
      exact absurd hclean (findings_convertNode_null d path b)
    rw [convert_of_not_excused (Bool.eq_false_iff.2 hexcused')]
    cases h.here with
    | flag => rfl
    | number => exact convertNumber_of_looser h.here hb.here hb' hclean
    | string _ wider same =>
      have hlength := keepsLength_of_looser wider hb.here hb'.measured.here
      exact convertString_of_looser hlength same hclean
    | array _ wider =>
      have hlength := keepsLength_of_looser wider hb.here hb'.measured.here
      cases hkeeps with
      | cons hvalue _ => exact convertArray_of_looser hvalue hlength hclean
    | object _ wider =>
      have hlength := keepsLength_of_looser wider hb.here hb'.measured.here
      cases hkeeps with
      | cons hvalue _ => exact convertObject_of_looser hvalue hlength hclean
    | tuple => exact convertTuple_of_looser hkeeps hclean
    | map _ names => exact convertMap_of_looser (keepsField_of_names names hparts) hclean
    | enum _ more => exact convertEnum_of_looser more hclean

end Block

end DocShape
