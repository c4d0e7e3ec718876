import DocShape.Proofs.Conversion.Keys
import DocShape.Proofs.Conversion.Rewriting
import DocShape.Proofs.Conversion.WalkFindings

/-!
# What an encoder makes of a value

`Block.normalise` says, apart from the walk, what becomes of a value along a schema: tuples are lists,
and the optional fields that a map lacks are there with null, behind the others and in the order in
which they are declared. A walk of the encoder without findings gives just that, and finds nothing on
it again (`normalises_of_clean`).
-/

namespace DocShape

namespace Block

/-- The entries for the optional fields that a dictionary lacks, in the order of the fields. -/
def absentFields (fields : List (Text × Block)) (es : Entries) : Entries :=
  (fields.filter fun f => !Entries.has es f.1 && f.2.isOptional).map fun f => (.str f.1, .null)

mutual

/-- The value with lists for tuples, and null for the optional fields that a map lacks. -/
def normalise (b : Block) (v : Value) : Value :=
  match b, v with
  | array _ value _, .list xs => .list (xs.map (normalise value))
  | array _ value _, .tuple xs => .list (xs.map (normalise value))
  | object _ _ value _, .dict es => .dict (es.map fun e => (e.1, normalise value e.2))
  | tuple _ items, .list xs => .list (normalisePositions items xs)
  | tuple _ items, .tuple xs => .list (normalisePositions items xs)
  | map _ fields, .dict es =>
    .dict (es.map (fun e => (e.1, normaliseField fields e.1 e.2)) ++ absentFields fields es)
  | _, v => v
termination_by structural b

/-- Items along the blocks at their positions. -/
def normalisePositions : List Block → List Value → List Value
  | b :: bs, x :: xs => normalise b x :: normalisePositions bs xs
  | _, xs => xs
termination_by structural b => b

/-- The value of a key along the block of the field with that name. -/
def normaliseField (fields : List (Text × Block)) (key : Value) (v : Value) : Value :=
  match fields with
  | [] => v
  | (name, b) :: rest => if key.text? = some name then normalise b v else normaliseField rest key v
termination_by structural fields

end

theorem absentFields_cons (f : Text × Block) (fields : List (Text × Block)) (es : Entries) :
    absentFields (f :: fields) es =
      if !es.has f.1 && f.2.isOptional then (.str f.1, .null) :: absentFields fields es
      else absentFields fields es := by
  rw [absentFields, List.filter_cons]
  split <;> rfl

theorem normalise_array_list (h : Header) (value : Block) (length : Setting LengthRule)
    (xs : List Value) :
    (array h value length).normalise (.list xs) = .list (xs.map value.normalise) := rfl

theorem normalise_array_tuple (h : Header) (value : Block) (length : Setting LengthRule)
    (xs : List Value) :
    (array h value length).normalise (.tuple xs) = .list (xs.map value.normalise) := rfl

theorem normalise_object (h : Header) (key : KeyKind) (value : Block)
    (length : Setting LengthRule) (es : Entries) :
    (object h key value length).normalise (.dict es) =
      .dict (es.map fun e => (e.1, value.normalise e.2)) := rfl

theorem normalisePositions_eq (bs : List Block) (xs : List Value) :
    normalisePositions bs xs = alongPositions normalise bs xs := by
  induction bs generalizing xs with
  | nil => rfl
  | cons b bs ih =>
    cases xs with
    | nil => rfl
    | cons x xs => rw [normalisePositions, alongPositions, ih]

theorem normaliseField_eq (fields : List (Text × Block)) (key v : Value) :
    normaliseField fields key v = alongField normalise fields key v := by
  induction fields with
  | nil => rfl
  | cons f fields ih => rw [normaliseField, alongField, ih]

theorem normalise_tuple_list (h : Header) (items : List Block) (xs : List Value) :
    (tuple h items).normalise (.list xs) = .list (alongPositions normalise items xs) :=
  congrArg Value.list (normalisePositions_eq items xs)

theorem normalise_tuple_tuple (h : Header) (items : List Block) (xs : List Value) :
    (tuple h items).normalise (.tuple xs) = .list (alongPositions normalise items xs) :=
  congrArg Value.list (normalisePositions_eq items xs)

theorem normalise_map (h : Header) (fields : List (Text × Block)) (es : Entries) :
    (map h fields).normalise (.dict es) =
      .dict (es.map (fun e => (e.1, alongField normalise fields e.1 e.2)) ++
        absentFields fields es) := by
  simp only [normalise, normaliseField_eq]

theorem normalise_null (b : Block) : b.normalise .null = .null := by
  cases b <;> rfl

theorem excuses_normalise (b : Block) (h : Header) (v : Value) :
    h.excuses (b.normalise v) = h.excuses v := by
  cases v with
  | list xs => cases b <;> rfl
  | tuple xs => cases b <;> rfl
  | dict es => cases b <;> rfl
  | _ => cases b <;> rfl

end Block

/-! ## A walk without findings -/

namespace Converted

theorem clean_leaf {v : Value} {fs : List Finding} (h : (leaf v fs).findings = []) :
    leaf v fs = ⟨v, []⟩ := by
  have hfs : fs = [] := h
  rw [hfs]
  rfl

theorem ofItems_clean (xs : List Value) : ofItems [] (xs.map fun x => ⟨x, []⟩) = ⟨.list xs, []⟩ := by
  simp [ofItems, Function.comp_def]

/-- If nothing is found on items, and that is enough to know what another walk makes of each, then
that is what it makes of them all. -/
theorem items_of_clean {f f' : Nat → Value → Converted} {g : Value → Value} {index : Nat}
    {xs : List Value}
    (h : ∀ i, ∀ x ∈ xs, (f i x).findings = [] → f' i x = ⟨g x, []⟩)
    (hclean : ∀ c ∈ items f index xs, c.findings = []) :
    items f' index xs = (xs.map g).map fun x => ⟨x, []⟩ := by
  induction xs generalizing index with
  | nil => rfl
  | cons x xs ih =>
    rw [items] at hclean ⊢
    rw [List.map_cons, List.map_cons,
      h index x List.mem_cons_self (hclean _ List.mem_cons_self),
      ih (fun i y hy => h i y (List.mem_cons_of_mem _ hy))
        fun c hc => hclean c (List.mem_cons_of_mem _ hc)]

/-- What nothing is found on has keys that the encoder takes, and leaves as they are. -/
theorem entries_of_clean {kind : KeyKind} {f f' : Path → Value → Converted} {g : Value → Value}
    {path : Path} {index : Nat} {es : Entries}
    (h : ∀ e ∈ es, ∀ p, (f p e.2).findings = [] → f' p e.2 = ⟨g e.2, []⟩)
    (hclean : (entries .encoding path kind f index es).2 = []) :
    entries .encoding path kind f' index es = (es.map fun e => (e.1, g e.2), []) := by
  induction es generalizing index with
  | nil => rfl
  | cons e es ih =>
    obtain ⟨k, v⟩ := e
    obtain ⟨key, shown, hk, hcleanValue, hcleanRest⟩ := exists_key_of_clean hclean
    have hvalue := h _ List.mem_cons_self _ hcleanValue
    have hrest := ih (fun e he => h e (List.mem_cons_of_mem _ he)) hcleanRest
    obtain ⟨rfl, -⟩ := Direction.key?_encoding_eq_ok hk
    rw [entries_of_key hk, hvalue, hrest]
    rfl

end Converted

namespace Block

theorem exists_lookup {fields : List (Text × Block)} {f : Text × Block} (h : f ∈ fields) :
    ∃ b, fields.lookup f.1 = some b := by
  induction fields with
  | nil => cases h
  | cons g fields ih =>
    obtain ⟨n, c⟩ := g
    rw [List.lookup_cons]
    split
    · exact ⟨c, rfl⟩
    · next hn =>
      rcases List.mem_cons.1 h with rfl | h
      · rw [beq_self_eq_true] at hn
        cases hn
      · exact ih h

theorem fieldEntries_append [Host] (d : Direction) (path : Path) (fields : List (Text × Block))
    (es es' : Entries) :
    fieldEntries d path fields (es ++ es') =
      ((fieldEntries d path fields es).1 ++ (fieldEntries d path fields es').1,
        (fieldEntries d path fields es).2 ++ (fieldEntries d path fields es').2) := by
  induction es with
  | nil => rfl
  | cons e es ih =>
    obtain ⟨k, v⟩ := e
    rw [List.cons_append]
    cases hb : fieldOf? fields k with
    | none =>
      rw [fieldEntries_of_unexpected hb, fieldEntries_of_unexpected hb, ih]
      rfl
    | some b =>
      obtain ⟨name, rfl, hname⟩ := fieldOf?_eq_some.1 hb
      rw [fieldEntries_of_field hname, fieldEntries_of_field hname, ih, List.append_assoc]
      rfl

/-- The encoder normalises a value, finding nothing, and finds nothing on the result either. -/
def Normalises [Host] (b : Block) (path : Path) (v : Value) : Prop :=
  b.convert .encoding path v = ⟨b.normalise v, []⟩ ∧
    b.convert .encoding path (b.normalise v) = ⟨b.normalise v, []⟩

/-- Fields on which nothing is found are normalised, and found to be in order again. -/
theorem fieldEntries_of_clean [Host] {fields : List (Text × Block)} {path : Path} {es : Entries}
    (h : ∀ e ∈ es, ∀ f ∈ fields, ∀ p, (f.2.convert .encoding p e.2).findings = [] →
      f.2.Normalises p e.2)
    (hclean : (fieldEntries .encoding path fields es).2 = []) :
    fieldEntries .encoding path fields es =
        (es.map fun e => (e.1, alongField normalise fields e.1 e.2), []) ∧
      fieldEntries .encoding path fields
          (es.map fun e => (e.1, alongField normalise fields e.1 e.2)) =
        (es.map fun e => (e.1, alongField normalise fields e.1 e.2), []) := by
  induction es with
  | nil => exact ⟨rfl, rfl⟩
  | cons e es ih =>
    obtain ⟨k, v⟩ := e
    obtain ⟨name, b, rfl, hname, hcleanValue, hcleanRest⟩ := exists_field_of_clean hclean
    obtain ⟨hvalue, hagain⟩ := h _ List.mem_cons_self _ (mem_of_lookup hname) _ hcleanValue
    obtain ⟨hrest, hrestAgain⟩ := ih (fun e he => h e (List.mem_cons_of_mem _ he)) hcleanRest
    rw [List.map_cons, alongField_of_field normalise hname, fieldEntries_of_field hname, hvalue, hrest,
      fieldEntries_of_field hname, hagain, hrestAgain]
    exact ⟨rfl, rfl⟩

theorem missingFields_of_present {fields : List (Text × Block)} {path : Path} {es : Entries}
    (h : ∀ f ∈ fields, es.has f.1 = true ∨ f.2.isOptional = true) :
    missingFields path es fields = (absentFields fields es, []) := by
  induction fields with
  | nil => rfl
  | cons f fields ih =>
    rw [List.forall_mem_cons] at h
    rw [absentFields_cons]
    cases hhas : es.has f.1 with
    | true =>
      rw [missingFields_of_has hhas, ih h.2]
      rfl
    | false =>
      have hoption : f.2.isOptional = true := h.1.resolve_left (by simp [hhas])
      rw [missingFields_of_optional hhas hoption, ih h.2, hoption]
      rfl

theorem present_of_clean {fields : List (Text × Block)} {path : Path} {es : Entries}
    (hclean : (missingFields path es fields).2 = []) :
    ∀ f ∈ fields, es.has f.1 = true ∨ f.2.isOptional = true := by
  induction fields with
  | nil => exact fun f hf => absurd hf List.not_mem_nil
  | cons f fields ih =>
    cases hhas : es.has f.1 with
    | true =>
      rw [missingFields_of_has hhas] at hclean
      exact List.forall_mem_cons.2 ⟨.inl hhas, ih hclean⟩
    | false =>
      cases hoption : f.2.isOptional with
      | true =>
        rw [missingFields_of_optional hhas hoption] at hclean
        exact List.forall_mem_cons.2 ⟨.inr hoption, ih hclean⟩
      | false => rw [missingFields_of_missing hhas hoption] at hclean; cases hclean

theorem missingFields_of_clean {fields : List (Text × Block)} {path : Path} {es : Entries}
    (hclean : (missingFields path es fields).2 = []) :
    missingFields path es fields = (absentFields fields es, []) ∧
      ∀ f ∈ fields, es.has f.1 = true ∨ f.2.isOptional = true :=
  ⟨missingFields_of_present (present_of_clean hclean), present_of_clean hclean⟩

theorem missingFields_of_all {fields : List (Text × Block)} (path : Path) {es : Entries}
    (h : ∀ f ∈ fields, es.has f.1 = true) : missingFields path es fields = ([], []) := by
  induction fields with
  | nil => rfl
  | cons f fields ih =>
    rw [missingFields_of_has (h f List.mem_cons_self)]
    exact ih fun g hg => h g (List.mem_cons_of_mem _ hg)

theorem fieldEntries_absent [Host] {fields : List (Text × Block)} (path : Path) {es : Entries}
    (hall : ∀ f ∈ fields, es.has f.1 = true ∨ f.2.isOptional = true) {part : List (Text × Block)}
    (hpart : ∀ f ∈ part, f ∈ fields) :
    fieldEntries .encoding path fields (absentFields part es) = (absentFields part es, []) := by
  induction part with
  | nil => rfl
  | cons f part ih =>
    have hrest := ih fun g hg => hpart g (List.mem_cons_of_mem _ hg)
    rw [absentFields_cons]
    by_cases hkeep : (!es.has f.1 && f.2.isOptional) = true
    · obtain ⟨b, hb⟩ := exists_lookup (hpart f List.mem_cons_self)
      have hhas : ¬ es.has f.1 = true := by simpa using (Bool.and_eq_true_iff.1 hkeep).1
      have hoption : b.isOptional = true := (hall _ (mem_of_lookup hb)).resolve_left hhas
      rw [if_pos hkeep, fieldEntries_of_field hb, hrest,
        convert_of_excused (excuses_eq_true.2 ⟨rfl, hoption⟩)]
      rfl
    · rw [if_neg hkeep, hrest]

theorem has_normalised {fields : List (Text × Block)} {es : Entries}
    (hall : ∀ f ∈ fields, es.has f.1 = true ∨ f.2.isOptional = true) (g : Value → Value → Value) :
    ∀ f ∈ fields,
      Entries.has ((es.map fun e => (e.1, g e.1 e.2)) ++ absentFields fields es) f.1 = true := by
  intro f hf
  rw [Entries.has_iff]
  cases hhas : es.has f.1 with
  | true =>
    obtain ⟨v, hv⟩ := Entries.has_iff.1 hhas
    exact ⟨_, List.mem_append_left _ (List.mem_map.2 ⟨_, hv, rfl⟩)⟩
  | false =>
    have hoption : f.2.isOptional = true :=
      (hall f hf).resolve_left (by rw [hhas]; exact Bool.false_ne_true)
    refine ⟨.null, List.mem_append_right _ (List.mem_map.2 ⟨f, ?_, rfl⟩)⟩
    exact List.mem_filter.2 ⟨hf, by simp [hhas, hoption]⟩

theorem convertPositions_of_clean [Host] {bs : List Block} {path : Path} {index : Nat} {xs : List Value}
    (hlength : xs.length = bs.length)
    (h : ∀ b ∈ bs, ∀ x p, (b.convert .encoding p x).findings = [] → b.Normalises p x)
    (hclean : ∀ c ∈ convertPositions .encoding path index bs xs, c.findings = []) :
    convertPositions .encoding path index bs xs =
        (alongPositions normalise bs xs).map (fun x => ⟨x, []⟩) ∧
      convertPositions .encoding path index bs (alongPositions normalise bs xs) =
        (alongPositions normalise bs xs).map fun x => ⟨x, []⟩ := by
  induction bs generalizing index xs with
  | nil =>
    obtain rfl := List.length_eq_zero_iff.1 hlength
    exact ⟨rfl, rfl⟩
  | cons b bs ih =>
    cases xs with
    | nil => cases hlength
    | cons x xs =>
      rw [convertPositions] at hclean
      obtain ⟨hvalue, hagain⟩ := h b List.mem_cons_self x _ (hclean _ List.mem_cons_self)
      obtain ⟨hrest, hrestAgain⟩ := ih (Nat.succ.inj hlength)
        (fun c hc => h c (List.mem_cons_of_mem _ hc))
        (fun c hc => hclean c (List.mem_cons_of_mem _ hc))
      rw [alongPositions, convertPositions, convertPositions, hvalue, hagain, hrest, hrestAgain]
      exact ⟨rfl, rfl⟩

theorem convertNumber_of_clean {path : Path} {decimal : Bool} {minimum maximum : Setting Limit}
    {v : Value} (hclean : (convertNumber .encoding path decimal minimum maximum v).findings = []) :
    convertNumber .encoding path decimal minimum maximum v = ⟨v, []⟩ := by
  unfold convertNumber at hclean ⊢
  cases hn : v.finiteNumber? with
  | none => rw [hn] at hclean; cases hclean
  | some n =>
    simp only [hn] at hclean ⊢
    split at hclean
    · cases hclean
    · next hfraction =>
      rw [if_neg hfraction]
      exact Converted.clean_leaf hclean

section Parts

variable {path : Path} {value : Block} {length : Setting LengthRule}

theorem convertArray_of_clean [Host]
    (h : ∀ p x, (value.convert .encoding p x).findings = [] → value.Normalises p x)
    {xs : List Value}
    (hclean : (convertArray .encoding path value length (.list xs)).findings = []) :
    convertArray .encoding path value length (.list xs) = ⟨.list (xs.map value.normalise), []⟩ ∧
      convertArray .encoding path value length (.list (xs.map value.normalise)) =
        ⟨.list (xs.map value.normalise), []⟩ := by
  simp only [convertArray, Direction.items?] at hclean ⊢
  obtain ⟨hlength, hparts⟩ := Converted.clean_ofItems.1 hclean
  have hvalues :
      Converted.items (fun i x => value.convert .encoding (path ++ [.item i]) x) 0 xs =
        (xs.map value.normalise).map fun x => ⟨x, []⟩ :=
    Converted.items_of_clean (fun i x _ hx => (h _ x hx).1) hparts
  have hagain :
      Converted.items (fun i x =>
          value.convert .encoding (path ++ [.item i]) (value.normalise x)) 0 xs =
        (xs.map value.normalise).map fun x => ⟨x, []⟩ :=
    Converted.items_of_clean (fun i x _ hx => (h _ x hx).2) hparts
  rw [List.length_map, Converted.items_map, hlength, hvalues, hagain, Converted.ofItems_clean]
  exact ⟨rfl, rfl⟩

theorem convertObject_of_clean [Host] {key : KeyKind}
    (h : ∀ p x, (value.convert .encoding p x).findings = [] → value.Normalises p x) {es : Entries}
    (hclean : (convertObject .encoding path key value length (.dict es)).findings = []) :
    convertObject .encoding path key value length (.dict es) =
        ⟨.dict (es.map fun e => (e.1, value.normalise e.2)), []⟩ ∧
      convertObject .encoding path key value length
          (.dict (es.map fun e => (e.1, value.normalise e.2))) =
        ⟨.dict (es.map fun e => (e.1, value.normalise e.2)), []⟩ := by
  obtain ⟨hlength, hparts⟩ := List.append_eq_nil_iff.1 hclean
  have hvalues :
      Converted.entries .encoding path key (fun p x => value.convert .encoding p x) 0 es =
        (es.map fun e => (e.1, value.normalise e.2), []) :=
    Converted.entries_of_clean (fun e _ p he => (h p e.2 he).1) hparts
  have hagain :
      Converted.entries .encoding path key
          (fun p x => value.convert .encoding p (value.normalise x)) 0 es =
        (es.map fun e => (e.1, value.normalise e.2), []) :=
    Converted.entries_of_clean (fun e _ p he => (h p e.2 he).2) hparts
  simp only [convertObject]
  rw [List.length_map, hlength, hvalues, (Converted.entries_map fun _ _ _ => rfl).trans hagain]
  exact ⟨rfl, rfl⟩

theorem convertTuple_of_clean [Host] {items : List Block}
    (h : ∀ b ∈ items, ∀ x p, (b.convert .encoding p x).findings = [] → b.Normalises p x)
    {xs : List Value} (hclean : (convertTuple .encoding path items (.list xs)).findings = []) :
    convertTuple .encoding path items (.list xs) = ⟨.list (alongPositions normalise items xs), []⟩ ∧
      convertTuple .encoding path items (.list (alongPositions normalise items xs)) =
        ⟨.list (alongPositions normalise items xs), []⟩ := by
  simp only [convertTuple, Direction.items?] at hclean ⊢
  split at hclean
  · next hlength =>
    obtain ⟨-, hparts⟩ := Converted.clean_ofItems.1 hclean
    obtain ⟨hvalue, hagain⟩ := convertPositions_of_clean hlength h hparts
    rw [length_alongPositions, if_pos hlength, if_pos hlength, hvalue, hagain,
      Converted.ofItems_clean]
    exact ⟨rfl, rfl⟩
  · cases hclean

theorem convertMap_of_clean [Host] {fields : List (Text × Block)}
    (h : ∀ f ∈ fields, ∀ p x, (f.2.convert .encoding p x).findings = [] → f.2.Normalises p x)
    {es : Entries} (hclean : (convertMap .encoding path fields (.dict es)).findings = []) :
    convertMap .encoding path fields (.dict es) =
        ⟨.dict ((es.map fun e => (e.1, alongField normalise fields e.1 e.2)) ++ absentFields fields es),
          []⟩ ∧
      convertMap .encoding path fields
          (.dict ((es.map fun e => (e.1, alongField normalise fields e.1 e.2)) ++
            absentFields fields es)) =
        ⟨.dict ((es.map fun e => (e.1, alongField normalise fields e.1 e.2)) ++ absentFields fields es),
          []⟩ := by
  obtain ⟨hpresent, hmissing⟩ := List.append_eq_nil_iff.1 hclean
  obtain ⟨hvalues, hagain⟩ := fieldEntries_of_clean (fun e _ f hf p => h f hf p e.2) hpresent
  obtain ⟨habsent, hall⟩ := missingFields_of_clean hmissing
  simp only [convertMap]
  rw [fieldEntries_append, hagain, fieldEntries_absent path hall fun f hf => hf,
    missingFields_of_all path (has_normalised hall _), hvalues, habsent]
  simp

end Parts

/-- **A walk of the encoder that finds nothing normalises**, and finds nothing on the result. -/
theorem normalises_of_clean [Host] (b : Block) {path : Path} {v : Value}
    (hclean : (b.convert .encoding path v).findings = []) : b.Normalises path v := by
  induction b using Block.partsInduction generalizing path v with
  | step b ih =>
    unfold Normalises
    by_cases hexcused : b.header.excuses v = true
    · obtain ⟨rfl, -⟩ := excuses_eq_true.1 hexcused
      rw [normalise_null, convert_of_excused hexcused]
      exact ⟨rfl, rfl⟩
    have hexcused := Bool.eq_false_iff.2 hexcused
    have hnormalised := (excuses_normalise b b.header v).trans hexcused
    rw [convert_of_not_excused hexcused] at hclean ⊢
    rw [convert_of_not_excused hnormalised]
    cases b with
    | flag h =>
      cases v with
      | bool b => exact ⟨rfl, rfl⟩
      | _ => cases hclean
    | number h decimal minimum maximum =>
      have hsame : (number h decimal minimum maximum).normalise v = v := by cases v <;> rfl
      have hleaf := convertNumber_of_clean hclean
      rw [hsame]
      exact ⟨hleaf, hleaf⟩
    | string h length pattern =>
      cases v with
      | str t =>
        have hleaf := Converted.clean_leaf hclean
        exact ⟨hleaf, hleaf⟩
      | _ => cases hclean
    | enum h values =>
      cases v with
      | str t =>
        have hleaf := Converted.clean_leaf hclean
        exact ⟨hleaf, hleaf⟩
      | _ => cases hclean
    | array h value length =>
      have hvalue := fun p x => @ih value List.mem_cons_self p x
      cases v with
      | list xs =>
        rw [normalise_array_list]
        exact convertArray_of_clean hvalue hclean
      | tuple xs =>
        rw [normalise_array_tuple]
        exact convertArray_of_clean hvalue hclean
      | _ => cases hclean
    | object h key value length =>
      cases v with
      | dict es =>
        rw [normalise_object]
        exact convertObject_of_clean (fun p x => @ih value List.mem_cons_self p x) hclean
      | _ => cases hclean
    | tuple h items =>
      have hitems := fun b hb x p => @ih b hb p x
      cases v with
      | list xs =>
        rw [normalise_tuple_list]
        exact convertTuple_of_clean hitems hclean
      | tuple xs =>
        rw [normalise_tuple_tuple]
        exact convertTuple_of_clean hitems hclean
      | _ => cases hclean
    | map h fields =>
      cases v with
      | dict es =>
        rw [normalise_map]
        exact convertMap_of_clean (fun f hf p x => @ih f.2 (List.mem_map_of_mem hf) p x) hclean
      | _ => cases hclean

end Block

end DocShape
