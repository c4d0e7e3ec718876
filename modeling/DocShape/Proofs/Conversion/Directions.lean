import DocShape.Proofs.Conversion.Respelling
import DocShape.Proofs.Conversion.WalkFindings

/-!
# The two directions agree

Decoding and encoding are one walk. What a decoder finds on a document, and what it makes of it, is
what an encoder finds on the respelled document and makes of that, in its own words
(`convert_respell`). Tuples in place of lists make no difference to an encoder (`convert_listed`).
-/

namespace DocShape

/-! ## The words of the encoder -/

/-- A mismatch as an encoder words it. -/
def Mismatch.forEncoding : Mismatch → Mismatch
  | expected shape _ => expected shape .encoding
  | m => m

/-- An error as an encoder words it: path and class stay. -/
def Complaint.forEncoding : Complaint → Complaint
  | mismatch path cause => mismatch path cause.forEncoding
  | c => c

/-- A finding as an encoder words it. -/
def Finding.forEncoding : Finding → Finding
  | error c => error c.forEncoding
  | f => f

/-- A converted value with its findings as an encoder words them. -/
def Converted.forEncoding (c : Converted) : Converted :=
  ⟨c.value, c.findings.map Finding.forEncoding⟩

theorem Complaint.path_forEncoding (c : Complaint) : c.forEncoding.path = c.path := by
  cases c <;> rfl

theorem Complaint.className_forEncoding (c : Complaint) : c.forEncoding.className = c.className := by
  cases c <;> rfl

/-- Only the words for what was expected depend on the direction. -/
theorem Complaint.message_forEncoding (c : Complaint) :
    c.forEncoding.message = c.message ∨ ∃ path shape d, c = .mismatch path (.expected shape d) ∧
      c.forEncoding = .mismatch path (.expected shape .encoding) := by
  cases c with
  | mismatch path cause =>
    cases cause with
    | expected shape d => exact .inr ⟨path, shape, d, rfl, rfl⟩
    | _ => exact .inl rfl
  | violation path cause => exact .inl rfl

theorem Finding.OfRule.forEncoding_eq {path : Path} {f : Finding} (h : OfRule path f) :
    f.forEncoding = f := by
  cases h with
  | mismatch cause h =>
    cases cause with
    | expected shape d => cases h
    | _ => rfl
  | halt f => rfl

theorem Finding.map_forEncoding {path : Path} {fs : List Finding} (h : ∀ f ∈ fs, f.OfRule path) :
    fs.map forEncoding = fs := by
  rw [List.map_congr_left fun f hf => (h f hf).forEncoding_eq, List.map_id'']
  exact fun _ => rfl

namespace Converted

theorem forEncoding_leaf (path : Path) (v : Value) {fs : List Finding}
    (h : ∀ f ∈ fs, f.OfRule path) : (leaf v fs).forEncoding = leaf v fs := by
  rw [leaf, forEncoding, Finding.map_forEncoding h]

theorem forEncoding_ofItems (path : Path) {before : List Finding} (parts : List Converted)
    (h : ∀ f ∈ before, f.OfRule path) :
    (ofItems before parts).forEncoding = ofItems before (parts.map forEncoding) := by
  simp only [ofItems, forEncoding, List.map_append, Finding.map_forEncoding h, List.map_map,
    Function.comp_def, List.map_flatMap, List.flatMap_map]

end Converted

/-! ## Documents through a decoder, respelled documents through an encoder -/

namespace Converted

theorem entries_respell [Host] {kind : KeyKind} {value : Block} (path : Path) (index : Nat)
    {es : Entries}
    (htexts : ∀ e ∈ es, ∃ t, e.1 = .str t)
    (hdigits : ∀ e ∈ es, ∀ n, kind.respell e.1 = .int n → Text.HasDigits n)
    (hvalues : ∀ e ∈ es, ∀ p,
      value.convert .encoding p (value.respell e.2) = (value.convert .decoding p e.2).forEncoding) :
    entries .encoding path kind (fun p x => value.convert .encoding p x) index
        (es.map fun e => (kind.respell e.1, value.respell e.2)) =
      (fun r => (r.1, r.2.map Finding.forEncoding))
        (entries .decoding path kind (fun p x => value.convert .decoding p x) index es) := by
  induction es generalizing index with
  | nil => rfl
  | cons e es ih =>
    obtain ⟨k, v⟩ := e
    obtain ⟨t, rfl⟩ : ∃ t, k = .str t := htexts _ List.mem_cons_self
    have hrest := ih (index + 1) (fun e h => htexts e (List.mem_cons_of_mem _ h))
      (fun e h => hdigits e (List.mem_cons_of_mem _ h))
      fun e h => hvalues e (List.mem_cons_of_mem _ h)
    have hkey := KeyKind.key?_respell (hdigits _ List.mem_cons_self)
    rw [List.map_cons]
    cases hk : Direction.decoding.key? kind (.str t) with
    | none => rw [entries_of_bad hk, entries_of_bad (hkey.trans hk), hrest]; rfl
    | some r =>
      cases r with
      | error f => rw [entries_of_halt hk, entries_of_halt (hkey.trans hk), hrest]; rfl
      | ok key =>
        rw [entries_of_key hk, entries_of_key (hkey.trans hk), hrest,
          hvalues _ List.mem_cons_self]
        simp only [forEncoding, List.map_append]

end Converted

theorem Entries.has_map {es : Entries} (g : Value → Value → Value) (name : Text) :
    Entries.has (es.map fun e => (e.1, g e.1 e.2)) name = es.has name := by
  rw [Bool.eq_iff_iff, Entries.has_iff, Entries.has_iff]
  constructor
  · rintro ⟨v, hv⟩
    obtain ⟨e, he, heq⟩ := List.mem_map.1 hv
    obtain ⟨hk, -⟩ := Prod.mk.inj heq
    exact ⟨e.2, by rw [← hk]; exact he⟩
  · rintro ⟨v, hv⟩
    exact ⟨g (.str name) v, List.mem_map.2 ⟨_, hv, rfl⟩⟩

theorem missingFields_congr {es es' : Entries} (h : ∀ name, es.has name = es'.has name)
    (path : Path) (fields : List (Text × Block)) :
    missingFields path es fields = missingFields path es' fields := by
  induction fields with
  | nil => rfl
  | cons f fields ih => rw [missingFields, missingFields, ih, h]

theorem forEncoding_missingFields (path : Path) (es : Entries) (fields : List (Text × Block)) :
    (missingFields path es fields).2.map Finding.forEncoding =
      (missingFields path es fields).2 := by
  induction fields with
  | nil => rfl
  | cons f fields ih =>
    cases hhas : es.has f.1 with
    | true => rw [missingFields_of_has hhas, ih]
    | false =>
      cases hoption : f.2.isOptional with
      | true => rw [missingFields_of_optional hhas hoption, ih]
      | false =>
        rw [missingFields_of_missing hhas hoption, List.map_cons, ih]
        rfl

theorem Finding.forEncoding_quoting (v : Value) (path : Path) :
    (quoting v fun shown => .mismatch path (.unexpectedField shown)).forEncoding =
      quoting v fun shown => .mismatch path (.unexpectedField shown) := by
  unfold quoting
  cases v.display? <;> rfl

namespace Block

theorem fieldEntries_respell [Host] {fields : List (Text × Block)} (path : Path) {es : Entries}
    (hvalues : ∀ e ∈ es, ∀ name b, e.1 = .str name → fields.lookup name = some b → ∀ p,
      b.convert .encoding p (b.respell e.2) = (b.convert .decoding p e.2).forEncoding) :
    fieldEntries .encoding path fields (es.map fun e => (e.1, alongField respell fields e.1 e.2)) =
      (fun r => (r.1, r.2.map Finding.forEncoding)) (fieldEntries .decoding path fields es) := by
  induction es with
  | nil => rfl
  | cons e es ih =>
    obtain ⟨k, v⟩ := e
    have hrest := ih fun e h => hvalues e (List.mem_cons_of_mem _ h)
    rw [List.map_cons]
    cases hb : fieldOf? fields k with
    | none =>
      rw [fieldEntries_of_unexpected hb, fieldEntries_of_unexpected hb, hrest]
      simp only [List.map_cons, Finding.forEncoding_quoting]
    | some b =>
      obtain ⟨name, rfl, hname⟩ := fieldOf?_eq_some.1 hb
      rw [fieldEntries_of_field hname, alongField_of_field respell hname, fieldEntries_of_field hname,
        hrest, hvalues _ List.mem_cons_self name b rfl hname]
      simp only [Converted.forEncoding, List.map_append]

theorem convertPositions_respell [Host] {bs : List Block} (path : Path) (index : Nat) {xs : List Value}
    (hvalues : ∀ b ∈ bs, ∀ x ∈ xs, (b.respell x).KeyDigits → ∀ p,
      b.convert .encoding p (b.respell x) = (b.convert .decoding p x).forEncoding)
    (hdigits : ∀ x ∈ alongPositions respell bs xs, x.KeyDigits) :
    convertPositions .encoding path index bs (alongPositions respell bs xs) =
      (convertPositions .decoding path index bs xs).map Converted.forEncoding := by
  induction bs generalizing index xs with
  | nil => rfl
  | cons b bs ih =>
    cases xs with
    | nil => rfl
    | cons x xs =>
      rw [alongPositions] at hdigits ⊢
      rw [convertPositions, convertPositions, List.map_cons,
        hvalues b List.mem_cons_self x List.mem_cons_self (hdigits _ List.mem_cons_self),
        ih (index + 1) (fun c hc y hy => hvalues c (List.mem_cons_of_mem _ hc) y
            (List.mem_cons_of_mem _ hy)) fun y hy => hdigits y (List.mem_cons_of_mem _ hy)]

section Kinds

variable (path : Path) {value : Block} (length : Setting LengthRule)

theorem convertNumber_forEncoding (decimal : Bool) (minimum maximum : Setting Limit) (w : Value) :
    convertNumber .encoding path decimal minimum maximum w =
      (convertNumber .decoding path decimal minimum maximum w).forEncoding := by
  unfold convertNumber
  split
  · rfl
  · split
    · rfl
    · refine (Converted.forEncoding_leaf path w fun f hf => ?_).symm
      rcases List.mem_append.1 hf with hf | hf
      · split at hf
        · cases hf
        · exact ofRule_checkLeast hf
      · split at hf
        · cases hf
        · exact ofRule_checkMost hf

theorem convertString_forEncoding [Host] (pattern : Setting Text) (w : Value) :
    convertString .encoding path length pattern w =
      (convertString .decoding path length pattern w).forEncoding := by
  unfold convertString
  split
  · refine (Converted.forEncoding_leaf path _ fun f hf => ?_).symm
    rcases List.mem_append.1 hf with hf | hf
    · exact ofRule_checkLength hf
    · exact ofRule_checkPattern hf
  · rfl

theorem convertEnum_forEncoding (values : List Text) (w : Value) :
    convertEnum .encoding path values w = (convertEnum .decoding path values w).forEncoding := by
  unfold convertEnum
  split
  · refine (Converted.forEncoding_leaf path _ fun f hf => ?_).symm
    split at hf
    · cases hf
    · rw [List.mem_singleton.1 hf]
      exact .mismatch _ rfl
  · rfl

theorem convertArray_respell [Host] {xs : List Value}
    (hvalues : ∀ x ∈ xs, ∀ p,
      value.convert .encoding p (value.respell x) = (value.convert .decoding p x).forEncoding) :
    convertArray .encoding path value length (.list (xs.map value.respell)) =
      (convertArray .decoding path value length (.list xs)).forEncoding := by
  have hitems (i : Nat) (x : Value) (hx : x ∈ xs) := hvalues x hx (path ++ [.item i])
  simp only [convertArray, Direction.items?]
  rw [Converted.forEncoding_ofItems path _ fun f hf => ofRule_checkLength hf, Converted.items_map,
    Converted.map_items, Converted.items_congr 0 hitems, List.length_map]

theorem convertObject_respell [Host] {key : KeyKind} {es : Entries}
    (htexts : ∀ e ∈ es, ∃ t, e.1 = .str t)
    (hdigits : ∀ e ∈ es, ∀ n, key.respell e.1 = .int n → Text.HasDigits n)
    (hvalues : ∀ e ∈ es, ∀ p,
      value.convert .encoding p (value.respell e.2) = (value.convert .decoding p e.2).forEncoding) :
    convertObject .encoding path key value length
        (.dict (es.map fun e => (key.respell e.1, value.respell e.2))) =
      (convertObject .decoding path key value length (.dict es)).forEncoding := by
  simp only [convertObject]
  rw [Converted.entries_respell path 0 htexts hdigits hvalues, List.length_map,
    Converted.ofEntries, Converted.ofEntries, Converted.forEncoding, List.map_append,
    Finding.map_forEncoding fun f hf => ofRule_checkLength hf]

theorem convertTuple_respell [Host] {items : List Block} {xs : List Value}
    (hvalues : ∀ b ∈ items, ∀ x ∈ xs, (b.respell x).KeyDigits → ∀ p,
      b.convert .encoding p (b.respell x) = (b.convert .decoding p x).forEncoding)
    (hdigits : ∀ x ∈ alongPositions respell items xs, x.KeyDigits) :
    convertTuple .encoding path items (.list (alongPositions respell items xs)) =
      (convertTuple .decoding path items (.list xs)).forEncoding := by
  simp only [convertTuple, Direction.items?]
  rw [length_alongPositions]
  split
  · rw [convertPositions_respell path 0 hvalues hdigits]
    exact (Converted.forEncoding_ofItems path _ fun f hf => by cases hf).symm
  · rfl

theorem convertMap_respell [Host] {fields : List (Text × Block)} {es : Entries}
    (hvalues : ∀ e ∈ es, ∀ name b, e.1 = .str name → fields.lookup name = some b → ∀ p,
      b.convert .encoding p (b.respell e.2) = (b.convert .decoding p e.2).forEncoding) :
    convertMap .encoding path fields
        (.dict (es.map fun e => (e.1, alongField respell fields e.1 e.2))) =
      (convertMap .decoding path fields (.dict es)).forEncoding := by
  simp only [convertMap]
  rw [fieldEntries_respell path hvalues, missingFields_congr (Entries.has_map _),
    Converted.forEncoding, List.map_append, forEncoding_missingFields]

end Kinds

/-- **The two directions agree.** What a decoder makes of a document and finds on it, an encoder makes
of the respelled document and finds on that. -/
theorem convert_respell [Host] (b : Block) (path : Path) {w : Value} (hw : w.IsDocument)
    (hdigits : (b.respell w).KeyDigits) :
    b.convert .encoding path (b.respell w) = (b.convert .decoding path w).forEncoding := by
  induction b using Block.partsInduction generalizing path w with
  | step b ih =>
    by_cases hexcused : b.header.excuses w = true
    · have hrespelled := (excuses_respell b b.header w).trans hexcused
      rw [convert_of_excused hexcused, convert_of_excused hrespelled]
      rfl
    have hexcused := Bool.eq_false_iff.2 hexcused
    have hrespelled := (excuses_respell b b.header w).trans hexcused
    rw [convert_of_not_excused hexcused, convert_of_not_excused hrespelled]
    cases b with
    | flag h => cases w <;> rfl
    | number h decimal minimum maximum =>
      have hsame : (number h decimal minimum maximum).respell w = w := by cases w <;> rfl
      rw [hsame]
      exact convertNumber_forEncoding path _ minimum maximum w
    | string h length pattern =>
      have hsame : (string h length pattern).respell w = w := by cases w <;> rfl
      rw [hsame]
      exact convertString_forEncoding path length pattern w
    | enum h values =>
      have hsame : (enum h values).respell w = w := by cases w <;> rfl
      rw [hsame]
      exact convertEnum_forEncoding path values w
    | array h value length =>
      cases w with
      | list xs =>
        rw [respell_array] at hdigits ⊢
        refine convertArray_respell path length fun x hx p => ?_
        exact ih value List.mem_cons_self p (hw.item hx) (hdigits.item (List.mem_map_of_mem hx))
      | tuple xs => exact hw.here.elim
      | _ => rfl
    | object h key value length =>
      cases w with
      | dict es =>
        rw [respell_object] at hdigits ⊢
        refine convertObject_respell path length hw.here.1 (fun e he n hn => ?_) fun e he p => ?_
        · exact hdigits.here _ (List.mem_map_of_mem he) n hn
        · exact ih value List.mem_cons_self p (hw.entry he)
            (hdigits.entry (List.mem_map_of_mem he))
      | _ => rfl
    | tuple h items =>
      cases w with
      | list xs =>
        rw [respell_tuple] at hdigits ⊢
        refine convertTuple_respell path (fun b hb x hx hx' p => ?_) fun x hx => hdigits.item hx
        exact ih b hb p (hw.item hx) hx'
      | tuple xs => exact hw.here.elim
      | _ => rfl
    | map h fields =>
      cases w with
      | dict es =>
        rw [respell_map] at hdigits ⊢
        refine convertMap_respell path fun e he name b hname hb p => ?_
        have hinside := hdigits.entry (List.mem_map_of_mem he)
        simp only [hname, alongField_of_field respell hb] at hinside
        exact ih b (List.mem_map_of_mem (mem_of_lookup hb)) p (hw.entry he) hinside
      | _ => rfl

end Block

/-! ## Tuples in place of lists -/

namespace Block

theorem fieldEntries_listed [Host] {d : Direction} {fields : List (Text × Block)} (path : Path)
    {es : Entries}
    (hvalues : ∀ e ∈ es, ∀ f ∈ fields, ∀ p, f.2.convert d p e.2.listed = f.2.convert d p e.2) :
    fieldEntries d path fields (es.map fun e => (e.1, e.2.listed)) =
      fieldEntries d path fields es := by
  induction es with
  | nil => rfl
  | cons e es ih =>
    obtain ⟨k, v⟩ := e
    have hrest := ih fun e h => hvalues e (List.mem_cons_of_mem _ h)
    rw [List.map_cons]
    cases hb : fieldOf? fields k with
    | none => rw [fieldEntries_of_unexpected hb, fieldEntries_of_unexpected hb, hrest]
    | some b =>
      obtain ⟨name, rfl, hname⟩ := fieldOf?_eq_some.1 hb
      rw [fieldEntries_of_field hname, fieldEntries_of_field hname, hrest,
        hvalues _ List.mem_cons_self _ (mem_of_lookup hname)]

theorem convertPositions_listed [Host] {d : Direction} {bs : List Block} (path : Path) (index : Nat)
    {xs : List Value}
    (hvalues : ∀ b ∈ bs, ∀ x ∈ xs, ∀ p, b.convert d p x.listed = b.convert d p x) :
    convertPositions d path index bs (xs.map Value.listed) =
      convertPositions d path index bs xs := by
  induction bs generalizing index xs with
  | nil => rfl
  | cons b bs ih =>
    cases xs with
    | nil => rfl
    | cons x xs =>
      rw [List.map_cons, convertPositions, convertPositions,
        hvalues b List.mem_cons_self x List.mem_cons_self,
        ih (index + 1) fun c hc y hy =>
          hvalues c (List.mem_cons_of_mem _ hc) y (List.mem_cons_of_mem _ hy)]

theorem excuses_listed (h : Header) (v : Value) : h.excuses v.listed = h.excuses v := by
  cases v <;> rfl

theorem items?_listed (v : Value) :
    Direction.encoding.items? v.listed = (Direction.encoding.items? v).map (List.map Value.listed) := by
  cases v with
  | list xs => rw [Value.listed_list]; rfl
  | tuple xs => rw [Value.listed_tuple]; rfl
  | _ => rfl

section Kinds

variable (path : Path) {value : Block} (length : Setting LengthRule)

theorem convertArray_listed [Host]
    (hvalue : ∀ p x, value.convert .encoding p x.listed = value.convert .encoding p x) (v : Value) :
    convertArray .encoding path value length v.listed =
      convertArray .encoding path value length v := by
  unfold convertArray
  rw [items?_listed]
  cases Direction.encoding.items? v with
  | none => rfl
  | some xs =>
    simp only [Option.map_some]
    rw [Converted.items_map, Converted.items_congr 0 fun i x _ => hvalue _ x, List.length_map]

theorem convertTuple_listed [Host] {items : List Block}
    (hitems : ∀ b ∈ items, ∀ p x, b.convert .encoding p x.listed = b.convert .encoding p x)
    (v : Value) :
    convertTuple .encoding path items v.listed = convertTuple .encoding path items v := by
  unfold convertTuple
  rw [items?_listed]
  cases Direction.encoding.items? v with
  | none => rfl
  | some xs =>
    simp only [Option.map_some]
    rw [convertPositions_listed path 0 fun b hb x _ p => hitems b hb p x, List.length_map]

end Kinds

/-- An encoder takes a tuple for a list. -/
theorem convert_listed [Host] (b : Block) (path : Path) (v : Value) :
    b.convert .encoding path v.listed = b.convert .encoding path v := by
  induction b using Block.partsInduction generalizing path v with
  | step b ih =>
    by_cases hexcused : b.header.excuses v = true
    · have hlisted := (excuses_listed b.header v).trans hexcused
      rw [convert_of_excused hexcused, convert_of_excused hlisted]
    have hexcused := Bool.eq_false_iff.2 hexcused
    have hlisted := (excuses_listed b.header v).trans hexcused
    rw [convert_of_not_excused hexcused, convert_of_not_excused hlisted]
    cases b with
    | array h value length =>
      exact convertArray_listed path length (fun p x => ih value List.mem_cons_self p x) v
    | tuple h items => exact convertTuple_listed path (fun b hb p x => ih b hb p x) v
    | object h key value length =>
      cases v with
      | dict es =>
        rw [Value.listed_dict]
        simp only [convertNode, convertObject]
        rw [Converted.entries_map fun e _ p => ih value List.mem_cons_self p e.2,
          List.length_map]
      | _ => rfl
    | map h fields =>
      cases v with
      | dict es =>
        rw [Value.listed_dict]
        simp only [convertNode, convertMap]
        rw [fieldEntries_listed path fun e _ f hf p => ih f.2 (List.mem_map_of_mem hf) p e.2,
          missingFields_congr (Entries.has_map fun _ v => v.listed)]
      | _ => rfl
    | _ => cases v <;> rfl

end Block

end DocShape
