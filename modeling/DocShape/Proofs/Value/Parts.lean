import DocShape.Proofs.Prelude
import DocShape.Value

/-!
# The parts of a value

`Value.parts` lists what stands directly inside a value, keys apart, and `Value.contents` lists them
too. `Value.partsInduction` and `Value.contentsInduction` are induction along them
(`Value.innerInduction` takes two levels at a time). `Value.Everywhere p` says that `p` holds of a
value and of everything inside it but the keys, at any depth. The shapes of values that operations ask
for are of this form: `Value.Keyed` (no dictionary has a key twice, as in every native value) and
`Value.IsDocument` (what a document can hold).
Entries whose keys are apart are a dictionary as they stand (`Entries.ofList_of_distinct`), and pairs
under texts make the one of their last values (`Entries.ofList_texts`).
-/

namespace DocShape

namespace Value

/-- What stands directly inside a value: items, and the values of a dictionary. -/
def parts : Value → List Value
  | list xs | tuple xs | set xs => xs
  | dict es => es.map Prod.snd
  | _ => []

/-- Everything directly inside a value: items, and the keys and values of a dictionary. -/
def contents : Value → List Value
  | list xs | tuple xs | set xs => xs
  | dict es => es.map Prod.fst ++ es.map Prod.snd
  | _ => []

theorem mem_contents_of_mem_parts {v x : Value} (h : x ∈ v.parts) : x ∈ v.contents := by
  cases v with
  | dict es => exact List.mem_append_right _ h
  | _ => exact h

/-- Induction along everything inside a value. -/
@[elab_as_elim]
theorem contentsInduction {motive : Value → Prop}
    (step : ∀ v, (∀ x ∈ v.contents, motive x) → motive v) (v : Value) : motive v := by
  have leaf (v : Value) (h : v.contents = []) : motive v :=
    step v fun x hx => absurd hx (by rw [h]; exact List.not_mem_nil)
  refine @Value.rec motive (fun xs => ∀ x ∈ xs, motive x)
    (fun es => ∀ x ∈ es.map Prod.fst ++ es.map Prod.snd, motive x)
    (fun e => motive e.1 ∧ motive e.2)
    ?null ?bool ?int ?float ?str ?bytes ?date ?moment ?list ?tuple ?set ?dict ?nil ?cons
    ?entriesNil ?entriesCons ?entry v
  case null => exact leaf _ rfl
  case bool => exact fun _ => leaf _ rfl
  case int => exact fun _ => leaf _ rfl
  case float => exact fun _ => leaf _ rfl
  case str => exact fun _ => leaf _ rfl
  case bytes => exact fun _ => leaf _ rfl
  case date => exact fun _ => leaf _ rfl
  case moment => exact fun _ => leaf _ rfl
  case list => exact fun xs ih => step _ ih
  case tuple => exact fun xs ih => step _ ih
  case set => exact fun xs ih => step _ ih
  case dict => exact fun es ih => step _ ih
  case nil => exact fun x hx => absurd hx List.not_mem_nil
  case cons => exact fun x xs hx ih => List.forall_mem_cons.2 ⟨hx, ih⟩
  case entriesNil => exact fun x hx => absurd hx List.not_mem_nil
  case entriesCons =>
    intro e es he ih
    obtain ⟨hkeys, hvalues⟩ := List.forall_mem_append.1 ih
    exact List.forall_mem_append.2
      ⟨List.forall_mem_cons.2 ⟨he.1, hkeys⟩, List.forall_mem_cons.2 ⟨he.2, hvalues⟩⟩
  case entry => exact fun k v hk hv => ⟨hk, hv⟩

/-- Induction along the parts of a value. -/
@[elab_as_elim]
theorem partsInduction {motive : Value → Prop}
    (step : ∀ v, (∀ x ∈ v.parts, motive x) → motive v) (v : Value) : motive v := by
  induction v using contentsInduction with
  | step v ih => exact step v fun x hx => ih x (mem_contents_of_mem_parts hx)

/-- Induction along the parts of a value and their parts: what stands in a list or a dictionary
inside a value is two levels deeper. -/
@[elab_as_elim]
theorem innerInduction {motive : Value → Prop}
    (step : ∀ v, (∀ x ∈ v.parts, motive x ∧ ∀ y ∈ x.parts, motive y) → motive v) (v : Value) :
    motive v := by
  suffices h : motive v ∧ ∀ x ∈ v.parts, motive x from h.1
  induction v using partsInduction with
  | step v ih => exact ⟨step v ih, fun x hx => (ih x hx).1⟩

/-- A property holds of a value and of everything inside it. -/
inductive Everywhere (p : Value → Prop) : Value → Prop
  | intro {v : Value} (here : p v) (inside : ∀ x ∈ v.parts, Everywhere p x) : Everywhere p v

namespace Everywhere

variable {p q : Value → Prop} {v : Value}

theorem here (h : Everywhere p v) : p v := by
  cases h with
  | intro here _ => exact here

theorem inside (h : Everywhere p v) : ∀ x ∈ v.parts, Everywhere p x := by
  cases h with
  | intro _ inside => exact inside

theorem leaf (h : p v) (hv : v.parts = []) : Everywhere p v :=
  ⟨h, fun x hx => absurd hx (by rw [hv]; exact List.not_mem_nil)⟩

theorem mono (hpq : ∀ v, p v → q v) (h : Everywhere p v) : Everywhere q v := by
  induction h with
  | intro here _ ih => exact ⟨hpq _ here, ih⟩

theorem and (hp : Everywhere p v) (hq : Everywhere q v) : Everywhere (fun v => p v ∧ q v) v := by
  induction hp with
  | intro here _ ih => exact ⟨⟨here, hq.here⟩, fun x hx => ih x hx (hq.inside x hx)⟩

theorem entry {es : Entries} (h : Everywhere p (.dict es)) {e : Value × Value} (he : e ∈ es) :
    Everywhere p e.2 :=
  h.inside e.2 (List.mem_map_of_mem he)

theorem item {xs : List Value} (h : Everywhere p (.list xs)) {x : Value} (hx : x ∈ xs) :
    Everywhere p x :=
  h.inside x hx

end Everywhere

/-! ## Dictionaries with each key once -/

@[simp] theorem equals_str (s t : Text) : (str s).equals (str t) = (s == t) := by
  rw [equals]

theorem equals_int (m n : Int) : (int m).equals (int n) = (m == n) := by
  have hdef : (int m).equals (int n) = (Number.int m).equals (Number.int n) := rfl
  rw [hdef, Number.equals, Number.le, Number.le, Bool.eq_iff_iff]
  simp only [Bool.and_eq_true, decide_eq_true_eq, beq_iff_eq]
  omega

end Value

namespace Entries

/-- No key stands twice. -/
def Distinct (es : Entries) : Prop := es.Pairwise fun a b => a.1.equals b.1 = false

theorem put_of_absent {key value : Value} {es : Entries} (h : ∀ e ∈ es, e.1.equals key = false) :
    put key value es = es ++ [(key, value)] := by
  induction es with
  | nil => rfl
  | cons e es ih =>
    have he := h e List.mem_cons_self
    rw [put, he, ih fun x hx => h x (List.mem_cons_of_mem _ hx)]
    rfl

/-- Entries with distinct keys are a dictionary as they stand. -/
theorem ofList_of_distinct {es : Entries} (h : es.Distinct) : ofList es = es := by
  have go : ∀ (es before : Entries), (before ++ es).Distinct →
      es.foldl (fun entries p => put p.1 p.2 entries) before = before ++ es := by
    intro es
    induction es with
    | nil => intro before _; simp
    | cons e es ih =>
      intro before hd
      have hsplit := List.pairwise_append.1 hd
      have habsent : ∀ x ∈ before, x.1.equals e.1 = false :=
        fun x hx => hsplit.2.2 x hx e List.mem_cons_self
      rw [List.foldl_cons, put_of_absent habsent, ih _ (by simpa using hd)]
      simp
  exact go es [] h

/-! ### Pairs under texts -/

theorem eraseDups_concat (names : List Text) (name : Text) :
    (names ++ [name]).eraseDups =
      if names.contains name then names.eraseDups else names.eraseDups ++ [name] := by
  rw [List.eraseDups_append, List.removeAll]
  by_cases h : name ∈ names
  · rw [if_pos (List.contains_iff_mem.2 h), List.filter_cons_of_neg (by simpa using h)]
    simp
  · rw [if_neg (fun hc => h (List.contains_iff_mem.1 hc)),
      List.filter_cons_of_pos (by simpa using h), List.filter_nil, List.eraseDups_cons]
    rfl

theorem nodup_eraseDups (names : List Text) : names.eraseDups.Nodup := by
  induction names using List.reverseRecOn with
  | nil => exact List.nodup_nil
  | append_singleton names name ih =>
    rw [eraseDups_concat]
    split
    · exact ih
    · next h =>
      refine List.nodup_append.2 ⟨ih, List.nodup_singleton name, fun a ha b hb hab => h ?_⟩
      rw [← List.mem_singleton.1 hb, ← hab]
      exact List.contains_iff_mem.2 (List.mem_eraseDups.1 ha)

/-- Setting a text key changes the value under it, and a new one goes to the end. -/
theorem put_texts {name : Text} {value : Value} (f : Text → Value) {names : List Text}
    (h : names.Nodup) :
    put (.str name) value (names.map fun n => (.str n, f n)) =
      (if names.contains name then names else names ++ [name]).map fun n =>
        (.str n, if n = name then value else f n) := by
  induction names with
  | nil => simp [put]
  | cons n names ih =>
    obtain ⟨hn, hrest⟩ := List.nodup_cons.1 h
    rw [List.map_cons, put, Value.equals_str]
    by_cases hname : n = name
    · subst hname
      have hother : ∀ m ∈ names, (Value.str m, f m) = (.str m, if m = n then value else f m) := by
        intro m hm
        have hne : m ≠ n := fun e => hn (by rwa [← e])
        rw [if_neg hne]
      simp only [List.contains_cons, beq_self_eq_true, Bool.true_or, ↓reduceIte, List.map_cons]
      rw [List.map_congr_left hother]
    · have hne : (name == n) = false := beq_eq_false_iff_ne.2 fun e => hname e.symm
      simp only [beq_eq_false_iff_ne.2 hname, Bool.false_eq_true, ↓reduceIte, ih hrest,
        List.contains_cons, hne, Bool.false_or]
      split <;> simp [hname]

/-- The dictionary of pairs under texts: of the pairs with one name the first gives the place and the
last the value. -/
def lastValues (ps : List (Text × Value)) : Entries :=
  (ps.map Prod.fst).eraseDups.map fun name => (.str name, (ps.reverse.lookup name).getD .null)

theorem ofList_texts (ps : List (Text × Value)) :
    ofList (ps.map fun p => (.str p.1, p.2)) = lastValues ps := by
  induction ps using List.reverseRecOn with
  | nil => rfl
  | append_singleton ps p ih =>
    obtain ⟨name, value⟩ := p
    have hlookup (n : Text) : (((ps ++ [(name, value)]).reverse.lookup n).getD .null) =
        if n = name then value else (ps.reverse.lookup n).getD .null := by
      rw [List.reverse_append, List.reverse_singleton, List.singleton_append, List.lookup_cons]
      by_cases h : n = name
      · simp [h]
      · simp [h, beq_eq_false_iff_ne.2 h]
    have hcontains : (ps.map Prod.fst).eraseDups.contains name = (ps.map Prod.fst).contains name := by
      rw [Bool.eq_iff_iff, List.contains_iff_mem, List.contains_iff_mem, List.mem_eraseDups]
    rw [ofList] at ih ⊢
    rw [List.map_append, List.foldl_append, ih, List.map_singleton, List.foldl_cons, List.foldl_nil,
      lastValues, put_texts _ (nodup_eraseDups _), lastValues, List.map_append, List.map_singleton,
      eraseDups_concat]
    simp only [hlookup, hcontains]

theorem mem_lastValues {ps : List (Text × Value)} {e : Value × Value} (h : e ∈ lastValues ps) :
    ∃ p ∈ ps, e = (.str p.1, p.2) := by
  obtain ⟨name, hname, rfl⟩ := List.mem_map.1 h
  obtain ⟨p, hp, hpname⟩ := List.mem_map.1 (List.mem_eraseDups.1 hname)
  obtain ⟨value, hvalue⟩ : ∃ value, ps.reverse.lookup name = some value := by
    rw [← Option.isSome_iff_exists, List.lookup_isSome_iff]
    exact ⟨p, List.mem_reverse.2 hp, beq_iff_eq.2 hpname.symm⟩
  obtain ⟨before, after, hps, -⟩ := List.lookup_eq_some_iff.1 hvalue
  refine ⟨(name, value), List.mem_reverse.1 (by rw [hps]; simp), ?_⟩
  rw [hvalue, Option.getD_some]

theorem nodup_lastValues (ps : List (Text × Value)) : ((lastValues ps).map Prod.fst).Nodup := by
  rw [lastValues, List.map_map]
  exact (nodup_eraseDups _).map fun a b hab => Value.str.inj hab

theorem has_iff {es : Entries} {name : Text} :
    es.has name = true ↔ ∃ v, (Value.str name, v) ∈ es := by
  rw [has, Option.isSome_iff_exists]
  induction es with
  | nil => simp [get?]
  | cons e es ih =>
    obtain ⟨k, v⟩ := e
    cases k with
    | str t =>
      by_cases h : t = name
      · simp only [get?, h, ↓reduceIte, List.mem_cons, Prod.mk.injEq, true_and]
        exact ⟨fun ⟨_, _⟩ => ⟨v, .inl rfl⟩, fun _ => ⟨v, rfl⟩⟩
      · have hne : name ≠ t := fun e => h e.symm
        simp [get?, h, ih, hne]
    | _ => simpa [get?] using ih

end Entries

namespace Value

/-- A dictionary here has no key twice. -/
def KeyedNode : Value → Prop
  | dict es => Entries.Distinct es
  | _ => True

/-- No dictionary in a value has a key twice. Every native value is like that. -/
def Keyed : Value → Prop := Everywhere KeyedNode

namespace Keyed

@[simp] theorem of_bool (b : Bool) : (bool b).Keyed := .leaf trivial rfl

@[simp] theorem of_int (n : Int) : (int n).Keyed := .leaf trivial rfl

@[simp] theorem of_float (x : Binary64) : (float x).Keyed := .leaf trivial rfl

@[simp] theorem of_str (t : Text) : (str t).Keyed := .leaf trivial rfl

@[simp] theorem list_iff {xs : List Value} : (list xs).Keyed ↔ ∀ x ∈ xs, x.Keyed :=
  ⟨Everywhere.inside, fun h => ⟨trivial, h⟩⟩

@[simp] theorem tuple_iff {xs : List Value} : (tuple xs).Keyed ↔ ∀ x ∈ xs, x.Keyed :=
  ⟨Everywhere.inside, fun h => ⟨trivial, h⟩⟩

@[simp] theorem dict_iff {es : Entries} :
    (dict es).Keyed ↔ es.Distinct ∧ ∀ e ∈ es, e.2.Keyed := by
  refine ⟨fun h => ⟨h.here, fun e he => h.entry he⟩, fun h => ⟨h.1, fun x hx => ?_⟩⟩
  obtain ⟨e, he, rfl⟩ := List.mem_map.1 hx
  exact h.2 e he

end Keyed

/-- What a document can hold at one place. -/
def DocumentNode : Value → Prop
  | null | bool _ | int _ | str _ | list _ => True
  | float x => x.isFinite = true
  | dict es => (∀ e ∈ es, ∃ t, e.1 = str t) ∧ (es.map Prod.fst).Nodup
  | _ => False

/-- A document can hold a value: null, truth values, integers, finite doubles, texts, lists, and
dictionaries whose keys are texts. -/
def IsDocument : Value → Prop := Everywhere DocumentNode

theorem distinct_of_texts {es : Entries} (h : ∀ e ∈ es, ∃ t, e.1 = str t)
    (hn : (es.map Prod.fst).Nodup) : es.Distinct := by
  rw [List.nodup_iff_pairwise_ne, List.pairwise_map] at hn
  refine hn.imp_of_mem fun {a b} ha hb hne => ?_
  obtain ⟨s, hs⟩ := h a ha
  obtain ⟨t, ht⟩ := h b hb
  rw [hs, ht] at hne ⊢
  rw [equals_str, beq_eq_false_iff_ne]
  rintro rfl
  exact hne rfl

theorem IsDocument.keyed {v : Value} (h : v.IsDocument) : v.Keyed := by
  refine Everywhere.mono (fun v hv => ?_) h
  cases v with
  | dict es => exact distinct_of_texts hv.1 hv.2
  | _ => trivial

end Value

end DocShape
