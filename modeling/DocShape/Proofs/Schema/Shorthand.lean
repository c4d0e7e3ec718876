import DocShape.Proofs.Schema.Bounds
import Mathlib.Logic.Relation

/-!
# Shorthand in schemas

A number alone as a bound stands for an object with the number, and as a length for an object with the
number at both ends. `Value.SpellsBound` and `Value.SpellsLength` are these objects, and `Value.Respelled`
puts one of them for a number somewhere in a raw schema.

The shortest spelling of a raw schema is what is left when every such object has become its number again.
Respelling does not change it (`Value.mapBounds_of_respellings`). The walk of the grammar comes to one
verdict on a schema and on its shortest spelling (`Grammar.unnoticed_short`), and the lenient reader reads
both alike where it has room for an object (`Block.agree_readLimit_short`, `Block.agree_readLength_short`).
-/

namespace DocShape

/-! ## Spelling numbers out -/

namespace Value

/-- The objects that say of a bound what a number alone says. -/
inductive SpellsBound : Value → Value → Prop
  | value (n : Number) : SpellsBound (.ofNumber n) (.dict [(.str "value", .ofNumber n)])
  | inclusive (n : Number) : SpellsBound (.ofNumber n)
    (.dict [(.str "value", .ofNumber n), (.str "exclusive", .bool false)])
  | inclusiveFirst (n : Number) : SpellsBound (.ofNumber n)
    (.dict [(.str "exclusive", .bool false), (.str "value", .ofNumber n)])

/-- The objects that say of a length what a number alone says. -/
inductive SpellsLength : Value → Value → Prop
  | range (n : Number) : SpellsLength (.ofNumber n)
    (.dict [(.str "minimum", .ofNumber n), (.str "maximum", .ofNumber n)])
  | rangeReversed (n : Number) : SpellsLength (.ofNumber n)
    (.dict [(.str "maximum", .ofNumber n), (.str "minimum", .ofNumber n)])

/-- One bound, or one constraint on a length, at any depth of a raw schema is put in another way. -/
inductive Respelled (onBound onLength : Value → Value → Prop) : Value → Value → Prop
  | bound {name : Text} {v w : Value} (before after : Entries)
    (bound : name = "minimum" ∨ name = "maximum") (spelled : onBound v w) :
    Respelled onBound onLength (.dict (before ++ (.str name, v) :: after))
      (.dict (before ++ (.str name, w) :: after))
  | length {v w : Value} (before after : Entries) (spelled : onLength v w) :
    Respelled onBound onLength (.dict (before ++ (.str "length", v) :: after))
      (.dict (before ++ (.str "length", w) :: after))
  | value {v w : Value} (before after : Entries) (inner : Respelled onBound onLength v w) :
    Respelled onBound onLength (.dict (before ++ (.str "value", v) :: after))
      (.dict (before ++ (.str "value", w) :: after))
  | listed {v w : Value} (before after : Entries) (above below : List Value)
    (inner : Respelled onBound onLength v w) :
    Respelled onBound onLength
      (.dict (before ++ (.str "items", .list (above ++ v :: below)) :: after))
      (.dict (before ++ (.str "items", .list (above ++ w :: below)) :: after))
  | tupled {v w : Value} (before after : Entries) (above below : List Value)
    (inner : Respelled onBound onLength v w) :
    Respelled onBound onLength
      (.dict (before ++ (.str "items", .tuple (above ++ v :: below)) :: after))
      (.dict (before ++ (.str "items", .tuple (above ++ w :: below)) :: after))
  | field {k v w : Value} (before after above below : Entries)
    (inner : Respelled onBound onLength v w) :
    Respelled onBound onLength
      (.dict (before ++ (.str "fields", .dict (above ++ (k, v) :: below)) :: after))
      (.dict (before ++ (.str "fields", .dict (above ++ (k, w) :: below)) :: after))

theorem mapProperties_place {f g : Value → Value} {name : Text} {v w : Value} (before after : Entries)
    (h : mapProperty f g name v = mapProperty f g name w) :
    mapProperties f g (before ++ (.str name, v) :: after) =
      mapProperties f g (before ++ (.str name, w) :: after) := by
  have hentry (v : Value) : mapProperties f g ((.str name, v) :: after) =
      (.str name, mapProperty f g name v) :: mapProperties f g after := rfl
  rw [mapProperties_append, mapProperties_append, hentry, hentry, h]

/-- What is put in another way is rewritten to the same schema if each bound and each length is. -/
theorem mapBounds_of_respelled {onBound onLength : Value → Value → Prop} {f g : Value → Value}
    {v w : Value} (hbound : ∀ v w, onBound v w → f v = f w) (hlength : ∀ v w, onLength v w → g v = g w)
    (h : Respelled onBound onLength v w) : v.mapBounds f g = w.mapBounds f g := by
  have hlist {v w : Value} (above below : List Value) (h : v.mapBounds f g = w.mapBounds f g) :
      mapList f g (above ++ v :: below) = mapList f g (above ++ w :: below) := by
    simp only [mapList_eq, List.map_append, List.map_cons, h]
  induction h with
  | @bound name v w before after bound spelled =>
    have hname : mapProperty f g name = f := by rcases bound with rfl | rfl <;> rfl
    refine congrArg Value.dict (mapProperties_place before after ?_)
    rw [hname]
    exact hbound v w spelled
  | length before after spelled =>
    exact congrArg Value.dict (mapProperties_place before after (hlength _ _ spelled))
  | value before after _ ih => exact congrArg Value.dict (mapProperties_place before after ih)
  | listed before after above below _ ih =>
    exact congrArg Value.dict
      (mapProperties_place before after (congrArg Value.list (hlist above below ih)))
  | tupled before after above below _ ih =>
    exact congrArg Value.dict
      (mapProperties_place before after (congrArg Value.tuple (hlist above below ih)))
  | @field k v w before after above below _ ih =>
    refine congrArg Value.dict (mapProperties_place before after (congrArg Value.dict ?_))
    simp only [mapEntries_eq, List.map_append, List.map_cons, ih]

/-- So it is if it is put in another way in any number of places. -/
theorem mapBounds_of_respellings {onBound onLength : Value → Value → Prop} {f g : Value → Value}
    {v w : Value} (hbound : ∀ v w, onBound v w → f v = f w) (hlength : ∀ v w, onLength v w → g v = g w)
    (h : Relation.ReflTransGen (Respelled onBound onLength) v w) :
    v.mapBounds f g = w.mapBounds f g := by
  induction h with
  | refl => rfl
  | tail _ hstep ih => exact ih.trans (mapBounds_of_respelled hbound hlength hstep)

/-! ## The shortest spelling -/

@[simp] theorem number?_ofNumber (n : Number) : (ofNumber n).number? = some n := by
  cases n <;> rfl

theorem number?_eq_some {v : Value} {n : Number} : v.number? = some n ↔ v = ofNumber n := by
  refine ⟨fun h => ?_, fun h => by rw [h, number?_ofNumber]⟩
  cases v with
  | int k => rw [← Option.some.inj h]; rfl
  | float x => rw [← Option.some.inj h]; rfl
  | _ => cases h

end Value

namespace Entries

/-- Whether there is no key but some names. -/
def isOnly (legal : List Text) (es : Entries) : Bool := es.all fun e => !Grammar.isExtra legal e.1

/-- The number of an object that says of a bound what the number says. -/
def bareBound? (es : Entries) : Option Number :=
  if es.isOnly ["exclusive", "value"] then
    match es.get? "exclusive" with
    | none | some (.bool false) => (es.get? "value").bind Value.number?
    | _ => none
  else none

/-- The number of an object that says of a length what the number says. -/
def bareLength? (es : Entries) : Option Number :=
  if es.isOnly ["minimum", "maximum"] then
    (es.get? "minimum").bind fun v => v.number?.filter fun n =>
      (es.get? "maximum").bind Value.number? = some n
  else none

theorem isOnly_eq_true {legal : List Text} {es : Entries} : es.isOnly legal = true ↔ es.Only legal := by
  simp only [isOnly, List.all_eq_true, Bool.not_eq_true', Grammar.isExtra_eq_false, Only]

variable {es : Entries} {n : Number}

theorem bareBound?_eq_some (h : es.bareBound? = some n) :
    es.Only ["exclusive", "value"] ∧ es.Optional "exclusive" (· = .bool false) ∧
      es.get? "value" = some (.ofNumber n) := by
  unfold bareBound? at h
  split at h
  · next honly =>
    have hvalue (h : (es.get? "value").bind Value.number? = some n) :
        es.get? "value" = some (.ofNumber n) := by
      obtain ⟨v, hv, hn⟩ := Option.bind_eq_some_iff.1 h
      rw [hv, Value.number?_eq_some.1 hn]
    refine ⟨isOnly_eq_true.1 honly, ?_⟩
    split at h
    · next hnone => exact ⟨fun v hv => (by rw [hnone] at hv; cases hv), hvalue h⟩
    · next hfalse => exact ⟨fun v hv => (by rw [hfalse] at hv; exact (Option.some.inj hv).symm), hvalue h⟩
    · cases h
  · cases h

theorem bareLength?_eq_some (h : es.bareLength? = some n) :
    es.Only ["minimum", "maximum"] ∧ es.get? "minimum" = some (.ofNumber n) ∧
      es.get? "maximum" = some (.ofNumber n) := by
  unfold bareLength? at h
  split at h
  · next honly =>
    obtain ⟨v, hv, hn⟩ := Option.bind_eq_some_iff.1 h
    obtain ⟨hn, hmost⟩ := Option.filter_eq_some_iff.1 hn
    obtain ⟨w, hw, hm⟩ := Option.bind_eq_some_iff.1 (of_decide_eq_true hmost)
    refine ⟨isOnly_eq_true.1 honly, ?_, ?_⟩
    · rw [hv, Value.number?_eq_some.1 hn]
    · rw [hw, Value.number?_eq_some.1 hm]
  · cases h

end Entries

namespace Value

/-- An object for which a number can stand is put back to the number. -/
def shortened (bare? : Entries → Option Number) : Value → Value
  | dict es => ((bare? es).map ofNumber).getD (dict es)
  | v => v

/-- A bound in its shortest spelling. -/
def shortBound : Value → Value := shortened Entries.bareBound?

/-- A constraint on a length in its shortest spelling. -/
def shortLength : Value → Value := shortened Entries.bareLength?

variable {bare? : Entries → Option Number}

@[simp] theorem shortened_ofNumber (n : Number) : (ofNumber n).shortened bare? = ofNumber n := by
  cases n <;> rfl

theorem shortened_of_bare {es : Entries} {n : Number} (h : bare? es = some n) :
    (dict es).shortened bare? = ofNumber n := by
  rw [shortened, h]
  rfl

/-- A value is left as it is, or is an object that is put back to a number. -/
theorem shortened_eq (bare? : Entries → Option Number) (v : Value) :
    v.shortened bare? = v ∨
      ∃ es n, v = dict es ∧ bare? es = some n ∧ v.shortened bare? = ofNumber n := by
  cases v with
  | dict es =>
    cases h : bare? es with
    | none =>
      refine .inl ?_
      rw [shortened, h]
      rfl
    | some n => exact .inr ⟨es, n, rfl, h, shortened_of_bare h⟩
  | _ => exact .inl rfl

theorem shortened_eq_null {v : Value} : v.shortened bare? = null ↔ v = null := by
  rcases shortened_eq bare? v with h | ⟨es, n, rfl, -, h⟩
  · rw [h]
  · rw [h]
    refine iff_of_false (fun hnull => ?_) nofun
    cases n <;> cases hnull

theorem shortBound_of_spells {v w : Value} (h : SpellsBound v w) : v.shortBound = w.shortBound := by
  cases h with
  | value n =>
    rw [shortBound, shortened_ofNumber, shortened_of_bare]
    exact number?_ofNumber n
  | inclusive n =>
    rw [shortBound, shortened_ofNumber, shortened_of_bare]
    exact number?_ofNumber n
  | inclusiveFirst n =>
    rw [shortBound, shortened_ofNumber, shortened_of_bare]
    exact number?_ofNumber n

theorem shortLength_of_spells {v w : Value} (h : SpellsLength v w) :
    v.shortLength = w.shortLength := by
  have hboth (n : Number) :
      ((ofNumber n).number?.filter fun k => (ofNumber n).number? = some k) = some n := by
    rw [number?_ofNumber, Option.filter_some, if_pos (decide_eq_true rfl)]
  cases h with
  | range n =>
    rw [shortLength, shortened_ofNumber, shortened_of_bare]
    exact hboth n
  | rangeReversed n =>
    rw [shortLength, shortened_ofNumber, shortened_of_bare]
    exact hboth n

end Value

/-! ## The walk of the grammar -/

/-- Where the advice on a number of a length belongs: at the constraint, also if it is given at one of its
ends. -/
def Warning.place (w : Warning) : Path :=
  if w.path.getLast? = some (.property "minimum") ∨ w.path.getLast? = some (.property "maximum") then
    w.path.dropLast
  else w.path

/-- The ends of a constraint are in the place of the constraint. -/
theorem Warning.place_end {name : Text} (h : name = "minimum" ∨ name = "maximum") (path : Path)
    (cause : Advice) :
    Warning.place ⟨path ++ [.property "length"] ++ [.property name], cause⟩ =
      Warning.place ⟨path ++ [.property "length"], cause⟩ := by
  have hlength : ¬ ((path ++ [Segment.property "length"]).getLast? = some (.property "minimum") ∨
      (path ++ [Segment.property "length"]).getLast? = some (.property "maximum")) := by
    rw [List.getLast?_concat]
    decide
  rw [place, place, if_neg hlength, if_pos, List.dropLast_concat]
  rw [List.getLast?_concat]
  rcases h with rfl | rfl
  · exact .inl rfl
  · exact .inr rfl

/-- A walk breaks off for the same reason, comes to errors alike, and gives advice in the same places. -/
structure SameVerdict (fs gs : List Finding) : Prop where
  halted : (settle .collectAll fs).halted = (settle .collectAll gs).halted
  errors : (settle .collectAll fs).errors = [] ↔ (settle .collectAll gs).errors = []
  advised (q : Path) : (∃ w, .warning w ∈ fs ∧ w.place = q) ↔ ∃ w, .warning w ∈ gs ∧ w.place = q

namespace SameVerdict

variable {fs gs : List Finding} {path path' : Path}

theorem symm (h : SameVerdict fs gs) : SameVerdict gs fs :=
  ⟨h.halted.symm, h.errors.symm, fun q => (h.advised q).symm⟩

theorem trans {hs : List Finding} (h : SameVerdict fs gs) (h' : SameVerdict gs hs) :
    SameVerdict fs hs :=
  ⟨h.halted.trans h'.halted, h.errors.trans h'.errors, fun q => (h.advised q).trans (h'.advised q)⟩

theorem piecewise : Piecewise SameVerdict where
  refl fs := ⟨rfl, .rfl, fun _ => .rfl⟩
  append {fs fs' gs gs'} h h' := by
    refine ⟨?_, ?_, fun q => ?_⟩
    · rw [halted_append, halted_append, h.halted, h'.halted]
    · rw [errors_append_eq_nil, errors_append_eq_nil, h.errors, h.halted, h'.errors]
    · simp only [List.mem_append, or_and_right, exists_or, h.advised q, h'.advised q]

/-- Wherever something is wrong, and however it is put, the verdict is the same. -/
theorem of_violations {cause cause' : Violation} {below below' : List Finding}
    (h : NoHalt below) (h' : NoHalt below') (hs : ∀ w, .warning w ∉ below)
    (hs' : ∀ w, .warning w ∉ below') :
    SameVerdict (.violation path cause :: below) (.violation path' cause' :: below') := by
  refine ⟨?_, iff_of_false nofun nofun, fun q => iff_of_false ?_ ?_⟩
  · rw [halted_of_noHalt (noHalt_violation.2 h), halted_of_noHalt (noHalt_violation.2 h')]
  · rintro ⟨w, hw, -⟩
    exact hs w ((List.mem_cons.1 hw).resolve_left nofun)
  · rintro ⟨w, hw, -⟩
    exact hs' w ((List.mem_cons.1 hw).resolve_left nofun)

end SameVerdict

namespace Grammar

open Value (mapProperties get?_mapProperties get?_mapProperties_of_other)

variable {path : Path} {es : Entries} {n : Number}

theorem finiteNumber?_ofNumber (n : Number) :
    (Value.ofNumber n).finiteNumber? = if n.isFinite then some n else none := by
  rw [Value.finiteNumber?, Value.number?_ofNumber, Option.filter_some]

theorem bound_ofNumber (path : Path) (n : Number) :
    bound path (.ofNumber n) =
      if n.isFinite then ([], some n) else ([.violation path (.mustBe .numberOrObject)], none) := by
  unfold bound
  rw [finiteNumber?_ofNumber]
  cases n.isFinite with
  | true => rfl
  | false => cases n <;> rfl

theorem bound_of_bare (path : Path) (h : es.bareBound? = some n) :
    bound path (.dict es) =
      if n.isFinite then ([], some n)
      else ([.violation (path ++ [.property "value"]) (.mustBe .number)], none) := by
  obtain ⟨honly, hexclusive, hvalue⟩ := Entries.bareBound?_eq_some h
  cases hn : n.isFinite with
  | true =>
    exact bound_of_isBound (.object honly hvalue ⟨rfl, hn⟩ fun v hv => ⟨false, hexclusive v hv⟩)
  | false =>
    have hextras : unexpected path ["exclusive", "value"] es = [] := (unexpected_eq_nil path).2 honly
    have hfalse : optional path "exclusive" .bool isBool es = [] :=
      optional_eq_nil fun v hv => by rw [hexclusive v hv]; rfl
    have hnumber : (Value.ofNumber n).finiteNumber? = none := by
      rw [finiteNumber?_ofNumber, hn]
      rfl
    show boundObject path es = _
    simp only [boundObject, hextras, hfalse, hvalue, hnumber, List.isEmpty_nil, ↓reduceIte]
    rfl

/-- A bound and its shortest spelling have one number, and are found in order or not alike. -/
theorem sameVerdict_bound (path : Path) (v : Value) :
    (bound path v.shortBound).2 = (bound path v).2 ∧
      SameVerdict (bound path v.shortBound).1 (bound path v).1 := by
  rcases Value.shortened_eq Entries.bareBound? v with h | ⟨es, n, rfl, hes, h⟩
  · rw [Value.shortBound, h]
    exact ⟨rfl, SameVerdict.piecewise.refl _⟩
  · rw [Value.shortBound, h, bound_ofNumber, bound_of_bare path hes]
    cases n.isFinite with
    | true => exact ⟨rfl, SameVerdict.piecewise.refl _⟩
    | false => exact ⟨rfl, .of_violations noHalt_nil noHalt_nil nofun nofun⟩

theorem warning_mem_lengthNumber {w : Warning} :
    .warning w ∈ lengthNumber path n ↔ n.isIntegral = false ∧ w = ⟨path, .fractionalLength⟩ := by
  unfold lengthNumber
  cases n.isIntegral <;> cases n.lt (.int 0) <;> simp [Finding.violation]

theorem errors_lengthNumber_eq_nil :
    (settle .collectAll (lengthNumber path n)).errors = [] ↔ n.lt (.int 0) = false := by
  unfold lengthNumber
  cases n.isIntegral <;> cases n.lt (.int 0) <;> simp [Finding.violation, settle]

/-- A number as a length, and the number at both ends of one, are found in order or not alike. -/
theorem sameVerdict_lengthNumber (path : Path) (n : Number) :
    SameVerdict (lengthNumber (path ++ [.property "length"]) n)
      (lengthNumber (path ++ [.property "length"] ++ [.property "minimum"]) n ++
        lengthNumber (path ++ [.property "length"] ++ [.property "maximum"]) n) := by
  refine ⟨?_, ?_, fun q => ?_⟩
  · rw [halted_of_noHalt noHalt_lengthNumber,
      halted_of_noHalt (noHalt_append.2 ⟨noHalt_lengthNumber, noHalt_lengthNumber⟩)]
  · rw [errors_append_eq_nil, errors_lengthNumber_eq_nil, errors_lengthNumber_eq_nil,
      errors_lengthNumber_eq_nil]
    exact ⟨fun h => ⟨h, fun _ => h⟩, fun h => h.1⟩
  · simp only [List.mem_append, warning_mem_lengthNumber, ← and_or_left]
    constructor
    · rintro ⟨w, ⟨hfraction, rfl⟩, hq⟩
      exact ⟨_, ⟨hfraction, .inl rfl⟩, (Warning.place_end (.inl rfl) _ _).trans hq⟩
    · rintro ⟨w, ⟨hfraction, rfl | rfl⟩, hq⟩
      · exact ⟨_, ⟨hfraction, rfl⟩, (Warning.place_end (.inl rfl) _ _).symm.trans hq⟩
      · exact ⟨_, ⟨hfraction, rfl⟩, (Warning.place_end (.inr rfl) _ _).symm.trans hq⟩

/-- A constraint alone, where it stands. -/
theorem length_of_get? {v : Value} (hv : es.get? "length" = some v) :
    length path es = length path [(.str "length", v)] := by
  have hsingle : Entries.get? "length" [(.str "length", v)] = some v := rfl
  simp only [length, hv, hsingle]

theorem length_ofNumber (path : Path) (n : Number) :
    length path [(.str "length", .ofNumber n)] =
      if n.isFinite then lengthNumber (path ++ [.property "length"]) n
      else [.violation (path ++ [.property "length"]) (.mustBe .numberOrObject)] := by
  have hsingle : Entries.get? "length" [(.str "length", .ofNumber n)] = some (.ofNumber n) := rfl
  simp only [length, hsingle, finiteNumber?_ofNumber]
  cases n.isFinite with
  | true => rfl
  | false => cases n <;> rfl

theorem length_of_bare (path : Path) (h : es.bareLength? = some n) :
    length path [(.str "length", .dict es)] =
      if n.isFinite then
        lengthNumber (path ++ [.property "length"] ++ [.property "minimum"]) n ++
          lengthNumber (path ++ [.property "length"] ++ [.property "maximum"]) n
      else
        [.violation (path ++ [.property "length"] ++ [.property "minimum"]) (.mustBe .number),
          .violation (path ++ [.property "length"] ++ [.property "maximum"]) (.mustBe .number)] := by
  obtain ⟨honly, hminimum, hmaximum⟩ := Entries.bareLength?_eq_some h
  have hextras (path : Path) : unexpected path ["minimum", "maximum"] es = [] :=
    (unexpected_eq_nil path).2 honly
  show lengthObject (path ++ [.property "length"]) es = _
  simp only [lengthObject, hextras, List.isEmpty_nil, ↓reduceIte, lengthBound, hminimum, hmaximum,
    finiteNumber?_ofNumber]
  cases hn : n.isFinite with
  | true =>
    simp only [↓reduceIte, (crossing_eq_nil hn hn).2 le_rfl, List.append_nil]
  | false => rfl

/-- A constraint on a length and its shortest spelling are found in order or not alike. -/
theorem sameVerdict_length (path : Path) (v : Value) :
    SameVerdict (length path [(.str "length", v.shortLength)]) (length path [(.str "length", v)]) := by
  rcases Value.shortened_eq Entries.bareLength? v with h | ⟨es, n, rfl, hes, h⟩
  · rw [Value.shortLength, h]
    exact SameVerdict.piecewise.refl _
  · rw [Value.shortLength, h, length_ofNumber, length_of_bare path hes]
    cases n.isFinite with
    | true => exact sameVerdict_lengthNumber path n
    | false => exact .of_violations noHalt_nil (by simp) nofun (by simp [Finding.violation])

/-- The walk comes to one verdict on the shortest spelling and on the schema as it is. -/
theorem unnoticed_short : Unnoticed SameVerdict Value.shortBound Value.shortLength where
  number path es := by
    have hbound (name : Text)
        (hname : Value.mapProperty Value.shortBound Value.shortLength name = Value.shortBound) :
        (optionalBound path name (mapProperties Value.shortBound Value.shortLength es)).2 =
            (optionalBound path name es).2 ∧
          SameVerdict (optionalBound path name (mapProperties Value.shortBound Value.shortLength es)).1
            (optionalBound path name es).1 := by
      rw [optionalBound, optionalBound, get?_mapProperties, hname]
      cases Entries.get? name es with
      | none => exact ⟨rfl, SameVerdict.piecewise.refl _⟩
      | some v => exact sameVerdict_bound _ v
    obtain ⟨hleast, hminimum⟩ := hbound "minimum" rfl
    obtain ⟨hmost, hmaximum⟩ := hbound "maximum" rfl
    rw [number, number, hleast, hmost, optional_congr (get?_mapProperties_of_other (by decide) es)]
    exact SameVerdict.piecewise.append (SameVerdict.piecewise.append
      (SameVerdict.piecewise.append (SameVerdict.piecewise.refl _) hminimum) hmaximum)
      (SameVerdict.piecewise.refl _)
  length path es := by
    have hlength : Value.mapProperty Value.shortBound Value.shortLength "length" = Value.shortLength :=
      rfl
    cases hv : Entries.get? "length" es with
    | none =>
      simp only [length, get?_mapProperties, hv, Option.map_none]
      exact SameVerdict.piecewise.refl _
    | some v =>
      have hv' : Entries.get? "length" (mapProperties Value.shortBound Value.shortLength es) =
          some v.shortLength := by
        rw [get?_mapProperties, hlength, hv, Option.map_some]
      rw [length_of_get? hv, length_of_get? hv']
      exact sameVerdict_length path v

end Grammar

/-! ## The lenient reader -/

/-- A limit in its shortest spelling. -/
def Limit.short : Limit → Limit
  | bound ⟨n, none⟩ | bound ⟨n, some false⟩ => bare n
  | l => l

/-- A constraint on a length in its shortest spelling. -/
def LengthRule.short : LengthRule → LengthRule
  | range ⟨.given m, .given n⟩ => if m = n then exactly m else range ⟨.given m, .given n⟩
  | r => r

namespace Block

open Value (mapProperties get?_mapProperties)

variable {onBound onLength : Value → Value} {name : Text}

/-- A number is read like an object for which it stands. -/
theorem agree_numberOr_shortened [Host] [LawfulHost] {α β : Type} {g : α → β} {bare : Number → α}
    {object : Entries → Option α} {bare? : Entries → Option Number}
    (hobject : ∀ es n, bare? es = some n → ∃ a, object es = some a ∧ g a = g (bare n)) (v : Value) :
    Agree (fun a b => g a = g b) (numberOr name bare object (v.shortened bare?))
      (numberOr name bare object v) := by
  rcases Value.shortened_eq bare? v with h | ⟨es, n, rfl, hes, h⟩
  · rw [h]
    exact .of_eq (fun _ => rfl) rfl
  · obtain ⟨a, ha, hga⟩ := hobject es n hes
    have hdict : numberOr name bare object (.dict es) = .ok a := by rw [numberOr, ha]
    rw [h, numberOr_ofNumber, hdict]
    exact .ok hga.symm

/-- An object that says of a bound what a number says is read as a limit in the same place. -/
theorem boundOf?_of_bare [Host] [LawfulHost] {es : Entries} {n : Number} (h : es.bareBound? = some n) :
    ∃ l, (boundOf? es).map Limit.bound = some l ∧ l.short = (Limit.bare n).short := by
  obtain ⟨honly, hexclusive, hvalue⟩ := Entries.bareBound?_eq_some h
  cases hget : es.get? "exclusive" with
  | none =>
    have hbound : boundOf? es = some ⟨n, none⟩ := boundOf?_of_get? honly hvalue hget
    rw [hbound]
    exact ⟨_, rfl, rfl⟩
  | some v =>
    rw [hexclusive v hget] at hget
    have hbound : boundOf? es = some ⟨n, some false⟩ := boundOf?_of_get? honly hvalue hget
    rw [hbound]
    exact ⟨_, rfl, rfl⟩

/-- An object that says of a length what a number says is read as a constraint to the same length. -/
theorem lengthRangeOf?_of_bare [Host] [LawfulHost] {es : Entries} {n : Number}
    (h : es.bareLength? = some n) :
    ∃ r, (lengthRangeOf? es).map LengthRule.range = some r ∧
      r.short = (LengthRule.exactly n).short := by
  obtain ⟨honly, hminimum, hmaximum⟩ := Entries.bareLength?_eq_some h
  have hextras : checkExtras ["minimum", "maximum"] es = .ok () := checkExtras_eq_ok honly
  have hrange : lengthRangeOf? es = some ⟨.given n, .given n⟩ := by
    simp only [lengthRangeOf?, lengthBoundOf?_of_get? hminimum, lengthBoundOf?_of_get? hmaximum,
      hextras, Option.bind_eq_bind, Option.bind_some]
    rfl
  rw [hrange]
  exact ⟨_, rfl, if_pos rfl⟩

theorem agree_readLength_id [Host] (room : Nat) (es : Entries) :
    Agree (fun s t => s.map id = t.map id) (readLength room (mapProperties onBound id es))
      (readLength room es) := by
  refine agree_readSetting (get?_mapProperties "length" es) (fun _ => .rfl) fun v _ => ?_
  exact .of_eq (fun _ => rfl) rfl

section

variable [Host] [LawfulHost] {room : Nat} (hroom : room ≠ 0)

include hroom

theorem agree_readLimit_short (hname : name = "minimum" ∨ name = "maximum") (es : Entries) :
    Agree (fun s t => s.map Limit.short = t.map Limit.short)
      (readLimit room name (mapProperties Value.shortBound onLength es)) (readLimit room name es) := by
  have hbound : Value.mapProperty Value.shortBound onLength name = Value.shortBound := by
    rcases hname with rfl | rfl <;> rfl
  have hget : Entries.get? name (mapProperties Value.shortBound onLength es) =
      (es.get? name).map Value.shortBound := by
    rw [get?_mapProperties, hbound]
  refine agree_readSetting hget (fun _ => Value.shortened_eq_null) fun v _ =>
    agree_numberOr_shortened (fun es n h => ?_) v
  rw [if_neg hroom]
  exact boundOf?_of_bare h

theorem agree_readLength_short (es : Entries) :
    Agree (fun s t => s.map LengthRule.short = t.map LengthRule.short)
      (readLength room (mapProperties onBound Value.shortLength es)) (readLength room es) := by
  refine agree_readSetting (get?_mapProperties "length" es) (fun _ => Value.shortened_eq_null)
    fun v _ => agree_numberOr_shortened (fun es n h => ?_) v
  rw [if_neg hroom]
  exact lengthRangeOf?_of_bare h

/-- With room for objects the lenient reader takes the shortest spelling of the bounds for limits
alike. -/
theorem readAlike_shortBounds : ReadAlike room Value.shortBound id Limit.short id :=
  ⟨agree_readLimit_short hroom, agree_readLength_id room⟩

/-- With room for objects the lenient reader takes the shortest spelling for limits and constraints
alike. -/
theorem readAlike_short :
    ReadAlike room Value.shortBound Value.shortLength Limit.short LengthRule.short :=
  ⟨agree_readLimit_short hroom, agree_readLength_short hroom⟩

end

end Block

end DocShape
