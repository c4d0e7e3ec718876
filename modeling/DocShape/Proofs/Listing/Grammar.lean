import DocShape.Proofs.Listing.Rule
import DocShape.Schema.Grammar

/-!
# The findings of the grammar

`Grammar.block` lists every violation of the grammar in a raw schema, in the order in which the check
of the schema comes upon them. It is by recursion on the raw schema, and what it lists depends on
nothing else: the path of the block is only put in front of the paths of the findings.

`Check.block_lists` says that the check of a schema reports just these, in either mode; it is shown
part by part.
-/

namespace DocShape

namespace Grammar

/-- The value of a property must be of some form. -/
def require (path : Path) (requirement : Requirement) (holds : Bool) : List Finding :=
  if holds then [] else [.violation path (.mustBe requirement)]

/-- An optional property whose value must be of some form. -/
def optional (path : Path) (name : Text) (requirement : Requirement) (test : Value → Bool)
    (entries : Entries) : List Finding :=
  match Entries.get? name entries with
  | none => []
  | some v => require (path ++ [.property name]) requirement (test v)

/-- The properties that are none of the legal ones. -/
def unexpected (path : Path) (legal : List Text) (entries : Entries) : List Finding :=
  (entries.filter fun e => isExtra legal e.1).map fun e =>
    Finding.quoting e.1 fun shown => .violation path (.unexpectedProperty shown)

/-- The common properties, the kind apart. -/
def common (path : Path) (entries : Entries) : List Finding :=
  optional path "name" .string (fun v => v.text?.isSome) entries ++
    optional path "description" .string (fun v => v.text?.isSome) entries ++
    optional path "option" .bool isBool entries

/-! ## Bounds -/

/-- The object form of a bound: what is wrong with it, and its number if that can be used. -/
def boundObject (path : Path) (entries : Entries) : List Finding × Option Number :=
  let extras := unexpected path ["exclusive", "value"] entries
  if extras.isEmpty then
    let exclusive := optional path "exclusive" .bool isBool entries
    match Entries.get? "value" entries with
    | none => (exclusive ++ [.violation path (.missingProperty "value")], none)
    | some v =>
      match v.finiteNumber? with
      | some n => (exclusive, some n)
      | none => (exclusive ++ [.violation (path ++ [.property "value"]) (.mustBe .number)], none)
  else (extras, none)

/-- A bound: what is wrong with it, and its number if that can be used. -/
def bound (path : Path) (v : Value) : List Finding × Option Number :=
  match v.finiteNumber? with
  | some n => ([], some n)
  | none =>
    match v with
    | .dict entries => boundObject path entries
    | _ => ([.violation path (.mustBe .numberOrObject)], none)

/-- A bound that may be left out. -/
def optionalBound (path : Path) (name : Text) (entries : Entries) : List Finding × Option Number :=
  match Entries.get? name entries with
  | none => ([], none)
  | some v => bound (path ++ [.property name]) v

/-- Two bounds that are both usable must not cross. -/
def crossing (path : Path) : Option Number → Option Number → List Finding
  | some low, some high => if high.lt low then [.violation path .boundsCrossed] else []
  | _, _ => []

/-- The properties of a number block. -/
def number (path : Path) (entries : Entries) : List Finding :=
  let minimum := optionalBound path "minimum" entries
  let maximum := optionalBound path "maximum" entries
  optional path "decimal" .bool isBool entries ++ minimum.1 ++ maximum.1 ++
    crossing path minimum.2 maximum.2

/-! ## Lengths -/

/-- A number as a length: a fraction is advised against, a negative one is wrong. -/
def lengthNumber (path : Path) (n : Number) : List Finding :=
  (if n.isIntegral then [] else [.warning ⟨path, .fractionalLength⟩]) ++
    (if n.lt (.int 0) then [.violation path .negativeLength] else [])

/-- A bound of a length: what is wrong with it, and its number if it is one. -/
def lengthBound (path : Path) (name : Text) (entries : Entries) : List Finding × Option Number :=
  match Entries.get? name entries with
  | none => ([], none)
  | some v =>
    let path := path ++ [.property name]
    match v.finiteNumber? with
    | some n => (lengthNumber path n, some n)
    | none => ([.violation path (.mustBe .number)], none)

/-- The object form of a length constraint. -/
def lengthObject (path : Path) (entries : Entries) : List Finding :=
  let extras := unexpected path ["minimum", "maximum"] entries
  if extras.isEmpty then
    let minimum := lengthBound path "minimum" entries
    let maximum := lengthBound path "maximum" entries
    minimum.1 ++ maximum.1 ++ crossing path minimum.2 maximum.2
  else extras

/-- A length constraint that may be left out. -/
def length (path : Path) (entries : Entries) : List Finding :=
  let path := path ++ [.property "length"]
  match Entries.get? "length" entries with
  | none => []
  | some v =>
    match v.finiteNumber? with
    | some n => lengthNumber path n
    | none =>
      match v with
      | .dict object => lengthObject path object
      | _ => [.violation path (.mustBe .numberOrObject)]

/-! ## Keys and enumerations -/

/-- The kind of keys of an object. -/
def keyKind (path : Path) (entries : Entries) : List Finding :=
  match Entries.get? "key" entries with
  | none => [.violation path (.missingProperty "key")]
  | some v =>
    match v.text? with
    | some t =>
      if t = KeyKind.integer.name ∨ t = KeyKind.string.name then []
      else [.violation path .badKeyKind]
    | none => [.violation path .badKeyKind]

/-- The values of an enumeration after some that were seen before: names, each given once. -/
def enumValues (path : Path) (seen : List Text) : List Value → List Finding
  | [] => []
  | v :: vs =>
    match v.text?.filter Text.isName with
    | none =>
      Finding.quoting v (fun shown => .violation path (.badEnumValue shown)) ::
        enumValues path seen vs
    | some t =>
      if seen.contains t then
        .violation path (.duplicateEnumValue t) :: enumValues path seen vs
      else enumValues path (seen ++ [t]) vs

/-- The values of an enumeration. -/
def enumeration (path : Path) (entries : Entries) : List Finding :=
  match Entries.get? "values" entries with
  | none => [.violation path (.missingProperty "values")]
  | some v =>
    let path := path ++ [.property "values"]
    match sequence? v with
    | none => [.violation path (.mustBe .array)]
    | some [] => [.violation path .noItems]
    | some xs => enumValues path [] xs

/-- The kind that the entries name, or what is wrong with it. -/
def kind (path : Path) (entries : Entries) : Except (List Finding) Kind :=
  match Entries.get? "type" entries with
  | none => .error [.violation path (.missingProperty "type")]
  | some v =>
    match v.text?.bind Kind.ofName? with
    | some k => .ok k
    | none => .error [.violation path .unknownKind]

/-! ## Blocks -/

mutual

/-- What is wrong with a raw schema, and what it is advised of. -/
def block (path : Path) : Value → List Finding
  | .dict entries =>
    match kind path entries with
    | .error findings => findings
    | .ok k =>
      let body := match k with
        | .flag => []
        | .number => number path entries
        | .string =>
          length path entries ++ optional path "pattern" .string (fun v => v.text?.isSome) entries
        | .array =>
          if Entries.has entries "value" then
            value (path ++ [.items]) entries ++ length path entries
          else [.violation path (.missingProperty "value")]
        | .object =>
          (if Entries.has entries "value" then value (path ++ [.values]) entries
            else [.violation path (.missingProperty "value")]) ++
            keyKind path entries ++ length path entries
        | .tuple => items path entries
        | .map => fields path entries
        | .enum => enumeration path entries
      unexpected path k.legalProperties entries ++ body ++ common path entries
  | _ => [.violation path (.mustBe .object)]
termination_by structural v => v

/-- The block under `value`, which is at a path of its own. -/
def value (path : Path) : List (Value × Value) → List Finding
  | [] => []
  | (.str name, v) :: rest => if name = "value" then block path v else value path rest
  | _ :: rest => value path rest
termination_by structural v => v

/-- The blocks under `items`. -/
def items (path : Path) : List (Value × Value) → List Finding
  | [] => [.violation path (.missingProperty "items")]
  | (.str name, v) :: rest => if name = "items" then itemList path v else items path rest
  | _ :: rest => items path rest
termination_by structural v => v

/-- The blocks in a sequence, of which there must be one. -/
def itemList (path : Path) : Value → List Finding
  | .list [] | .tuple [] => [.violation (path ++ [.property "items"]) .noItems]
  | .list xs | .tuple xs => blocks path 0 xs
  | _ => [.violation (path ++ [.property "items"]) (.mustBe .array)]
termination_by structural v => v

/-- Blocks, each at its position. -/
def blocks (path : Path) (index : Nat) : List Value → List Finding
  | [] => []
  | v :: vs => block (path ++ [.position index]) v ++ blocks path (index + 1) vs
termination_by structural v => v

/-- The fields under `fields`. -/
def fields (path : Path) : List (Value × Value) → List Finding
  | [] => [.violation path (.missingProperty "fields")]
  | (.str name, v) :: rest => if name = "fields" then fieldDict path v else fields path rest
  | _ :: rest => fields path rest
termination_by structural v => v

/-- The fields of a dictionary, of which there must be one. -/
def fieldDict (path : Path) : Value → List Finding
  | .dict [] => [.violation (path ++ [.property "fields"]) .noFields]
  | .dict entries => fieldBlocks path entries
  | _ => [.violation (path ++ [.property "fields"]) (.mustBe .object)]
termination_by structural v => v

/-- Fields, each under its name. -/
def fieldBlocks (path : Path) : List (Value × Value) → List Finding
  | [] => []
  | (k, v) :: rest =>
    (match k.text?.filter Text.isName with
      | some name => block (path ++ [.field name]) v
      | none =>
        [Finding.quoting k fun shown =>
          .violation (path ++ [.property "fields"]) (.badFieldName shown)]) ++
      fieldBlocks path rest
termination_by structural v => v

end

end Grammar

namespace Check

open Grammar

theorem require_lists (path : Path) (requirement : Requirement) (holds : Bool) :
    (require path requirement holds).Lists (Grammar.require path requirement holds) () := by
  cases holds with
  | true => exact .pure ()
  | false => exact .violation path (.mustBe requirement)

theorem optional_lists (path : Path) (name : Text) (requirement : Requirement)
    (test : Value → Bool) (entries : Entries) :
    (optional path name requirement test entries).Lists
      (Grammar.optional path name requirement test entries) () := by
  unfold optional Grammar.optional
  cases Entries.get? name entries with
  | none => exact .pure ()
  | some v => exact require_lists (path ++ [.property name]) requirement (test v)

theorem unexpected_lists (path : Path) (legal : List Text) (entries : Entries) :
    (unexpected path legal entries).Lists (Grammar.unexpected path legal entries) () := by
  induction entries with
  | nil => exact .pure ()
  | cons entry rest ih =>
    rcases entry with ⟨k, v⟩
    unfold unexpected
    cases hextra : isExtra legal k with
    | false =>
      have hsame : Grammar.unexpected path legal ((k, v) :: rest) =
          Grammar.unexpected path legal rest := by
        simp [Grammar.unexpected, hextra]
      rw [hsame]
      simpa using ih
    | true =>
      have hmore : Grammar.unexpected path legal ((k, v) :: rest) =
          [.quoting k fun shown => .violation path (.unexpectedProperty shown)] ++
            Grammar.unexpected path legal rest := by
        simp [Grammar.unexpected, hextra]
      rw [hmore]
      simpa using (Walk.Lists.quoting fun shown =>
        .violation path (.unexpectedProperty shown)).bind ih

theorem common_lists (path : Path) (entries : Entries) :
    (common path entries).Lists (Grammar.common path entries) () := by
  unfold common Grammar.common
  rw [List.append_assoc]
  exact (optional_lists path "name" .string _ entries).bind
    ((optional_lists path "description" .string _ entries).bind
      (optional_lists path "option" .bool isBool entries))

/-- There is something to report exactly if some key is none of the legal ones. -/
theorem isEmpty_unexpected (path : Path) (legal : List Text) (entries : Entries) :
    (Grammar.unexpected path legal entries).isEmpty = !entries.any fun e => isExtra legal e.1 := by
  induction entries with
  | nil => rfl
  | cons entry rest ih =>
    rw [List.any_cons, Bool.not_or, ← ih]
    cases hextra : isExtra legal entry.1 <;> simp [Grammar.unexpected, hextra]

theorem boundObject_lists (path : Path) (entries : Entries) :
    (boundObject path entries).Lists (Grammar.boundObject path entries).1
      (Grammar.boundObject path entries).2 := by
  unfold boundObject Grammar.boundObject
  simp only [isEmpty_unexpected]
  cases entries.any fun e => isExtra ["exclusive", "value"] e.1 with
  | true =>
    exact (unexpected_lists path _ entries).andPure none
  | false =>
    have hexclusive := optional_lists path "exclusive" .bool isBool entries
    simp only [Bool.not_false, if_true, Bool.false_eq_true, if_false]
    cases Entries.get? "value" entries with
    | none =>
      exact hexclusive.bind ((Walk.Lists.violation path (.missingProperty "value")).andPure none)
    | some v =>
      cases hnumber : v.finiteNumber? with
      | none =>
        simp only [hnumber]
        exact hexclusive.bind ((Walk.Lists.violation _ _).andPure none)
      | some n =>
        simp only [hnumber]
        exact hexclusive.andPure (some n)

theorem bound_lists (path : Path) (v : Value) :
    (bound path v).Lists (Grammar.bound path v).1 (Grammar.bound path v).2 := by
  unfold bound Grammar.bound
  cases hnumber : v.finiteNumber? with
  | some n => exact .pure (some n)
  | none =>
    cases v with
    | dict entries =>
      simp only
      exact boundObject_lists path entries
    | _ =>
      simp only
      exact (Walk.Lists.violation path (.mustBe .numberOrObject)).andPure none

theorem optionalBound_lists (path : Path) (name : Text) (entries : Entries) :
    (optionalBound path name entries).Lists (Grammar.optionalBound path name entries).1
      (Grammar.optionalBound path name entries).2 := by
  unfold optionalBound Grammar.optionalBound
  cases Entries.get? name entries with
  | none => exact .pure none
  | some v => exact bound_lists _ v

theorem crossing_lists (path : Path) (low high : Option Number) :
    (crossing path low high).Lists (Grammar.crossing path low high) () := by
  cases low with
  | none => exact .pure ()
  | some low =>
    cases high with
    | none => exact .pure ()
    | some high =>
      simp only [crossing, Grammar.crossing]
      cases high.lt low with
      | true => exact .violation path .boundsCrossed
      | false => exact .pure ()

theorem number_lists (path : Path) (entries : Entries) :
    (number path entries).Lists (Grammar.number path entries) () := by
  unfold number Grammar.number
  rw [List.append_assoc, List.append_assoc]
  exact (optional_lists path "decimal" .bool isBool entries).bind
    ((optionalBound_lists path "minimum" entries).bind
      ((optionalBound_lists path "maximum" entries).bind (crossing_lists path _ _)))

theorem lengthNumber_lists (path : Path) (n : Number) :
    (lengthNumber path n).Lists (Grammar.lengthNumber path n) () := by
  unfold lengthNumber Grammar.lengthNumber
  cases n.isIntegral <;> cases n.lt (.int 0)
  · exact (Walk.Lists.warning _).bind (.pure ())
  · exact (Walk.Lists.warning _).bind (.violation path .negativeLength)
  · exact .pure ()
  · exact .violation path .negativeLength

theorem lengthBound_lists (path : Path) (name : Text) (entries : Entries) :
    (lengthBound path name entries).Lists (Grammar.lengthBound path name entries).1
      (Grammar.lengthBound path name entries).2 := by
  unfold lengthBound Grammar.lengthBound
  cases Entries.get? name entries with
  | none => exact .pure none
  | some v =>
    cases hnumber : v.finiteNumber? with
    | none =>
      simp only [hnumber]
      exact (Walk.Lists.violation _ _).andPure none
    | some n =>
      simp only [hnumber]
      exact (lengthNumber_lists _ n).andPure (some n)

theorem lengthObject_lists (path : Path) (entries : Entries) :
    (lengthObject path entries).Lists (Grammar.lengthObject path entries) () := by
  unfold lengthObject Grammar.lengthObject
  simp only [isEmpty_unexpected]
  cases entries.any fun e => isExtra ["minimum", "maximum"] e.1 with
  | true => exact unexpected_lists path _ entries
  | false =>
    rw [List.append_assoc]
    exact (lengthBound_lists path "minimum" entries).bind
      ((lengthBound_lists path "maximum" entries).bind (crossing_lists path _ _))

theorem length_lists (path : Path) (entries : Entries) :
    (length path entries).Lists (Grammar.length path entries) () := by
  unfold length Grammar.length
  cases Entries.get? "length" entries with
  | none => exact .pure ()
  | some v =>
    cases hnumber : v.finiteNumber? with
    | some n =>
      simp only [hnumber]
      exact lengthNumber_lists _ n
    | none =>
      simp only [hnumber]
      cases v with
      | dict object => exact lengthObject_lists _ object
      | _ => exact .violation _ (.mustBe .numberOrObject)

theorem keyKind_lists (path : Path) (entries : Entries) :
    (keyKind path entries).Lists (Grammar.keyKind path entries) () := by
  unfold keyKind Grammar.keyKind
  cases Entries.get? "key" entries with
  | none => exact .violation path (.missingProperty "key")
  | some v =>
    cases htext : v.text? with
    | none =>
      simp only [htext]
      exact .violation path .badKeyKind
    | some t =>
      simp only [htext]
      split
      · exact .pure ()
      · exact .violation path .badKeyKind

theorem enumValues_lists (path : Path) (seen : List Text) (vs : List Value) :
    (enumValues path seen vs).Lists (Grammar.enumValues path seen vs) () := by
  induction vs generalizing seen with
  | nil => exact .pure ()
  | cons v vs ih =>
    unfold enumValues Grammar.enumValues
    cases v.text?.filter Text.isName with
    | none =>
      simp only
      rw [← bind_assoc]
      exact (Walk.Lists.quoting fun shown => .violation path (.badEnumValue shown)).bind (ih seen)
    | some t =>
      simp only
      split
      · exact (Walk.Lists.violation path (.duplicateEnumValue t)).bind (ih seen)
      · exact ih (seen ++ [t])

theorem enumeration_lists (path : Path) (entries : Entries) :
    (enumeration path entries).Lists (Grammar.enumeration path entries) () := by
  unfold enumeration Grammar.enumeration
  cases Entries.get? "values" entries with
  | none => exact .violation path (.missingProperty "values")
  | some v =>
    cases hitems : sequence? v with
    | none =>
      simp only [hitems]
      exact .violation _ (.mustBe .array)
    | some xs =>
      simp only [hitems]
      cases xs with
      | nil => exact .violation _ .noItems
      | cons x xs => exact enumValues_lists _ [] (x :: xs)

theorem kind_of_ok {path : Path} {entries : Entries} {k : Kind}
    (h : Grammar.kind path entries = .ok k) : kind path entries = pure (some k) := by
  unfold Grammar.kind at h
  unfold kind
  cases htype : Entries.get? "type" entries with
  | none =>
    rw [htype] at h
    cases h
  | some v =>
    simp only [htype] at h ⊢
    cases hkind : v.text?.bind Kind.ofName? with
    | none =>
      rw [hkind] at h
      cases h
    | some k' =>
      simp only [hkind] at h ⊢
      cases h
      rfl

theorem kind_lists_of_error {path : Path} {entries : Entries} {findings : List Finding}
    (h : Grammar.kind path entries = .error findings) :
    (kind path entries).Lists findings none := by
  unfold Grammar.kind at h
  unfold kind
  cases htype : Entries.get? "type" entries with
  | none =>
    rw [htype] at h
    cases h
    exact (Walk.Lists.violation path (.missingProperty "type")).andPure none
  | some v =>
    simp only [htype] at h ⊢
    cases hkind : v.text?.bind Kind.ofName? with
    | none =>
      simp only [hkind] at h ⊢
      cases h
      exact (Walk.Lists.violation path .unknownKind).andPure none
    | some k' =>
      rw [hkind] at h
      cases h

/-! ## Blocks -/

mutual

/-- **The check of a schema reports what is listed**, whatever mode it is in. By recursion on the raw
schema, as the check itself. -/
theorem block_lists (path : Path) (raw : Value) :
    (block path raw).Lists (Grammar.block path raw) () := by
  match raw with
  | .dict entries =>
    have hvalue := fun path => value_lists path entries
    have hitems := items_lists path entries
    have hfields := fields_lists path entries
    have hlength := length_lists path entries
    unfold block Grammar.block
    cases hkind : Grammar.kind path entries with
    | error findings =>
      simp only
      have hnone := kind_lists_of_error hkind
      rw [← List.append_nil findings]
      exact hnone.bind (.pure ())
    | ok k =>
      rw [kind_of_ok hkind, pure_bind]
      simp only [List.append_assoc]
      refine (unexpected_lists path k.legalProperties entries).bind
        (Walk.Lists.bind (a := ()) ?_ (common_lists path entries))
      cases k with
      | flag => exact .pure ()
      | number => exact number_lists path entries
      | string => exact hlength.bind (optional_lists path "pattern" .string _ entries)
      | array =>
        simp only
        split
        · exact (hvalue _).bind hlength
        · exact .violation path (.missingProperty "value")
      | object =>
        have hrest : (keyKind path entries >>= fun _ => length path entries).Lists
            (Grammar.keyKind path entries ++ Grammar.length path entries) () :=
          (keyKind_lists path entries).bind hlength
        simp only
        split
        · exact (hvalue _).bind hrest
        · exact (Walk.Lists.violation path (.missingProperty "value")).bind hrest
      | tuple => exact hitems
      | map => exact hfields
      | enum => exact enumeration_lists path entries
  | .null | .bool _ | .int _ | .float _ | .str _ | .bytes _ | .date _ | .moment _ | .list _
  | .tuple _ | .set _ =>
    unfold block Grammar.block
    exact .violation path (.mustBe .object)
termination_by structural raw

theorem value_lists (path : Path) (entries : List (Value × Value)) :
    (value path entries).Lists (Grammar.value path entries) () := by
  match entries with
  | [] => exact .pure ()
  | (k, v) :: rest =>
    have hrest := value_lists path rest
    cases k with
    | str name =>
      unfold value Grammar.value
      split
      · exact block_lists path v
      · exact hrest
    | _ =>
      unfold value Grammar.value
      exact hrest
termination_by structural entries

theorem items_lists (path : Path) (entries : List (Value × Value)) :
    (items path entries).Lists (Grammar.items path entries) () := by
  match entries with
  | [] => exact .violation path (.missingProperty "items")
  | (k, v) :: rest =>
    have hrest := items_lists path rest
    cases k with
    | str name =>
      unfold items Grammar.items
      split
      · exact itemList_lists path v
      · exact hrest
    | _ =>
      unfold items Grammar.items
      exact hrest
termination_by structural entries

theorem itemList_lists (path : Path) (raw : Value) :
    (itemList path raw).Lists (Grammar.itemList path raw) () := by
  match raw with
  | .list [] | .tuple [] =>
    unfold itemList Grammar.itemList
    exact .violation _ .noItems
  | .list (x :: xs) | .tuple (x :: xs) =>
    unfold itemList Grammar.itemList
    exact blocks_lists path 0 (x :: xs)
  | .null | .bool _ | .int _ | .float _ | .str _ | .bytes _ | .date _ | .moment _ | .dict _
  | .set _ =>
    unfold itemList Grammar.itemList
    exact .violation _ (.mustBe .array)
termination_by structural raw

theorem blocks_lists (path : Path) (index : Nat) (raws : List Value) :
    (blocks path index raws).Lists (Grammar.blocks path index raws) () := by
  match raws with
  | [] => exact .pure ()
  | raw :: rest =>
    unfold blocks Grammar.blocks
    exact (block_lists _ raw).bind (blocks_lists path (index + 1) rest)
termination_by structural raws

theorem fields_lists (path : Path) (entries : List (Value × Value)) :
    (fields path entries).Lists (Grammar.fields path entries) () := by
  match entries with
  | [] => exact .violation path (.missingProperty "fields")
  | (k, v) :: rest =>
    have hrest := fields_lists path rest
    cases k with
    | str name =>
      unfold fields Grammar.fields
      split
      · exact fieldDict_lists path v
      · exact hrest
    | _ =>
      unfold fields Grammar.fields
      exact hrest
termination_by structural entries

theorem fieldDict_lists (path : Path) (raw : Value) :
    (fieldDict path raw).Lists (Grammar.fieldDict path raw) () := by
  match raw with
  | .dict [] =>
    unfold fieldDict Grammar.fieldDict
    exact .violation _ .noFields
  | .dict (entry :: entries) =>
    unfold fieldDict Grammar.fieldDict
    exact fieldBlocks_lists path (entry :: entries)
  | .null | .bool _ | .int _ | .float _ | .str _ | .bytes _ | .date _ | .moment _ | .list _
  | .tuple _ | .set _ =>
    unfold fieldDict Grammar.fieldDict
    exact .violation _ (.mustBe .object)
termination_by structural raw

theorem fieldBlocks_lists (path : Path) (entries : List (Value × Value)) :
    (fieldBlocks path entries).Lists (Grammar.fieldBlocks path entries) () := by
  match entries with
  | [] => exact .pure ()
  | (k, v) :: rest =>
    have hrest := fieldBlocks_lists path rest
    have hblock := fun name => block_lists (path ++ [.field name]) v
    unfold fieldBlocks Grammar.fieldBlocks
    cases k.text?.filter Text.isName with
    | some name => exact (hblock name).bind hrest
    | none =>
      simp only [← bind_assoc]
      exact (Walk.Lists.quoting fun shown => .violation _ (.badFieldName shown)).bind hrest
termination_by structural entries

end

end Check

end DocShape
