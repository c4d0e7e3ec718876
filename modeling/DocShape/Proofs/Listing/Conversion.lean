import DocShape.Conversion
import DocShape.Proofs.Listing.Rule

/-!
# The findings of a conversion

`Block.convert` gives what converting a value comes to without running the walk: the adjusted value
and the findings, in the order in which the walk comes upon them. `Convert.block_lists` says that the
walk reports these findings and comes to this value, in either mode; it is shown part by part.
-/

namespace DocShape

/-- A converted value with what was found on the way. -/
structure Converted where
  value : Value
  findings : List Finding

namespace Converted

/-- Nothing could be made of the node. -/
def failed (findings : List Finding) : Converted := ⟨.null, findings⟩

/-- The node as it is, unless something was found. -/
def leaf (v : Value) (findings : List Finding) : Converted :=
  ⟨if findings.isEmpty then v else .null, findings⟩

/-- The items of an array, each converted at its index. -/
def items (convert : Nat → Value → Converted) (index : Nat) : List Value → List Converted
  | [] => []
  | v :: vs => convert index v :: items convert (index + 1) vs

/-- A list of the converted items, after earlier findings. -/
def ofItems (before : List Finding) (parts : List Converted) : Converted :=
  ⟨.list (parts.map Converted.value), before ++ parts.flatMap Converted.findings⟩

/-- The entries of an object, each converted under its key; a key of another kind drops out. -/
def entries (d : Direction) (path : Path) (kind : KeyKind) (convert : Path → Value → Converted)
    (index : Nat) : Entries → List (Value × Value) × List Finding
  | [] => ([], [])
  | (k, v) :: rest =>
    let (others, findings) := entries d path kind convert (index + 1) rest
    match d.key? kind k with
    | none => (others, .mismatch path (.badKey index kind) :: findings)
    | some (.error f) => (others, .halt f :: findings)
    | some (.ok (key, shown)) =>
      let c := convert (path ++ [.entry shown]) v
      ((key, c.value) :: others, c.findings ++ findings)

end Converted

/-- A number against its block. -/
def convertNumber (d : Direction) (path : Path) (decimal : Bool) (minimum maximum : Setting Limit)
    (v : Value) : Converted :=
  match v.finiteNumber? with
  | none => .failed [.mismatch path (.expected .number d)]
  | some n =>
    if !decimal && !n.isIntegral then .failed [.mismatch path .fractional]
    else
      let least := match minimum.value? with
        | none => []
        | some limit => limit.checkLeast path n
      let most := match maximum.value? with
        | none => []
        | some limit => limit.checkMost path n
      .leaf v (least ++ most)

/-- The fields of a map that a dictionary lacks: optional ones become null. -/
def missingFields (path : Path) (node : Entries) :
    List (Text × Block) → List (Value × Value) × List Finding
  | [] => ([], [])
  | (name, b) :: rest =>
    let (others, findings) := missingFields path node rest
    if Entries.has node name then (others, findings)
    else if b.isOptional then ((.str name, .null) :: others, findings)
    else (others, .mismatch path (.missingField name) :: findings)

/-- The entries of a dictionary along the fields of a map. -/
def presentFields (path : Path) (field? : Text → Option (Value → Converted)) :
    Entries → List (Value × Value) × List Finding
  | [] => ([], [])
  | (k, v) :: rest =>
    let (others, findings) := presentFields path field? rest
    match k.text?.bind field? with
    | some convert =>
      let c := convert v
      ((k, c.value) :: others, c.findings ++ findings)
    | none =>
      let finding := Finding.quoting k fun shown => .mismatch path (.unexpectedField shown)
      (others, finding :: findings)

/-- A string against its block. -/
def convertString [Host] (d : Direction) (path : Path) (length : Setting LengthRule)
    (pattern : Setting Text) (v : Value) : Converted :=
  match v with
  | .str t => .leaf v (checkLength path t.length length ++ checkPattern path t pattern)
  | _ => .failed [.mismatch path (.expected .string d)]

/-- A value of an enumeration. -/
def convertEnum (d : Direction) (path : Path) (values : List Text) (v : Value) : Converted :=
  match v with
  | .str t => .leaf v (if values.contains t then [] else [.mismatch path .notInEnum])
  | _ => .failed [.mismatch path (.expected .string d)]

namespace Block

section

variable [Host]

mutual

/-- Checks a value against a block and adjusts it. -/
def convert (d : Direction) (path : Path) (b : Block) (v : Value) : Converted :=
  if b.header.excuses v then ⟨.null, []⟩
  else match b with
    | flag _ =>
      match v with
      | .bool _ => .leaf v []
      | _ => .failed [.mismatch path (.expected .boolean d)]
    | number _ decimal minimum maximum =>
      convertNumber d path (decimal.getD true) minimum maximum v
    | string _ length pattern => convertString d path length pattern v
    | array _ value length =>
      match d.items? v with
      | none => .failed [.mismatch path (.expected .array d)]
      | some xs =>
        .ofItems (checkLength path xs.length length)
          (Converted.items (fun i x => convert d (path ++ [.item i]) value x) 0 xs)
    | object _ key value length =>
      match v with
      | .dict entries =>
        let (converted, findings) :=
          Converted.entries d path key (fun p x => convert d p value x) 0 entries
        ⟨.dict converted, checkLength path entries.length length ++ findings⟩
      | _ => .failed [.mismatch path (.expected .object d)]
    | tuple _ items =>
      match d.items? v with
      | none => .failed [.mismatch path (.expected .array d)]
      | some xs =>
        if xs.length = items.length then .ofItems [] (convertPositions d path 0 items xs)
        else .failed [.mismatch path (.tupleLength items.length)]
    | map _ fields =>
      match v with
      | .dict entries =>
        let (present, findings) :=
          presentFields path (fun name => convertField d path name fields) entries
        let (missing, more) := missingFields path entries fields
        ⟨.dict (present ++ missing), findings ++ more⟩
      | _ => .failed [.mismatch path (.expected .object d)]
    | enum _ values => convertEnum d path values v
termination_by structural b

/-- Items against the blocks at their positions. -/
def convertPositions (d : Direction) (path : Path) (index : Nat) :
    List Block → List Value → List Converted
  | b :: bs, v :: vs =>
    convert d (path ++ [.position index]) b v :: convertPositions d path (index + 1) bs vs
  | _, _ => []
termination_by structural b => b

/-- How the value of a field is converted, if the map has that field. -/
def convertField (d : Direction) (path : Path) (name : Text) :
    List (Text × Block) → Option (Value → Converted)
  | [] => none
  | (n, b) :: rest =>
    if n = name then some (fun v => convert d (path ++ [.field name]) b v)
    else convertField d path name rest
termination_by structural b => b

end

end

end Block

/-! ## What the walk lists -/

/-- A walk reports the findings of a conversion and comes to its value. -/
def Walk.Converts (walk : Walk Value) (c : Converted) : Prop := walk.Lists c.findings c.value

namespace Convert

theorem refuse_converts (path : Path) (cause : Mismatch) :
    (refuse path cause).Converts (.failed [.mismatch path cause]) :=
  (Walk.Lists.mismatch path cause).andPure Value.null

/-- Two tests on a node that stays as it is if both hold. -/
theorem leaf_converts {first second : Walk Bool} {fs gs : List Finding} (hfirst : first.Tests fs)
    (hsecond : second.Tests gs) (v : Value) :
    (do
      let a ← first
      let b ← second
      return if a && b then v else .null : Walk Value).Converts (.leaf v (fs ++ gs)) := by
  have hvalue : (Converted.leaf v (fs ++ gs)).value =
      if fs.isEmpty && gs.isEmpty then v else .null := by
    cases fs <;> rfl
  rw [Walk.Converts, hvalue]
  exact Walk.Lists.bind hfirst (Walk.Lists.map hsecond fun b => if fs.isEmpty && b then v else .null)

theorem optionalLimit_tests {check : Limit → Walk Bool} {findings : Limit → List Finding}
    (h : ∀ limit, (check limit).Tests (findings limit)) (limit : Setting Limit) :
    (optionalLimit check limit).Tests (match limit.value? with
      | none => []
      | some limit => findings limit) := by
  unfold optionalLimit
  cases limit.value? with
  | none => exact .pure true
  | some limit => exact h limit

theorem number_converts (d : Direction) (path : Path) (decimal : Bool)
    (minimum maximum : Setting Limit) (v : Value) :
    (number d path decimal minimum maximum v).Converts
      (convertNumber d path decimal minimum maximum v) := by
  unfold number convertNumber
  cases v.finiteNumber? with
  | none => exact refuse_converts path (.expected .number d)
  | some n =>
    simp only
    split
    · exact refuse_converts path .fractional
    · exact leaf_converts (optionalLimit_tests (above_tests path n) minimum)
        (optionalLimit_tests (below_tests path n) maximum) v

theorem string_converts [Host] (d : Direction) (path : Path) (length : Setting LengthRule)
    (pattern : Setting Text) (v : Value) :
    (string d path length pattern v).Converts (convertString d path length pattern v) := by
  unfold string convertString
  cases v with
  | str t => exact leaf_converts (length_tests path t.length length) (pattern_tests path t pattern) _
  | _ => exact refuse_converts path (.expected .string d)

theorem enumValue_converts (d : Direction) (path : Path) (values : List Text) (v : Value) :
    (enumValue d path values v).Converts (convertEnum d path values v) := by
  unfold enumValue convertEnum
  cases v with
  | str t =>
    cases hmember : values.contains t with
    | true =>
      simp only [hmember, if_true]
      exact .pure _
    | false =>
      simp only [hmember, Bool.false_eq_true, if_false]
      exact refuse_converts path .notInEnum
  | _ => exact refuse_converts path (.expected .string d)

theorem items_lists {convert : Nat → Value → Walk Value} {converted : Nat → Value → Converted}
    (h : ∀ index v, (convert index v).Converts (converted index v)) (index : Nat)
    (vs : List Value) :
    (items convert index vs).Lists ((Converted.items converted index vs).flatMap Converted.findings)
      ((Converted.items converted index vs).map Converted.value) := by
  induction vs generalizing index with
  | nil => exact .pure []
  | cons v vs ih => exact Walk.Lists.bind (h index v) ((ih (index + 1)).map _)

theorem entries_lists {convert : Path → Value → Walk Value} {converted : Path → Value → Converted}
    (h : ∀ path v, (convert path v).Converts (converted path v)) (d : Direction) (path : Path)
    (kind : KeyKind) (index : Nat) (es : Entries) :
    (entries d path kind convert index es).Lists (Converted.entries d path kind converted index es).2
      (Converted.entries d path kind converted index es).1 := by
  induction es generalizing index with
  | nil => exact .pure []
  | cons entry rest ih =>
    rcases entry with ⟨k, v⟩
    unfold entries Converted.entries
    cases d.key? kind k with
    | none => exact (Walk.Lists.mismatch path (.badKey index kind)).bind (ih (index + 1))
    | some key =>
      cases key with
      | error f => exact .throw f _ _
      | ok key =>
        rcases key with ⟨key, shown⟩
        simp only [Walk.ofExcept, pure_bind]
        exact Walk.Lists.bind (h _ v) ((ih (index + 1)).map _)

/-- Fields are converted alike, and there are the same. -/
def FieldsConvert (field? : Text → Option (Value → Walk Value))
    (converted? : Text → Option (Value → Converted)) : Prop :=
  ∀ name, Option.Rel (fun convert converted => ∀ v, (convert v).Converts (converted v)) (field? name)
    (converted? name)

theorem presentFields_lists {field? : Text → Option (Value → Walk Value)}
    {converted? : Text → Option (Value → Converted)} (h : FieldsConvert field? converted?)
    (path : Path) (es : Entries) :
    (presentFields path field? es).Lists (DocShape.presentFields path converted? es).2
      (DocShape.presentFields path converted? es).1 := by
  induction es with
  | nil => exact .pure []
  | cons entry rest ih =>
    rcases entry with ⟨k, v⟩
    unfold presentFields DocShape.presentFields
    have hfield : Option.Rel (fun convert converted => ∀ v, (convert v).Converts (converted v))
        (k.text?.bind field?) (k.text?.bind converted?) := by
      cases k.text? with
      | none => exact .none
      | some name => exact h name
    generalize k.text?.bind field? = convert? at hfield ⊢
    generalize k.text?.bind converted? = converted? at hfield ⊢
    cases hfield with
    | none =>
      simp only [← bind_assoc]
      exact (Walk.Lists.quoting fun shown => .mismatch path (.unexpectedField shown)).bind ih
    | some hconvert => exact Walk.Lists.bind (hconvert v) (ih.map _)

theorem missingFields_lists (path : Path) (node : Entries) (fields : List (Text × Block)) :
    (missingFields path node fields).Lists (DocShape.missingFields path node fields).2
      (DocShape.missingFields path node fields).1 := by
  induction fields with
  | nil => exact .pure []
  | cons field rest ih =>
    rcases field with ⟨name, b⟩
    unfold missingFields DocShape.missingFields
    simp only
    split
    · exact ih
    · split
      · exact ih.map _
      · exact (Walk.Lists.mismatch path (.missingField name)).bind ih

section

variable [Host]

mutual

/-- **Converting a value reports what is listed and comes to the listed value**, whatever mode it is
in. By recursion on the block, as the conversion itself. -/
theorem block_converts (d : Direction) (path : Path) (b : Block) (v : Value) :
    (block d path b v).Converts (b.convert d path v) := by
  match b with
  | .flag header =>
    unfold block Block.convert
    split
    · exact .pure Value.null
    · cases v with
      | bool value => exact .pure _
      | _ => exact refuse_converts path (.expected .boolean d)
  | .number header decimal minimum maximum =>
    unfold block Block.convert
    split
    · exact .pure Value.null
    · exact number_converts d path _ minimum maximum v
  | .string header length pattern =>
    unfold block Block.convert
    split
    · exact .pure Value.null
    · exact string_converts d path length pattern v
  | .array header value length =>
    have hitem := fun (index : Nat) u => block_converts d (path ++ [.item index]) value u
    unfold block Block.convert
    split
    · exact .pure Value.null
    · simp only
      cases d.items? v with
      | none => exact refuse_converts path (.expected .array d)
      | some xs =>
        exact Walk.Lists.bind (length_tests path xs.length length)
          (Walk.Lists.map (items_lists hitem 0 xs) Value.list)
  | .object header key value length =>
    have hentry := fun (path : Path) u => block_converts d path value u
    unfold block Block.convert
    split
    · exact .pure Value.null
    · cases v with
      | dict es =>
        exact Walk.Lists.bind (length_tests path es.length length)
          (Walk.Lists.map (entries_lists hentry d path key 0 es) Value.dict)
      | _ => exact refuse_converts path (.expected .object d)
  | .tuple header blocks =>
    have hpositions := positions_lists d path 0 blocks
    unfold block Block.convert
    split
    · exact .pure Value.null
    · simp only
      cases d.items? v with
      | none => exact refuse_converts path (.expected .array d)
      | some xs =>
        simp only
        split
        · exact Walk.Lists.map (hpositions xs) Value.list
        · exact refuse_converts path (.tupleLength blocks.length)
  | .map header fields =>
    have hfields := field_converts d path fields
    unfold block Block.convert
    split
    · exact .pure Value.null
    · cases v with
      | dict es =>
        exact Walk.Lists.bind (presentFields_lists hfields path es)
          (Walk.Lists.map (missingFields_lists path es fields) fun missing => Value.dict (_ ++ missing))
      | _ => exact refuse_converts path (.expected .object d)
  | .enum header values =>
    unfold block Block.convert
    split
    · exact .pure Value.null
    · exact enumValue_converts d path values v
termination_by structural b

theorem positions_lists (d : Direction) (path : Path) (index : Nat) (bs : List Block)
    (vs : List Value) :
    (positions d path index bs vs).Lists
      ((Block.convertPositions d path index bs vs).flatMap Converted.findings)
      ((Block.convertPositions d path index bs vs).map Converted.value) := by
  match bs, vs with
  | [], _ => exact .pure []
  | _ :: _, [] => exact .pure []
  | b :: bs, v :: vs =>
    unfold positions Block.convertPositions
    exact Walk.Lists.bind (block_converts d _ b v) ((positions_lists d path (index + 1) bs vs).map _)
termination_by structural bs

theorem field_converts (d : Direction) (path : Path) (fields : List (Text × Block)) :
    FieldsConvert (fun name => field d path name fields)
      (fun name => Block.convertField d path name fields) := by
  intro name
  match fields with
  | [] => exact .none
  | (n, b) :: rest =>
    have hrest := field_converts d path rest name
    have hblock := fun v => block_converts d (path ++ [.field name]) b v
    simp only at hrest ⊢
    unfold field Block.convertField
    split
    · exact .some hblock
    · exact hrest

end

end

end Convert

end DocShape
