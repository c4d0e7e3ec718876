import DocShape.Proofs.Json.Quotes
import DocShape.Proofs.Json.Reading
import DocShape.Proofs.Number.Spelling
import DocShape.Proofs.Value.Joined

/-!
# A written document reads back

What the writer makes of a value is derived by a tree that denotes the value (`exists_tree`), so that a
document in characters of its own is read as the value that was written (`read_write`). Two things are not kept:
a tuple is written as a list, and an integer key as the text that spells it. `Value.spelled` is the
value with both replaced.

Where a style limits how deep brackets nest, a value that a document has a place for has a text exactly
if it is within that limit (`text_total`, `text_of_deep`).
-/

namespace DocShape

namespace Json

variable {style : Style} {dialect : Dialect} {depth : Nat}

/-! ## The texts of parts -/

theorem itemTexts_eq_ok {xs : List Value} {ts : List Text} :
    itemTexts style depth xs = .ok ts ↔
      List.Forall₂ (fun t x => text style depth x = .ok t) ts xs := by
  induction xs generalizing ts with
  | nil =>
    rw [itemTexts, List.forall₂_nil_right_iff, Except.ok.injEq, eq_comm]
  | cons x xs ih =>
    rw [itemTexts, Except.bind_eq_ok, List.forall₂_cons_right_iff]
    simp only [Except.bind_eq_ok, ih, pure, Except.pure, Except.ok.injEq]
    constructor
    · rintro ⟨t, ht, us, hus, rfl⟩
      exact ⟨t, us, ht, hus, rfl⟩
    · rintro ⟨t, us, ht, hus, rfl⟩
      exact ⟨t, ht, us, hus, rfl⟩

/-- What stands between a name and its value. -/
def colon (style : Style) : Text := if style.indented then ": " else ":"

theorem colon_eq (style : Style) : ∃ gap : Gap, colon style = CodePoint.ofChar ':' :: gap.text := by
  by_cases h : style.indented = true
  · exact ⟨⟨[CodePoint.ofChar ' '], List.forall_mem_singleton.2 (.inl rfl)⟩, by rw [colon, if_pos h]; rfl⟩
  · exact ⟨Gap.none, by rw [colon, if_neg h]; rfl⟩

/-- A member as it is written. -/
def WrittenMember (style : Style) (depth : Nat) (s : Text) (e : Value × Value) : Prop :=
  ∃ name shown, nameOfKey style e.1 = .ok name ∧ text style depth e.2 = .ok shown ∧
    s = quote style.asciiOnly name ++ colon style ++ shown

theorem memberTexts_eq_ok {es : Entries} {ss : List Text} :
    memberTexts style depth es = .ok ss ↔ List.Forall₂ (WrittenMember style depth) ss es := by
  induction es generalizing ss with
  | nil =>
    rw [memberTexts, List.forall₂_nil_right_iff, Except.ok.injEq, eq_comm]
  | cons e es ih =>
    obtain ⟨k, v⟩ := e
    rw [memberTexts, Except.bind_eq_ok, List.forall₂_cons_right_iff]
    simp only [Except.bind_eq_ok, ih, pure, Except.pure, Except.ok.injEq]
    constructor
    · rintro ⟨name, hname, shown, hshown, us, hus, rfl⟩
      exact ⟨_, us, ⟨name, shown, hname, hshown, rfl⟩, hus, rfl⟩
    · rintro ⟨t, us, ⟨name, shown, hname, hshown, rfl⟩, hus, rfl⟩
      exact ⟨name, hname, shown, hshown, us, hus, rfl⟩

theorem intText_eq_ok {n : Int} {t : Text} :
    intText n = .ok t ↔ Text.HasDigits n ∧ t = Text.ofInt n := by
  rw [intText, Text.ofIntLimited?_eq]
  by_cases h : Text.HasDigits n
  · simp [h, eq_comm]
  · simp [h]

theorem floatText_finite {x : Binary64} (h : x.isFinite = true) :
    floatText style x = .ok x.text := by
  cases x with
  | nan => cases h
  | infinite => cases h
  | finite => rfl

theorem nameOfKey_spelled {k : Value} {name t : Text} (hname : nameOfKey style k = .ok name)
    (ht : k.spelledKey = .str t) : name = t := by
  cases k with
  | str s =>
    rw [nameOfKey, Except.ok.injEq] at hname
    simp only [Value.spelledKey, Value.str.injEq] at ht
    rw [← hname, ht]
  | int n =>
    rw [nameOfKey, intText_eq_ok] at hname
    rw [Value.spelledKey, Value.str.injEq] at ht
    rw [hname.2, ht]
  | _ => cases ht

/-! ## Room for brackets -/

/-- A style has room for a value inside so many brackets. -/
def HasRoom (style : Style) (depth : Nat) (v : Value) : Prop :=
  ∀ n, style.nesting = some n → depth + v.depth ≤ n

theorem hasRoom_compact {nesting : Nat} {v : Value} :
    HasRoom (.compact nesting) 0 v ↔ v.depth ≤ nesting := by
  rw [HasRoom, Nat.zero_add]
  exact ⟨fun h => h nesting rfl, fun h n hn => Option.some.inj hn ▸ h⟩

theorem hasRoom_of_unlimited (hstyle : style.nesting = none) {v : Value} : HasRoom style depth v :=
  fun n hn => by rw [hstyle] at hn; cases hn

theorem HasRoom.part {v x : Value} (h : HasRoom style depth v) (hx : x ∈ v.parts) :
    HasRoom style (depth + 1) x := fun n hn => by
  have hroom := h n hn
  have hpart := Value.depth_lt_of_mem_parts hx
  omega

theorem checkDepth_of_room {v : Value} (h : HasRoom style depth v) (hv : 0 < v.depth) :
    style.checkDepth depth = .ok () := by
  rw [Style.checkDepth]
  cases hn : style.nesting with
  | none => rfl
  | some n =>
    have hroom := h n hn
    rw [if_neg (by simp; omega)]

theorem lt_of_checkDepth (h : style.checkDepth depth = .ok ()) {n : Nat}
    (hn : style.nesting = some n) : depth < n := by
  rw [Style.checkDepth, hn] at h
  split at h
  · cases h
  · next hlimit => simpa using hlimit

theorem checkDepth_cases (style : Style) (depth : Nat) :
    style.checkDepth depth = .ok () ∨ style.checkDepth depth = .error .tooDeep := by
  rw [Style.checkDepth]
  split
  · exact .inr rfl
  · exact .inl rfl

section

variable {xs : List Value} {es : Entries} {t : Text}

theorem text_list_eq_ok : text style depth (.list xs) = .ok t ↔ style.checkDepth depth = .ok () ∧
    ∃ ts, itemTexts style (depth + 1) xs = .ok ts ∧ bracketed style depth '[' ']' ts = t := by
  rw [text, Except.andThen_eq_ok, Except.bind_eq_ok]
  simp only [pure, Except.pure, Except.ok.injEq]

theorem text_tuple_eq_ok : text style depth (.tuple xs) = .ok t ↔ style.checkDepth depth = .ok () ∧
    ∃ ts, itemTexts style (depth + 1) xs = .ok ts ∧ bracketed style depth '[' ']' ts = t := by
  rw [text, Except.andThen_eq_ok, Except.bind_eq_ok]
  simp only [pure, Except.pure, Except.ok.injEq]

theorem text_dict_eq_ok : text style depth (.dict es) = .ok t ↔ style.checkDepth depth = .ok () ∧
    ∃ ss, memberTexts style (depth + 1) es = .ok ss ∧ bracketed style depth '{' '}' ss = t := by
  rw [text, Except.andThen_eq_ok, Except.bind_eq_ok]
  simp only [pure, Except.pure, Except.ok.injEq]

end

/-! ## Layouts -/

/-- Elements with white space in front of each and behind the last. -/
def spread {α : Type} (pad tail : Gap) : List α → List (Spaced α)
  | [] => []
  | [a] => [⟨pad, a, tail⟩]
  | a :: as => ⟨pad, a, Gap.none⟩ :: spread pad tail as

section Layout

variable {α : Type} (pad tail : Gap) (f : α → Text)

theorem inner_spread (as : List α) : (spread pad tail as).map Spaced.inner = as := by
  induction as using spread.induct with
  | case1 => rfl
  | case2 => rfl
  | case3 a as hne ih => rw [spread.eq_3 _ _ _ _ hne, List.map_cons, ih]

theorem joined_spread (a : α) (as : List α) : Spaced.joined f (spread pad tail (a :: as)) =
    pad.text ++ (Text.join ("," ++ pad.text) ((a :: as).map f) ++ tail.text) := by
  induction as generalizing a with
  | nil => simp [spread, Spaced.joined, Spaced.text, Text.join]
  | cons b as ih =>
    have hspread : ∃ s ss, spread pad tail (b :: as) = s :: ss := by
      cases as <;> exact ⟨_, _, rfl⟩
    obtain ⟨s, ss, hss⟩ := hspread
    have hfirst : spread pad tail (a :: b :: as) = ⟨pad, a, Gap.none⟩ :: s :: ss :=
      congrArg (List.cons _) hss
    rw [hfirst, Spaced.joined_cons_cons, ← hss, ih]
    simp [Spaced.text, Text.join, Text.ofString]

/-- In either layout, elements in brackets have commas between them and white space around them. -/
theorem bracketed_eq (style : Style) (depth : Nat) (opening closing : CodePoint) (as : List α) :
    ∃ ss : List (Spaced α), ss.map Spaced.inner = as ∧
      bracketed style depth opening closing (as.map f) =
        opening :: (Gap.none.text ++ (Spaced.joined f ss ++ [closing])) := by
  have hline (depth : Nat) : ∀ c ∈ newline depth, IsSpace c := by
    refine List.forall_mem_cons.2 ⟨.inr (.inr (.inl rfl)), fun c hc => .inl ?_⟩
    exact List.eq_of_mem_replicate hc
  cases as with
  | nil => exact ⟨[], rfl, rfl⟩
  | cons a as =>
    by_cases h : style.indented = true
    · refine ⟨spread ⟨newline (depth + 1), hline _⟩ ⟨newline depth, hline _⟩ (a :: as),
        inner_spread _ _ _, ?_⟩
      rw [joined_spread]
      simp [bracketed, h]
    · refine ⟨spread Gap.none Gap.none (a :: as), inner_spread _ _ _, ?_⟩
      rw [joined_spread]
      simp [bracketed, h]

end Layout

/-! ## Written values are derived -/

/-- An integer within the digit limit as a number. -/
theorem exists_numeral_ofInt {n : Int} (h : Text.HasDigits n) :
    ∃ m : Numeral, m.text = Text.ofInt n ∧ m.value = .int n ∧ m.InRange := by
  let m : Numeral := ⟨decide (n < 0), Text.ofNat n.natAbs, [], none, Text.isNumeral_ofNat _, nofun⟩
  have hint : m.IsInteger := ⟨rfl, rfl⟩
  refine ⟨m, ?_, ?_, ?_⟩
  · have hunsigned : m.unsigned = Text.ofNat n.natAbs := by
      simp [m, Numeral.unsigned, Numeral.fractionText, Numeral.exponentText]
    rw [Numeral.text, hunsigned, Text.ofInt_eq, Numeral.signText]
    by_cases hn : n < 0
    · simp [m, hn]
    · simp [m, hn]
  · rw [Numeral.value, if_pos hint]
    simp only [m, Text.toNat_ofNat, decide_eq_true_eq]
    congr 1
    split <;> omega
  · rw [Numeral.InRange, if_pos hint]
    exact h

/-- Items in brackets are derived if each of them is. -/
theorem exists_array (style : Style) (depth : Nat) {ts : List Text} {xs : List Value} {n : Nat}
    (h : List.Forall₂ (fun t x => ∃ tree : Tree, tree.text = t ∧ tree.value = x.spelled ∧
      tree.InRange ∧ tree.depth ≤ n) ts xs) :
    ∃ tree : Tree, tree.text = bracketed style depth '[' ']' ts ∧
      tree.value = .list (xs.map Value.spelled) ∧ tree.InRange ∧ tree.depth ≤ n + 1 := by
  obtain ⟨trees, rfl, hvalues, hrange⟩ := exists_preimages h
  obtain ⟨ss, rfl, hss⟩ := bracketed_eq Tree.text style depth '[' ']' trees
  refine ⟨.array Gap.none ss, ?_, ?_,
    .of_array Gap.none fun s hs => (hrange s.inner (List.mem_map_of_mem hs)).1,
    Tree.depth_array_le.2 fun s hs => (hrange s.inner (List.mem_map_of_mem hs)).2⟩
  · rw [Tree.text_array, hss]
  · rw [Tree.value_array, ← hvalues, List.map_map]
    rfl

/-- A written member is derived if its value is. -/
theorem exists_member {s : Text} {e : Value × Value} (hs : WrittenMember style depth s e)
    (hkey : ∃ t, e.1.spelledKey = .str t ∧ (style.asciiOnly = true → t.IsJoined))
    {n : Nat} (hvalue : ∀ t, text style depth e.2 = .ok t → ∃ tree : Tree, tree.text = t ∧
      tree.value = e.2.spelled ∧ tree.InRange ∧ tree.depth ≤ n) :
    ∃ m : Member Tree, m.text Tree.text = s ∧
      (Value.str (decode m.name), m.inner.value) = (e.1.spelledKey, e.2.spelled) ∧
      m.inner.InRange ∧ m.inner.depth ≤ n := by
  obtain ⟨name, shown, hname, hshown, rfl⟩ := hs
  obtain ⟨t, ht, hjoined⟩ := hkey
  obtain rfl := nameOfKey_spelled hname ht
  obtain ⟨ps, hps, hdecode⟩ := exists_parts_quote hjoined
  obtain ⟨gap, hcolon⟩ := colon_eq style
  obtain ⟨tree, rfl, hvalue, hrange⟩ := hvalue shown hshown
  refine ⟨⟨ps, Gap.none, gap, tree⟩, ?_, ?_, hrange⟩
  · rw [Member.text, hps, hcolon, List.append_assoc]
    rfl
  · rw [hdecode, hvalue, ht]

/-- Members in braces are derived if each of them is. No two of them have one name, so that none is
lost. -/
theorem exists_object (style : Style) (depth : Nat) {ss : List Text} {es : Entries} {n : Nat}
    (hes : (Value.dict es).PlainNode)
    (h : List.Forall₂ (fun s (e : Value × Value) => ∃ m : Member Tree, m.text Tree.text = s ∧
      (Value.str (decode m.name), m.inner.value) = (e.1.spelledKey, e.2.spelled) ∧
      m.inner.InRange ∧ m.inner.depth ≤ n) ss es) :
    ∃ tree : Tree, tree.text = bracketed style depth '{' '}' ss ∧
      tree.value = (Value.dict es).spelled ∧ tree.InRange ∧ tree.depth ≤ n + 1 := by
  obtain ⟨hkeys, hdistinct⟩ := hes
  obtain ⟨members, rfl, hentries, hrange⟩ := exists_preimages h
  obtain ⟨spaced, rfl, hspaced⟩ := bracketed_eq (Member.text Tree.text) style depth '{' '}' members
  have hapart : Entries.Distinct (es.map fun e => (e.1.spelledKey, e.2.spelled)) := by
    refine Value.distinct_of_texts (fun e' he' => ?_) (by simpa [Function.comp_def] using hdistinct)
    obtain ⟨e, he, rfl⟩ := List.mem_map.1 he'
    exact hkeys e he
  refine ⟨.object Gap.none spaced, ?_, ?_,
    .of_object Gap.none fun s hs => (hrange s.inner (List.mem_map_of_mem hs)).1,
    Tree.depth_object_le.2 fun s hs => (hrange s.inner (List.mem_map_of_mem hs)).2⟩
  · rw [Tree.text_object, hspaced]
  · rw [Value.spelled_dict, ← Entries.ofList_of_distinct hapart, ← hentries, List.map_map]
    exact Tree.value_object Gap.none spaced

/-- A finite double as a number. -/
theorem exists_numeral_ofFloat {x : Binary64} (h : x.isFinite = true) :
    ∃ m : Numeral, m.text = x.text ∧ m.value = .float x ∧ m.InRange := by
  cases x with
  | nan => cases h
  | infinite => cases h
  | finite negative m =>
    exact ⟨_, Binary64.text_numeral negative m, Binary64.value_numeral negative m,
      Binary64.inRange_numeral negative m⟩

/-- What the writer makes of a value is derived by a tree that denotes the value as a document has
it, and is no deeper. In ASCII the texts have to be joined. -/
theorem exists_tree (v : Value) {depth : Nat} {t : Text} (hv : v.IsPlain)
    (hjoined : style.asciiOnly = true → v.IsJoined) (ht : text style depth v = .ok t) :
    ∃ tree : Tree, tree.text = t ∧ tree.value = v.spelled ∧ tree.InRange ∧
      tree.depth ≤ v.depth := by
  induction v using Value.partsInduction generalizing depth t with
  | step v ih =>
    have hitems {ts : List Text} {n : Nat} (hn : ∀ x ∈ v.parts, x.depth ≤ n)
        (hts : itemTexts style (depth + 1) v.parts = .ok ts) :=
      exists_array (n := n) style depth (forall₂_of_mem (itemTexts_eq_ok.1 hts) fun x hx t htx => by
        obtain ⟨tree, htext, hvalue, hrange, hdepth⟩ :=
          ih x hx (hv.inside x hx) (fun h => (hjoined h).inside x hx) htx
        exact ⟨tree, htext, hvalue, hrange, hdepth.trans (hn x hx)⟩)
    cases v with
    | null =>
      rw [text, Except.ok.injEq] at ht
      exact ⟨.null, ht, rfl, .of_null, Nat.le_refl _⟩
    | bool b =>
      cases b with
      | true =>
        rw [text, Except.ok.injEq] at ht
        exact ⟨.bool true, ht, rfl, .of_bool true, Nat.le_refl _⟩
      | false =>
        rw [text, Except.ok.injEq] at ht
        exact ⟨.bool false, ht, rfl, .of_bool false, Nat.le_refl _⟩
    | int n =>
      rw [text, intText_eq_ok] at ht
      obtain ⟨hn, rfl⟩ := ht
      obtain ⟨m, htext, hvalue, hrange⟩ := exists_numeral_ofInt hn
      refine ⟨.number m, htext, ?_, Tree.InRange.number_iff.2 hrange, Nat.le_refl _⟩
      rw [Tree.value, hvalue]
      rfl
    | float x =>
      rw [text, floatText_finite hv.here, Except.ok.injEq] at ht
      obtain ⟨m, htext, hvalue, hrange⟩ := exists_numeral_ofFloat hv.here
      refine ⟨.number m, htext.trans ht, ?_, Tree.InRange.number_iff.2 hrange, Nat.le_refl _⟩
      rw [Tree.value, hvalue]
      rfl
    | str s =>
      rw [text, Except.ok.injEq] at ht
      obtain ⟨ps, hps, hdecode⟩ := exists_parts_quote fun h => (hjoined h).here
      refine ⟨.string ps, hps.trans ht, ?_, .of_string ps, Nat.le_refl _⟩
      rw [Tree.value, hdecode]
      rfl
    | list xs =>
      obtain ⟨-, ts, hts, rfl⟩ := text_list_eq_ok.1 ht
      rw [Value.spelled_list, Value.depth]
      exact hitems (Value.itemsDepth_le.1 (Nat.le_refl _)) hts
    | tuple xs =>
      -- a tuple is written like a list
      obtain ⟨-, ts, hts, rfl⟩ := text_tuple_eq_ok.1 ht
      rw [Value.spelled, Value.recast_tuple, Value.depth]
      exact hitems (Value.itemsDepth_le.1 (Nat.le_refl _)) hts
    | dict es =>
      obtain ⟨-, ss, hss, rfl⟩ := text_dict_eq_ok.1 ht
      rw [Value.depth]
      refine exists_object style depth hv.here (forall₂_of_mem (memberTexts_eq_ok.1 hss) ?_)
      intro e he s hs
      obtain ⟨name, hname⟩ := hv.here.1 e he
      have hkey : style.asciiOnly = true → name.IsJoined := fun h =>
        Value.isJoined_of_spelledKey (hjoined h).here he hname
      refine exists_member hs ⟨name, hname, hkey⟩ fun t htext => ?_
      obtain ⟨tree, htree, hvalue, hrange, hdepth⟩ := ih e.2 (List.mem_map_of_mem he) (hv.entry he)
        (fun h => (hjoined h).entry he) htext
      exact ⟨tree, htree, hvalue, hrange,
        hdepth.trans (Value.entriesDepth_le.1 (Nat.le_refl _) e he)⟩
    | bytes => exact hv.here.elim
    | date => exact hv.here.elim
    | moment => exact hv.here.elim
    | set => exact hv.here.elim

theorem read_of_tree {nesting : Nat} {tree : Tree} (h : tree.InRange) (hdepth : tree.depth ≤ nesting) :
    read dialect nesting tree.text = .ok tree.value :=
  read_of_derives h hdepth ⟨Gap.none, Gap.none, by rw [Gap.text_none]; simp⟩

/-- A document in characters of its own is read as the value that was written, with white space around it
or without, if there is room for its brackets. -/
theorem read_spaced (hstyle : style.asciiOnly = false) {nesting : Nat} {v : Value} {t : Text}
    (hv : v.IsPlain) (hdepth : v.depth ≤ nesting) (ht : write style v = .ok t)
    (before after : Gap) :
    read dialect nesting (before.text ++ (t ++ after.text)) = .ok v.spelled := by
  obtain ⟨tree, rfl, hvalue, hrange, htree⟩ :=
    exists_tree v hv (fun h => by rw [hstyle] at h; cases h) ht
  rw [← hvalue]
  exact read_of_derives hrange (htree.trans hdepth) ⟨before, after, rfl⟩

theorem read_write (hstyle : style.asciiOnly = false) {nesting : Nat} {v : Value} {t : Text}
    (hv : v.IsPlain) (hdepth : v.depth ≤ nesting) (ht : write style v = .ok t) :
    read dialect nesting t = .ok v.spelled := by
  have hspaced : read dialect nesting (Gap.none.text ++ (t ++ Gap.none.text)) = .ok v.spelled :=
    read_spaced hstyle hv hdepth ht Gap.none Gap.none
  rwa [Gap.text_none, List.nil_append, List.append_nil] at hspaced

/-! ## What can be written -/

theorem nameOfKey_total {k : Value} (hk : ∃ t, k.spelledKey = .str t)
    (hn : ∀ n, k = .int n → Text.HasDigits n) : ∃ name, nameOfKey style k = .ok name := by
  obtain ⟨t, ht⟩ := hk
  cases k with
  | str s => exact ⟨s, rfl⟩
  | int n => exact ⟨_, intText_eq_ok.2 ⟨hn n rfl, rfl⟩⟩
  | _ => cases ht

/-- A value that a document has a place for has a text when its integers are within the limit and there
is room for its brackets. -/
theorem text_total (v : Value) (depth : Nat) (hv : v.IsPlain) (hn : v.HasDigits)
    (hroom : HasRoom style depth v) : ∃ t, text style depth v = .ok t := by
  induction v using Value.partsInduction generalizing depth with
  | step v ih =>
    have hitems : ∀ x ∈ v.parts, ∃ t, text style (depth + 1) x = .ok t :=
      fun x hx => ih x hx (depth + 1) (hv.inside x hx) (hn.inside x hx) (hroom.part hx)
    cases v with
    | null => exact ⟨_, rfl⟩
    | bool b => cases b <;> exact ⟨_, rfl⟩
    | int n => exact ⟨_, intText_eq_ok.2 ⟨hn.here.1, rfl⟩⟩
    | float x => exact ⟨_, floatText_finite hv.here⟩
    | str s => exact ⟨_, rfl⟩
    | list xs =>
      obtain ⟨ts, hts⟩ : ∃ ts, List.Forall₂ _ ts xs := exists_forall₂ hitems
      exact ⟨_, text_list_eq_ok.2
        ⟨checkDepth_of_room hroom Value.depth_list_pos, ts, itemTexts_eq_ok.2 hts, rfl⟩⟩
    | tuple xs =>
      obtain ⟨ts, hts⟩ : ∃ ts, List.Forall₂ _ ts xs := exists_forall₂ hitems
      exact ⟨_, text_tuple_eq_ok.2
        ⟨checkDepth_of_room hroom Value.depth_tuple_pos, ts, itemTexts_eq_ok.2 hts, rfl⟩⟩
    | dict es =>
      have hmembers : ∀ e ∈ es, ∃ s, WrittenMember style (depth + 1) s e := by
        intro e he
        obtain ⟨name, hname⟩ := nameOfKey_total (hv.here.1 e he) (hn.here.2 e he)
        obtain ⟨shown, hshown⟩ := hitems e.2 (List.mem_map_of_mem he)
        exact ⟨_, name, shown, hname, hshown, rfl⟩
      obtain ⟨ss, hss⟩ := exists_forall₂ hmembers
      exact ⟨_, text_dict_eq_ok.2
        ⟨checkDepth_of_room hroom Value.depth_dict_pos, ss, memberTexts_eq_ok.2 hss, rfl⟩⟩
    | bytes => exact hv.here.elim
    | date => exact hv.here.elim
    | moment => exact hv.here.elim
    | set => exact hv.here.elim

theorem exists_text_of_item {xs : List Value} {ts : List Text}
    (h : itemTexts style depth xs = .ok ts) {x : Value} (hx : x ∈ xs) :
    ∃ t, text style depth x = .ok t := by
  obtain ⟨t, -, ht⟩ := exists_of_forall₂_right (itemTexts_eq_ok.1 h) hx
  exact ⟨t, ht⟩

/-- There was room for the brackets of what has a text. -/
theorem hasRoom_of_text (v : Value) {depth : Nat} {t : Text}
    (hdepth : ∀ n, style.nesting = some n → depth ≤ n) (ht : text style depth v = .ok t) :
    HasRoom style depth v := by
  induction v using Value.partsInduction generalizing depth t with
  | step v ih =>
    intro n hn
    -- inside brackets that may open there is room for one less
    have hparts {m : Nat} (hcheck : style.checkDepth depth = .ok ()) (hm : n = depth + (m + 1))
        (htexts : ∀ x ∈ v.parts, ∃ t, text style (depth + 1) x = .ok t) :
        ∀ x ∈ v.parts, x.depth ≤ m := fun x hx => by
      obtain ⟨t, htext⟩ := htexts x hx
      have hroom := ih x hx (fun k hk => lt_of_checkDepth hcheck hk) htext n hn
      omega
    have hlt (hcheck : style.checkDepth depth = .ok ()) : ∃ m, n = depth + (m + 1) :=
      ⟨n - depth - 1, by have := lt_of_checkDepth hcheck hn; omega⟩
    cases v with
    | list xs =>
      obtain ⟨hcheck, ts, hts, -⟩ := text_list_eq_ok.1 ht
      obtain ⟨m, hm⟩ := hlt hcheck
      have hdeep : (Value.list xs).depth ≤ m + 1 :=
        Value.depth_list_le.2 (hparts hcheck hm fun x hx => exists_text_of_item hts hx)
      omega
    | tuple xs =>
      obtain ⟨hcheck, ts, hts, -⟩ := text_tuple_eq_ok.1 ht
      obtain ⟨m, hm⟩ := hlt hcheck
      have hdeep : (Value.tuple xs).depth ≤ m + 1 :=
        Value.depth_tuple_le.2 (hparts hcheck hm fun x hx => exists_text_of_item hts hx)
      omega
    | dict es =>
      obtain ⟨hcheck, ss, hss, -⟩ := text_dict_eq_ok.1 ht
      obtain ⟨m, hm⟩ := hlt hcheck
      have htexts : ∀ x ∈ (Value.dict es).parts, ∃ t, text style (depth + 1) x = .ok t := by
        intro x hx
        obtain ⟨e, he, rfl⟩ := List.mem_map.1 hx
        obtain ⟨s, -, -, shown, -, hshown, -⟩ := exists_of_forall₂_right (memberTexts_eq_ok.1 hss) he
        exact ⟨shown, hshown⟩
      have hdeep : (Value.dict es).depth ≤ m + 1 :=
        Value.depth_dict_le.2 fun e he => hparts hcheck hm htexts e.2 (List.mem_map_of_mem he)
      omega
    | set xs => cases ht
    | _ => exact hdepth n hn

/-- A result that is there, or is missing for want of room. -/
def OrTooDeep {α : Type} (x : Except Unwritable α) : Prop := (∃ a, x = .ok a) ∨ x = .error .tooDeep

theorem OrTooDeep.bind {α β : Type} {x : Except Unwritable α} {f : α → Except Unwritable β}
    (hx : OrTooDeep x) (hf : ∀ a, OrTooDeep (f a)) : OrTooDeep (x >>= f) := by
  rcases hx with ⟨a, rfl⟩ | rfl
  · exact hf a
  · exact .inr rfl

theorem orTooDeep_pure {α : Type} (a : α) : OrTooDeep (pure a) := .inl ⟨a, rfl⟩

theorem orTooDeep_itemTexts {xs : List Value} (h : ∀ x ∈ xs, OrTooDeep (text style depth x)) :
    OrTooDeep (itemTexts style depth xs) := by
  induction xs with
  | nil => exact .inl ⟨[], rfl⟩
  | cons x xs ih =>
    obtain ⟨hx, hxs⟩ := List.forall_mem_cons.1 h
    rw [itemTexts]
    exact hx.bind fun _ => (ih hxs).bind fun _ => orTooDeep_pure _

theorem orTooDeep_memberTexts {es : Entries}
    (h : ∀ e ∈ es, (∃ name, nameOfKey style e.1 = .ok name) ∧ OrTooDeep (text style depth e.2)) :
    OrTooDeep (memberTexts style depth es) := by
  induction es with
  | nil => exact .inl ⟨[], rfl⟩
  | cons e es ih =>
    obtain ⟨⟨hname, hvalue⟩, hes⟩ := List.forall_mem_cons.1 h
    rw [memberTexts]
    exact OrTooDeep.bind (.inl hname) fun _ => hvalue.bind fun _ =>
      (ih hes).bind fun _ => orTooDeep_pure _

/-- A value that a document has a place for, with integers within the limit, has a text unless its
brackets are too deep. -/
theorem orTooDeep_text (v : Value) (depth : Nat) (hv : v.IsPlain) (hn : v.HasDigits) :
    OrTooDeep (text style depth v) := by
  induction v using Value.partsInduction generalizing depth with
  | step v ih =>
    have hitems : ∀ x ∈ v.parts, OrTooDeep (text style (depth + 1) x) :=
      fun x hx => ih x hx (depth + 1) (hv.inside x hx) (hn.inside x hx)
    have hcheck : OrTooDeep (style.checkDepth depth) :=
      (checkDepth_cases style depth).imp (fun h => ⟨(), h⟩) id
    cases v with
    | null => exact .inl ⟨_, rfl⟩
    | bool b => cases b <;> exact .inl ⟨_, rfl⟩
    | int n => exact .inl ⟨_, intText_eq_ok.2 ⟨hn.here.1, rfl⟩⟩
    | float x => exact .inl ⟨_, floatText_finite hv.here⟩
    | str s => exact .inl ⟨_, rfl⟩
    | list xs =>
      rw [text]
      exact hcheck.bind fun _ => (orTooDeep_itemTexts hitems).bind fun _ => orTooDeep_pure _
    | tuple xs =>
      rw [text]
      exact hcheck.bind fun _ => (orTooDeep_itemTexts hitems).bind fun _ => orTooDeep_pure _
    | dict es =>
      rw [text]
      refine hcheck.bind fun _ => OrTooDeep.bind (orTooDeep_memberTexts fun e he => ?_)
        fun _ => orTooDeep_pure _
      exact ⟨nameOfKey_total (hv.here.1 e he) (hn.here.2 e he),
        hitems e.2 (List.mem_map_of_mem he)⟩
    | bytes => exact hv.here.elim
    | date => exact hv.here.elim
    | moment => exact hv.here.elim
    | set => exact hv.here.elim

/-- Without room for its brackets a value that a document has a place for is refused as too deep. -/
theorem text_of_deep {v : Value} (hv : v.IsPlain) (hn : v.HasDigits)
    (hroom : ¬ HasRoom style 0 v) : write style v = .error .tooDeep := by
  rcases orTooDeep_text v 0 hv hn with ⟨t, ht⟩ | h
  · exact absurd (hasRoom_of_text v (fun n _ => Nat.zero_le n) ht) hroom
  · exact h

end Json

end DocShape
