import DocShape.Document
import DocShape.Proofs.Json.Documents
import DocShape.Proofs.Json.RoundTrip
import DocShape.Reference

/-!
# Reading and writing documents

A text is read if the grammar derives it with all numbers in range and its brackets stand no deeper than
the host allows, and only then, and what is read is what the derivation denotes
(`parseDocument_accepts_derived`). What a document can hold can be written, if it nests no deeper, and is
read again as it was, and nothing else is ever read (`serializeDocument_lossless`).

The stack of the host has to hold more than brackets: reading a number with a fraction, or making the
message of an error, takes some calls inside of them, which the reader does not count. What is said of
reading leaves that much room (`Json.headroom`).
-/

namespace DocShape

/-- How many calls stand inside each other at most where a number is read or an error is made, behind all
brackets. -/
def Json.headroom : Nat := 3

section

variable [Host]

/-- **Documents are strict JSON.** A value that a text is read as is denoted by a tree of the grammar that
derives the text, with white space around it, each number of which is in range and whose brackets stand no
deeper than the host allows. A text that is derived by such a tree is read as the value that the tree
denotes, with headroom above its brackets; one that is derived with deeper brackets than the host allows
is refused as too deep. Any other text is a document that cannot be parsed, unless it is refused as too
deep, and then so many brackets open in it. -/
theorem parseDocument_accepts_derived (t : Text) :
    (∀ v, parseDocument (.str t) = .ok v → ∃ tree : Json.Tree,
      tree.Derives t ∧ tree.InRange ∧ tree.depth ≤ Host.nesting ∧ tree.value = v) ∧
    (∀ tree : Json.Tree, tree.Derives t → tree.InRange →
      (tree.depth + Json.headroom ≤ Host.nesting → parseDocument (.str t) = .ok tree.value) ∧
      (Host.nesting < tree.depth →
        ∃ f, parseDocument (.str t) = .error f ∧ f.className = "RecursionError")) ∧
    ∀ f, parseDocument (.str t) = .error f →
      (f.className = "ParseError" ∧ ¬ ∃ tree : Json.Tree, tree.Derives t ∧ tree.InRange) ∨
      (f.className = "RecursionError" ∧ Host.nesting < Json.openings t + Json.headroom) := by
  refine ⟨fun v hv => ?value, fun tree hderives hrange => ⟨fun hfits => ?fits, fun hdeep => ?deep⟩,
    fun f hf => ?fails⟩
  case value =>
    rw [parseDocument, Except.mapError_eq_ok] at hv
    exact Json.read_eq_ok_iff.1 hv
  case fits =>
    rw [parseDocument, Json.read_of_derives hrange (Nat.le_of_add_right_le hfits) hderives]
    rfl
  case deep =>
    obtain ⟨container, hread⟩ := Json.read_of_deep hrange hdeep hderives
    exact ⟨.unreadable (.tooDeep container), Except.mapError_eq_error.2 ⟨_, hread, rfl⟩, rfl⟩
  case fails =>
    obtain ⟨fault, hread, rfl⟩ := Except.mapError_eq_error.1 hf
    cases fault with
    | tooDeep container => exact .inr ⟨rfl, Nat.lt_add_right _ (Json.openings_of_read hread)⟩
    | _ =>
      refine .inl ⟨rfl, ?_⟩
      rintro ⟨tree, hderives, hrange⟩
      rcases le_or_gt tree.depth Host.nesting with hfits | hdeep
      · cases (Json.read_of_derives hrange hfits hderives).symm.trans hread
      · obtain ⟨container, hrefused⟩ : ∃ container,
            Json.read .strict Host.nesting t = .error (.tooDeep container) :=
          Json.read_of_deep hrange hdeep hderives
        cases hrefused.symm.trans hread

end

/-- Opening brackets and nothing else. -/
def openBrackets (n : Nat) : Text := List.replicate n (.ofChar '[')

namespace Json

variable {dialect : Dialect} {nesting room fuel n offset : Nat}

theorem noGap_openBrackets (n : Nat) : NoGap (openBrackets n) := by
  cases n with
  | zero => exact noGap_nil
  | succ n => exact noGap_cons (by decide) _

/-- Inside a bracket there is room for one less. -/
theorem value_openBrackets_succ {fault : RawFault}
    (h : value dialect room fuel ⟨openBrackets n, offset + 1⟩ = .error fault) :
    value dialect (room + 1) (fuel + 2) ⟨openBrackets (n + 1), offset⟩ = .error fault := by
  have hskip : Input.skipSpace ⟨openBrackets n, offset + 1⟩ = ⟨openBrackets n, offset + 1⟩ :=
    skipSpace_of_noGap (noGap_openBrackets n) (offset + 1)
  have hopen : Input.after? ⟨openBrackets n, offset + 1⟩ (.ofChar ']') = none := by
    cases n with
    | zero => rfl
    | succ n => rfl
  have hitems : items dialect room (fuel + 1) ⟨openBrackets n, offset + 1⟩ = .error fault := by
    rw [(separated_items dialect room).succ, h]
    rfl
  rw [show openBrackets (n + 1) = CodePoint.ofChar '[' :: openBrackets n from rfl, value_array, hskip,
    inBrackets, hopen, hitems]
  rfl

theorem value_openBrackets_of_deep (hroom : room < n) (hfuel : 2 * room < fuel) :
    value dialect room fuel ⟨openBrackets n, offset⟩ = .error (.tooDeep .array) := by
  induction room generalizing n fuel offset with
  | zero =>
    obtain ⟨n, rfl⟩ := Nat.exists_eq_add_one.2 hroom
    obtain ⟨fuel, rfl⟩ := Nat.exists_eq_add_one.2 (Nat.zero_lt_of_lt hfuel)
    rfl
  | succ room ih =>
    obtain ⟨n, rfl⟩ := Nat.exists_eq_add_one.2 (Nat.zero_lt_of_lt hroom)
    obtain ⟨fuel, rfl⟩ := Nat.exists_eq_add_of_le' (show 2 ≤ fuel by omega)
    exact value_openBrackets_succ (ih (by omega) (by omega))

/-- Brackets that only open are no value, however much room there is. -/
theorem exists_value_openBrackets (hfuel : 2 * n ≤ fuel) :
    ∃ fault, value dialect room fuel ⟨openBrackets n, offset⟩ = .error fault := by
  induction n generalizing room fuel offset with
  | zero => cases fuel <;> exact ⟨_, rfl⟩
  | succ n ih =>
    obtain ⟨fuel, rfl⟩ := Nat.exists_eq_add_of_le' (show 2 ≤ fuel by omega)
    cases room with
    | zero => exact ⟨_, rfl⟩
    | succ room =>
      have hfuel : 2 * n ≤ fuel := by omega
      exact (ih hfuel).imp fun fault hfault => value_openBrackets_succ hfault

theorem whole_openBrackets (h : nesting < n) :
    whole dialect nesting (openBrackets n) = .error (.tooDeep .array) := by
  rw [whole, skipSpace_of_noGap (noGap_openBrackets n),
    value_openBrackets_of_deep h (by rw [openBrackets, List.length_replicate]; omega)]
  rfl

theorem read_openBrackets (h : nesting < n) :
    read dialect nesting (openBrackets n) = .error (.tooDeep .array) := by
  have hhead : (openBrackets n).head? ≠ some .byteOrderMark := by
    cases n with
    | zero => nofun
    | succ n => exact fun hbom => absurd (Option.some.inj hbom) (by decide)
  rw [read, if_neg hhead, whole_openBrackets h]
  rfl

theorem not_derives_openBrackets (n : Nat) :
    ¬ ∃ tree : Tree, tree.Derives (openBrackets n) ∧ tree.InRange := by
  rintro ⟨tree, hderives, hrange⟩
  have hwhole : whole .strict tree.depth (openBrackets n) = .ok tree.value :=
    whole_of_derives hrange le_rfl hderives
  have hfuel : 2 * n ≤ 2 * (openBrackets n).length + 1 := by
    rw [openBrackets, List.length_replicate]
    omega
  obtain ⟨fault, hfault⟩ : ∃ fault, value .strict tree.depth _ ⟨openBrackets n, 0⟩ = .error fault :=
    exists_value_openBrackets hfuel
  rw [whole, skipSpace_of_noGap (noGap_openBrackets n), hfault] at hwhole
  cases hwhole

end Json

section

open Reference

/-- A text that cannot be derived, and that is not refused as one that cannot be parsed. -/
theorem parseDocument_escapes_openBrackets :
    (¬ ∃ tree : Json.Tree, tree.Derives (openBrackets 1000) ∧ tree.InRange) ∧
      parseDocument (.str (openBrackets 1000)) = .error (.unreadable (.tooDeep .array)) ∧
      (Failure.unreadable (.tooDeep .array)).className = "RecursionError" := by
  refine ⟨Json.not_derives_openBrackets 1000, ?_, rfl⟩
  rw [parseDocument, Json.read_openBrackets (by decide)]
  rfl

end

/-! ## Writing and reading again -/

/-- Whatever is read, from a text or from bytes, is what a document can hold, with integers that can be
written, and no deeper than the host allows. -/
theorem everywhere_of_parseDocument [Host] {document v : Value} (h : parseDocument document = .ok v) :
    v.Everywhere Value.ReadNode ∧ v.depth ≤ Host.nesting := by
  cases document with
  | str t =>
    rw [parseDocument, Except.mapError_eq_ok] at h
    exact ⟨Json.everywhere_of_read h, Json.depth_of_read h⟩
  | bytes b =>
    rw [parseDocument, Except.mapError_eq_ok, Json.readBytes] at h
    split at h
    · cases h
    · rw [Except.mapError_eq_ok] at h
      exact ⟨Json.everywhere_of_whole h, Json.depth_of_whole h⟩
  | _ => cases h

/-- What a document can hold is written, if it nests no deeper than the host allows, and its text is read
as it. -/
theorem exists_serializeDocument [Host] {v : Value} (h : v.IsDocument) (hd : v.IntDigits)
    (hdepth : v.depth ≤ Host.nesting) :
    ∃ t, serializeDocument v = .ok t ∧ parseDocument (.str t) = .ok v := by
  obtain ⟨t, ht⟩ : ∃ t, Json.write (.compact Host.nesting) v = .ok t :=
    Json.text_total v 0 h.isPlain (h.hasDigits hd) (Json.hasRoom_compact.2 hdepth)
  have hread : Json.read .strict Host.nesting t = .ok v.spelled :=
    Json.read_write rfl h.isPlain hdepth ht
  rw [h.spelled_eq] at hread
  exact ⟨t, Except.mapError_eq_ok.2 ht, Except.mapError_eq_ok.2 hread⟩

/-- What nests deeper is not written. -/
theorem serializeDocument_of_deep [Host] {v : Value} (h : v.IsDocument) (hd : v.IntDigits)
    (hdepth : Host.nesting < v.depth) : serializeDocument v = .error (.unwritable .tooDeep) := by
  rw [serializeDocument, Json.text_of_deep h.isPlain (h.hasDigits hd)
    (Json.hasRoom_compact.not.2 hdepth.not_ge)]
  rfl

/-- Reads a document and writes what was read. -/
def rewriteDocument [Host] (document : Value) : Except Failure Text := do
  serializeDocument (← parseDocument document)

/-- **Documents are kept.** Every value that a document can hold, with its integers within the digit
limit and no deeper than the host allows, has a text, and with headroom that text is read as the same
value; a deeper one has no text. Conversely every value that is read is one of these, so it is written
again, and what is written is its own rewriting. -/
theorem serializeDocument_lossless [Host] :
    (∀ v : Value, v.IsDocument → v.IntDigits → v.depth ≤ Host.nesting →
      ∃ t, serializeDocument v = .ok t ∧
        (v.depth + Json.headroom ≤ Host.nesting → parseDocument (.str t) = .ok v)) ∧
    (∀ v : Value, v.IsDocument → v.IntDigits → Host.nesting < v.depth →
      serializeDocument v = .error (.unwritable .tooDeep)) ∧
    (∀ document v, parseDocument document = .ok v →
      v.IsDocument ∧ v.IntDigits ∧ v.depth ≤ Host.nesting ∧
        ∃ t, serializeDocument v = .ok t ∧ parseDocument (.str t) = .ok v) ∧
    ∀ document t, rewriteDocument document = .ok t → rewriteDocument (.str t) = .ok t := by
  have hread {document v : Value} (h : parseDocument document = .ok v) :
      v.IsDocument ∧ v.IntDigits ∧ v.depth ≤ Host.nesting := by
    obtain ⟨hnodes, hdepth⟩ := everywhere_of_parseDocument h
    exact ⟨hnodes.mono fun _ hv => hv.1, hnodes.mono fun _ hv => hv.2.1, hdepth⟩
  refine ⟨fun v hdocument hdigits hdepth => ?_, fun v => serializeDocument_of_deep,
    fun document v h => ?_, fun document t h => ?_⟩
  · obtain ⟨t, ht, hback⟩ := exists_serializeDocument hdocument hdigits hdepth
    exact ⟨t, ht, fun _ => hback⟩
  · obtain ⟨hdocument, hdigits, hdepth⟩ := hread h
    exact ⟨hdocument, hdigits, hdepth, exists_serializeDocument hdocument hdigits hdepth⟩
  · obtain ⟨v, hv, ht⟩ := Except.bind_eq_ok.1 h
    obtain ⟨hdocument, hdigits, hdepth⟩ := hread hv
    obtain ⟨t', ht', hback⟩ := exists_serializeDocument hdocument hdigits hdepth
    obtain rfl := Except.ok.inj (ht.symm.trans ht')
    exact Except.bind_eq_ok.2 ⟨v, hback, ht⟩

/-- A dictionary of marks: a lone high surrogate with a lone low one behind it, a zero with its sign, and
what strings escape. -/
def marks : Value :=
  .dict [(.str [0xD83D, 0xDE00], .list [.float (.finite true .zero), .int 0, .null]),
    (.str "\"\\\n", .bool true)]

theorem marks_isDocument : marks.IsDocument := by
  refine ⟨⟨?_, by simp [Text.ofString]⟩,
    List.forall_mem_cons.2 ⟨?_, List.forall_mem_singleton.2 (.leaf trivial rfl)⟩⟩
  · exact List.forall_mem_cons.2 ⟨⟨_, rfl⟩, List.forall_mem_singleton.2 ⟨_, rfl⟩⟩
  · exact ⟨trivial, List.forall_mem_cons.2 ⟨.leaf rfl rfl, List.forall_mem_cons.2
      ⟨.leaf trivial rfl, List.forall_mem_singleton.2 (.leaf trivial rfl)⟩⟩⟩

theorem marks_intDigits : marks.IntDigits := by
  have hzero : Text.HasDigits 0 := by decide
  refine ⟨trivial, List.forall_mem_cons.2 ⟨?_, List.forall_mem_singleton.2 (.leaf trivial rfl)⟩⟩
  exact ⟨trivial, List.forall_mem_cons.2 ⟨.leaf trivial rfl, List.forall_mem_cons.2
    ⟨.leaf hzero rfl, List.forall_mem_singleton.2 (.leaf trivial rfl)⟩⟩⟩

section

open Reference

/-- The marks are kept, and a text with blanks and an escape is rewritten once and for all. -/
theorem serializeDocument_lossless_marks :
    marks.IsDocument ∧ marks.IntDigits ∧
      (∃ t, serializeDocument marks = .ok t ∧ parseDocument (.str t) = .ok marks) ∧
      rewriteDocument (.str " [true , \"\\u0041\"] ") = .ok "[true,\"A\"]" ∧
      rewriteDocument (.str "[true,\"A\"]") = .ok "[true,\"A\"]" := by
  have hrewrite : rewriteDocument (.str " [true , \"\\u0041\"] ") = .ok "[true,\"A\"]" := by cbv
  obtain ⟨hwritten, -, -, hagain⟩ := serializeDocument_lossless
  obtain ⟨t, ht, hback⟩ := hwritten marks marks_isDocument marks_intDigits (by decide)
  exact ⟨marks_isDocument, marks_intDigits, ⟨t, ht, hback (by decide)⟩, hrewrite,
    hagain _ _ hrewrite⟩

/-- Lists inside each other. -/
def nestedLists : Nat → Value
  | 0 => .list []
  | n + 1 => .list [nestedLists n]

theorem depth_nestedLists (n : Nat) : (nestedLists n).depth = n + 1 := by
  induction n with
  | zero => rfl
  | succ n ih => rw [nestedLists, Value.depth, Value.itemsDepth, Value.itemsDepth, ih, Nat.max_zero]

theorem everywhere_nestedLists {p : Value → Prop} (h : ∀ xs, p (.list xs)) (n : Nat) :
    (nestedLists n).Everywhere p := by
  induction n with
  | zero => exact .leaf (h _) rfl
  | succ n ih => exact ⟨h _, List.forall_mem_singleton.2 ih⟩

/-- A value that a document can hold, and that cannot be written: its lists are too deep. -/
theorem serializeDocument_escapes_nestedLists :
    (nestedLists 1000).IsDocument ∧ (nestedLists 1000).IntDigits ∧
      serializeDocument (nestedLists 1000) = .error (.unwritable .tooDeep) ∧
      (Failure.unwritable .tooDeep).className = "RecursionError" := by
  have hdocument : (nestedLists 1000).IsDocument := everywhere_nestedLists (fun _ => trivial) 1000
  have hdigits : (nestedLists 1000).IntDigits := everywhere_nestedLists (fun _ => trivial) 1000
  have hdeep : Host.nesting < (nestedLists 1000).depth := by
    rw [depth_nestedLists]
    decide
  exact ⟨hdocument, hdigits, serializeDocument_of_deep hdocument hdigits hdeep, rfl⟩

end

end DocShape
