import DocShape.Proofs.Conversion.Writable
import DocShape.Proofs.Json.RoundTrip
import DocShape.Proofs.Listing.Document
import DocShape.Proofs.Reference
import Mathlib.Computability.RegularExpressions

/-!
# The spelling of integer keys

The texts that a decoder takes for integers are those that `integerKeyPattern` matches in full
(`mem_matches_integerKeyPattern`). Each integer within the digit limit has one of them, the name under which
it is written, and each of them is of one integer (`integerKeys_spelled_once`). So no two keys of a
dictionary become one integer key (`forall₂_keys_savedEntries`, `distinct_savedEntries`).
-/

namespace DocShape

/-! ## The pattern of integer keys -/

section Pattern

open RegularExpression Computability

/-- One of some characters. -/
def oneOf : Text → RegularExpression CodePoint
  | [] => 0
  | c :: cs => char c + oneOf cs

/-- Zero, or an optional minus, a digit other than zero and any digits: `0|-?[1-9][0-9]*`. -/
def integerKeyPattern : RegularExpression CodePoint :=
  char (CodePoint.ofChar '0') + (1 + char (CodePoint.ofChar '-')) * (oneOf "123456789" * star (oneOf "0123456789"))

theorem mem_matches_oneOf {cs t : Text} : t ∈ (oneOf cs).matches' ↔ ∃ c ∈ cs, t = [c] := by
  induction cs with
  | nil => exact ⟨fun h => h.elim, fun ⟨_, hc, _⟩ => by cases hc⟩
  | cons c cs ih =>
    rw [oneOf, matches'_add, Language.mem_add, ih, matches'_char]
    simp only [List.mem_cons, exists_eq_or_imp]
    rfl

theorem mem_matches_star_oneOf {cs t : Text} :
    t ∈ (star (oneOf cs)).matches' ↔ ∀ c ∈ t, c ∈ cs := by
  rw [matches'_star, Language.mem_kstar]
  constructor
  · rintro ⟨parts, rfl, hparts⟩ c hc
    obtain ⟨part, hpart, hc⟩ := List.mem_flatten.1 hc
    obtain ⟨d, hd, rfl⟩ := mem_matches_oneOf.1 (hparts part hpart)
    rwa [List.mem_singleton.1 hc]
  · intro h
    have hflatten : t = (t.map fun c => [c]).flatten := (List.flatMap_singleton' t).symm
    refine ⟨t.map fun c => [c], hflatten, List.forall_mem_map.2 fun c hc => ?_⟩
    exact mem_matches_oneOf.2 ⟨c, h c hc, rfl⟩

theorem CodePoint.mem_digits {c : CodePoint} :
    c ∈ Text.ofString "0123456789" ↔ c.isDigit = true := by
  constructor
  · have hall : (Text.ofString "0123456789").all CodePoint.isDigit = true := by decide
    exact List.all_eq_true.1 hall c
  · intro h
    have hall : ∀ d < 10, CodePoint.ofChar (Nat.digitChar d) ∈ Text.ofString "0123456789" := by
      decide
    rw [← digitChar_digitValue h]
    exact hall _ (digitValue_lt h)

theorem CodePoint.mem_nonzeroDigits {c : CodePoint} :
    c ∈ Text.ofString "123456789" ↔ c.isDigit = true ∧ c ≠ CodePoint.ofChar '0' := by
  have hcons : Text.ofString "0123456789" = CodePoint.ofChar '0' :: Text.ofString "123456789" := rfl
  rw [← mem_digits, hcons, List.mem_cons]
  constructor
  · intro h
    refine ⟨.inr h, ?_⟩
    rintro rfl
    exact absurd h (by decide)
  · rintro ⟨rfl | h, hne⟩
    · exact absurd rfl hne
    · exact h

/-- A numeral other than zero, as the pattern has it. -/
theorem mem_matches_nonzero {t : Text} :
    t ∈ (oneOf "123456789" * star (oneOf "0123456789")).matches' ↔
      t.IsNumeral ∧ t.head? ≠ some (CodePoint.ofChar '0') := by
  simp only [matches'_mul, Language.mem_mul, mem_matches_oneOf, mem_matches_star_oneOf,
    CodePoint.mem_digits, CodePoint.mem_nonzeroDigits]
  constructor
  · rintro ⟨_, ⟨c, ⟨hc, hne⟩, rfl⟩, ds, hds, rfl⟩
    have hhead : (c :: ds).head? ≠ some (CodePoint.ofChar '0') := fun h => hne (Option.some.inj h)
    exact ⟨⟨List.cons_ne_nil c ds, List.forall_mem_cons.2 ⟨hc, hds⟩, fun h => absurd h hhead⟩, hhead⟩
  · rintro ⟨hnumeral, hhead⟩
    obtain ⟨c, ds, rfl⟩ := List.exists_cons_of_ne_nil hnumeral.nonempty
    obtain ⟨hc, hds⟩ := List.forall_mem_cons.1 hnumeral.digits
    exact ⟨[c], ⟨c, ⟨hc, fun h => hhead (congrArg some h)⟩, rfl⟩, ds, hds, rfl⟩

/-- A text is a canonical integer when the pattern matches all of it. -/
theorem mem_matches_integerKeyPattern {t : Text} :
    t ∈ integerKeyPattern.matches' ↔ Direction.isCanonicalInteger t = true := by
  rw [integerKeyPattern, matches'_add, Language.mem_add, matches'_char, matches'_mul,
    Language.mem_mul]
  simp only [mem_matches_nonzero]
  constructor
  · rintro (rfl | ⟨sign, hsign | rfl, u, ⟨hnumeral, hhead⟩, rfl⟩)
    · decide
    · obtain rfl : sign = [] := hsign
      exact (Direction.isCanonicalInteger_of_plain hnumeral.head?_ne_minus).2 hnumeral
    · exact (Direction.isCanonicalInteger_of_minus u).2 ⟨hnumeral, hhead⟩
  · intro h
    by_cases hminus : t.head? = some (CodePoint.ofChar '-')
    · obtain ⟨ds, rfl⟩ := List.head?_eq_some_iff.1 hminus
      exact .inr ⟨_, .inr rfl, ds, (Direction.isCanonicalInteger_of_minus ds).1 h, rfl⟩
    · have hnumeral := (Direction.isCanonicalInteger_of_plain hminus).1 h
      by_cases hzero : t.head? = some (CodePoint.ofChar '0')
      · obtain ⟨c, rfl⟩ := List.length_eq_one_iff.1 (hnumeral.noLeadingZero hzero)
        exact .inl (congrArg (fun c => [c]) (Option.some.inj hzero))
      · exact .inr ⟨[], .inl rfl, t, ⟨hnumeral, hzero⟩, rfl⟩

end Pattern

/-! ## One spelling for each integer -/

namespace Direction

/-- A text is read as an integer key. -/
def ReadsKey (k : Text) (n : Int) : Prop :=
  ∃ shown, decoding.integerKey? (.str k) = some (.ok (.int n, shown))

variable {k : Text} {n : Int} {f : Failure}

theorem readsKey_iff : ReadsKey k n ↔ Text.HasDigits n ∧ k = Text.ofInt n := by
  constructor
  · rintro ⟨shown, h⟩
    obtain ⟨m, hm, hdigits, hmn, -⟩ := exists_int_of_integerKey?_ok h
    obtain rfl := Value.int.inj hmn
    cases hm
    exact ⟨hdigits, rfl⟩
  · rintro ⟨hdigits, rfl⟩
    exact ⟨_, integerKey?_ofInt hdigits⟩

theorem integerKey?_eq_none_iff :
    decoding.integerKey? (.str k) = none ↔ k ∉ integerKeyPattern.matches' := by
  rw [mem_matches_integerKeyPattern, integerKey?]
  by_cases h : isCanonicalInteger k = true <;> simp [h]

theorem integerKey?_eq_error_iff : decoding.integerKey? (.str k) = some (.error f) ↔
    ∃ n, ¬ Text.HasDigits n ∧ k = Text.ofInt n ∧ f = .longKey (Text.ofNat n.natAbs).length := by
  constructor
  · intro h
    cases key?_eq_error_iff.1 (show decoding.key? .integer (.str k) = _ from h) with
    | @spelled n hlong => exact ⟨n, hlong, rfl, rfl⟩
  · rintro ⟨n, hlong, rfl, rfl⟩
    exact integerKey?_ofInt_long hlong

end Direction

/-! ## Keys never merge -/

/-- A text is read as some integer key. -/
def Direction.isIntegerKey (k : Value) : Bool :=
  match decoding.integerKey? k with
  | some (.ok _) => true
  | _ => false

/-- An entry whose key is a text, and the one that has the integer for a key as which the text is read. -/
def Entries.KeyRead (e e' : Value × Value) : Prop :=
  ∃ k n, e.1 = .str k ∧ Direction.ReadsKey k n ∧ e'.1 = .int n

/-- What is made of the elements for which something is made stands in their order. -/
theorem forall₂_filter_filterMap {α β : Type} {R : α → β → Prop} {f : α → Option β} {p : α → Bool}
    (hp : ∀ a, p a = (f a).isSome) (hR : ∀ a b, f a = some b → R a b) (as : List α) :
    List.Forall₂ R (as.filter p) (as.filterMap f) := by
  induction as with
  | nil => exact .nil
  | cons a as ih =>
    cases hf : f a with
    | none => rwa [List.filterMap_cons_none hf, List.filter_cons_of_neg (by simp [hp, hf])]
    | some b =>
      rw [List.filterMap_cons_some hf, List.filter_cons_of_pos (by simp [hp, hf])]
      exact .cons (hR a b hf) ih

namespace Block

variable {value : Block} {es : Entries}

/-- The entries that are saved are, one by one, those whose keys are read as integers. -/
theorem forall₂_keyRead [Host] :
    List.Forall₂ Entries.KeyRead (es.filter fun e => Direction.isIntegerKey e.1)
      (es.filterMap (savedPair? .decoding .integer value)) := by
  refine forall₂_filter_filterMap (fun e => ?_) (fun e e' h => ?_) es
  · rw [Direction.isIntegerKey, savedPair?, Direction.key?]
    cases Direction.decoding.integerKey? e.1 with
    | none => rfl
    | some r => cases r <;> rfl
  · obtain ⟨shown, hkey, -⟩ := savedPair?_eq_some.1 h
    obtain ⟨n, hn, hdigits, hint, -⟩ := Direction.exists_int_of_integerKey?_ok hkey
    obtain ⟨k, v⟩ := e
    cases hn with
    | spelled => exact ⟨_, n, rfl, Direction.readsKey_iff.2 ⟨hdigits, rfl⟩, hint⟩

theorem distinct_savedEntries [Host] {d : Direction} {kind : KeyKind} (hes : es.Distinct) :
    Entries.Distinct (es.filterMap (savedPair? d kind value)) := by
  have hnode : (Value.dict (es.filterMap (savedPair? d kind value))).SavedNode := by
    refine ⟨fun e' he' => ?_, nodup_savedEntries hes⟩
    obtain ⟨e, -, hsaved⟩ := List.mem_filterMap.1 he'
    obtain ⟨shown, hkey, -⟩ := savedPair?_eq_some.1 hsaved
    exact (Direction.spelledKey_of_key? hkey).2
  exact hnode.keyedNode

/-- An object with integer keys keeps them apart. -/
theorem run_keepsKeysApart [Host] (h : Header) (value : Block) (length : Setting LengthRule)
    (path : Path) {es : Entries} (hes : es.Distinct) {o : Outcome (Option Value)}
    (ho : (Convert.block .decoding path (object h .integer value length) (.dict es)).run
      .collectAll = .ok o) : ∃ es' : Entries,
      o.value = some (.dict es') ∧
      List.Forall₂ Entries.KeyRead (es.filter fun e => Direction.isIntegerKey e.1) es' ∧
      es'.Distinct := by
  refine ⟨es.filterMap (savedPair? .decoding .integer value), ?_, forall₂_keyRead,
    distinct_savedEntries hes⟩
  rw [Convert.value_of_run ho, value_convert, saved_object]

end Block

/-- **Integer keys have exactly one spelling.** A decoder reads a text as an integer within the digit limit
exactly if the text is the name under which the integer is written as a key. The texts that it takes for
integers are those that `0|-?[1-9][0-9]*` matches in full, and these are the texts of all integers; it gives
nothing for any other text, and it refuses an integer beyond the digit limit. No two texts are read as one
integer. So along an object with integer keys the entries of a dictionary with such keys are kept one by one,
with keys that are distinct. -/
theorem integerKeys_spelled_once [Host] :
    (∀ (k : Text) (n : Int), Text.HasDigits n →
      (Direction.ReadsKey k n ↔ Json.nameOfKey (.compact Host.nesting) (.int n) = .ok k)) ∧
    (∀ k : Text, Direction.decoding.integerKey? (.str k) = none ↔ k ∉ integerKeyPattern.matches') ∧
    (∀ k : Text, k ∈ integerKeyPattern.matches' ↔ ∃ n, k = Text.ofInt n) ∧
    (∀ (k : Text) (f : Failure), Direction.decoding.integerKey? (.str k) = some (.error f) ↔
      ∃ n, ¬ Text.HasDigits n ∧ k = Text.ofInt n ∧ f = .longKey (Text.ofNat n.natAbs).length) ∧
    (∀ (s t : Text) (n : Int), Direction.ReadsKey s n → Direction.ReadsKey t n → s = t) ∧
    ∀ (h : Header) (value : Block) (length : Setting LengthRule) (path : Path) (es : Entries),
      es.Distinct → ∀ o,
      (Convert.block .decoding path (.object h .integer value length) (.dict es)).run .collectAll =
        .ok o → ∃ es' : Entries,
        o.value = some (.dict es') ∧
        List.Forall₂ Entries.KeyRead (es.filter fun e => Direction.isIntegerKey e.1) es' ∧ es'.Distinct := by
  refine ⟨fun k n hdigits => ?_, fun k => Direction.integerKey?_eq_none_iff, fun k => ?_,
    fun k f => Direction.integerKey?_eq_error_iff, fun s t n hs ht => ?_,
    fun h value length path es hes o ho => Block.run_keepsKeysApart h value length path hes ho⟩
  · rw [Direction.readsKey_iff]
    exact Json.intText_eq_ok.symm
  · rw [mem_matches_integerKeyPattern, Direction.isCanonicalInteger_iff]
  · rw [(Direction.readsKey_iff.1 hs).2, (Direction.readsKey_iff.1 ht).2]

/-- A plus, a leading zero, a minus before zero, an exponent, white space and digits of another script spell
no integer key. -/
example : (["", "+1", "01", "-0", "1e3", " 1", "1\n", "-", "1.0", "٣"].all fun k =>
    !Direction.isCanonicalInteger (Text.ofString k)) = true := by decide

section

open Reference

/-- A negative key is read as it is written, and beside it seven with and without a zero in front stay
apart. -/
theorem integerKeys_spelled_once_negative :
    (Text.HasDigits (-120) ∧ Direction.ReadsKey "-120" (-120)) ∧
    Entries.Distinct [(.str "-120", .null), (.str "07", .null), (.str "7", .null)] ∧
    ∃ o, ∃ es' : Entries, (Convert.block .decoding [] (.object ⟨.absent, .absent, none⟩ .integer
        (.flag ⟨.absent, .absent, some true⟩) .absent)
        (.dict [(.str "-120", .null), (.str "07", .null), (.str "7", .null)])).run .collectAll = .ok o ∧
      o.value = some (.dict es') ∧ es'.Distinct := by
  have hdigits : Text.HasDigits (-120) := by decide
  have hapart : Entries.Distinct [(.str "-120", .null), (.str "07", .null), (.str "7", .null)] := by
    simp [Entries.Distinct]
    decide
  obtain ⟨hreads, -, -, -, -, hkeeps⟩ := integerKeys_spelled_once
  have hrun : (Convert.block .decoding [] (.object ⟨.absent, .absent, none⟩ .integer
      (.flag ⟨.absent, .absent, some true⟩) .absent)
      (.dict [(.str "-120", .null), (.str "07", .null), (.str "7", .null)])).run .collectAll =
      .ok ⟨some (.dict [(.int (-120), .null), (.int 7, .null)]), [.mismatch [] (.badKey 1 .integer)], []⟩ :=
    rfl
  obtain ⟨es', hes', -, hdistinct⟩ := hkeeps ⟨.absent, .absent, none⟩
    (.flag ⟨.absent, .absent, some true⟩) .absent [] _ hapart _ hrun
  exact ⟨⟨hdigits, (hreads "-120" (-120) hdigits).2 rfl⟩, hapart, _, es', hrun, hes', hdistinct⟩

end

end DocShape
