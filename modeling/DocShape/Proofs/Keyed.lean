import DocShape.Json.Reader
import DocShape.Proofs.Json.Reading

/-!
# Dictionaries that are read

Whatever is read from JSON has no dictionary with a key twice (`Json.keyed_read`). A reader puts the
entries of a dictionary in one by one (`Entries.putBy`), so that a key that is there already only gets
another value.
-/

namespace DocShape

/-- What a step results in, if it succeeds. -/
def Yields {ε α : Type} (p : α → Prop) (x : Except ε α) : Prop := ∀ a, x = .ok a → p a

namespace Yields

variable {ε δ α β : Type} {p : α → Prop} {q : β → Prop} {x : Except ε α}

theorem ok {a : α} (h : p a) : Yields p (.ok a : Except ε α) := fun _ hb => Except.ok.inj hb ▸ h

theorem error (e : ε) : Yields p (.error e) := fun _ h => by cases h

theorem anything (x : Except ε α) : Yields (fun _ => True) x := fun _ _ => trivial

theorem map {f : α → β} (h : Yields p x) (hf : ∀ a, p a → q (f a)) : Yields q (x.map f) := by
  cases x with
  | error e => exact .error e
  | ok a => exact .ok (hf a (h a rfl))

theorem bind {f : α → Except ε β} (h : Yields p x) (hf : ∀ a, p a → Yields q (f a)) :
    Yields q (x >>= f) := by
  cases x with
  | error e => exact .error e
  | ok a => exact hf a (h a rfl)

theorem mapError (g : ε → δ) (h : Yields p x) : Yields p (x.mapError g) := by
  cases x with
  | error e => exact .error _
  | ok a => exact .ok (h a rfl)

theorem mapM {f : α → Except ε β} {as : List α} (h : ∀ a ∈ as, Yields q (f a)) :
    Yields (fun bs => ∀ b ∈ bs, q b) (as.mapM f) := by
  induction as with
  | nil => exact .ok fun b hb => absurd hb List.not_mem_nil
  | cons a as ih =>
    obtain ⟨ha, has⟩ := List.forall_mem_cons.1 h
    rw [List.mapM_cons]
    exact ha.bind fun b hb => (ih has).bind fun bs hbs => .ok (List.forall_mem_cons.2 ⟨hb, hbs⟩)

end Yields

/-! ## Entries that are put in -/

namespace Entries

/-- Sets the value of a key, given which keys are the same. -/
def putBy (same : Value → Value → Bool) (key value : Value) : Entries → Entries
  | [] => [(key, value)]
  | (k, v) :: rest =>
    if same k key then (k, value) :: rest else (k, v) :: putBy same key value rest

/-- No key stands twice, nor in what stands inside. -/
def IsKeyed (es : Entries) : Prop := es.Distinct ∧ ∀ e ∈ es, e.1.Keyed ∧ e.2.Keyed

variable {same : Value → Value → Bool} {key value : Value} {es : Entries}

theorem IsKeyed.keyed_dict (h : es.IsKeyed) : (Value.dict es).Keyed :=
  Value.Keyed.dict_iff.2 ⟨h.1, fun e he => (h.2 e he).2⟩

theorem mem_putBy {e : Value × Value} (h : e ∈ putBy same key value es) :
    (e.1 = key ∨ ∃ e' ∈ es, e.1 = e'.1) ∧ (e.2 = value ∨ ∃ e' ∈ es, e.2 = e'.2) := by
  induction es with
  | nil =>
    rw [putBy, List.mem_singleton] at h
    subst h
    exact ⟨.inl rfl, .inl rfl⟩
  | cons a es ih =>
    rw [putBy] at h
    split at h
    · rcases List.mem_cons.1 h with rfl | h
      · exact ⟨.inr ⟨a, List.mem_cons_self, rfl⟩, .inl rfl⟩
      · exact ⟨.inr ⟨e, List.mem_cons_of_mem _ h, rfl⟩, .inr ⟨e, List.mem_cons_of_mem _ h, rfl⟩⟩
    · rcases List.mem_cons.1 h with rfl | h
      · exact ⟨.inr ⟨_, List.mem_cons_self, rfl⟩, .inr ⟨_, List.mem_cons_self, rfl⟩⟩
      · have hlater {R : Value × Value → Prop} : (∃ e' ∈ es, R e') → ∃ e' ∈ a :: es, R e' :=
          fun ⟨e', he', hR⟩ => ⟨e', List.mem_cons_of_mem _ he', hR⟩
        exact ⟨(ih h).1.imp_right hlater, (ih h).2.imp_right hlater⟩

theorem distinct_putBy (hsame : ∀ a b, same a b = false → a.equals b = false) (hes : es.Distinct) :
    (putBy same key value es).Distinct := by
  induction es with
  | nil => exact List.pairwise_singleton _ _
  | cons a es ih =>
    obtain ⟨ha, hrest⟩ := List.pairwise_cons.1 hes
    rw [putBy]
    split
    · exact List.pairwise_cons.2 ⟨ha, hrest⟩
    · next hne =>
      refine List.pairwise_cons.2 ⟨fun e he => ?_, ih hrest⟩
      rcases (mem_putBy he).1 with hkey | ⟨e', he', hkey⟩
      · rw [hkey]
        exact hsame _ _ (Bool.eq_false_iff.2 hne)
      · rw [hkey]
        exact ha e' he'

theorem IsKeyed.putBy (hsame : ∀ a b, same a b = false → a.equals b = false) (hes : es.IsKeyed)
    (hkey : key.Keyed) (hvalue : value.Keyed) : (putBy same key value es).IsKeyed := by
  refine ⟨distinct_putBy hsame hes.1, fun e he => ?_⟩
  obtain ⟨hk, hv⟩ := mem_putBy he
  constructor
  · rcases hk with hk | ⟨e', he', hk⟩ <;> rw [hk]
    exacts [hkey, (hes.2 e' he').1]
  · rcases hv with hv | ⟨e', he', hv⟩ <;> rw [hv]
    exacts [hvalue, (hes.2 e' he').2]

/-- Whatever pairs are put in, what comes of it is a dictionary. -/
theorem isKeyed_foldl (hsame : ∀ a b, same a b = false → a.equals b = false) (hes : es.IsKeyed)
    {ps : List (Value × Value)} (hps : ∀ p ∈ ps, p.1.Keyed ∧ p.2.Keyed) :
    (ps.foldl (fun dict p => putBy same p.1 p.2 dict) es).IsKeyed := by
  induction ps generalizing es with
  | nil => exact hes
  | cons p ps ih =>
    obtain ⟨hp, hps⟩ := List.forall_mem_cons.1 hps
    exact ih (hes.putBy hsame hp.1 hp.2) hps

theorem isKeyed_nil : IsKeyed [] := ⟨.nil, fun _ h => absurd h List.not_mem_nil⟩

theorem put_eq (key value : Value) (es : Entries) :
    put key value es = putBy Value.equals key value es := by
  induction es with
  | nil => rfl
  | cons e es ih => rw [put, putBy, ih]

theorem isKeyed_ofList {ps : List (Value × Value)} (hps : ∀ p ∈ ps, p.1.Keyed ∧ p.2.Keyed) :
    (ofList ps).IsKeyed := by
  have h := isKeyed_foldl (fun a b (h : a.equals b = false) => h) isKeyed_nil hps
  simpa only [ofList, put_eq] using h

end Entries

/-! ## JSON -/

namespace Json

section Lists

variable {β : Type} {closing : CodePoint} {one : Nat → Input → Except RawFault (β × Input)}
  {list : Nat → Input → Except RawFault (List β × Input)}

theorem Separated.yields (h : Separated closing one list) {p : β → Prop} {fuel : Nat}
    (hone : ∀ f < fuel, ∀ i, Yields (fun r => p r.1) (one f i)) (i : Input) :
    Yields (fun r => ∀ b ∈ r.1, p b) (list fuel i) := by
  induction fuel generalizing i with
  | zero =>
    obtain ⟨problem, hzero⟩ := h.zero i
    rw [hzero]
    exact .error _
  | succ fuel ih =>
    have hmore (b : β) (hb : p b) (i : Input) :
        Yields (fun r => ∀ b ∈ r.1, p b) (listAfter closing (list fuel) b i) := by
      rw [listAfter]
      split
      · exact .ok (List.forall_mem_singleton.2 hb)
      · split
        · exact .error _
        · exact (ih (fun f hf => hone f (Nat.lt_succ_of_lt hf)) _).bind fun r hr =>
            .ok (List.forall_mem_cons.2 ⟨hb, hr⟩)
    rw [h.succ]
    exact (hone fuel (Nat.lt_succ_self _) i).bind fun r hr => hmore r.1 hr _

theorem Separated.yields_inBrackets (h : Separated closing one list) {p : β → Prop} {q : Value → Prop}
    {build : List β → Value} (hbuild : ∀ bs, (∀ b ∈ bs, p b) → q (build bs)) {fuel : Nat}
    (hone : ∀ f < fuel, ∀ i, Yields (fun r => p r.1) (one f i)) (i : Input) :
    Yields (fun r => q r.1) (inBrackets closing build (list fuel) i) := by
  rw [inBrackets]
  split
  · exact .ok (hbuild [] fun _ hb => absurd hb List.not_mem_nil)
  · exact (h.yields hone i).bind fun r hr => .ok (hbuild r.1 hr)

end Lists

variable {dialect : Dialect}

theorem keyed_number (p : NumberParts) : Yields Value.Keyed (p.value dialect) := by
  unfold NumberParts.value
  split
  · split
    · exact .ok (.of_int _)
    · exact .error _
  · split
    · exact .error _
    · split
      · exact .error _
      · exact .ok (.of_float _)

theorem keyed_scalar (i : Input) : Yields (fun r => r.1.Keyed) (scalar dialect i) := by
  have hwords : ∀ w ∈ words, w.2.Keyed := by
    simp only [words, List.forall_mem_cons]
    exact ⟨.leaf trivial rfl, .of_bool _, .of_bool _, .of_float _, .of_float _, .of_float _,
      fun _ h => absurd h List.not_mem_nil⟩
  unfold scalar
  split
  · next word v hfind =>
    split
    · exact .error _
    · exact .ok (hwords _ (List.mem_of_find?_eq_some hfind))
  · split
    · exact .error _
    · exact (keyed_number _).bind fun v hv => .ok hv

theorem keyed_member {room fuel : Nat}
    (hvalue : ∀ i, Yields (fun r => r.1.Keyed) (value dialect room fuel i)) (i : Input) :
    Yields (fun r => r.1.1.Keyed ∧ r.1.2.Keyed) (member dialect room fuel i) := by
  unfold member
  split
  · exact .error _
  · refine (Yields.anything _).bind fun r _ => ?_
    dsimp only
    split
    · exact .error _
    · exact (hvalue _).bind fun r hr => .ok ⟨.of_str _, hr⟩

/-- What is read has no dictionary with a key twice, in either dialect. -/
theorem keyed_value (room fuel : Nat) (i : Input) :
    Yields (fun r => r.1.Keyed) (value dialect room fuel i) := by
  induction fuel using Nat.strongRecOn generalizing room i with
  | ind fuel ih =>
    cases fuel with
    | zero => exact .error _
    | succ fuel =>
      -- elements in brackets are read with less fuel, and with less room
      have hvalue (room : Nat) : ∀ f < fuel, ∀ i, Yields (fun r => r.1.Keyed) (value dialect room f i) :=
        fun f hf i => ih f (Nat.lt_succ_of_lt hf) room i
      obtain ⟨rest, offset⟩ := i
      cases rest with
      | nil =>
        rw [value_nil]
        exact .error _
      | cons c t =>
        by_cases hquote : c = CodePoint.ofChar '"'
        · subst hquote
          rw [value_quote]
          exact (Yields.anything _).bind fun r _ => .ok (.of_str _)
        by_cases hbracket : c = CodePoint.ofChar '['
        · subst hbracket
          cases room with
          | zero => exact .error _
          | succ room =>
            rw [value_array]
            exact (separated_items dialect room).yields_inBrackets
              (fun _ hxs => Value.Keyed.list_iff.2 hxs) (hvalue room) _
        by_cases hbrace : c = CodePoint.ofChar '{'
        · subst hbrace
          cases room with
          | zero => exact .error _
          | succ room =>
            rw [value_object]
            exact (separated_members dialect room).yields_inBrackets
              (fun _ hes => (Entries.isKeyed_ofList hes).keyed_dict)
              (fun f hf => keyed_member (hvalue room f hf)) _
        rw [value_other hquote hbracket hbrace]
        exact keyed_scalar _

theorem keyed_read (nesting : Nat) (t : Text) : Yields Value.Keyed (read dialect nesting t) := by
  rw [read]
  split
  · exact .error _
  · refine Yields.mapError _ ((keyed_value _ _ _).bind fun r hr => ?_)
    dsimp only
    split
    · exact .ok hr
    · exact .error _

end Json

end DocShape
