import Mathlib.Algebra.Ring.Nat
import Mathlib.Data.List.Forall2
import Mathlib.Data.List.Induction
import Mathlib.Data.List.Permutation
import Mathlib.Data.List.Zip

/-!
# Results and lists

What the library lacks on results that may fail and on lists whose elements correspond.
-/

namespace DocShape

/-- A sequence of two steps succeeds when the first does and the second does on its result. -/
theorem Except.bind_eq_ok {ε α β : Type} {x : Except ε α} {f : α → Except ε β} {b : β} :
    (x >>= f) = .ok b ↔ ∃ a, x = .ok a ∧ f a = .ok b := by
  constructor
  · intro h
    cases x with
    | error e => cases h
    | ok a => exact ⟨a, rfl, h⟩
  · rintro ⟨a, rfl, h⟩
    exact h

/-- A step that gives nothing, and then another. -/
theorem Except.andThen_eq_ok {ε α : Type} {x : Except ε Unit} {y : Except ε α} {a : α} :
    (x >>= fun _ => y) = .ok a ↔ x = .ok () ∧ y = .ok a := by
  rw [Except.bind_eq_ok]
  exact ⟨fun ⟨_, hx, hy⟩ => ⟨hx, hy⟩, fun ⟨hx, hy⟩ => ⟨(), hx, hy⟩⟩

/-- A sequence of two steps fails when the first does, or the second on its result. -/
theorem Except.bind_eq_error {ε α β : Type} {x : Except ε α} {f : α → Except ε β} {e : ε} :
    (x >>= f) = .error e ↔ x = .error e ∨ ∃ a, x = .ok a ∧ f a = .error e := by
  cases x with
  | error e' =>
    refine ⟨fun h => .inl (congrArg _ (Except.error.inj h)), ?_⟩
    rintro (h | ⟨a, h, -⟩)
    · exact congrArg _ (Except.error.inj h)
    · cases h
  | ok a =>
    refine ⟨fun h => .inr ⟨a, rfl, h⟩, ?_⟩
    rintro (h | ⟨b, h, hf⟩)
    · cases h
    · rwa [Except.ok.inj h]

theorem Except.mapError_eq_ok {ε δ α : Type} {x : Except ε α} {g : ε → δ} {a : α} :
    x.mapError g = .ok a ↔ x = .ok a := by
  cases x with
  | error e => exact iff_of_false nofun nofun
  | ok b => exact ⟨fun h => congrArg _ (Except.ok.inj h), fun h => congrArg _ (Except.ok.inj h)⟩

theorem Except.mapError_eq_error {ε δ α : Type} {x : Except ε α} {g : ε → δ} {d : δ} :
    x.mapError g = .error d ↔ ∃ e, x = .error e ∧ g e = d := by
  cases x with
  | error e =>
    constructor
    · intro h
      exact ⟨e, rfl, Except.error.inj h⟩
    · rintro ⟨e', he, rfl⟩
      rw [Except.error.inj he]
      rfl
  | ok b => exact iff_of_false nofun (by rintro ⟨e, he, -⟩; cases he)

/-- Steps that fail for one reason, or succeed with results in a relation. -/
inductive Agree {ε α β : Type} (R : α → β → Prop) : Except ε α → Except ε β → Prop
  | error (e : ε) : Agree R (.error e) (.error e)
  | ok {a : α} {b : β} (h : R a b) : Agree R (.ok a) (.ok b)

namespace Agree

variable {ε α β γ δ : Type} {R : α → β → Prop} {S : γ → δ → Prop} {x : Except ε α} {y : Except ε β}

theorem bind {f : α → Except ε γ} {g : β → Except ε δ} (h : Agree R x y)
    (hfg : ∀ a b, R a b → Agree S (f a) (g b)) : Agree S (x >>= f) (y >>= g) := by
  cases h with
  | error e => exact .error e
  | ok h => exact hfg _ _ h

/-- What comes before is the same. -/
theorem bind_same {x : Except ε α} {f : α → Except ε γ} {g : α → Except ε δ}
    (h : ∀ a, Agree S (f a) (g a)) : Agree S (x >>= f) (x >>= g) := by
  cases x with
  | error e => exact .error e
  | ok a => exact h a

theorem of_eq {x y : Except ε α} {R : α → α → Prop} (hR : ∀ a, R a a) (h : x = y) : Agree R x y := by
  subst h
  cases x with
  | error e => exact .error e
  | ok a => exact .ok (hR a)

theorem eq {x y : Except ε α} (h : Agree Eq x y) : x = y := by
  cases h with
  | error e => rfl
  | ok h => rw [h]

theorem mapError (g : ε → δ) (h : Agree R x y) : Agree R (x.mapError g) (y.mapError g) := by
  cases h with
  | error e => exact .error (g e)
  | ok h => exact .ok h

theorem with_results (h : Agree R x y) : Agree (fun a b => R a b ∧ x = .ok a ∧ y = .ok b) x y := by
  cases h with
  | error e => exact .error e
  | ok h => exact .ok ⟨h, rfl, rfl⟩

theorem symm (h : Agree R x y) : Agree (fun b a => R a b) y x := by
  cases h with
  | error e => exact .error e
  | ok h => exact .ok h

theorem trans {T : β → γ → Prop} {U : α → γ → Prop} {z : Except ε γ} (h : Agree R x y)
    (h' : Agree T y z) (hU : ∀ a b c, R a b → T b c → U a c) : Agree U x z := by
  cases h with
  | error e =>
    cases h' with
    | error _ => exact .error e
  | ok h =>
    cases h' with
    | ok h' => exact .ok (hU _ _ _ h h')

theorem mono {R' : α → β → Prop} (h : Agree R x y) (hR : ∀ a b, R a b → R' a b) : Agree R' x y := by
  cases h with
  | error e => exact .error e
  | ok h => exact .ok (hR _ _ h)

theorem map_toOption {f : α → γ} {g : β → γ} (h : Agree (fun a b => f a = g b) x y) :
    x.toOption.map f = y.toOption.map g := by
  cases h with
  | error e => rfl
  | ok h => exact congrArg some h

end Agree

theorem forall₂_of_mem {α β : Type} {R S : α → β → Prop} {as : List α} {bs : List β}
    (h : List.Forall₂ R as bs) (hi : ∀ b ∈ bs, ∀ a, R a b → S a b) : List.Forall₂ S as bs := by
  induction h with
  | nil => exact .nil
  | cons h _ ih =>
    exact .cons (hi _ List.mem_cons_self _ h) (ih fun b hb => hi b (List.mem_cons_of_mem _ hb))

/-- What is paired with an element on the right. -/
theorem exists_of_forall₂_right {α β : Type} {R : α → β → Prop} {as : List α} {bs : List β}
    (h : List.Forall₂ R as bs) {b : β} (hb : b ∈ bs) : ∃ a ∈ as, R a b := by
  induction h with
  | nil => cases hb
  | cons hR _ ih =>
    rcases List.mem_cons.1 hb with rfl | hb
    · exact ⟨_, List.mem_cons_self, hR⟩
    · obtain ⟨a, ha, hR⟩ := ih hb
      exact ⟨a, List.mem_cons_of_mem _ ha, hR⟩

theorem exists_forall₂ {α β : Type} {R : α → β → Prop} {bs : List β} (h : ∀ b ∈ bs, ∃ a, R a b) :
    ∃ as, List.Forall₂ R as bs := by
  induction bs with
  | nil => exact ⟨[], .nil⟩
  | cons b bs ih =>
    obtain ⟨a, ha⟩ := h b List.mem_cons_self
    obtain ⟨as, has⟩ := ih fun b hb => h b (List.mem_cons_of_mem _ hb)
    exact ⟨a :: as, .cons ha has⟩

/-- Elements that correspond through preimages have lists of preimages. -/
theorem exists_preimages {α β γ δ : Type} {f : α → γ} {g : α → δ} {k : β → δ} {p : α → Prop}
    {cs : List γ} {bs : List β}
    (h : List.Forall₂ (fun c b => ∃ a, f a = c ∧ g a = k b ∧ p a) cs bs) :
    ∃ as : List α, as.map f = cs ∧ as.map g = bs.map k ∧ ∀ a ∈ as, p a := by
  induction h with
  | nil => exact ⟨[], rfl, rfl, nofun⟩
  | cons h _ ih =>
    obtain ⟨a, rfl, ha, hp⟩ := h
    obtain ⟨as, rfl, has, hps⟩ := ih
    refine ⟨a :: as, rfl, ?_, List.forall_mem_cons.2 ⟨hp, hps⟩⟩
    rw [List.map_cons, List.map_cons, ha, has]

/-- A list zipped with its images pairs each element with its image. -/
theorem mem_zip_map {α β : Type} {f : α → β} {as : List α} {p : α × β}
    (h : p ∈ as.zip (as.map f)) : p.1 ∈ as ∧ p.2 = f p.1 := by
  induction as with
  | nil => cases h
  | cons a as ih =>
    rw [List.map_cons, List.zip_cons_cons] at h
    rcases List.mem_cons.1 h with rfl | h
    · exact ⟨List.mem_cons_self, rfl⟩
    · exact (ih h).imp_left (List.mem_cons_of_mem _)

theorem mem_map_zip {α β : Type} {f : α → β} {as : List α} {p : β × α}
    (h : p ∈ (as.map f).zip as) : p.2 ∈ as ∧ p.1 = f p.2 := by
  rw [← List.zip_swap] at h
  obtain ⟨q, hq, rfl⟩ := List.mem_map.1 h
  exact mem_zip_map hq

/-- Of two lists of one length, each element of the first has a partner in the second. -/
theorem exists_zip_of_left {α β : Type} {as : List α} {bs : List β} (h : as.length = bs.length) {a : α}
    (ha : a ∈ as) : ∃ b, (a, b) ∈ as.zip bs := by
  rw [← List.map_fst_zip h.le] at ha
  obtain ⟨p, hp, rfl⟩ := List.mem_map.1 ha
  exact ⟨p.2, hp⟩

theorem exists_zip_of_right {α β : Type} {as : List α} {bs : List β} (h : as.length = bs.length) {b : β}
    (hb : b ∈ bs) : ∃ a, (a, b) ∈ as.zip bs := by
  rw [← List.map_snd_zip h.ge] at hb
  obtain ⟨p, hp, rfl⟩ := List.mem_map.1 hb
  exact ⟨p.1, hp⟩

end DocShape
