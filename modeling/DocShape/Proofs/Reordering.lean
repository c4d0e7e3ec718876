import DocShape.Proofs.Findings
import Mathlib.Data.List.Basic

/-!
# Lists in another order

`Rearranged R as cs` relates lists whose elements correspond by `R` once the second list is put in another
order. It goes through whatever looks at the elements one by one (`Rearranged.filterMap`,
`Rearranged.flatMap_perm`), and through looking up a name that stands once
(`Rearranged.lookup`). What collect-all makes of findings does not depend on their order, up to the order
of what it makes (`settle_perm`).
-/

namespace DocShape

theorem none_of_rel {α β : Type} {R : α → β → Prop} {x : Option α} {y : Option β}
    (h : Option.Rel R x y) (hx : x = none) : y = none := by
  subst hx
  cases h
  rfl

theorem exists_of_rel {α β : Type} {R : α → β → Prop} {x : Option α} {y : Option β} {a : α}
    (h : Option.Rel R x y) (hx : x = some a) : ∃ b, y = some b ∧ R a b := by
  subst hx
  cases h with
  | some hab => exact ⟨_, rfl, hab⟩

/-- What corresponds to the elements of a list in two ways can be completed element by element. -/
theorem exists_completion {α β γ δ : Type} {R : α → β → Prop} {S : α → γ → Prop} {T : γ → δ → Prop}
    {U : β → δ → Prop} {as : List α} {bs : List β} {cs : List γ} (hbs : List.Forall₂ R as bs)
    (hcs : List.Forall₂ S as cs) (h : ∀ a b c, R a b → S a c → ∃ d, T c d ∧ U b d) :
    ∃ ds, List.Forall₂ T cs ds ∧ List.Forall₂ U bs ds := by
  induction hbs generalizing cs with
  | nil =>
    cases hcs
    exact ⟨[], .nil, .nil⟩
  | cons hab _ ih =>
    cases hcs with
    | cons hac hcs =>
      obtain ⟨d, hd, hd'⟩ := h _ _ _ hab hac
      obtain ⟨ds, hds, hds'⟩ := ih hcs
      exact ⟨d :: ds, .cons hd hds, .cons hd' hds'⟩

/-- The second list has, in some order, what corresponds to the elements of the first. -/
def Rearranged {α β : Type} (R : α → β → Prop) (as : List α) (cs : List β) : Prop :=
  ∃ bs, List.Forall₂ R as bs ∧ bs.Perm cs

namespace Rearranged

variable {α β γ δ : Type} {R : α → β → Prop} {S : γ → δ → Prop} {as : List α} {bs : List β}

theorem of_forall₂ (h : List.Forall₂ R as bs) : Rearranged R as bs := ⟨bs, h, List.Perm.refl _⟩

theorem length_eq (h : Rearranged R as bs) : as.length = bs.length := by
  obtain ⟨mid, hmid, horder⟩ := h
  rw [hmid.length_eq, horder.length_eq]

theorem append {as' : List α} {bs' : List β} (h : Rearranged R as bs) (h' : Rearranged R as' bs') :
    Rearranged R (as ++ as') (bs ++ bs') := by
  obtain ⟨mid, hmid, horder⟩ := h
  obtain ⟨mid', hmid', horder'⟩ := h'
  exact ⟨mid ++ mid', List.rel_append hmid hmid', horder.append horder'⟩

/-- What is picked out of each element stays in correspondence. -/
theorem filterMap {f : α → Option γ} {g : β → Option δ} (h : Rearranged R as bs)
    (hfg : ∀ a ∈ as, ∀ b, R a b → Option.Rel S (f a) (g b)) :
    Rearranged S (as.filterMap f) (bs.filterMap g) := by
  obtain ⟨mid, hmid, horder⟩ := h
  refine ⟨mid.filterMap g, ?_, horder.filterMap g⟩
  clear horder
  induction hmid with
  | nil => exact .nil
  | @cons a b as bs hab _ ih =>
    have hrest := ih fun a ha => hfg a (List.mem_cons_of_mem _ ha)
    have hhead := hfg a List.mem_cons_self b hab
    cases hf : f a with
    | none => rwa [List.filterMap_cons_none hf, List.filterMap_cons_none (none_of_rel hhead hf)]
    | some c =>
      obtain ⟨d, hg, hcd⟩ := exists_of_rel hhead hf
      rw [List.filterMap_cons_some hf, List.filterMap_cons_some hg]
      exact .cons hcd hrest

/-- What each element gives is the same but for the order. -/
theorem flatMap_perm {f : α → List γ} {g : β → List γ} (h : Rearranged R as bs)
    (hfg : ∀ a ∈ as, ∀ b, R a b → (f a).Perm (g b)) : (as.flatMap f).Perm (bs.flatMap g) := by
  obtain ⟨mid, hmid, horder⟩ := h
  refine List.Perm.trans ?_ (horder.flatMap_right g)
  clear horder
  induction hmid with
  | nil => exact List.Perm.refl _
  | @cons a b as bs hab _ ih =>
    rw [List.flatMap_cons, List.flatMap_cons]
    exact (hfg a List.mem_cons_self b hab).append (ih fun a ha => hfg a (List.mem_cons_of_mem _ ha))

/-- What is picked out of each element is the same but for the order. -/
theorem filterMap_perm {f : α → Option γ} {g : β → Option γ} (h : Rearranged R as bs)
    (hfg : ∀ a ∈ as, ∀ b, R a b → f a = g b) : (as.filterMap f).Perm (bs.filterMap g) := by
  rw [List.filterMap_eq_flatMap_toList, List.filterMap_eq_flatMap_toList]
  exact h.flatMap_perm fun a ha b hab => .of_eq (congrArg Option.toList (hfg a ha b hab))

end Rearranged

/-! ## Elements with the same image -/

section Images

variable {α β γ : Type} {f : α → γ} {g : β → γ} {R : α → β → Prop} {as : List α} {bs : List β}

/-- Elements with the same images in the same order that correspond otherwise. -/
theorem forall₂_of_images (images : as.map f = bs.map g) (others : ∀ p ∈ as.zip bs, R p.1 p.2) :
    List.Forall₂ (fun a b => f a = g b ∧ R a b) as bs := by
  induction as generalizing bs with
  | nil =>
    rw [List.map_eq_nil_iff.1 images.symm]
    exact .nil
  | cons a as ih =>
    cases bs with
    | nil => cases images
    | cons b bs =>
      obtain ⟨himage, himages⟩ := List.cons.inj images
      obtain ⟨hother, hothers⟩ := List.forall_mem_cons.1 others
      exact .cons ⟨himage, hother⟩ (ih himages hothers)

theorem images_of_forall₂ (h : List.Forall₂ (fun a b => f a = g b ∧ R a b) as bs) :
    as.map f = bs.map g := by
  induction h with
  | nil => rfl
  | cons hab _ ih => rw [List.map_cons, List.map_cons, hab.1, ih]

theorem Rearranged.images (h : Rearranged (fun a b => f a = g b ∧ R a b) as bs) :
    (as.map f).Perm (bs.map g) := by
  obtain ⟨mid, hmid, horder⟩ := h
  rw [images_of_forall₂ hmid]
  exact horder.map g

end Images

section Lookup

variable {α β : Type} [BEq α] [LawfulBEq α] {ps qs : List (α × β)} {a : α}

/-- A key that stands once has one value, in whatever order the pairs are. -/
theorem lookup_perm (hps : (ps.map Prod.fst).Nodup) (h : ps.Perm qs) (a : α) :
    ps.lookup a = qs.lookup a := by
  induction h with
  | nil => rfl
  | cons p _ ih =>
    obtain ⟨k, b⟩ := p
    rw [List.lookup_cons, List.lookup_cons, ih (List.nodup_cons.1 hps).2]
  | swap p q ps =>
    obtain ⟨k, b⟩ := p
    obtain ⟨l, c⟩ := q
    have hne : k ≠ l := fun e => (List.nodup_cons.1 hps).1 (by simp [e])
    simp only [List.lookup_cons]
    by_cases hk : a = k
    · rw [hk, beq_self_eq_true, beq_eq_false_iff_ne.2 hne]
    · rw [beq_eq_false_iff_ne.2 hk]
  | trans h _ ih ih' => rw [ih hps, ih' ((h.map Prod.fst).nodup_iff.1 hps)]

/-- What stands under a key corresponds. -/
theorem Rearranged.lookup {R : β → β → Prop} (hps : (ps.map Prod.fst).Nodup)
    (h : Rearranged (fun p q => p.1 = q.1 ∧ R p.2 q.2) ps qs) (a : α) :
    Option.Rel R (ps.lookup a) (qs.lookup a) := by
  obtain ⟨mid, hmid, horder⟩ := h
  have hkeys : ps.map Prod.fst = mid.map Prod.fst := images_of_forall₂ hmid
  rw [← lookup_perm (hkeys ▸ hps) horder a]
  clear hps horder hkeys
  induction hmid with
  | nil => exact .none
  | @cons p q ps qs hpq _ ih =>
    obtain ⟨k, b⟩ := p
    obtain ⟨l, c⟩ := q
    obtain ⟨rfl, hbc⟩ := hpq
    rw [List.lookup_cons, List.lookup_cons]
    cases a == k with
    | true => exact .some hbc
    | false => exact ih

end Lookup

/-! ## Findings in another order -/

variable {fs gs : List Finding}

theorem noHalt_perm (h : fs.Perm gs) : NoHalt fs ↔ NoHalt gs :=
  forall_congr' fun _ => not_congr h.mem_iff

/-- Where nothing breaks a walk off, the same errors and warnings come of the same findings in another
order. -/
theorem settle_perm (h : fs.Perm gs) (hfs : NoHalt fs) :
    (settle .collectAll fs).errors.Perm (settle .collectAll gs).errors ∧
      (settle .collectAll fs).warnings.Perm (settle .collectAll gs).warnings := by
  induction h with
  | nil => exact ⟨List.Perm.refl _, List.Perm.refl _⟩
  | cons f _ ih =>
    obtain ⟨herrors, hwarnings⟩ := ih fun g hg => hfs g (List.mem_cons_of_mem _ hg)
    cases f with
    | halt f => exact absurd List.mem_cons_self (hfs f)
    | warning w => exact ⟨herrors, hwarnings.cons w⟩
    | error c => exact ⟨herrors.cons c, hwarnings⟩
  | swap f g rest =>
    cases f with
    | halt f => exact absurd (List.mem_cons_of_mem _ List.mem_cons_self) (hfs f)
    | warning w =>
      cases g with
      | halt g => exact absurd List.mem_cons_self (hfs g)
      | warning v => exact ⟨List.Perm.refl _, .swap w v _⟩
      | error c => exact ⟨List.Perm.refl _, List.Perm.refl _⟩
    | error c =>
      cases g with
      | halt g => exact absurd List.mem_cons_self (hfs g)
      | warning v => exact ⟨List.Perm.refl _, List.Perm.refl _⟩
      | error d => exact ⟨.swap c d _, List.Perm.refl _⟩
  | trans h _ ih ih' =>
    obtain ⟨herrors, hwarnings⟩ := ih hfs
    obtain ⟨herrors', hwarnings'⟩ := ih' ((noHalt_perm h).1 hfs)
    exact ⟨herrors.trans herrors', hwarnings.trans hwarnings'⟩

end DocShape
