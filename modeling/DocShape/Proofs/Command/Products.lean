import DocShape.Proofs.Command.Images
import DocShape.Proofs.Json.Ascii

/-!
# What commands print

Without JSON output a command prints the text of its result, and that text always exists
(`Invocation.Makes.exists_renders`). Styling is taken out of what is printed. That leaves surrogates where they
are (`noSurrogates_unstyled`), and leaves a text alone that holds no escape character (`unstyled_eq_self`).
-/

namespace DocShape

/-! ## Styling -/

section Styling

variable {c : CodePoint} {t : Text} {n : Nat}

/-- Styling is some ASCII characters. -/
theorem isAscii_styling (h : stylingLength? t = some n) : 0 < n ∧ Text.IsAscii (t.take n) := by
  match t with
  | [] | [_] => cases h
  | escape :: bracket :: rest =>
    simp only [stylingLength?, Option.ite_none_right_eq_some, Option.some.injEq] at h
    obtain ⟨⟨rfl, rfl⟩, hletter, rfl⟩ := h
    have hall := List.all_takeWhile (l := rest) (p := fun c : CodePoint => c.isDigit || c == ';' || c == '?')
    generalize hparameters : rest.takeWhile _ = parameters at hletter hall ⊢
    obtain ⟨u, rfl⟩ : ∃ u, rest = parameters ++ u :=
      ⟨_, by rw [← hparameters, List.takeWhile_append_dropWhile]⟩
    have hparameter : Text.IsAscii parameters := fun c hc => by
      have hc := List.all_eq_true.1 hall c hc
      simp only [Bool.or_eq_true, beq_iff_eq] at hc
      rcases hc with (hdigit | rfl) | rfl
      · simp only [CodePoint.isDigit, Bool.and_eq_true, decide_eq_true_eq] at hdigit
        omega
      · decide
      · decide
    rw [List.drop_left] at hletter
    cases u with
    | nil => cases hletter
    | cons letter more =>
      have htake : (parameters ++ letter :: more).take (parameters.length + 1) = parameters ++ [letter] := by
        rw [List.take_length_add_append]
        rfl
      have hlast : letter.val < 0x80 := by
        simp only [List.head?_cons, Option.any_some, CodePoint.isLetter, Bool.or_eq_true, Bool.and_eq_true,
          decide_eq_true_eq] at hletter
        omega
      rw [List.take_succ_cons, List.take_succ_cons, htake]
      refine ⟨Nat.succ_pos _, List.forall_mem_cons.2 ⟨by decide, ?_⟩⟩
      refine List.forall_mem_cons.2 ⟨by decide, ?_⟩
      exact Text.isAscii_append.2 ⟨hparameter, List.forall_mem_singleton.2 hlast⟩

/-- Without an escape character there is no styling. -/
theorem stylingLength?_eq_none (h : c ≠ CodePoint.ofChar '\x1b') : stylingLength? (c :: t) = none := by
  cases t with
  | nil => rfl
  | cons d t => rw [stylingLength?, if_neg fun hstart => h hstart.1]

theorem noSurrogates_unstyledFrom (skip : Nat) (t : Text) :
    (unstyledFrom skip t).NoSurrogates ↔ Text.NoSurrogates (t.drop skip) := by
  induction t generalizing skip with
  | nil => cases skip <;> rfl
  | cons c rest ih =>
    cases skip with
    | succ skip => exact ih skip
    | zero =>
      rw [unstyledFrom]
      cases hn : stylingLength? (c :: rest) with
      | none =>
        show Text.NoSurrogates (c :: unstyledFrom 0 rest) ↔ Text.NoSurrogates (c :: rest)
        simp only [Text.NoSurrogates, List.forall_mem_cons]
        exact and_congr_right' (ih 0)
      | some n =>
        obtain ⟨hpos, hstyling⟩ := isAscii_styling hn
        obtain ⟨n, rfl⟩ := Nat.exists_eq_succ_of_ne_zero (Nat.pos_iff_ne_zero.1 hpos)
        have hsplit : Text.NoSurrogates (c :: rest) ↔
            Text.NoSurrogates ((c :: rest).take (n + 1) ++ rest.drop n) := by
          rw [← List.drop_succ_cons (a := c), List.take_append_drop]
        refine (ih n).trans (Iff.trans ?_ hsplit.symm)
        exact ⟨fun h => List.forall_mem_append.2 ⟨hstyling.noSurrogates, h⟩,
          fun h => (List.forall_mem_append.1 h).2⟩

/-- Taking styling out leaves the surrogates. -/
theorem noSurrogates_unstyled (t : Text) : (unstyled t).NoSurrogates ↔ t.NoSurrogates :=
  noSurrogates_unstyledFrom 0 t

theorem unstyled_eq_self (h : ∀ c ∈ t, c ≠ CodePoint.ofChar '\x1b') : unstyled t = t := by
  rw [unstyled]
  induction t with
  | nil => rfl
  | cons c rest ih =>
    obtain ⟨hc, hrest⟩ := List.forall_mem_cons.1 h
    rw [unstyledFrom, stylingLength?_eq_none hc]
    exact congrArg (List.cons c) (ih hrest)

theorem noSurrogates_line : (line t).NoSurrogates ↔ t.NoSurrogates := by
  have hnewline : Text.NoSurrogates "\n" := by decide
  exact List.forall_mem_append.trans (and_iff_left hnewline)

end Styling

/-! ## The products of a command -/

namespace Attempt

variable {α β : Type} {P : α → Prop} {Q : β → Prop}

/-- Whatever is in the log, what some work gives has a property. -/
def Gives (work : Attempt α) (P : α → Prop) : Prop :=
  ∀ log a, (work.run.run log).1 = .ok a → P a

theorem gives_pure {a : α} (h : P a) : (pure a : Attempt α).Gives P := by
  rintro log _ ⟨⟩
  exact h

/-- What some work gives is what its last step gives. -/
theorem Gives.bind {work : Attempt α} {next : α → Attempt β} (h : ∀ a, (next a).Gives Q) :
    (work >>= next).Gives Q := by
  intro log b hb
  rw [run_bind] at hb
  cases hwork : (work.run.run log).1 with
  | error f =>
    rw [hwork] at hb
    cases hb
  | ok a =>
    rw [hwork] at hb
    exact h a _ b hb

end Attempt

namespace Invocation

/-- A product of a command: its image, the text that is printed otherwise, and the warnings before it. -/
inductive Makes (i : Invocation) : Product → Prop
  | validate (command : i.command = .validate) (errors : List Complaint) (warnings : List Warning) :
    Makes i ⟨.dict ((.str "valid", .bool true) :: diagnosticsImage errors warnings),
      .ok ("Schema is valid: " ++ i.schema), warnings⟩
  | decode (command : i.command = .decode) (v : Value) :
    Makes i ⟨.dict [(.str "value", v)], (Json.write .readable v).mapError .unwritable, []⟩
  | encode (command : i.command = .encode) (t : Text) :
    Makes i ⟨.dict [(.str "document", .str t)], .ok t, []⟩

/-- The text that stands for the result of a command. -/
inductive Renders (i : Invocation) : Value → Text → Prop
  | validate (command : i.command = .validate) {result : Entries} :
    Renders i (.dict result) ("Schema is valid: " ++ i.schema)
  | decode (command : i.command = .decode) {v : Value} {t : Text}
    (written : Json.write .readable v = .ok t) : Renders i (.dict [(.str "value", v)]) t
  | encode (command : i.command = .encode) {t : Text} : Renders i (.dict [(.str "document", .str t)]) t

variable {i : Invocation} {around : Surroundings}

theorem Renders.unique {v : Value} {s t : Text} (hs : i.Renders v s) (ht : i.Renders v t) : s = t := by
  cases hs with
  | validate hi =>
    cases ht with
    | validate => rfl
    | decode hi' => cases hi.symm.trans hi'
    | encode hi' => cases hi.symm.trans hi'
  | decode hi hs =>
    cases ht with
    | validate hi' => cases hi.symm.trans hi'
    | decode _ ht => exact Except.ok.inj (hs.symm.trans ht)
  | encode hi =>
    cases ht with
    | validate hi' => cases hi.symm.trans hi'
    | encode => rfl

/-- A product whose image can be read back has a text. -/
theorem Makes.exists_renders {p : Product} (h : i.Makes p) (himage : p.image.IsImage) :
    ∃ t, p.plain = .ok t ∧ i.Renders p.image t := by
  cases h with
  | validate hi => exact ⟨_, rfl, .validate hi⟩
  | decode hi v =>
    have hv : v.IsImage := himage.inside v List.mem_cons_self
    obtain ⟨t, ht⟩ : ∃ t, Json.text .readable 0 v = .ok t :=
      Json.text_total v 0 hv.isPlain hv.hasDigits (Json.hasRoom_of_unlimited rfl)
    exact ⟨t, Except.mapError_eq_ok.2 ht, .decode hi ht⟩
  | encode hi t => exact ⟨t, rfl, .encode hi⟩

theorem gives_conclude {α : Type} {source : String} {complaint : Text} {o : Outcome α}
    {product : α → Product} (h : i.Makes (product o.value)) :
    (conclude source complaint o product).Gives fun ending => ∀ p, ending = .product p → i.Makes p := by
  unfold conclude
  split
  · refine Attempt.gives_pure fun p hp => ?_
    obtain rfl := Ending.product.inj hp
    exact h
  · exact .bind fun _ => Attempt.gives_pure fun p hp => by cases hp

/-- What a command ends with is one of its products. -/
theorem makes_perform [Host] (p : Product) (hp : (i.perform around).1 = .product p) : i.Makes p := by
  have hgives : (i.steps around).Gives fun ending => ∀ p, ending = .product p → i.Makes p := by
    rw [steps]
    cases hi : i.command with
    | validate => exact .bind fun _ => .bind fun o => gives_conclude (.validate hi _ _)
    | decode =>
      exact .bind fun _ => .bind fun _ => .bind fun o => .bind fun _ => gives_conclude (.decode hi _)
    | encode =>
      exact .bind fun _ => .bind fun _ => .bind fun _ => .bind fun o => .bind fun _ =>
        gives_conclude (.encode hi _)
  rw [perform_eq] at hp
  cases hresult : ((i.steps around).run.run []).1 with
  | error f =>
    rw [hresult] at hp
    cases hp
  | ok ending =>
    rw [hresult] at hp
    exact hgives [] ending hresult p hp

end Invocation

end DocShape
