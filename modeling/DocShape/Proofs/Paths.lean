import DocShape.Proofs.Placing
import DocShape.Proofs.Text.Digits

/-!
# Paths and locations

A location shows a path with points between its segments. It tells the path (`location_inj`) as long as
the names in the segments are names (`Path.IsNamed`): then no segment is empty or holds a point, so that
the location can be split again (`splitOn_location`), and a segment tells its kind (`Segment.text_inj`).
-/

namespace DocShape

/-! ## Splitting what was joined -/

namespace Text

variable {separator : CodePoint} {t : Text}

theorem splitOn_of_notMem (h : separator ∉ t) : splitOn separator t = [t] := by
  induction t with
  | nil => rfl
  | cons c t ih =>
    have hc : c ≠ separator := fun heq => h (heq ▸ List.mem_cons_self)
    have hrest : separator ∉ t := fun hmem => h (List.mem_cons_of_mem _ hmem)
    rw [splitOn, if_neg hc, ih hrest]

/-- A part without the separator is split off as it stands. -/
theorem splitOn_append (h : separator ∉ t) (rest : Text) :
    splitOn separator (t ++ separator :: rest) = t :: splitOn separator rest := by
  induction t with
  | nil => rw [List.nil_append, splitOn, if_pos rfl]
  | cons c t ih =>
    have hc : c ≠ separator := fun heq => h (heq ▸ List.mem_cons_self)
    have hrest : separator ∉ t := fun hmem => h (List.mem_cons_of_mem _ hmem)
    rw [List.cons_append, splitOn, if_neg hc, ih hrest]

/-- Parts without the separator are what their join is split into. -/
theorem splitOn_join {ts : List Text} (hne : ts ≠ []) (h : ∀ t ∈ ts, separator ∉ t) :
    splitOn separator (join [separator] ts) = ts := by
  induction ts with
  | nil => exact absurd rfl hne
  | cons t ts ih =>
    obtain ⟨ht, hts⟩ := List.forall_mem_cons.1 h
    cases ts with
    | nil => exact splitOn_of_notMem ht
    | cons s ts =>
      rw [join, List.append_assoc, List.singleton_append, splitOn_append ht,
        ih (List.cons_ne_nil s ts) hts]
      exact List.cons_ne_nil s ts

end Text

/-! ## Segments -/

namespace Segment

/-- The name in a segment that has one. -/
def name? : Segment → Option Text
  | field name | entry name | property name => some name
  | _ => none

/-- The name in a segment, if there is one, is a name. -/
def IsNamed (s : Segment) : Prop := ∀ name, s.name? = some name → name.isName = true

theorem isNamed_position (i : Nat) : (position i).IsNamed := fun _ h => by cases h

theorem isNamed_item (i : Nat) : (item i).IsNamed := fun _ h => by cases h

theorem isNamed_items : items.IsNamed := fun _ h => by cases h

theorem isNamed_values : values.IsNamed := fun _ h => by cases h

theorem isNamed_field {name : Text} (h : name.isName = true) : (field name).IsNamed :=
  fun _ heq => Option.some.inj heq ▸ h

theorem isNamed_entry {key : Text} (h : key.isName = true) : (entry key).IsNamed :=
  fun _ heq => Option.some.inj heq ▸ h

theorem isNamed_property {name : Text} (h : name.isName = true) : (property name).IsNamed :=
  fun _ heq => Option.some.inj heq ▸ h

variable {s s' : Segment}

theorem text_ne_nil (h : s.IsNamed) : s.text ≠ [] := by
  cases s with
  | property name => exact (Text.isName_iff.1 (h name rfl)).1
  | _ => exact List.cons_ne_nil _ _

/-- A point stands between segments, and in none of them. -/
theorem point_notMem_text (h : s.IsNamed) : CodePoint.ofChar '.' ∉ s.text := by
  have hnat (i : Nat) : CodePoint.ofChar '.' ∉ Text.ofNat i := fun hmem =>
    absurd ((Text.isNumeral_ofNat i).digits _ hmem) (by decide)
  have hname {name : Text} (hs : s.name? = some name) : CodePoint.ofChar '.' ∉ name := fun hmem =>
    absurd ((Text.isName_iff.1 (h name hs)).2 _ hmem) (by decide)
  cases s with
  | items => decide
  | values => decide
  | position i => simp [text, Text.ofString, hnat i]
  | item i => simp [text, Text.ofString, hnat i]
  | field name => simp [text, Text.ofString, hname rfl]
  | entry name => simp [text, Text.ofString, hname rfl]
  | property name => exact hname rfl

/-- The sign that a segment opens with, none if it opens with a name. -/
def sign? : Segment → Option CodePoint
  | items | item _ => some (CodePoint.ofChar '[')
  | values | entry _ => some (CodePoint.ofChar '\x7b')
  | position _ => some (CodePoint.ofChar '<')
  | field _ => some (CodePoint.ofChar '$')
  | property _ => none

theorem sign?_eq (h : s.IsNamed) : s.sign? = s.text.head?.filter fun c => !c.isNameChar := by
  cases s with
  | property name =>
    obtain ⟨hne, hchars⟩ := Text.isName_iff.1 (h name rfl)
    obtain ⟨c, name, rfl⟩ := List.exists_cons_of_ne_nil hne
    have hc : c.isNameChar = true := hchars c List.mem_cons_self
    simp only [sign?, text, List.head?_cons, Option.filter, hc, Bool.not_true, Bool.false_eq_true,
      ↓reduceIte]
  | _ => rfl

/-! ### A segment is told by its text -/

theorem item_text_injective : Function.Injective fun i => (item i).text := fun _ _ h =>
  Text.ofNat_injective (List.append_cancel_left (List.append_cancel_right h))

theorem position_text_injective : Function.Injective fun i => (position i).text := fun _ _ h =>
  Text.ofNat_injective (List.append_cancel_left (List.append_cancel_right h))

theorem entry_text_injective : Function.Injective fun key => (entry key).text := fun _ _ h =>
  List.append_cancel_left (List.append_cancel_right h)

theorem field_text_injective : Function.Injective fun name => (field name).text := fun _ _ h =>
  List.append_cancel_left h

theorem text_items_ne_item (i : Nat) : items.text ≠ (item i).text := by
  intro h
  have htexts : "[" ++ ([] : Text) ++ "]" = "[" ++ Text.ofNat i ++ "]" := h
  have hnat := List.append_cancel_left (List.append_cancel_right htexts)
  exact (Text.isNumeral_ofNat i).nonempty hnat.symm

theorem text_values_ne_entry {key : Text} (h : (entry key).IsNamed) :
    values.text ≠ (entry key).text := by
  intro heq
  have htexts : "\x7b" ++ ([] : Text) ++ "\x7d" = "\x7b" ++ key ++ "\x7d" := heq
  have hkey := List.append_cancel_left (List.append_cancel_right htexts)
  exact (Text.isName_iff.1 (h key rfl)).1 hkey.symm

theorem text_inj (hs : s.IsNamed) (hs' : s'.IsNamed) (h : s.text = s'.text) : s = s' := by
  have hsign : s.sign? = s'.sign? := by rw [sign?_eq hs, sign?_eq hs', h]
  cases s with
  | items =>
    cases s' with
    | items => rfl
    | item i => exact absurd h (text_items_ne_item i)
    | _ => cases hsign
  | values =>
    cases s' with
    | values => rfl
    | entry key => exact absurd h (text_values_ne_entry hs')
    | _ => cases hsign
  | position i =>
    cases s' with
    | position j => rw [position_text_injective h]
    | _ => cases hsign
  | field name =>
    cases s' with
    | field name' => rw [field_text_injective h]
    | _ => cases hsign
  | item i =>
    cases s' with
    | items => exact absurd h.symm (text_items_ne_item i)
    | item j => rw [item_text_injective h]
    | _ => cases hsign
  | entry key =>
    cases s' with
    | values => exact absurd h.symm (text_values_ne_entry hs)
    | entry key' => rw [entry_text_injective h]
    | _ => cases hsign
  | property name =>
    cases s' with
    | property name' => exact congrArg property h
    | _ => cases hsign

end Segment

/-! ## Paths -/

namespace Path

/-- The names in the segments of a path are names. -/
def IsNamed (path : Path) : Prop := ∀ s ∈ path, s.IsNamed

theorem isNamed_nil : IsNamed [] := fun _ h => by cases h

theorem isNamed_append {path below : Path} :
    IsNamed (path ++ below) ↔ IsNamed path ∧ IsNamed below :=
  List.forall_mem_append

theorem IsNamed.concat {path : Path} {s : Segment} (h : IsNamed path) (hs : s.IsNamed) :
    IsNamed (path ++ [s]) :=
  isNamed_append.2 ⟨h, List.forall_mem_singleton.2 hs⟩

variable {path path' : Path}

theorem location_of_ne_nil (h : path ≠ []) :
    location path = Text.join "." (path.map Segment.text) := by
  rw [location, if_neg fun hempty => h (List.isEmpty_iff.1 hempty)]

/-- A location is split into the segments of its path. -/
theorem splitOn_location (h : IsNamed path) (hne : path ≠ []) :
    Text.splitOn '.' (location path) = path.map Segment.text := by
  rw [location_of_ne_nil hne]
  refine Text.splitOn_join (fun hnil => hne (List.map_eq_nil_iff.1 hnil)) fun t ht => ?_
  obtain ⟨s, hs, rfl⟩ := List.mem_map.1 ht
  exact Segment.point_notMem_text (h s hs)

/-- Only the root is located at the root. -/
theorem location_eq_root_iff (h : IsNamed path) : location path = "<root>" ↔ path = [] := by
  refine ⟨fun hroot => ?_, fun hnil => by rw [hnil]; rfl⟩
  by_contra hne
  have hsplit := splitOn_location h hne
  rw [hroot] at hsplit
  obtain ⟨s, rest, rfl⟩ := List.exists_cons_of_ne_nil hne
  -- the one segment would be the word itself, which opens like a position and is none
  have htext : s.text = "<root>" := (List.cons.inj hsplit).1.symm
  have hs := h s List.mem_cons_self
  have hsign := Segment.sign?_eq hs
  rw [htext] at hsign
  cases s with
  | position i =>
    have htexts : "<" ++ Text.ofNat i ++ ">" = "<" ++ ("root" : Text) ++ ">" := htext
    have hdigits := List.append_cancel_left (List.append_cancel_right htexts)
    have hr : CodePoint.ofChar 'r' ∈ Text.ofNat i := by
      rw [hdigits]
      exact List.mem_cons_self
    exact absurd ((Text.isNumeral_ofNat i).digits _ hr) (by decide)
  | _ => cases hsign

/-- Paths with one location are one path. -/
theorem location_inj (h : IsNamed path) (h' : IsNamed path')
    (heq : location path = location path') : path = path' := by
  by_cases hnil : path = []
  · subst hnil
    exact ((location_eq_root_iff h').1 heq.symm).symm
  by_cases hnil' : path' = []
  · subst hnil'
    exact absurd ((location_eq_root_iff h).1 heq) hnil
  have htexts : path.map Segment.text = path'.map Segment.text := by
    rw [← splitOn_location h hnil, ← splitOn_location h' hnil', heq]
  clear heq hnil hnil'
  induction path generalizing path' with
  | nil => exact (List.map_eq_nil_iff.1 htexts.symm).symm
  | cons s path ih =>
    cases path' with
    | nil => cases htexts
    | cons s' path' =>
      obtain ⟨hs, hpath⟩ := List.forall_mem_cons.1 h
      obtain ⟨hs', hpath'⟩ := List.forall_mem_cons.1 h'
      obtain ⟨htext, hrest⟩ := List.cons.inj htexts
      rw [Segment.text_inj hs hs' htext, ih hpath hpath' hrest]

end Path

/-! ## Where findings are -/

/-- Where a finding is. A reason to break off has a place if it is an error. -/
def Finding.place? : Finding → Option Path
  | error c | halt (.complaint c) => some c.path
  | warning w => some w.path
  | halt _ => none

/-- A finding whose path has only names in its segments. -/
def Finding.IsNamed (f : Finding) : Prop := ∀ path, f.place? = some path → path.IsNamed

/-- Findings whose paths have only names in their segments. -/
def AllNamed (fs : List Finding) : Prop := ∀ f ∈ fs, f.IsNamed

section AllNamed

variable {path : Path} {fs gs : List Finding}

@[simp] theorem allNamed_nil : AllNamed [] := fun _ h => by cases h

@[simp] theorem allNamed_append : AllNamed (fs ++ gs) ↔ AllNamed fs ∧ AllNamed gs :=
  List.forall_mem_append

@[simp] theorem allNamed_cons {f : Finding} : AllNamed (f :: fs) ↔ f.IsNamed ∧ AllNamed fs :=
  List.forall_mem_cons

theorem Finding.isNamed_violation (h : path.IsNamed) (cause : Violation) :
    (Finding.violation path cause).IsNamed := fun _ heq => Option.some.inj heq ▸ h

theorem Finding.isNamed_mismatch (h : path.IsNamed) (cause : Mismatch) :
    (Finding.mismatch path cause).IsNamed := fun _ heq => Option.some.inj heq ▸ h

theorem Finding.isNamed_warning (h : path.IsNamed) (cause : Advice) :
    (Finding.warning ⟨path, cause⟩).IsNamed := fun _ heq => Option.some.inj heq ▸ h

theorem allNamed_violation (h : path.IsNamed) (cause : Violation) :
    AllNamed [.violation path cause] :=
  List.forall_mem_singleton.2 (Finding.isNamed_violation h cause)

/-- A value that is quoted stands in the message, and the path stays as it is. -/
theorem Finding.isNamed_quoting (h : path.IsNamed) (v : Value) (cause : Text → Violation) :
    (quoting v fun shown => .violation path (cause shown)).IsNamed := by
  unfold quoting
  split
  · exact isNamed_violation h _
  · intro p hp
    cases hp

end AllNamed

end DocShape
