import DocShape.Proofs.Number.Numeral
import DocShape.Proofs.Value.Depth
import DocShape.Text.Encoding

/-!
# The grammar of documents

A `Tree` is a derivation in the grammar of JSON: it keeps the white space, how each number is spelled,
and how each character of a string stands there. `Tree.text` is its text and `Tree.value` the value that
it denotes. A document has white space around that text (`Tree.Derives`).

The grammar knows neither the words for numbers that are not finite nor a byte order mark. What it
leaves open is the range of numbers and how deep brackets nest: `Tree.InRange` says that the numbers of
a tree have values, and `Tree.depth` counts brackets inside each other.
-/

namespace DocShape.Json

/-! ## White space -/

/-- Space, tab, newline and carriage return. -/
def IsSpace (c : CodePoint) : Prop :=
  c = CodePoint.ofChar ' ' ∨ c = CodePoint.ofChar '\t' ∨ c = CodePoint.ofChar '\n' ∨
    c = CodePoint.ofChar '\r'

/-- White space, or nothing. -/
structure Gap where
  text : Text
  isSpace : ∀ c ∈ text, IsSpace c

namespace Gap

def none : Gap := ⟨[], fun _ h => absurd h List.not_mem_nil⟩

@[simp] theorem text_none : none.text = [] := rfl

end Gap

/-- Something with white space around it. -/
structure Spaced (α : Type) where
  before : Gap
  inner : α
  after : Gap

namespace Spaced

variable {α : Type} (inside : α → Text)

def text (s : Spaced α) : Text := s.before.text ++ (inside s.inner ++ s.after.text)

/-- The texts with commas between them. -/
def joined (ss : List (Spaced α)) : Text := Text.join "," (ss.map (text inside))

theorem joined_singleton (s : Spaced α) : joined inside [s] = s.text inside := rfl

theorem joined_cons_cons (s s' : Spaced α) (ss : List (Spaced α)) :
    joined inside (s :: s' :: ss) =
      s.text inside ++ CodePoint.ofChar ',' :: joined inside (s' :: ss) := by
  simp [joined, Text.join, Text.ofString]

end Spaced

/-! ## Strings -/

/-- The four hexadecimal digits of an escape. -/
structure CodeUnit where
  digits : Text
  length_eq : digits.length = 4
  areHex : ∀ c ∈ digits, c.isHexDigit = true

/-- The code point that hexadecimal digits stand for. -/
def CodeUnit.code (u : CodeUnit) : CodePoint :=
  CodePoint.ofNat (u.digits.foldl (fun n c => n * 16 + c.hexValue?.getD 0) 0)

/-- The letters behind a backslash, with what they stand for. -/
def shortEscapes : List (CodePoint × CodePoint) :=
  [('"', '"'), ('\\', '\\'), ('/', '/'), ('b', '\x08'), ('f', '\x0c'), ('n', '\n'), ('r', '\r'),
    ('t', '\t')]

/-- What may stand in a string as it is: all but control characters, the quote and the backslash. -/
def Unescaped (c : CodePoint) : Prop :=
  0x20 ≤ c.val ∧ c ≠ CodePoint.ofChar '"' ∧ c ≠ CodePoint.ofChar '\\'

/-- A part of a string: a character as it is, an escape by a letter, or one by hexadecimal digits. -/
inductive StringPart where
  | plain (c : CodePoint) (isUnescaped : Unescaped c)
  | short (letter code : CodePoint) (isShort : (letter, code) ∈ shortEscapes)
  | unit (u : CodeUnit)

namespace StringPart

def text : StringPart → Text
  | plain c _ => [c]
  | short letter _ _ => [CodePoint.ofChar '\\', letter]
  | unit u => CodePoint.ofChar '\\' :: CodePoint.ofChar 'u' :: u.digits

/-- The code point that a part stands for on its own. -/
def code : StringPart → CodePoint
  | plain c _ => c
  | short _ code _ => code
  | unit u => u.code

/-- An escaped high surrogate. -/
def isHigh : StringPart → Bool
  | unit u => u.code.isHighSurrogate
  | _ => false

/-- An escaped low surrogate. -/
def isLow : StringPart → Bool
  | unit u => u.code.isLowSurrogate
  | _ => false

end StringPart

/-- The code points of a string. An escaped high surrogate and an escaped low one behind it are one
code point. -/
def decode : List StringPart → Text
  | [] => []
  | [p] => [p.code]
  | p :: q :: rest =>
    if p.isHigh ∧ q.isLow then Encoding.joinSurrogates p.code q.code :: decode rest
    else p.code :: decode (q :: rest)

/-- The parts of a string in quotes. -/
def stringText (parts : List StringPart) : Text :=
  CodePoint.ofChar '"' :: (parts.flatMap StringPart.text ++ [CodePoint.ofChar '"'])

/-! ## Values -/

/-- A member of an object: its name, the white space around the colon, and its value. -/
structure Member (α : Type) where
  name : List StringPart
  beforeColon : Gap
  afterColon : Gap
  inner : α

def Member.text {α : Type} (inside : α → Text) (m : Member α) : Text :=
  stringText m.name ++ (m.beforeColon.text ++ CodePoint.ofChar ':' ::
    (m.afterColon.text ++ inside m.inner))

/-- A derivation of a value. The white space of an array or object stands behind its opening
bracket. -/
inductive Tree where
  | null
  | bool (b : Bool)
  | number (n : Numeral)
  | string (parts : List StringPart)
  | array (gap : Gap) (items : List (Spaced Tree))
  | object (gap : Gap) (members : List (Spaced (Member Tree)))

namespace Tree

mutual

/-- The text that is derived. -/
def text : Tree → Text
  | null => "null"
  | bool true => "true"
  | bool false => "false"
  | number n => n.text
  | string parts => stringText parts
  | array gap items =>
    CodePoint.ofChar '[' :: (gap.text ++ (Text.join "," (itemTexts items) ++
      [CodePoint.ofChar ']']))
  | object gap members =>
    CodePoint.ofChar '{' :: (gap.text ++ (Text.join "," (memberTexts members) ++
      [CodePoint.ofChar '}']))
termination_by structural t => t

def itemTexts : List (Spaced Tree) → List Text
  | [] => []
  | ⟨before, tree, after⟩ :: rest =>
    (before.text ++ (text tree ++ after.text)) :: itemTexts rest
termination_by structural t => t

def memberTexts : List (Spaced (Member Tree)) → List Text
  | [] => []
  | ⟨before, ⟨name, beforeColon, afterColon, tree⟩, after⟩ :: rest =>
    (before.text ++ (stringText name ++ (beforeColon.text ++ CodePoint.ofChar ':' ::
      (afterColon.text ++ text tree)) ++ after.text)) :: memberTexts rest
termination_by structural t => t

end

mutual

/-- The value that a tree denotes. Of the members with one name the first gives the place and the last
the value. -/
def value : Tree → Value
  | null => .null
  | bool b => .bool b
  | number n => .ofNumber n.value
  | string parts => .str (decode parts)
  | array _ items => .list (itemValues items)
  | object _ members => .dict (Entries.lastValues (memberValues members))
termination_by structural t => t

def itemValues : List (Spaced Tree) → List Value
  | [] => []
  | ⟨_, tree, _⟩ :: rest => value tree :: itemValues rest
termination_by structural t => t

def memberValues : List (Spaced (Member Tree)) → List (Text × Value)
  | [] => []
  | ⟨_, ⟨name, _, _, tree⟩, _⟩ :: rest => (decode name, value tree) :: memberValues rest
termination_by structural t => t

end

theorem itemTexts_eq (items : List (Spaced Tree)) : itemTexts items = items.map (Spaced.text text) := by
  induction items with
  | nil => rfl
  | cons s items ih => rw [itemTexts, ih]; rfl

theorem memberTexts_eq (members : List (Spaced (Member Tree))) :
    memberTexts members = members.map (Spaced.text (Member.text text)) := by
  induction members with
  | nil => rfl
  | cons s members ih => rw [memberTexts, ih]; rfl

theorem itemValues_eq (items : List (Spaced Tree)) :
    itemValues items = items.map fun s => s.inner.value := by
  induction items with
  | nil => rfl
  | cons s items ih => rw [itemValues, ih]; rfl

theorem memberValues_eq (members : List (Spaced (Member Tree))) :
    memberValues members = members.map fun s => (decode s.inner.name, s.inner.inner.value) := by
  induction members with
  | nil => rfl
  | cons s members ih => rw [memberValues, ih]; rfl

theorem text_array (gap : Gap) (items : List (Spaced Tree)) :
    (array gap items).text = CodePoint.ofChar '[' ::
      (gap.text ++ (Spaced.joined text items ++ [CodePoint.ofChar ']'])) := by
  rw [text, itemTexts_eq]
  rfl

theorem text_object (gap : Gap) (members : List (Spaced (Member Tree))) :
    (object gap members).text = CodePoint.ofChar '{' ::
      (gap.text ++ (Spaced.joined (Member.text text) members ++ [CodePoint.ofChar '}'])) := by
  rw [text, memberTexts_eq]
  rfl

/-! ## The parts of a tree -/

/-- The derivations directly inside a tree. -/
def parts : Tree → List Tree
  | array _ items => items.map Spaced.inner
  | object _ members => members.map fun s => s.inner.inner
  | _ => []

/-- Induction along the parts of a tree. -/
@[elab_as_elim]
theorem partsInduction {motive : Tree → Prop}
    (step : ∀ t, (∀ u ∈ t.parts, motive u) → motive t) (t : Tree) : motive t := by
  have leaf (t : Tree) (h : t.parts = []) : motive t :=
    step t fun u hu => absurd hu (by rw [h]; exact List.not_mem_nil)
  refine @Tree.rec motive (fun items => ∀ u ∈ items.map Spaced.inner, motive u)
    (fun members => ∀ u ∈ members.map fun s => s.inner.inner, motive u)
    (fun s => motive s.inner) (fun s => motive s.inner.inner) (fun m => motive m.inner)
    ?null ?bool ?number ?string ?array ?object ?itemsNil ?itemsCons ?membersNil ?membersCons
    ?item ?spacedMember ?member t
  case null => exact leaf _ rfl
  case bool => exact fun _ => leaf _ rfl
  case number => exact fun _ => leaf _ rfl
  case string => exact fun _ => leaf _ rfl
  case array => exact fun gap items ih => step _ ih
  case object => exact fun gap members ih => step _ ih
  case itemsNil => exact fun u hu => absurd hu List.not_mem_nil
  case itemsCons => exact fun s items hs ih => List.forall_mem_cons.2 ⟨hs, ih⟩
  case membersNil => exact fun u hu => absurd hu List.not_mem_nil
  case membersCons => exact fun s members hs ih => List.forall_mem_cons.2 ⟨hs, ih⟩
  case item => exact fun before tree after h => h
  case spacedMember => exact fun before member after h => h
  case member => exact fun name beforeColon afterColon tree h => h

/-- Every number in a tree is in range. -/
inductive InRange : Tree → Prop
  | intro {t : Tree} (here : ∀ n, t = number n → n.InRange) (inside : ∀ u ∈ t.parts, InRange u) :
    InRange t

namespace InRange

variable {t : Tree}

theorem here (h : InRange t) {n : Numeral} (ht : t = number n) : n.InRange := by
  cases h with
  | intro here _ => exact here n ht

theorem inside (h : InRange t) : ∀ u ∈ t.parts, InRange u := by
  cases h with
  | intro _ inside => exact inside

theorem number_iff {n : Numeral} : (number n).InRange ↔ n.InRange := by
  refine ⟨fun h => h.here rfl, fun h => ⟨fun m hm => ?_, fun u hu => absurd hu List.not_mem_nil⟩⟩
  rw [← Tree.number.inj hm]
  exact h

theorem of_null : null.InRange := ⟨nofun, nofun⟩

theorem of_bool (b : Bool) : (bool b).InRange := ⟨nofun, nofun⟩

theorem of_string (parts : List StringPart) : (string parts).InRange := ⟨nofun, nofun⟩

theorem of_array (gap : Gap) {items : List (Spaced Tree)} (h : ∀ s ∈ items, s.inner.InRange) :
    (array gap items).InRange :=
  ⟨nofun, List.forall_mem_map.2 h⟩

theorem of_object (gap : Gap) {members : List (Spaced (Member Tree))}
    (h : ∀ s ∈ members, s.inner.inner.InRange) : (object gap members).InRange :=
  ⟨nofun, List.forall_mem_map.2 h⟩

end InRange

/-! ## Depth -/

mutual

/-- How many brackets stand inside each other. -/
def depth : Tree → Nat
  | array _ items => itemsDepth items + 1
  | object _ members => membersDepth members + 1
  | _ => 0
termination_by structural t => t

/-- The depth of the deepest item. -/
def itemsDepth : List (Spaced Tree) → Nat
  | [] => 0
  | ⟨_, tree, _⟩ :: rest => max (depth tree) (itemsDepth rest)
termination_by structural t => t

/-- The depth of the deepest value of a member. -/
def membersDepth : List (Spaced (Member Tree)) → Nat
  | [] => 0
  | ⟨_, ⟨_, _, _, tree⟩, _⟩ :: rest => max (depth tree) (membersDepth rest)
termination_by structural t => t

end

theorem itemsDepth_le {items : List (Spaced Tree)} {n : Nat} :
    itemsDepth items ≤ n ↔ ∀ s ∈ items, s.inner.depth ≤ n := by
  induction items with
  | nil => simp [itemsDepth]
  | cons s items ih => rw [itemsDepth, Nat.max_le, ih, List.forall_mem_cons]

theorem membersDepth_le {members : List (Spaced (Member Tree))} {n : Nat} :
    membersDepth members ≤ n ↔ ∀ s ∈ members, s.inner.inner.depth ≤ n := by
  induction members with
  | nil => simp [membersDepth]
  | cons s members ih => rw [membersDepth, Nat.max_le, ih, List.forall_mem_cons]

@[simp] theorem depth_array_le {gap : Gap} {items : List (Spaced Tree)} {n : Nat} :
    (array gap items).depth ≤ n + 1 ↔ ∀ s ∈ items, s.inner.depth ≤ n := by
  rw [depth, Nat.succ_le_succ_iff, itemsDepth_le]

@[simp] theorem depth_object_le {gap : Gap} {members : List (Spaced (Member Tree))} {n : Nat} :
    (object gap members).depth ≤ n + 1 ↔ ∀ s ∈ members, s.inner.inner.depth ≤ n := by
  rw [depth, Nat.succ_le_succ_iff, membersDepth_le]

/-- The value is no deeper than the tree; it is less deep where a member is lost to a later one of its
name. -/
theorem depth_value_le (tree : Tree) : tree.value.depth ≤ tree.depth := by
  induction tree using partsInduction with
  | step tree ih =>
    cases tree with
    | null => exact Nat.zero_le _
    | bool b => exact Nat.zero_le _
    | number n => cases h : n.value <;> simp [value, h, Value.ofNumber, Value.depth]
    | string ps => exact Nat.zero_le _
    | array gap items =>
      rw [value, depth, Value.depth_list_le, itemValues_eq]
      rintro x hx
      obtain ⟨s, hs, rfl⟩ := List.mem_map.1 hx
      exact (ih _ (List.mem_map_of_mem hs)).trans (itemsDepth_le.1 (Nat.le_refl _) s hs)
    | object gap members =>
      rw [value, depth, Value.depth_dict_le, memberValues_eq]
      rintro e he
      obtain ⟨p, hp, rfl⟩ := Entries.mem_lastValues he
      obtain ⟨s, hs, rfl⟩ := List.mem_map.1 hp
      exact (ih _ (List.mem_map_of_mem (f := fun s : Spaced (Member Tree) => s.inner.inner) hs)).trans
        (membersDepth_le.1 (Nat.le_refl _) s hs)

/-- A tree derives its text with white space around it. -/
def Derives (tree : Tree) (t : Text) : Prop :=
  ∃ before after : Gap, t = before.text ++ (tree.text ++ after.text)

end Tree

end DocShape.Json
