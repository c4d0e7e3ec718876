/-!
# Text as a sequence of code points

A document may hold lone surrogates (an escape such as `\ud800` on its own), which no `String`
can hold. `Text` is therefore a list of code points, and its length counts code points. String
literals coerce to `Text`; `Text.toString?` goes back where every code point is a scalar value.
-/

namespace DocShape

/-- A Unicode code point, surrogates included. -/
abbrev CodePoint := Fin 0x110000

/-- A sequence of code points. -/
abbrev Text := List CodePoint

namespace CodePoint

theorem toNat_lt (c : Char) : c.toNat < 0x110000 := by
  have h := c.valid
  simp only [UInt32.isValidChar, Nat.isValidChar] at h
  have e : c.toNat = c.val.toNat := rfl
  omega

/-- The code point of a character. -/
def ofChar (c : Char) : CodePoint := ⟨c.toNat, toNat_lt c⟩

/-- Stands for what spells no code point. -/
def replacement : CodePoint := ofChar '\uFFFD'

/-- May stand in front of a text to tell its encoding, and is no part of it then. -/
def byteOrderMark : CodePoint := ofChar '\uFEFF'

/-- The code point of a number, the replacement outside the code space. -/
def ofNat (n : Nat) : CodePoint := if h : n < 0x110000 then ⟨n, h⟩ else replacement

/-- High surrogates open a surrogate pair. -/
def isHighSurrogate (c : CodePoint) : Bool := 0xD800 ≤ c.val && c.val ≤ 0xDBFF

/-- Low surrogates close a surrogate pair. -/
def isLowSurrogate (c : CodePoint) : Bool := 0xDC00 ≤ c.val && c.val ≤ 0xDFFF

/-- Surrogates are code points that stand for no character. -/
def isSurrogate (c : CodePoint) : Bool := 0xD800 ≤ c.val && c.val ≤ 0xDFFF

/-- The character of a code point, where it has one. -/
def toChar? (c : CodePoint) : Option Char :=
  if c.isSurrogate then none else some (Char.ofNat c.val)

/-- `0` to `9`. -/
def isDigit (c : CodePoint) : Bool := 0x30 ≤ c.val && c.val ≤ 0x39

/-- `0` to `7`. -/
def isOctalDigit (c : CodePoint) : Bool := 0x30 ≤ c.val && c.val ≤ 0x37

/-- `a` to `z` and `A` to `Z`. -/
def isLetter (c : CodePoint) : Bool :=
  (0x41 ≤ c.val && c.val ≤ 0x5A) || (0x61 ≤ c.val && c.val ≤ 0x7A)

/-- The value of a hexadecimal digit. -/
def hexValue? (c : CodePoint) : Option Nat :=
  if c.isDigit then some (c.val - 0x30)
  else if 0x61 ≤ c.val && c.val ≤ 0x66 then some (c.val - 0x61 + 10)
  else if 0x41 ≤ c.val && c.val ≤ 0x46 then some (c.val - 0x41 + 10)
  else none

/-- `0` to `9`, `a` to `f` and `A` to `F`. -/
def isHexDigit (c : CodePoint) : Bool := c.hexValue?.isSome

/-- The value of a decimal digit; other code points have no meaning here. -/
def digitValue (c : CodePoint) : Nat := c.val - 0x30

/-- Capital ASCII letters become small; everything else stays. -/
def toLowerAscii (c : CodePoint) : CodePoint :=
  if 0x41 ≤ c.val && c.val ≤ 0x5A then ofNat (c.val + 0x20) else c

/-- Letters, digits, `_` and `-`: the characters a name is made of. -/
def isNameChar (c : CodePoint) : Bool :=
  c.isLetter || c.isDigit || c.val == 0x5F || c.val == 0x2D

end CodePoint

instance : Coe Char CodePoint := ⟨CodePoint.ofChar⟩

namespace Text

/-- The code points of a string. -/
def ofString (s : String) : Text := s.toList.map CodePoint.ofChar

/-- The string with these code points, unless one of them is a surrogate. -/
def toString? (t : Text) : Option String := (t.mapM CodePoint.toChar?).map String.ofList

/-- A natural number in decimal digits. -/
def ofNat (n : Nat) : Text := (Nat.toDigits 10 n).map CodePoint.ofChar

/-- An integer in decimal digits, with `-` in front when it is negative. -/
def ofInt : Int → Text
  | .ofNat n => ofNat n
  | .negSucc n => CodePoint.ofChar '-' :: ofNat (n + 1)

/-- The parts with a separator between neighbours. -/
def join (separator : Text) : List Text → Text
  | [] => []
  | [t] => t
  | t :: ts => t ++ separator ++ join separator ts

/-- The number that decimal digits stand for. -/
def toNat (digits : Text) : Nat := digits.foldl (fun n c => n * 10 + c.digitValue) 0

/-- The number that digits of a base stand for, none if one of them is no such digit. -/
def toNatBase? (base : Nat) (digits : Text) : Option Nat :=
  digits.foldlM (fun n c => do
    let d ← c.hexValue?
    if d < base then some (n * base + d) else none) 0

/-- At least one character, each a letter, a digit, `_` or `-`. -/
def isName (t : Text) : Bool := !t.isEmpty && t.all CodePoint.isNameChar

/-- Two hexadecimal digits, in small letters. -/
def hex2 (n : Nat) : Text := [n / 16 % 16, n % 16].map fun d => CodePoint.ofChar (Nat.digitChar d)

/-- Four hexadecimal digits, in small letters. -/
def hex4 (n : Nat) : Text := hex2 (n / 256) ++ hex2 (n % 256)

/-- Eight hexadecimal digits, in small letters. -/
def hex8 (n : Nat) : Text := hex4 (n / 65536) ++ hex4 (n % 65536)

/-- Digits padded with zeros in front, up to a width. -/
def padLeft (width : Nat) (t : Text) : Text :=
  List.replicate (width - t.length) (CodePoint.ofChar '0') ++ t

/-- Splits at each occurrence of a code point: `a.b` at `.` gives `a` and `b`. -/
def splitOn (separator : CodePoint) : Text → List Text
  | [] => [[]]
  | c :: rest =>
    if c = separator then [] :: splitOn separator rest
    else match splitOn separator rest with
      | [] => [[c]]
      | part :: parts => (c :: part) :: parts

/-- The text without the code points that satisfy the test at either end. -/
def trim (isBlank : CodePoint → Bool) (t : Text) : Text :=
  ((t.dropWhile isBlank).reverse.dropWhile isBlank).reverse

end Text

instance : Coe String Text := ⟨Text.ofString⟩

end DocShape
