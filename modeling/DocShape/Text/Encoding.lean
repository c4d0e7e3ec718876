import DocShape.Text

/-!
# Byte documents

A document given as bytes is text in UTF-8, UTF-16 or UTF-32. `Encoding.detect` tells which by the
byte order mark or, without one, by where the zero bytes among the first four stand: a document
begins with an ASCII character. `Encoding.decode` then reads it; code points that are surrogates
are let through in every encoding, all other faults are refused with their place.
-/

namespace DocShape

/-- How a byte document is encoded. The offset counts the bytes of a byte order mark. -/
inductive Encoding where
  | utf8
  | utf8Marked
  | utf16 (bigEndian : Bool) (mark : Nat)
  | utf32 (bigEndian : Bool) (mark : Nat)
deriving DecidableEq, Repr

namespace Encoding

/-- Why bytes are no text. -/
inductive Reason where
  | startByte
  | continuationByte
  | unexpectedEnd
  | truncated
  | outOfRange
deriving DecidableEq, Repr

/-- The wording of a reason. -/
def Reason.text : Reason → Text
  | startByte => "invalid start byte"
  | continuationByte => "invalid continuation byte"
  | unexpectedEnd => "unexpected end of data"
  | truncated => "truncated data"
  | outOfRange => "code point not in range(0x110000)"

/-- The name of an encoding's decoder. -/
def codecName : Encoding → Text
  | utf8 | utf8Marked => "utf-8"
  | utf16 false _ => "utf-16-le"
  | utf16 true _ => "utf-16-be"
  | utf32 false _ => "utf-32-le"
  | utf32 true _ => "utf-32-be"

/-- Some bytes that are no text: where they begin, how many they are, the first of them, and why. -/
structure Fault where
  encoding : Encoding
  start : Nat
  count : Nat
  first : UInt8
  reason : Reason
deriving DecidableEq, Repr

/-- The wording of a fault. -/
def Fault.text (f : Fault) : Text :=
  let place : Text :=
    if f.count = 1 then
      "byte 0x" ++ Text.hex2 f.first.toNat ++ " in position " ++ Text.ofNat f.start
    else "bytes in position " ++ Text.ofNat f.start ++ "-" ++ Text.ofNat (f.start + f.count - 1)
  "'" ++ f.encoding.codecName ++ "' codec can't decode " ++ place ++ ": " ++ f.reason.text

/-- The marks that a byte document may begin with, and what they mark. The mark of UTF-16 begins one of
UTF-32, which goes first. -/
def marks : List (List UInt8 × Encoding) :=
  [([0x00, 0x00, 0xFE, 0xFF], utf32 true 4), ([0xFF, 0xFE, 0x00, 0x00], utf32 false 4),
    ([0xFE, 0xFF], utf16 true 2), ([0xFF, 0xFE], utf16 false 2), ([0xEF, 0xBB, 0xBF], utf8Marked)]

/-- The encoding of a byte document without a mark, by where it has zeros. -/
def detectUnmarked : List UInt8 → Encoding
  | a :: b :: c :: d :: _ =>
    if a = 0 then (if b ≠ 0 then utf16 true 0 else utf32 true 0)
    else if b = 0 then (if c ≠ 0 ∨ d ≠ 0 then utf16 false 0 else utf32 false 0)
    else utf8
  | [a, b] => if a = 0 then utf16 true 0 else if b = 0 then utf16 false 0 else utf8
  | _ => utf8

/-- The encoding of a byte document. -/
def detect (bytes : List UInt8) : Encoding :=
  match marks.find? fun mark => mark.1.isPrefixOf bytes with
  | some mark => mark.2
  | none => detectUnmarked bytes

/-! ## UTF-8 -/

/-- Whether a byte continues a character. -/
def isTail (b : UInt8) : Bool := 0x80 ≤ b && b ≤ 0xBF

/-- The payload of a tail byte. -/
def tail (b : UInt8) : Nat := b.toNat - 0x80

/-- The character at the front of a byte sequence with its size, or how many bytes are at fault and
why. Surrogates are characters here. -/
def utf8Front : List UInt8 → Except (Nat × Reason) (CodePoint × Nat)
  | [] => .error (0, .unexpectedEnd)
  | a :: rest =>
    if a < 0x80 then .ok (CodePoint.ofNat a.toNat, 1)
    else if a < 0xC2 then .error (1, .startByte)
    else if a < 0xE0 then
      match rest with
      | [] => .error (1, .unexpectedEnd)
      | b :: _ =>
        if isTail b then .ok (CodePoint.ofNat ((a.toNat - 0xC0) * 64 + tail b), 2)
        else .error (1, .continuationByte)
    else if a < 0xF0 then
      match rest with
      | [] => .error (1, .unexpectedEnd)
      | b :: rest =>
        let tooLong := a = 0xE0 ∧ b < 0xA0
        let surrogate := a = 0xED ∧ 0xA0 ≤ b
        if !isTail b ∨ tooLong then .error (1, .continuationByte)
        else match rest with
          | [] => if surrogate then .error (1, .continuationByte) else .error (2, .unexpectedEnd)
          | c :: _ =>
            if isTail c then
              .ok (CodePoint.ofNat ((a.toNat - 0xE0) * 4096 + tail b * 64 + tail c), 3)
            else .error (if surrogate then 1 else 2, .continuationByte)
    else if a < 0xF5 then
      match rest with
      | [] => .error (1, .unexpectedEnd)
      | b :: rest =>
        if !isTail b ∨ (a = 0xF0 ∧ b < 0x90) ∨ (a = 0xF4 ∧ 0x90 ≤ b) then
          .error (1, .continuationByte)
        else match rest with
          | [] => .error (2, .unexpectedEnd)
          | c :: rest =>
            if !isTail c then .error (2, .continuationByte)
            else match rest with
              | [] => .error (3, .unexpectedEnd)
              | d :: _ =>
                if isTail d then
                  .ok (CodePoint.ofNat
                    ((a.toNat - 0xF0) * 262144 + tail b * 4096 + tail c * 64 + tail d), 4)
                else .error (3, .continuationByte)
    else .error (1, .startByte)

/-- Reads UTF-8 from an offset on. Where surrogates are refused, the byte behind the first of one
is at fault. -/
def decodeUtf8 (encoding : Encoding) (surrogates : Bool) :
    (fuel offset : Nat) → List UInt8 → Except Fault Text
  | _, _, [] => .ok []
  | 0, _, _ => .ok []
  | fuel + 1, offset, a :: rest =>
    match utf8Front (a :: rest) with
    | .ok (c, size) =>
      if c.isSurrogate && !surrogates then .error ⟨encoding, offset, 1, a, .continuationByte⟩
      else do
        let more ← decodeUtf8 encoding surrogates fuel (offset + size) ((a :: rest).drop size)
        return c :: more
    | .error (count, reason) => .error ⟨encoding, offset, count, a, reason⟩

/-! ## UTF-16 and UTF-32 -/

/-- The number of two bytes. -/
def unit16 (bigEndian : Bool) (a b : UInt8) : Nat :=
  if bigEndian then a.toNat * 256 + b.toNat else b.toNat * 256 + a.toNat

/-- The code point of a surrogate pair. -/
def joinSurrogates (high low : CodePoint) : CodePoint :=
  CodePoint.ofNat (0x10000 + (high.val - 0xD800) * 0x400 + (low.val - 0xDC00))

/-- Reads UTF-16 from an offset on. A surrogate without its partner stays one. -/
def decodeUtf16 (encoding : Encoding) (bigEndian : Bool) :
    (offset : Nat) → List UInt8 → Except Fault Text
  | _, [] => .ok []
  | offset, [a] => .error ⟨encoding, offset, 1, a, .truncated⟩
  | offset, a :: b :: c :: d :: rest =>
    let first := CodePoint.ofNat (unit16 bigEndian a b)
    let second := CodePoint.ofNat (unit16 bigEndian c d)
    if first.isHighSurrogate && second.isLowSurrogate then do
      return joinSurrogates first second :: (← decodeUtf16 encoding bigEndian (offset + 4) rest)
    else do
      return first :: (← decodeUtf16 encoding bigEndian (offset + 2) (c :: d :: rest))
  | offset, a :: b :: rest => do
    return CodePoint.ofNat (unit16 bigEndian a b) ::
      (← decodeUtf16 encoding bigEndian (offset + 2) rest)

/-- Reads UTF-32 from an offset on. -/
def decodeUtf32 (encoding : Encoding) (bigEndian : Bool) :
    (offset : Nat) → List UInt8 → Except Fault Text
  | _, [] => .ok []
  | offset, a :: b :: c :: d :: rest =>
    let code :=
      if bigEndian then unit16 true a b * 65536 + unit16 true c d
      else unit16 false c d * 65536 + unit16 false a b
    if h : code < 0x110000 then do
      return ⟨code, h⟩ :: (← decodeUtf32 encoding bigEndian (offset + 4) rest)
    else .error ⟨encoding, offset, 4, a, .outOfRange⟩
  | offset, a :: rest => .error ⟨encoding, offset, rest.length + 1, a, .truncated⟩

/-- Reads a byte document in its encoding. Positions count from the start of the document, those of
UTF-8 from behind its byte order mark. -/
def decode (bytes : List UInt8) : Except Fault Text :=
  match detect bytes with
  | utf8 => decodeUtf8 utf8 true bytes.length 0 bytes
  | utf8Marked => decodeUtf8 utf8Marked true bytes.length 0 (bytes.drop 3)
  | utf16 big mark => decodeUtf16 (utf16 big mark) big mark (bytes.drop mark)
  | utf32 big mark => decodeUtf32 (utf32 big mark) big mark (bytes.drop mark)

/-! ## Writing UTF-8 -/

/-- The UTF-8 bytes of a code point. -/
def utf8Bytes (c : CodePoint) : List UInt8 :=
  let n := c.val
  if n < 0x80 then [n.toUInt8]
  else if n < 0x800 then [(0xC0 + n / 64).toUInt8, (0x80 + n % 64).toUInt8]
  else if n < 0x10000 then
    [(0xE0 + n / 4096).toUInt8, (0x80 + n / 64 % 64).toUInt8, (0x80 + n % 64).toUInt8]
  else
    [(0xF0 + n / 262144).toUInt8, (0x80 + n / 4096 % 64).toUInt8, (0x80 + n / 64 % 64).toUInt8,
      (0x80 + n % 64).toUInt8]

/-- Reads bytes that must be UTF-8 without surrogates. -/
def utf8Text (bytes : List UInt8) : Except Fault Text := decodeUtf8 utf8 false bytes.length 0 bytes

/-- The text that bytes spell in UTF-8, none if they spell none. -/
def utf8Text? (bytes : List UInt8) : Option Text := (utf8Text bytes).toOption

/-- A text as a lenient reader of its bytes sees it: a surrogate has three bytes, none of which
spells anything, so three replacement characters stand for it. -/
def lenient (t : Text) : Text :=
  t.flatMap fun c => if c.isSurrogate then List.replicate 3 .replacement else [c]

end Encoding

end DocShape
