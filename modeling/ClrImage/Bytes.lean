/-!
# Bytes, units and digits

Numbers and text as metadata stores them, and as they are written down.

* `Bytes.ofNat`: the lowest bytes of a number, least significant first.
* `Bytes.ofUInt16`, `Bytes.ofUInt32`, `Bytes.ofUInt64`: machine words in their full width.
* `Text.utf16OfChar`, `Text.utf16`: the 16-bit units of characters and strings.
* `Text.hex`: a number with at least a given count of hexadecimal digits, in lower case.
* `Text.hexOfBytes`, `Text.bytesOfHex?`: byte strings, two digits a byte, and back.
-/

namespace ClrImage

/-! ## Little-endian bytes -/

namespace Bytes

/-- The lowest `width` bytes of `n`, least significant first. -/
def ofNat : (width n : Nat) → List UInt8
  | 0, _ => []
  | width + 1, n => UInt8.ofNat n :: ofNat width (n / 256)

/-- A 16-bit word as two bytes. -/
def ofUInt16 (word : UInt16) : List UInt8 := ofNat 2 word.toNat

/-- A 32-bit word as four bytes. -/
def ofUInt32 (word : UInt32) : List UInt8 := ofNat 4 word.toNat

/-- A 64-bit word as eight bytes. -/
def ofUInt64 (word : UInt64) : List UInt8 := ofNat 8 word.toNat

@[simp] theorem length_ofNat (width n : Nat) : (ofNat width n).length = width := by
  induction width generalizing n with
  | zero => rfl
  | succ width ih => simp [ofNat, ih]

end Bytes

namespace Text

/-! ## UTF-16 code units -/

/-- One unit below `0x10000`; above it a high surrogate and a low surrogate. -/
def utf16OfChar (c : Char) : List UInt16 :=
  if c.toNat < 0x10000 then
    [UInt16.ofNat c.toNat]
  else
    let offset := c.toNat - 0x10000
    [UInt16.ofNat (0xD800 + offset / 0x400), UInt16.ofNat (0xDC00 + offset % 0x400)]

/-- The code units of a string, character by character. -/
def utf16 (text : String) : List UInt16 :=
  text.toList.flatMap utf16OfChar

/-! ## Hexadecimal text -/

/-- The hexadecimal digits of `n`, padded on the left with zeros up to `width` digits. -/
def hex (width n : Nat) : String :=
  let digits := Nat.toDigits 16 n
  String.ofList (List.replicate (width - digits.length) '0' ++ digits)

/-- Two hexadecimal digits for each byte. -/
def hexOfBytes (bytes : List UInt8) : String :=
  bytes.foldl (fun text byte => text ++ hex 2 byte.toNat) ""

/-- The value of one hexadecimal digit, in either case. -/
def hexDigit? (c : Char) : Option Nat :=
  if '0' ≤ c ∧ c ≤ '9' then some (c.toNat - '0'.toNat)
  else if 'a' ≤ c ∧ c ≤ 'f' then some (c.toNat - 'a'.toNat + 10)
  else if 'A' ≤ c ∧ c ≤ 'F' then some (c.toNat - 'A'.toNat + 10)
  else none

/-- The number written by hexadecimal digits; `none` if a character is no digit. -/
def natOfHex? (text : String) : Option Nat :=
  text.toList.foldlM (fun n c => (hexDigit? c).map (16 * n + ·)) 0

/-- The bytes written by pairs of hexadecimal digits. -/
def bytesOfDigits? : List Char → Option (List UInt8)
  | [] => some []
  | [_] => none
  | a :: b :: rest => do
    let high ← hexDigit? a
    let low ← hexDigit? b
    let bytes ← bytesOfDigits? rest
    pure (UInt8.ofNat (16 * high + low) :: bytes)

/-- The bytes of a hexadecimal text; `none` unless it consists of whole pairs of digits. -/
def bytesOfHex? (text : String) : Option (List UInt8) :=
  bytesOfDigits? text.toList

end Text

end ClrImage
