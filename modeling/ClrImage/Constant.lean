import ClrImage.Bytes
import ClrImage.Decimal.Shortest
import ClrImage.Primitive

/-!
# Constants

The values that fields and parameters carry as defaults.

* `Datum`: a value together with its width. Floating-point values are kept as their words.
* `Constant`: a datum under an element type; `Datum.constant` gives each datum its own.
* `Constant.blob`: the bytes in which metadata stores the value.
* `Constant.text`, `Constant.same`: the written form, and equality of values.
-/

namespace ClrImage

/-- A constant value. -/
inductive Datum
  | null
  | boolean (value : Bool)
  | char (value : Char)
  | i1 (value : Int8)
  | u1 (value : UInt8)
  | i2 (value : Int16)
  | u2 (value : UInt16)
  | i4 (value : Int32)
  | u4 (value : UInt32)
  | i8 (value : Int64)
  | u8 (value : UInt64)
  | r4 (word : UInt32)
  | r8 (word : UInt64)
  | string (value : String)
deriving DecidableEq, Repr

/-- A value and the element type under which it is stored. -/
structure Constant where
  elementType : UInt8
  datum : Datum
deriving DecidableEq, Repr

namespace Datum

/-- The element type of a datum; the null reference is stored as a class. -/
def elementType : Datum → UInt8
  | null => ElementType.reference
  | boolean _ => ElementType.boolean
  | char _ => ElementType.char
  | i1 _ => ElementType.i1
  | u1 _ => ElementType.u1
  | i2 _ => ElementType.i2
  | u2 _ => ElementType.u2
  | i4 _ => ElementType.i4
  | u4 _ => ElementType.u4
  | i8 _ => ElementType.i8
  | u8 _ => ElementType.u8
  | r4 _ => ElementType.r4
  | r8 _ => ElementType.r8
  | string _ => ElementType.string

/-- The constant with the datum's own element type. -/
def constant (d : Datum) : Constant := ⟨d.elementType, d⟩

/-- The stored bytes: integers and floats little-endian in their width, text in UTF-16, a truth
value in one byte, the null reference as four zeros. -/
def blob : Datum → List UInt8
  | null => Bytes.ofNat 4 0
  | boolean b => [if b then 1 else 0]
  | char c => (Text.utf16OfChar c).flatMap Bytes.ofUInt16
  | i1 v => [v.toUInt8]
  | u1 v => [v]
  | i2 v => Bytes.ofUInt16 v.toUInt16
  | u2 v => Bytes.ofUInt16 v
  | i4 v => Bytes.ofUInt32 v.toUInt32
  | u4 v => Bytes.ofUInt32 v
  | i8 v => Bytes.ofUInt64 v.toUInt64
  | u8 v => Bytes.ofUInt64 v
  | r4 w => Bytes.ofUInt32 w
  | r8 w => Bytes.ofUInt64 w
  | string s => (Text.utf16 s).flatMap Bytes.ofUInt16

/-- Text and characters stand in quotes, just as they are. -/
def text : Datum → String
  | null => "null"
  | boolean b => if b then "true" else "false"
  | char c => "'" ++ String.singleton c ++ "'"
  | i1 v => toString v.toInt
  | u1 v => toString v.toNat
  | i2 v => toString v.toInt
  | u2 v => toString v.toNat
  | i4 v => toString v.toInt
  | u4 v => toString v.toNat
  | i8 v => toString v.toInt
  | u8 v => toString v.toNat
  | r4 w => Decimal.render Decimal.binary32 w.toNat
  | r8 w => Decimal.render Decimal.binary64 w.toNat
  | string s => "\"" ++ s ++ "\""

/-- Equality of values. Floating-point values are compared as numbers, not as words. -/
def same : Datum → Datum → Bool
  | r4 a, r4 b => Decimal.binary32.sameNumber a.toNat b.toNat
  | r8 a, r8 b => Decimal.binary64.sameNumber a.toNat b.toNat
  | a, b => a == b

end Datum

namespace Constant

/-- The null reference under no element type. -/
def absent : Constant := ⟨0, .null⟩

def blob (c : Constant) : List UInt8 := c.datum.blob

def text (c : Constant) : String := c.datum.text

/-- Equal constants have the same element type and equal values. -/
def same (a b : Constant) : Bool := a.elementType == b.elementType && a.datum.same b.datum

end Constant

end ClrImage
