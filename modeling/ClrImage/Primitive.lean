import ClrImage.Token

/-!
# Primitive types

The types that every module knows without declaring them.

* `ElementType`: the bytes that stand for types in signatures and constants.
* `Primitive`: the primitive types, with token, element type, full name and kind of storage.
-/

namespace ClrImage

/-! ## Element types -/

namespace ElementType

def void : UInt8 := 0x01
def boolean : UInt8 := 0x02
def char : UInt8 := 0x03
def i1 : UInt8 := 0x04
def u1 : UInt8 := 0x05
def i2 : UInt8 := 0x06
def u2 : UInt8 := 0x07
def i4 : UInt8 := 0x08
def u4 : UInt8 := 0x09
def i8 : UInt8 := 0x0a
def u8 : UInt8 := 0x0b
def r4 : UInt8 := 0x0c
def r8 : UInt8 := 0x0d
def string : UInt8 := 0x0e
def reference : UInt8 := 0x12
def typedReference : UInt8 := 0x16
def nativeInt : UInt8 := 0x18
def nativeUInt : UInt8 := 0x19
def object : UInt8 := 0x1c

end ElementType

/-! ## Primitive types -/

/-- A primitive type. The names of the integers and floats give their kind and their bytes. -/
inductive Primitive
  | void | boolean | char
  | i1 | u1 | i2 | u2 | i4 | u4 | i8 | u8
  | r4 | r8
  | nativeInt | nativeUInt
  | object | string | typedReference
deriving DecidableEq, Repr, Inhabited

namespace Primitive

/-- Every primitive type once, in the order of their tokens. -/
def list : List Primitive :=
  [void, boolean, char, i1, u1, i2, u2, i4, u4, i8, u8, r4, r8, nativeInt, nativeUInt, object,
   string, typedReference]

/-- The position of a primitive type among all of them. -/
def ordinal : Primitive → Nat
  | void => 0
  | boolean => 1
  | char => 2
  | i1 => 3
  | u1 => 4
  | i2 => 5
  | u2 => 6
  | i4 => 7
  | u4 => 8
  | i8 => 9
  | u8 => 10
  | r4 => 11
  | r8 => 12
  | nativeInt => 13
  | nativeUInt => 14
  | object => 15
  | string => 16
  | typedReference => 17

/-- Primitive types have tokens of their own, in a table that no module has. -/
def token (p : Primitive) : Token := ⟨0xF0000001 + UInt32.ofNat p.ordinal⟩

/-- The short name of a primitive type. -/
def shortName : Primitive → String
  | void => "Void"
  | boolean => "Boolean"
  | char => "Char"
  | i1 => "I1"
  | u1 => "U1"
  | i2 => "I2"
  | u2 => "U2"
  | i4 => "I4"
  | u4 => "U4"
  | i8 => "I8"
  | u8 => "U8"
  | r4 => "R4"
  | r8 => "R8"
  | nativeInt => "I"
  | nativeUInt => "U"
  | object => "Object"
  | string => "String"
  | typedReference => "TypedReference"

/-- The primitive type with a short name. -/
def ofShortName? (name : String) : Option Primitive :=
  list.find? (·.shortName == name)

/-- The byte that stands for the primitive type. -/
def elementType : Primitive → UInt8
  | void => ElementType.void
  | boolean => ElementType.boolean
  | char => ElementType.char
  | i1 => ElementType.i1
  | u1 => ElementType.u1
  | i2 => ElementType.i2
  | u2 => ElementType.u2
  | i4 => ElementType.i4
  | u4 => ElementType.u4
  | i8 => ElementType.i8
  | u8 => ElementType.u8
  | r4 => ElementType.r4
  | r8 => ElementType.r8
  | nativeInt => ElementType.nativeInt
  | nativeUInt => ElementType.nativeUInt
  | object => ElementType.object
  | string => ElementType.string
  | typedReference => ElementType.typedReference

/-- The name of the primitive type in the core library. -/
def fullName : Primitive → String
  | void => "System.Void"
  | boolean => "System.Boolean"
  | char => "System.Char"
  | i1 => "System.SByte"
  | u1 => "System.Byte"
  | i2 => "System.Int16"
  | u2 => "System.UInt16"
  | i4 => "System.Int32"
  | u4 => "System.UInt32"
  | i8 => "System.Int64"
  | u8 => "System.UInt64"
  | r4 => "System.Single"
  | r8 => "System.Double"
  | nativeInt => "System.IntPtr"
  | nativeUInt => "System.UIntPtr"
  | object => "System.Object"
  | string => "System.String"
  | typedReference => "System.TypedReference"

def isVoid (p : Primitive) : Bool := p == void

/-- All primitive types but void, objects and strings are stored in place. -/
def isValueType : Primitive → Bool
  | void | object | string => false
  | _ => true

end Primitive

end ClrImage
