import ClrImage.Bytes

/-!
# Flag words

Metadata rows carry words whose bits have names. A flag word keeps every bit it is given, the
unnamed ones included.

* `FlagKind`: the kinds of flag word, each with its width, title and named bits.
* `Flags`: a word of a kind, with the operations of a set of bits.
* `Flags.split`, `Flags.names`, `Flags.describe`: the named part of a word, and its text.
* `TypeFlags`, `FieldFlags`, `MethodFlags`, …: the kinds by name, with the bits that have a meaning
  to this library.
-/

namespace ClrImage

/-! ## Kinds of flag word -/

/-- What a flag word belongs to. -/
inductive FlagKind
  | type | field | method | methodImpl | param | property | event | genericParam | semantics | body
deriving DecidableEq, Repr

namespace FlagKind

/-- Body headers have 16 flag bits, all other words 32. -/
@[reducible] def width : FlagKind → Nat
  | body => 16
  | _ => 32

/-- The title under which a word of the kind is written. -/
def title : FlagKind → String
  | type => "TypeAttributes"
  | field => "FieldAttributes"
  | method => "MethodAttributes"
  | methodImpl => "MethodImplAttributes"
  | param => "ParamAttributes"
  | property => "PropertyAttributes"
  | event => "EventAttributes"
  | genericParam => "GenericParamAttributes"
  | semantics => "MethodSemanticsAttributes"
  | body => "MethodBodyFlags"

/-- Every kind once. -/
def list : List FlagKind :=
  [type, field, method, methodImpl, param, property, event, genericParam, semantics, body]

/-- The kind with a title. -/
def ofTitle? (title : String) : Option FlagKind := list.find? (·.title == title)

/-- The named bits of the kind, in the order in which they are listed. -/
def named : (k : FlagKind) → List (String × BitVec k.width)
  | type =>
    [("PUBLIC", 0x1), ("NESTED_PUBLIC", 0x2), ("INTERFACE", 0x20), ("ABSTRACT", 0x80),
     ("SEALED", 0x100), ("SPECIAL_NAME", 0x400), ("RT_SPECIAL_NAME", 0x800), ("IMPORT", 0x1000),
     ("SERIALIZABLE", 0x2000), ("HAS_SECURITY", 0x40000), ("BEFORE_FIELD_INIT", 0x100000)]
  | field =>
    [("PRIVATE", 0x1), ("PUBLIC", 0x6), ("STATIC", 0x10), ("INIT_ONLY", 0x20), ("LITERAL", 0x40),
     ("NOT_SERIALIZED", 0x80), ("HAS_FIELD_RVA", 0x100), ("SPECIAL_NAME", 0x200),
     ("RT_SPECIAL_NAME", 0x400), ("HAS_FIELD_MARSHAL", 0x1000), ("PINVOKE_IMPL", 0x2000),
     ("HAS_DEFAULT", 0x8000)]
  | method =>
    [("PRIVATE", 0x1), ("PUBLIC", 0x6), ("UNMANAGED_EXPORT", 0x8), ("STATIC", 0x10),
     ("FINAL", 0x20), ("VIRTUAL", 0x40), ("HIDE_BY_SIG", 0x80), ("NEW_SLOT", 0x100),
     ("STRICT", 0x200), ("ABSTRACT", 0x400), ("SPECIAL_NAME", 0x800), ("RT_SPECIAL_NAME", 0x1000),
     ("PINVOKE_IMPL", 0x2000), ("HAS_SECURITY", 0x4000), ("REQUIRE_SEC_OBJECT", 0x8000)]
  | methodImpl =>
    [("NATIVE", 0x1), ("OPTIL", 0x2), ("UNMANAGED", 0x4), ("NO_INLINING", 0x8),
     ("FORWARD_REF", 0x10), ("SYNCHRONIZED", 0x20), ("NO_OPTIMIZATION", 0x40),
     ("PRESERVE_SIG", 0x80), ("AGGRESSIVE_INLINING", 0x100), ("INTERNAL_CALL", 0x1000)]
  | param =>
    [("IN", 0x1), ("OUT", 0x2), ("OPTIONAL", 0x10), ("HAS_DEFAULT", 0x1000),
     ("HAS_FIELD_MARSHAL", 0x2000)]
  | property =>
    [("SPECIAL_NAME", 0x200), ("RT_SPECIAL_NAME", 0x400), ("HAS_DEFAULT", 0x1000)]
  | event => [("SPECIAL_NAME", 0x200), ("RT_SPECIAL_NAME", 0x400)]
  | genericParam =>
    [("COVARIANT", 0x1), ("CONTRAVARIANT", 0x2), ("REFERENCE_TYPE_CONSTRAINT", 0x4),
     ("NOT_NULLABLE_VALUE_TYPE_CONSTRAINT", 0x8), ("DEFAULT_CONSTRUCTOR_CONSTRAINT", 0x10)]
  | semantics =>
    [("SETTER", 0x1), ("GETTER", 0x2), ("OTHER", 0x4), ("ADD_ON", 0x8), ("REMOVE_ON", 0x10),
     ("FIRE", 0x20)]
  | body => [("TINY_FORMAT", 0x2), ("FAT_FORMAT", 0x3), ("MORE_SECTS", 0x8), ("INIT_LOCALS", 0x10)]

end FlagKind

/-! ## Flag words as sets of bits -/

/-- A flag word of kind `k`. -/
structure Flags (k : FlagKind) where
  bits : BitVec k.width
deriving DecidableEq

namespace Flags

variable {k : FlagKind}

instance : Inhabited (Flags k) := ⟨⟨0⟩⟩

/-- The flag word with the lowest bits of a number. -/
def ofNat (n : Nat) : Flags k := ⟨BitVec.ofNat _ n⟩

/-- The word as a number. -/
def toNat (f : Flags k) : Nat := f.bits.toNat

/-- No bit at all. -/
def empty : Flags k := ⟨0⟩

/-- Every named bit of the kind. -/
def all : Flags k := ⟨k.named.foldl (fun bits entry => bits ||| entry.2) 0⟩

def isEmpty (f : Flags k) : Bool := f.bits == 0

/-- Whether every named bit is set. -/
def isAll (f : Flags k) : Bool := all.bits ||| f.bits == f.bits

def union (f g : Flags k) : Flags k := ⟨f.bits ||| g.bits⟩

def inter (f g : Flags k) : Flags k := ⟨f.bits &&& g.bits⟩

/-- The bits of `f` that `g` lacks. -/
def diff (f g : Flags k) : Flags k := ⟨f.bits &&& ~~~g.bits⟩

/-- The bits of exactly one of the two words. -/
def symmDiff (f g : Flags k) : Flags k := ⟨f.bits ^^^ g.bits⟩

/-- Whether `f` has every bit of `g`. -/
def contains (f g : Flags k) : Bool := f.bits &&& g.bits == g.bits

/-- Whether the words share a bit. -/
def intersects (f g : Flags k) : Bool := f.bits &&& g.bits != 0

/-- The word without its unnamed bits. -/
def truncate (f : Flags k) : Flags k := f.inter all

/-- The named bits that the word lacks. -/
def complement (f : Flags k) : Flags k := ⟨~~~f.bits &&& all.bits⟩

/-- Whether the word has named bits only. -/
def isKnown (f : Flags k) : Bool := (f.diff all).isEmpty

/-! ## Names -/

/-- Walks the named flags in their order. A flag is listed if the word holds all of it and a bit of
it is still unaccounted for; its bits are then accounted for. The second component is what no listed
flag covers. -/
def splitAlong (f : Flags k) :
    List (String × BitVec k.width) → BitVec k.width → List String × BitVec k.width
  | [], remaining => ([], remaining)
  | (name, flag) :: rest, remaining =>
    if f.contains ⟨flag⟩ && remaining &&& flag != 0 then
      let (names, left) := splitAlong f rest (remaining &&& ~~~flag)
      (name :: names, left)
    else
      splitAlong f rest remaining

/-- The names of the flags in the word, and the bits that they leave over. -/
def split (f : Flags k) : List String × BitVec k.width :=
  f.splitAlong k.named f.bits

/-- The names of the flags in the word. -/
def names (f : Flags k) : List String := f.split.1

/-- The title of the kind around the names and, in hexadecimal, the bits left over. -/
def describe (f : Flags k) : String :=
  let (names, rest) := f.split
  let parts :=
    if rest == 0 && !names.isEmpty then names else names ++ ["0x" ++ Text.hex 1 rest.toNat]
  k.title ++ "(" ++ " | ".intercalate parts ++ ")"

end Flags

/-! ## The kinds by name -/

abbrev TypeFlags := Flags .type
abbrev FieldFlags := Flags .field
abbrev MethodFlags := Flags .method
abbrev MethodImplFlags := Flags .methodImpl
abbrev ParamFlags := Flags .param
abbrev PropertyFlags := Flags .property
abbrev EventFlags := Flags .event
abbrev GenericFlags := Flags .genericParam
abbrev SemanticsFlags := Flags .semantics
abbrev BodyFlags := Flags .body

/-- The visibility of a type is a number in the lowest three bits. -/
def TypeFlags.visibility (f : TypeFlags) : Nat := f.toNat % 8

namespace FieldFlags

def static : FieldFlags := ⟨0x10⟩
def hasInitialData : FieldFlags := ⟨0x100⟩
def hasDefault : FieldFlags := ⟨0x8000⟩

/-- The access of a field is a number in the lowest three bits. -/
def access (f : FieldFlags) : Nat := f.toNat % 8

end FieldFlags

namespace MethodFlags

def static : MethodFlags := ⟨0x10⟩
def abstract : MethodFlags := ⟨0x400⟩
def platformInvoke : MethodFlags := ⟨0x2000⟩

/-- The access of a method is a number in the lowest three bits. -/
def access (f : MethodFlags) : Nat := f.toNat % 8

def isStatic (f : MethodFlags) : Bool := f.contains static

end MethodFlags

/-- How the body of a method is written. -/
inductive CodeType
  | il | native | optimizedIl | runtime
deriving DecidableEq, Repr

/-- The name of a code type. -/
def CodeType.name : CodeType → String
  | il => "IL"
  | native => "Native"
  | optimizedIl => "OptIL"
  | runtime => "Runtime"

namespace MethodImplFlags

def unmanaged : MethodImplFlags := ⟨0x4⟩
def internalCall : MethodImplFlags := ⟨0x1000⟩

/-- The code type is a number in the lowest two bits. -/
def codeType (f : MethodImplFlags) : CodeType :=
  match f.toNat % 4 with
  | 0 => .il
  | 1 => .native
  | 2 => .optimizedIl
  | _ => .runtime

def isManaged (f : MethodImplFlags) : Bool := !f.contains unmanaged

end MethodImplFlags

namespace ParamFlags

def optional : ParamFlags := ⟨0x10⟩
def hasDefault : ParamFlags := ⟨0x1000⟩

end ParamFlags

namespace GenericFlags

/-- The argument must be a reference type. -/
def referenceType : GenericFlags := ⟨0x4⟩

/-- The argument must be a value type that is not nullable. -/
def valueType : GenericFlags := ⟨0x8⟩

end GenericFlags

namespace SemanticsFlags

def setter : SemanticsFlags := ⟨0x1⟩
def getter : SemanticsFlags := ⟨0x2⟩
def addOn : SemanticsFlags := ⟨0x8⟩
def removeOn : SemanticsFlags := ⟨0x10⟩
def fire : SemanticsFlags := ⟨0x20⟩

end SemanticsFlags

namespace BodyFlags

def tinyFormat : BodyFlags := ⟨0x2⟩
def fatFormat : BodyFlags := ⟨0x3⟩
def initLocals : BodyFlags := ⟨0x10⟩

end BodyFlags

end ClrImage
