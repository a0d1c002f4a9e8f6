import ClrImage.Primitive
import ClrImage.TypeExpr

/-!
# Raw type references

Types as a blueprint names them: declared types by token, generic parameters by index.

* `RefAtom`, `TypeRef`: the references.
* `TypeRef.text`: the text under which a reference is reported.
-/

namespace ClrImage

/-- What a raw reference is built from. -/
inductive RefAtom
  | primitive (p : Primitive)
  | typeDef (token : Token)
  /-- A generic parameter of a type. -/
  | var (index : UInt32)
  /-- A generic parameter of a method. -/
  | mvar (index : UInt32)
deriving DecidableEq, Repr, Inhabited

/-- A type by tokens and indices. -/
abbrev TypeRef := TypeExpr RefAtom

/-- Declared types are written by token and generic parameters by index, a method's with two
marks. -/
def RefAtom.text : RefAtom → String
  | primitive p => p.fullName
  | typeDef token => s!"TypeDef({token.text})"
  | var index => s!"!{index.toNat}"
  | mvar index => s!"!!{index.toNat}"

namespace TypeRef

/-- Array ranks are written as numbers, so that no two ranks look alike. -/
def text (r : TypeRef) : String :=
  TypeExpr.text RefAtom.text (fun rank => s!"[rank {rank.toNat}]") r

def primitive (p : Primitive) : TypeRef := .atom (.primitive p)
def typeDef (token : Token) : TypeRef := .atom (.typeDef token)
def var (index : UInt32) : TypeRef := .atom (.var index)
def mvar (index : UInt32) : TypeRef := .atom (.mvar index)

end TypeRef

end ClrImage
