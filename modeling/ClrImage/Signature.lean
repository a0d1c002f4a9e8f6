import ClrImage.Arena
import ClrImage.Primitive
import ClrImage.TypeExpr

/-!
# Signatures

Types as an image holds them: declared types and generic parameters by handle. Signatures do not
keep the objects they name alive, so a handle may outlive its object.

* `SigAtom`, `Signature`: the resolved types.
-/

namespace ClrImage

/-- What a signature is built from. A declared type appears as a class or as a value type. -/
inductive SigAtom
  | primitive (p : Primitive)
  | classType (type : TypeHandle)
  | valueType (type : TypeHandle)
  /-- A generic parameter of a type. -/
  | var (param : GenericHandle)
  /-- A generic parameter of a method. -/
  | mvar (param : GenericHandle)
deriving DecidableEq, Repr, Inhabited

/-- A resolved type. -/
abbrev Signature := TypeExpr SigAtom

namespace Signature

def primitive (p : Primitive) : Signature := .atom (.primitive p)
def classType (type : TypeHandle) : Signature := .atom (.classType type)
def valueType (type : TypeHandle) : Signature := .atom (.valueType type)
def var (param : GenericHandle) : Signature := .atom (.var param)
def mvar (param : GenericHandle) : Signature := .atom (.mvar param)

/-- Only the primitive type void is void. -/
def isVoid : Signature → Bool
  | .atom (.primitive p) => p.isVoid
  | _ => false

/-- Whether the signature names a declared type by itself. -/
def isDeclared : Signature → Bool
  | .atom (.classType _) | .atom (.valueType _) => true
  | _ => false

/-- The generic parameter that the signature stands for. -/
def param? : Signature → Option GenericHandle
  | .atom (.var h) | .atom (.mvar h) => some h
  | _ => none

/-- The declared type of the signature; an instantiation has that of its definition. -/
def declared? : Signature → Option TypeHandle
  | .atom (.classType h) | .atom (.valueType h) => some h
  | .inst definition _ => declared? definition
  | _ => none

end Signature

end ClrImage
