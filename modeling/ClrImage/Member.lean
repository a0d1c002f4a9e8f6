import ClrImage.Body
import ClrImage.Constant

/-!
# Generic parameters and members

What an image holds below its types.

* `GenericOwner`, `GenericParam`: generic parameters with the types and methods that share them.
* `FieldDef`, `ParamDef`, `MethodDef`: fields, parameters and methods.
* `Accessor`, `Semantics`: the roles in which properties and events use methods.
* `PropertyDef`, `EventDef`: properties and events.
-/

namespace ClrImage

/-! ## Generic parameters -/

/-- A type or a method that has generic parameters. -/
inductive GenericOwner
  | type (token : Token)
  | method (token : Token)
deriving DecidableEq, Repr

def GenericOwner.token : GenericOwner → Token
  | type token | method token => token

def GenericOwner.describe : GenericOwner → String
  | type token => s!"Type({token.describe})"
  | method token => s!"Method({token.describe})"

/-- A generic parameter. The index identifies it among all that are in scope, the number is its
position in the owner that declared it. -/
structure GenericParam where
  index : UInt32
  number : UInt16
  name : String
  flags : GenericFlags
  declaredBy : GenericOwner
  constraints : Array Signature := #[]
  /-- The types and methods that list the parameter. -/
  owners : Array GenericOwner := #[]
  /-- Whether all constraints have been attached. -/
  isConstrained : Bool := false

namespace GenericParam

/-- The row of a generic parameter follows from its index. -/
def token (p : GenericParam) : Token := .ofParts Table.genericParam (p.index + 1)

def isMethodLevel (p : GenericParam) : Bool :=
  match p.declaredBy with
  | .method _ => true
  | .type _ => false

def isOwnedBy (p : GenericParam) (owner : GenericOwner) : Bool := p.owners.contains owner

end GenericParam

/-! ## Fields -/

structure FieldDef where
  token : Token
  name : String
  flags : FieldFlags
  isStatic : Bool
  type : Signature
  constant : Option Constant := none
  initialData : Option (List UInt8) := none

namespace FieldDef

/-- A field gets a constant once. -/
def setConstant (f : FieldDef) (value : Constant) : Except Failure FieldDef :=
  if f.constant.isSome then .error (.flawed (.fieldHasConstant f.name))
  else .ok { f with constant := some value }

/-- A field gets initial data once. -/
def setInitialData (f : FieldDef) (data : List UInt8) : Except Failure FieldDef :=
  if f.initialData.isSome then .error (.flawed (.fieldHasData f.name))
  else .ok { f with initialData := some data }

end FieldDef

/-! ## Methods -/

structure ParamDef where
  sequence : UInt16
  name : String
  flags : ParamFlags
  constant : Option Constant := none

/-- A parameter gets a default once. -/
def ParamDef.setConstant (p : ParamDef) (value : Constant) : Except Failure ParamDef :=
  if p.constant.isSome then .error (.flawed (.parameterHasDefault p.name))
  else .ok { p with constant := some value }

structure MethodSig where
  hasThis : Bool
  genericCount : Nat
  returnType : Signature
  params : List Signature

structure MethodDef where
  token : Token
  name : String
  flags : MethodFlags
  implFlags : MethodImplFlags
  signature : MethodSig
  generics : Array GenericHandle := #[]
  params : Array ParamHandle := #[]
  body : Option Body := none

namespace MethodDef

/-- Only managed code in the common language that is written in the module itself has a body. -/
def expectsBody (m : MethodDef) : Bool :=
  !m.flags.contains MethodFlags.abstract &&
  !m.flags.contains MethodFlags.platformInvoke &&
  !m.implFlags.contains MethodImplFlags.internalCall &&
  m.implFlags.isManaged &&
  m.implFlags.codeType == .il

end MethodDef

/-! ## Properties and events -/

/-- The ways in which a property or an event uses a method. -/
inductive Accessor
  | getter | setter | add | remove | raise
deriving DecidableEq, Repr

def Accessor.name : Accessor → String
  | getter => "getter"
  | setter => "setter"
  | add => "add"
  | remove => "remove"
  | raise => "raise"

/-- The flag word that marks an accessor. -/
def Accessor.role : Accessor → SemanticsFlags
  | getter => SemanticsFlags.getter
  | setter => SemanticsFlags.setter
  | add => SemanticsFlags.addOn
  | remove => SemanticsFlags.removeOn
  | raise => SemanticsFlags.fire

/-- A method in a role. -/
structure Semantics where
  role : SemanticsFlags
  method : MethodHandle
deriving DecidableEq

/-- The first method whose role is exactly that of an accessor. -/
def accessorMethod? (semantics : Array Semantics) (accessor : Accessor) : Option MethodHandle :=
  (semantics.find? (·.role = accessor.role)).map (·.method)

structure PropertyDef where
  token : Token
  name : String
  flags : PropertyFlags
  hasThis : Bool
  type : Signature
  semantics : Array Semantics := #[]

structure EventDef where
  token : Token
  name : String
  flags : EventFlags
  type : Signature
  semantics : Array Semantics := #[]

end ClrImage
