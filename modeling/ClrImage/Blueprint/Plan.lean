import ClrImage.TypeDef
import ClrImage.TypeRef

/-!
# Plans

What is known of a module before an image of it is built: its types and members with raw references
instead of signatures.

* `GenericPlan`, `ParamPlan`, `FieldPlan`, `MethodPlan`, `PropertyPlan`, `EventPlan`: the parts.
* `TypePlan`: a type with all its parts.
-/

namespace ClrImage

/-- A generic parameter with its constraints. -/
structure GenericPlan where
  index : UInt32
  number : UInt16
  name : String
  flags : GenericFlags
  constraints : Array TypeRef := #[]

structure ParamPlan where
  name : String
  type : TypeRef
  flags : ParamFlags := .empty
  default : Option Constant := none

namespace ParamPlan

/-- Replaces the flags. -/
def withFlags (p : ParamPlan) (flags : ParamFlags) : ParamPlan := { p with flags }

/-- Gives a default, and the flags that announce it beside those that are there. -/
def withDefault (p : ParamPlan) (value : Constant) : ParamPlan :=
  { p with
    flags := p.flags.union (ParamFlags.hasDefault.union ParamFlags.optional)
    default := some value }

end ParamPlan

structure FieldPlan where
  token : Token
  name : String
  flags : FieldFlags
  type : TypeRef
  default : Option Constant := none
  initialData : Option (List UInt8) := none

def FieldPlan.isStatic (f : FieldPlan) : Bool := f.flags.contains FieldFlags.static

structure MethodPlan where
  token : Token
  name : String
  flags : MethodFlags
  implFlags : MethodImplFlags
  returnType : TypeRef
  params : Array ParamPlan := #[]
  generics : Option (Array GenericPlan) := none

def MethodPlan.isStatic (m : MethodPlan) : Bool := m.flags.isStatic

/-- A property holds the plans of its accessors. -/
structure PropertyPlan where
  token : Token
  name : String
  flags : PropertyFlags
  type : TypeRef
  getter : Option MethodPlan := none
  setter : Option MethodPlan := none

/-- A property is static if one of its accessors is. -/
def PropertyPlan.isStatic (p : PropertyPlan) : Bool :=
  p.getter.any MethodPlan.isStatic || p.setter.any MethodPlan.isStatic

/-- An event holds the plans of its accessors. -/
structure EventPlan where
  token : Token
  name : String
  flags : EventFlags
  type : TypeRef
  add : Option MethodPlan := none
  remove : Option MethodPlan := none
  raise : Option MethodPlan := none

structure TypePlan where
  token : Token
  space : String
  name : String
  flags : TypeFlags
  flavor : Flavor
  module : String
  declaring : Option Token := none
  base : Option TypeRef := none
  interfaces : Array TypeRef := #[]
  generics : Option (Array GenericPlan) := none
  fields : Array FieldPlan := #[]
  methods : Array MethodPlan := #[]
  properties : Array PropertyPlan := #[]
  events : Array EventPlan := #[]

namespace TypePlan

/-- The name of the pseudo type that holds the globals of a module. -/
def moduleTypeName : String := "<Module>"

/-- Whether the type is the pseudo type of its module. -/
def isModuleType (p : TypePlan) : Bool := p.space.isEmpty && p.name == moduleTypeName

/-- Whether the type has generic parameters; an empty list of them does not count. -/
def isGeneric (p : TypePlan) : Bool := p.generics.any (!·.isEmpty)

/-- The name of a type that is not nested. -/
def ownName (p : TypePlan) : String := qualifiedName p.space p.name

/-- The first method with a token. -/
def method? (p : TypePlan) (token : Token) : Option MethodPlan :=
  p.methods.find? (·.token = token)

/-- The type as it is declared: nothing but what identifies it. -/
def declaration (p : TypePlan) : TypeDef :=
  { token := p.token, space := p.space, name := p.name, flags := p.flags, flavor := p.flavor
    module := p.module }

end TypePlan

end ClrImage
