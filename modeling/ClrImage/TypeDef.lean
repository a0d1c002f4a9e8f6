import ClrImage.Member

/-!
# Declared types

* `Flavor`: whether a type is a class, a value type or an interface.
* `TypeDef`: a declared type with its hierarchy, generic parameters and members.
-/

namespace ClrImage

inductive Flavor
  | classType | valueType | interface
deriving DecidableEq, Repr, Inhabited

def Flavor.name : Flavor → String
  | classType => "Class"
  | valueType => "ValueType"
  | interface => "Interface"

/-- The flavor with a name. -/
def Flavor.ofName? (name : String) : Option Flavor :=
  [classType, valueType, interface].find? (·.name == name)

/-- The name by which a type is known among types of its own nesting: behind the namespace, if there
is one. -/
def qualifiedName (space name : String) : String :=
  if space.isEmpty then name else s!"{space}.{name}"

/-- A declared type. Declaring type and base are set at most once. -/
structure TypeDef where
  token : Token
  space : String
  name : String
  flags : TypeFlags
  flavor : Flavor
  module : String
  declaring : Option TypeHandle := none
  base : Option Signature := none
  /-- Whether base, interfaces and generic parameters are complete. -/
  isConfigured : Bool := false
  interfaces : Array Signature := #[]
  generics : Array GenericHandle := #[]
  fields : Array FieldHandle := #[]
  methods : Array MethodHandle := #[]
  properties : Array PropertyHandle := #[]
  events : Array EventHandle := #[]

/-- The name of a type that is not nested. -/
def TypeDef.ownName (t : TypeDef) : String := qualifiedName t.space t.name

end ClrImage
