import ClrImage.Image
import ClrImage.Quoted

/-!
# Descriptions

One-line summaries of objects, with the names of their parts.

* `Store.describeType`, `GenericParam.describe`, `MethodDef.describe`, `Image.describe`.
-/

namespace ClrImage

/-- A title in front of named values; `isOpen` says that there are more. -/
def describeRecord (title : String) (parts : List (String × String)) (isOpen : Bool) : String :=
  let fields := parts.map fun part => s!"{part.1}: {part.2}"
  title ++ " \x7b " ++ ", ".intercalate (fields ++ if isOpen then [".."] else []) ++ " \x7d"

/-! ## Signatures -/

/-- A handle shows only what kind of object it names. -/
def describeHandle (title : String) : String :=
  describeRecord title [("weak_ref", "(Weak)")] false

def SigAtom.describe : SigAtom → String
  | primitive p => s!"Primitive({p.shortName})"
  | classType _ => "Class(" ++ describeHandle "ManagedTypeRef" ++ ")"
  | valueType _ => "ValueType(" ++ describeHandle "ManagedTypeRef" ++ ")"
  | var _ => "Var(" ++ describeHandle "GenericParamRef" ++ ")"
  | mvar _ => "MVar(" ++ describeHandle "GenericParamRef" ++ ")"

namespace TypeExpr

variable {α : Type}

mutual

/-- The construction of a type expression, from the outside in. -/
def describe (atom : α → String) : TypeExpr α → String
  | .atom a => atom a
  | .szArray elem => s!"SzArray({elem.describe atom})"
  | .array elem rank =>
    describeRecord "Array" [("base", elem.describe atom), ("rank", toString rank.toNat)] false
  | .pointer elem => s!"Ptr({elem.describe atom})"
  | .byRef elem => s!"ByRef({elem.describe atom})"
  | .inst definition args =>
    describeRecord "GenericInst"
      [("definition", definition.describe atom),
       ("args", "[" ++ ", ".intercalate (describeAll atom args) ++ "]")] false
termination_by structural e => e

/-- The constructions of several type expressions. -/
def describeAll (atom : α → String) : List (TypeExpr α) → List String
  | [] => []
  | e :: rest => e.describe atom :: describeAll atom rest
termination_by structural es => es

end

end TypeExpr

def MethodSig.describe (s : MethodSig) : String :=
  describeRecord "MethodSig"
    [("has_this", toString s.hasThis),
     ("generic_param_count", toString s.genericCount),
     ("return_type", s.returnType.describe SigAtom.describe),
     ("params", "[" ++ ", ".intercalate (s.params.map (·.describe SigAtom.describe)) ++ "]")] false

/-! ## Objects -/

/-- A type with its full name and the size of it. -/
def Store.describeType (s : Store) (t : TypeDef) : String :=
  describeRecord "ManagedType"
    [("token", t.token.describe),
     ("fullname", Text.quoted (s.fullName t)),
     ("flavor", t.flavor.name),
     ("fields", toString t.fields.size),
     ("methods", toString t.methods.size)] false

def GenericParam.describe (p : GenericParam) : String :=
  describeRecord "GenericParameter"
    [("index", toString p.index.toNat),
     ("number", toString p.number.toNat),
     ("name", Text.quoted p.name),
     ("flags", p.flags.describe),
     ("declared_by", p.declaredBy.describe),
     ("constraints", toString p.constraints.size)] false

def MethodDef.describe (m : MethodDef) : String :=
  describeRecord "MethodDefinition"
    [("token", m.token.describe),
     ("name", Text.quoted m.name),
     ("flags", m.flags.describe),
     ("impl_flags", m.implFlags.describe),
     ("signature", m.signature.describe),
     ("params", toString m.params.size),
     ("generic_params", toString m.generics.size)] true

def Image.describe (i : Image) : String :=
  describeRecord "ManagedImage"
    [("module", Text.quoted i.module),
     ("types", toString i.types.size),
     ("generic_params", toString i.registry.size),
     ("failures", toString i.failures.size)] false

end ClrImage
