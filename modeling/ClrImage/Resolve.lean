import ClrImage.GenericRegistry
import ClrImage.LinkTable
import ClrImage.Store
import ClrImage.TypeRef

/-!
# Resolution

From raw references to signatures. Tokens are looked up in the link table and indices in the
registry.

* `Scope`: what a reference is resolved against.
* `Scope.resolve`: the signature of a reference. It has the shape of the reference.
* `Resolver`: a way to resolve references, and `Resolver.orObject`, which puts up with unknown
  types.
-/

namespace ClrImage

/-- What a reference is resolved against: the objects so far, and the top-level type below which the
reference stands. -/
structure Scope where
  store : Store
  links : LinkTable
  registry : GenericRegistry
  topLevel : Token

/-- A way to resolve references. -/
abbrev Resolver := Scope → TypeRef → Except Failure Signature

namespace Scope

/-- The greatest height of a reference that is resolved. -/
def maxDepth : Nat := 100

/-- A declared type resolves to the object linked under its token. -/
def resolveTypeDef (s : Scope) (token : Token) : Except Failure Signature :=
  let fail (reason : Unresolved) := .error (.unresolved (TypeRef.typeDef token).text reason)
  if !token.isIn Table.typeDef then fail .notTypeDef
  else match s.links.types.get? token with
  | none => fail .notLinked
  | some h =>
    match s.store.types.get? h with
    | none => fail .notLinked
    | some t =>
      .ok (if t.flavor = .valueType then Signature.valueType h else Signature.classType h)

/-- An index resolves to the parameter registered for it; `reference` is what is reported if there
is none. -/
def resolveIndex (s : Scope) (reference : TypeRef) (index : UInt32) :
    Except Failure GenericHandle :=
  match s.registry.get? (s.registry.key index s.topLevel) with
  | some h => .ok h
  | none => .error (.unresolved reference.text (.undeclaredParameter index))

def resolveAtom (s : Scope) : RefAtom → Except Failure Signature
  | .primitive p => .ok (Signature.primitive p)
  | .typeDef token => s.resolveTypeDef token
  | .var index => (s.resolveIndex (TypeRef.var index) index).map Signature.var
  | .mvar index => (s.resolveIndex (TypeRef.mvar index) index).map Signature.mvar

/-- Whether a node at the given depth is still resolved. -/
def checkDepth (depth : Nat) : Except Failure Unit :=
  if maxDepth ≤ depth then .error (.tooDeep maxDepth) else .ok ()

mutual

/-- The signature of a reference that stands at some depth in another one. A node's own faults come
before those of its parts, and an instantiation's definition before its arguments. -/
def resolveAt (s : Scope) : TypeRef → (depth : Nat) → Except Failure Signature
  | .atom a, depth => do
    checkDepth depth
    s.resolveAtom a
  | .szArray elem, depth => do
    checkDepth depth
    let elem ← s.resolveAt elem (depth + 1)
    return .szArray elem
  | .array elem rank, depth => do
    checkDepth depth
    if rank = 0 then
      throw (.unresolved (TypeRef.text (.array elem rank)) .zeroRank)
    else
      let elem ← s.resolveAt elem (depth + 1)
      return .array elem rank
  | .pointer elem, depth => do
    checkDepth depth
    let elem ← s.resolveAt elem (depth + 1)
    return .pointer elem
  | .byRef elem, depth => do
    checkDepth depth
    let elem ← s.resolveAt elem (depth + 1)
    return .byRef elem
  | .inst definition args, depth => do
    checkDepth depth
    if args.isEmpty then
      throw (.unresolved (TypeRef.text (.inst definition args)) .noArguments)
    else
      let sig ← s.resolveAt definition (depth + 1)
      if Signature.isDeclared sig then
        let args ← s.resolveAll args (depth + 1)
        return .inst sig args
      else
        throw <| .unresolved (TypeRef.text (.inst definition args))
          (.notGeneric (s.store.sigText sig))
termination_by structural r => r

/-- The signatures of several references, up to the first that has none. -/
def resolveAll (s : Scope) : List TypeRef → (depth : Nat) → Except Failure (List Signature)
  | [], _ => .ok []
  | r :: rest, depth => do
    let sig ← s.resolveAt r depth
    let sigs ← s.resolveAll rest depth
    return sig :: sigs
termination_by structural rs => rs

end

/-- The signature of a reference. -/
def resolve (s : Scope) (r : TypeRef) : Except Failure Signature := s.resolveAt r 0

end Scope

namespace Resolver

/-- Resolution against the types and parameters of the blueprint. -/
def default : Resolver := Scope.resolve

/-- Takes the primitive type object for references that do not resolve. Depth stays limited. -/
def orObject (r : Resolver) : Resolver := fun scope reference =>
  match r scope reference with
  | .error (.unresolved _ _) => .ok (Signature.primitive .object)
  | result => result

end Resolver

end ClrImage
