import ClrImage.Store

/-!
# Stub bodies

A method that expects a body gets one that does nothing but return a default.

* `StubKind`, `StubKind.of`: what a return type asks of a stub.
* `stub`: the body.
-/

namespace ClrImage

/-- What a stub returns: nothing, a value with all bits clear, or the null reference. -/
inductive StubKind
  | void | value | reference
deriving DecidableEq, Repr

namespace StubKind

def name : StubKind → String
  | void => "Void"
  | value => "ValueType"
  | reference => "Reference"

/-- A generic parameter may stand for a value type unless it is constrained to reference types. -/
def of (s : Store) (returnType : Signature) : StubKind :=
  if returnType.isVoid then .void
  else match s.paramOf? returnType with
  | some p => if p.flags.contains GenericFlags.referenceType then .reference else .value
  | none => if s.isValueType returnType then .value else .reference

end StubKind

/-- The default body for a return type. A value is made in a local, through its address. -/
def stub (s : Store) (returnType : Signature) : Body :=
  match StubKind.of s returnType with
  | .void => .ofCode [] false [⟨.ret, .none⟩]
  | .value =>
    .ofCode [returnType] true
      [⟨.ldlocaS, .slot 0⟩, ⟨.initobj, .type returnType⟩, ⟨.ldloc0, .none⟩, ⟨.ret, .none⟩]
  | .reference => .ofCode [] false [⟨.ldnull, .none⟩, ⟨.ret, .none⟩]

end ClrImage
