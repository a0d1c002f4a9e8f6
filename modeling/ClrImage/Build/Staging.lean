import ClrImage.Build.Parameters
import ClrImage.Stub

/-!
# Staged members

The members of a type are made one after the other and held back until all of them are there.

* `Staged`: members that have been made and not been published.
* `Setup.makeField`, `Setup.makeMethod`, …: make one member.
* `Setup.stage`: makes all members of a type.
-/

namespace ClrImage

/-- Members of a type that are not yet listed or linked, with the tokens to link them under. -/
structure Staged where
  fields : Array (Token × FieldHandle) := #[]
  methods : Array (Token × MethodHandle) := #[]
  properties : Array (Token × PropertyHandle) := #[]
  events : Array (Token × EventHandle) := #[]

/-- The first staged method with a token. -/
def Staged.method? (staged : Staged) (token : Token) : Option MethodHandle :=
  (staged.methods.find? (·.1 = token)).map (·.2)

/-! ## Making members -/

namespace Build

def allocField (f : FieldDef) : Build FieldHandle :=
  modifyGet fun s =>
    (s.store.fields.next,
      { s with store := { s.store with fields := s.store.fields.alloc f } })

def allocParam (p : ParamDef) : Build ParamHandle :=
  modifyGet fun s =>
    (s.store.params.next,
      { s with store := { s.store with params := s.store.params.alloc p } })

def allocMethod (m : MethodDef) : Build MethodHandle :=
  modifyGet fun s =>
    (s.store.methods.next,
      { s with store := { s.store with methods := s.store.methods.alloc m } })

def allocProperty (p : PropertyDef) : Build PropertyHandle :=
  modifyGet fun s =>
    (s.store.properties.next,
      { s with store := { s.store with properties := s.store.properties.alloc p } })

def allocEvent (e : EventDef) : Build EventHandle :=
  modifyGet fun s =>
    (s.store.events.next,
      { s with store := { s.store with events := s.store.events.alloc e } })

end Build

/-- Where members are made: the name of their type, and the top-level type around it. -/
structure MemberSite where
  typeName : String
  topLevel : Token

namespace Setup

/-- Makes a field. Constants and initial data are attached if the flags announce them. -/
def makeField (setup : Setup) (site : MemberSite) (f : FieldPlan) : Build FieldHandle := do
  let type ← setup.resolve site.topLevel f.type
  let hasDefault := f.flags.contains FieldFlags.hasDefault
  let hasData := f.flags.contains FieldFlags.hasInitialData
  if hasDefault && f.default.isNone then
    setup.missing (.fieldDefault site.typeName f.name)
  if hasData && f.initialData.isNone then
    setup.missing (.fieldData site.typeName f.name)
  Build.allocField
    { token := f.token, name := f.name, flags := f.flags, isStatic := f.isStatic, type
      constant := if hasDefault then f.default else none
      initialData := if hasData then f.initialData else none }

/-- Makes the parameter at a position; positions are numbered from one in 16 bits. A default is
attached if the flags announce it. -/
def makeParam (setup : Setup) (site : MemberSite) (method : String) (position : Nat)
    (p : ParamPlan) : Build ParamHandle := do
  if 0xFFFF ≤ position then
    throw (.flawed (.tooManyParameters method))
  let hasDefault := p.flags.contains ParamFlags.hasDefault
  if hasDefault && p.default.isNone then
    setup.missing (.parameterDefault p.name site.typeName method)
  if !hasDefault && p.default.isSome then
    Build.notice (.defaultIgnored p.name site.typeName method)
  Build.allocParam
    { sequence := UInt16.ofNat (position + 1), name := p.name, flags := p.flags
      constant := if hasDefault then p.default else none }

/-- Registers and constrains the generic parameters of a method. -/
def makeMethodGenerics (setup : Setup) (site : MemberSite) (m : MethodPlan) :
    Build (Array GenericHandle) := do
  match m.generics with
  | none => pure #[]
  | some params =>
    let (listed, pending) ← declareGenerics (.method m.token) site.topLevel #[] params
    setup.constrainGenerics site.topLevel pending
    pure listed

/-- Makes a method, with a stub for a body if it expects one. -/
def makeMethod (setup : Setup) (site : MemberSite) (m : MethodPlan) : Build MethodHandle := do
  let generics ← setup.makeMethodGenerics site m
  let returnType ← setup.resolve site.topLevel m.returnType
  let paramTypes ← m.params.toList.mapM fun p => setup.resolve site.topLevel p.type
  let params ← m.params.toList.zipIdx.mapM fun (p, position) =>
    setup.makeParam site m.name position p
  let method : MethodDef :=
    { token := m.token, name := m.name, flags := m.flags, implFlags := m.implFlags
      signature :=
        { hasThis := !m.isStatic, genericCount := generics.size, returnType, params := paramTypes }
      generics, params := params.toArray }
  let store := (← get).store
  Build.allocMethod
    { method with body := if method.expectsBody then some (stub store returnType) else none }

/-- The method behind an accessor: one of the type itself, or one that has been published. -/
def wireAccessor (staged : Staged) (owner : String) (accessor : Accessor)
    (m : Option MethodPlan) : Build (Array Semantics) := do
  match m with
  | none => pure #[]
  | some m =>
    match staged.method? m.token <|> (← get).links.methods.get? m.token with
    | some h => pure #[⟨accessor.role, h⟩]
    | none => throw (.missingLink owner accessor.name m.token)

/-- Makes a property. -/
def makeProperty (setup : Setup) (site : MemberSite) (staged : Staged) (p : PropertyPlan) :
    Build PropertyHandle := do
  let type ← setup.resolve site.topLevel p.type
  let owner := s!"{site.typeName}::{p.name}"
  let getter ← wireAccessor staged owner .getter p.getter
  let setter ← wireAccessor staged owner .setter p.setter
  Build.allocProperty
    { token := p.token, name := p.name, flags := p.flags, hasThis := !p.isStatic, type
      semantics := getter ++ setter }

/-- Makes an event. -/
def makeEvent (setup : Setup) (site : MemberSite) (staged : Staged) (e : EventPlan) :
    Build EventHandle := do
  let type ← setup.resolve site.topLevel e.type
  let owner := s!"{site.typeName}::{e.name}"
  let add ← wireAccessor staged owner .add e.add
  let remove ← wireAccessor staged owner .remove e.remove
  let raise ← wireAccessor staged owner .raise e.raise
  Build.allocEvent
    { token := e.token, name := e.name, flags := e.flags, type
      semantics := add ++ remove ++ raise }

/-- Makes all members of a type, each kind in order. Properties and events come after the methods
that they use. -/
def stage (setup : Setup) (site : MemberSite) (p : TypePlan) : Build Staged := do
  let fields ← p.fields.toList.mapM fun f => do
    pure (f.token, ← setup.makeField site f)
  let methods ← p.methods.toList.mapM fun m => do
    pure (m.token, ← setup.makeMethod site m)
  let staged : Staged := { fields := fields.toArray, methods := methods.toArray }
  let properties ← p.properties.toList.mapM fun q => do
    pure (q.token, ← setup.makeProperty site staged q)
  let events ← p.events.toList.mapM fun e => do
    pure (e.token, ← setup.makeEvent site staged e)
  pure { staged with properties := properties.toArray, events := events.toArray }

end Setup

end ClrImage
