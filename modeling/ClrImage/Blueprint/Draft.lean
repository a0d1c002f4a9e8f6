import ClrImage.Blueprint.Basic

/-!
# Drafts

A draft grows into a blueprint. It hands out the tokens and refuses requests about entities that it
does not have.

* `Draft`: the types so far, where to find their fields and methods, and the next free rows.
* `Drafting`: an operation on a draft; what it did before a refusal stays.
* `Draft.addType`, `Draft.addMethod`, …: the operations.
* `Draft.finish`: the blueprint.
-/

namespace ClrImage

/-! ## The draft -/

/-- A property whose accessors are still tokens. -/
structure PropertyDraft where
  token : Token
  name : String
  flags : PropertyFlags
  type : TypeRef
  getter : Option Token
  setter : Option Token

/-- An event whose accessors are still tokens. -/
structure EventDraft where
  token : Token
  name : String
  flags : EventFlags
  type : TypeRef
  add : Option Token
  remove : Option Token
  raise : Option Token

/-- A type whose properties and events are not planned yet. -/
structure TypeDraft where
  plan : TypePlan
  properties : Array PropertyDraft := #[]
  events : Array EventDraft := #[]

/-- The position of a member: that of its type, and its own among the members of its kind. -/
structure Place where
  type : Nat
  member : Nat

structure Draft where
  module : String
  types : Array TypeDraft := #[]
  typePlaces : Std.TreeMap Token Nat compare := ∅
  fieldPlaces : Std.TreeMap Token Place compare := ∅
  methodPlaces : Std.TreeMap Token Place compare := ∅
  nextField : UInt32 := 1
  nextMethod : UInt32 := 1
  nextProperty : UInt32 := 1
  nextEvent : UInt32 := 1
  /-- Above every index of a generic parameter so far. -/
  nextGeneric : UInt32 := 0

/-- An operation on a draft. -/
abbrev Drafting := ExceptT Failure (StateM Draft)

namespace Draft

instance : Inhabited Draft := ⟨{ module := "" }⟩

/-! ## Finding entities -/

/-- The position of a type. -/
def typePlace (token : Token) : Drafting Nat := do
  match (← get).typePlaces[token]? with
  | some place => pure place
  | none => throw (.flawed (.unknownType token))

/-- The position of a method. -/
def methodPlace (token : Token) : Drafting Place := do
  match (← get).methodPlaces[token]? with
  | some place => pure place
  | none => throw (.flawed (.unknownMethod token))

/-- The position of a field. -/
def fieldPlace (token : Token) : Drafting Place := do
  match (← get).fieldPlaces[token]? with
  | some place => pure place
  | none => throw (.flawed (.unknownField token))

/-- An accessor may be left out; one that is given is a method of the draft. -/
def checkAccessor : Option Token → Drafting Unit
  | some token => discard (methodPlace token)
  | none => pure ()

/-! ## Changing entities -/

def modifyType (place : Nat) (f : TypeDraft → TypeDraft) : Drafting Unit :=
  modify fun d => { d with types := d.types.modify place f }

def modifyPlan (place : Nat) (f : TypePlan → TypePlan) : Drafting Unit :=
  modifyType place fun t => { t with plan := f t.plan }

def modifyField (place : Place) (f : FieldPlan → FieldPlan) : Drafting Unit :=
  modifyPlan place.type fun p => { p with fields := p.fields.modify place.member f }

def modifyMethod (place : Place) (f : MethodPlan → MethodPlan) : Drafting Unit :=
  modifyPlan place.type fun p => { p with methods := p.methods.modify place.member f }

/-! ## Types -/

/-- Adds a type; types are numbered from one. -/
def addType (space name : String) (flags : TypeFlags) (flavor : Flavor) : Drafting Token := do
  let d ← get
  let place := d.types.size
  let token := Token.ofParts Table.typeDef (UInt32.ofNat place + 1)
  let plan : TypePlan := { token, space, name, flags, flavor, module := d.module }
  modify fun d =>
    { d with types := d.types.push { plan }, typePlaces := d.typePlaces.insert token place }
  pure token

/-- Nests a type in another one. -/
def setDeclaring (inner outer : Token) : Drafting Unit := do
  discard (typePlace outer)
  let place ← typePlace inner
  modifyPlan place fun p => { p with declaring := some outer }

/-- Sets the base of a type; the last one set counts. -/
def setBase (type : Token) (base : TypeRef) : Drafting Unit := do
  let place ← typePlace type
  modifyPlan place fun p => { p with base := some base }

def addInterface (type : Token) (interface : TypeRef) : Drafting Unit := do
  let place ← typePlace type
  modifyPlan place fun p => { p with interfaces := p.interfaces.push interface }

/-! ## Generic parameters -/

/-- Where generic parameters are kept. -/
inductive GenericPlace
  | type (place : Nat)
  | method (place : Place)

/-- The place for the generic parameters of an owner: a type or a method. -/
def genericPlace (owner : Token) : Drafting GenericPlace :=
  if owner.isIn Table.typeDef then GenericPlace.type <$> typePlace owner
  else if owner.isIn Table.methodDef then GenericPlace.method <$> methodPlace owner
  else throw (.flawed (.cannotOwnGenerics owner))

/-- Changes the generic parameters of an owner, which from then on has a list of them. -/
def modifyGenerics (place : GenericPlace) (f : Array GenericPlan → Array GenericPlan) :
    Drafting Unit :=
  let change (generics : Option (Array GenericPlan)) := some (f (generics.getD #[]))
  match place with
  | .type place => modifyPlan place fun p => { p with generics := change p.generics }
  | .method place => modifyMethod place fun m => { m with generics := change m.generics }

/-- The generic parameters of an owner. -/
def generics (d : Draft) : GenericPlace → Array GenericPlan
  | .type place => (d.types[place]?.bind (·.plan.generics)).getD #[]
  | .method place =>
    ((d.types[place.type]?.bind (·.plan.methods[place.member]?)).bind (·.generics)).getD #[]

/-- Adds a generic parameter with a given index. Its number is its position. Fresh indices go on
behind it; but `index + 1` wraps at 0xFFFFFFFF, so this index leaves them where they are. -/
def declareGeneric (owner : Token) (index : UInt32) (name : String) (flags : GenericFlags) :
    Drafting Unit := do
  let place ← genericPlace owner
  modifyGenerics place fun params =>
    params.push { index, number := UInt16.ofNat params.size, name, flags }
  modify fun d => { d with nextGeneric := max d.nextGeneric (index + 1) }

/-- Adds a generic parameter with a fresh index. -/
def addGeneric (owner : Token) (name : String) (flags : GenericFlags) : Drafting UInt32 := do
  let index := (← get).nextGeneric
  declareGeneric owner index name flags
  pure index

/-- Constrains the first generic parameter of an owner that has the index. -/
def addConstraint (owner : Token) (index : UInt32) (constraint : TypeRef) : Drafting Unit := do
  let place ← genericPlace owner
  modifyGenerics place id
  match ((← get).generics place).findIdx? (·.index == index) with
  | some i =>
    modifyGenerics place fun params =>
      params.modify i fun p => { p with constraints := p.constraints.push constraint }
  | none => throw (.flawed (.undeclaredGeneric owner index))

/-! ## Members -/

def addField (type : Token) (name : String) (flags : FieldFlags) (fieldType : TypeRef) :
    Drafting Token := do
  let place ← typePlace type
  let d ← get
  let token := Token.ofParts Table.field d.nextField
  let member := (d.types[place]?.map (·.plan.fields.size)).getD 0
  modify fun d =>
    { d with
      nextField := d.nextField + 1
      fieldPlaces := d.fieldPlaces.insert token ⟨place, member⟩ }
  modifyPlan place fun p =>
    { p with fields := p.fields.push { token, name, flags, type := fieldType } }
  pure token

def setFieldDefault (field : Token) (value : Constant) : Drafting Unit := do
  let place ← fieldPlace field
  modifyField place fun f => { f with default := some value }

def setFieldData (field : Token) (data : List UInt8) : Drafting Unit := do
  let place ← fieldPlace field
  modifyField place fun f => { f with initialData := some data }

def addMethod (type : Token) (name : String) (flags : MethodFlags) (implFlags : MethodImplFlags)
    (returnType : TypeRef) : Drafting Token := do
  let place ← typePlace type
  let d ← get
  let token := Token.ofParts Table.methodDef d.nextMethod
  let member := (d.types[place]?.map (·.plan.methods.size)).getD 0
  modify fun d =>
    { d with
      nextMethod := d.nextMethod + 1
      methodPlaces := d.methodPlaces.insert token ⟨place, member⟩ }
  modifyPlan place fun p =>
    { p with methods := p.methods.push { token, name, flags, implFlags, returnType } }
  pure token

def addParam (method : Token) (param : ParamPlan) : Drafting Unit := do
  let place ← methodPlace method
  modifyMethod place fun m => { m with params := m.params.push param }

def addProperty (type : Token) (name : String) (flags : PropertyFlags) (propertyType : TypeRef)
    (getter setter : Option Token) : Drafting Token := do
  let place ← typePlace type
  checkAccessor getter
  checkAccessor setter
  let token := Token.ofParts Table.property (← get).nextProperty
  modify fun d => { d with nextProperty := d.nextProperty + 1 }
  modifyType place fun t =>
    { t with
      properties := t.properties.push { token, name, flags, type := propertyType, getter, setter } }
  pure token

def addEvent (type : Token) (name : String) (flags : EventFlags) (eventType : TypeRef)
    (add remove raise : Option Token) : Drafting Token := do
  let place ← typePlace type
  checkAccessor add
  checkAccessor remove
  checkAccessor raise
  let token := Token.ofParts Table.event (← get).nextEvent
  modify fun d => { d with nextEvent := d.nextEvent + 1 }
  modifyType place fun t =>
    { t with
      events := t.events.push { token, name, flags, type := eventType, add, remove, raise } }
  pure token

/-! ## The blueprint -/

/-- The plan of a method. -/
def method? (d : Draft) (token : Token) : Option MethodPlan := do
  let place ← d.methodPlaces[token]?
  let type ← d.types[place.type]?
  type.plan.methods[place.member]?

def planProperty (d : Draft) (p : PropertyDraft) : PropertyPlan :=
  { token := p.token, name := p.name, flags := p.flags, type := p.type
    getter := p.getter.bind d.method?
    setter := p.setter.bind d.method? }

def planEvent (d : Draft) (e : EventDraft) : EventPlan :=
  { token := e.token, name := e.name, flags := e.flags, type := e.type
    add := e.add.bind d.method?
    remove := e.remove.bind d.method?
    raise := e.raise.bind d.method? }

/-- The blueprint: accessors are replaced by the plans of the methods they name. -/
def finish (d : Draft) : Blueprint :=
  .ofTypes d.module <| d.types.map fun t =>
    { t.plan with
      properties := t.properties.map d.planProperty
      events := t.events.map d.planEvent }

end Draft

end ClrImage
