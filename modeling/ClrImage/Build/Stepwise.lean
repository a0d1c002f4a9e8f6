import ClrImage.Build.Hierarchy
import ClrImage.Build.Publication
import ClrImage.Build.Threads

/-!
# Passes step by step

The second and the third pass, with what they do for a type cut into steps. A step looks up or
changes one entry of what all types have in common: the link table, the registry, a parameter, the
recorded failures. What concerns only the type at hand, such as its own list of members or members
that are not published yet, may be done in the same step, and what is done is told in it. So may be
all look-ups of a reference: tables only grow, and a reference whose atoms are looked up at
different times resolves as if they had been looked up at once at some time in between
(`Stepwise.linearizes_resolve`).

* `Stepwise.declareGeneric`, `Stepwise.populate`, …: what is done for a type, as threads.
* `Schedules`: a schedule for each round of threads.
* `Setup.configureHierarchyBy`, `Setup.populateMembersBy`: the passes.
-/

namespace ClrImage

/-! ## Single looks and changes -/

namespace Build

/-- The key of an index, and the parameter that is registered under it. -/
def lookUpGeneric (index : UInt32) (topLevel : Token) :
    Build (GenericKey × Option GenericHandle) := do
  let registry := (← get).registry
  let key := registry.key index topLevel
  pure (key, registry.get? key)

/-- Whether an owner is still to be recorded for a parameter. -/
def lacksOwner (h : GenericHandle) (owner : GenericOwner) : Build Bool := do
  match (← get).store.generics.get? h with
  | none => pure false
  | some param => pure (!param.isOwnedBy owner)

/-- Tells of sharing if a parameter has several owners. -/
def noticeSharing (h : GenericHandle) (owner : GenericOwner) : Build Unit := do
  match (← get).store.generics.get? h with
  | none => pure ()
  | some param =>
    if 1 < param.owners.size then
      notice (.parameterShared param.name param.index param.declaredBy owner)

/-- Sets the base of a type that has none. -/
def setBase (h : TypeHandle) (base : Signature) : Build Unit := do
  let store ← liftExcept ((← get).store.setBase h base)
  modify fun s => { s with store }

/-- The full name of a type. -/
def lookUpFullName (t : TypeDef) : Build String := do
  pure ((← get).store.fullName t)

/-- Makes a method of which only the body is missing. -/
def finishMethod (method : MethodDef) : Build MethodHandle := do
  let store := (← get).store
  allocMethod
    { method with
      body := if method.expectsBody then some (stub store method.signature.returnType) else none }

/-- Records the failure of a type. -/
def record (failure : Failure) : Build Unit :=
  modify fun s => { s with failures := s.failures.push failure }

/-- Whether a staged token is linked. -/
def lookUpTaken (taken : LinkTable → Bool) : Build Bool := do
  pure (taken (← get).links)

end Build

/-- The tokens of staged members, each with the test whether it is linked already, in the order in
which they are tested. -/
def Staged.tests (staged : Staged) : List (Token × (LinkTable → Bool)) :=
  staged.fields.toList.map (fun e => (e.1, fun links => (links.fields.get? e.1).isSome)) ++
  staged.methods.toList.map (fun e => (e.1, fun links => (links.methods.get? e.1).isSome)) ++
  staged.properties.toList.map (fun e => (e.1, fun links => (links.properties.get? e.1).isSome)) ++
  staged.events.toList.map (fun e => (e.1, fun links => (links.events.get? e.1).isSome))

namespace Stepwise

/-! ## Generic parameters -/

/-- Records an owner of a parameter. Sharing is told. -/
def addOwner (h : GenericHandle) (owner : GenericOwner) : Thread Unit := do
  if ← Build.lacksOwner h owner then
    Build.modifyGeneric h fun param => { param with owners := param.owners.push owner }
    Build.noticeSharing h owner

/-- The parameter of an index, and whether it was made. A parameter that is not found is made and
offered to the registry, which may hold another one by then. -/
def obtainGeneric (owner : GenericOwner) (topLevel : Token) (g : GenericPlan) :
    Thread (GenericHandle × Bool) := do
  match ← Build.lookUpGeneric g.index topLevel with
  | (_, some h) => pure (h, false)
  | (key, none) => Build.registerGeneric key owner g

/-- Registers one parameter of an owner. -/
def declareGeneric (owner : GenericOwner) (topLevel : Token)
    (acc : Array GenericHandle × Array PendingGeneric) (g : GenericPlan) :
    Thread (Array GenericHandle × Array PendingGeneric) := do
  let (h, isNew) ← obtainGeneric owner topLevel g
  let (listed, pending) := acc
  let listed := if listed.contains h then listed else listed.push h
  addOwner h owner
  if isNew then
    Build.notice (.parameterRegistered g.name g.index owner)
    pure (listed, pending.push ⟨h, g.constraints⟩)
  else
    pure (listed, pending)

/-- Registers the parameters of an owner in order. -/
def declareGenerics (owner : GenericOwner) (topLevel : Token) (listed : Array GenericHandle)
    (params : Array GenericPlan) : Thread (Array GenericHandle × Array PendingGeneric) :=
  params.toList.foldlM (declareGeneric owner topLevel) (listed, #[])

/-- Attaches the constraints of one parameter. -/
def constrainGeneric (setup : Setup) (topLevel : Token) (pending : PendingGeneric) :
    Thread Unit := do
  pending.constraints.toList.forM fun constraint => do
    let sig ← setup.resolve topLevel constraint
    Build.modifyGeneric pending.param fun param =>
      { param with constraints := param.constraints.push sig }
  Build.modifyGeneric pending.param fun param => { param with isConstrained := true }

/-- Attaches the constraints of new parameters, in order. -/
def constrainGenerics (setup : Setup) (topLevel : Token) (pending : Array PendingGeneric) :
    Thread Unit :=
  pending.toList.forM (constrainGeneric setup topLevel)

/-! ## The hierarchy of a type -/

/-- Runs a thread for a type; its failure is told and gets the context of the type. -/
def inContext {α : Type} (setup : Setup) (phase : Phase) (p : TypePlan) (thread : Thread α) :
    Thread α :=
  tryCatch thread fun source => do throw (← setup.fail phase p source)

/-- Registers the generic parameters of a type that is not configured yet. -/
def declareTypeGenerics (setup : Setup) (p : TypePlan) : Thread (Array PendingGeneric) := do
  let (h, t) ← Build.managedType p
  match p.generics with
  | none => pure #[]
  | some params =>
    if t.isConfigured then
      pure #[]
    else
      let (listed, pending) ←
        declareGenerics (.type p.token) (setup.blueprint.topLevel p) t.generics params
      Build.modifyType h fun t => { t with generics := listed }
      pure pending

/-- Sets the base of a type. -/
def configureBase (setup : Setup) (topLevel : Token) (h : TypeHandle) (base : TypeRef) :
    Thread Unit := do
  let sig ← setup.resolve topLevel base
  Build.setBase h sig

/-- Adds an interface to a type. -/
def configureInterface (setup : Setup) (topLevel : Token) (h : TypeHandle) (interface : TypeRef) :
    Thread Unit := do
  let sig ← setup.resolve topLevel interface
  Build.modifyType h fun t => { t with interfaces := t.interfaces.push sig }

/-- Gives a type its constraints, base and interfaces, and marks it as configured. -/
def configure (setup : Setup) (p : TypePlan) (pending : Array PendingGeneric) : Thread Unit := do
  let (h, t) ← Build.managedType p
  if t.isConfigured then
    Build.notice (.alreadyConfigured h)
  else
    let topLevel := setup.blueprint.topLevel p
    constrainGenerics setup topLevel pending
    p.base.forM (configureBase setup topLevel h)
    p.interfaces.toList.forM (configureInterface setup topLevel h)
    Build.modifyType h fun t => { t with isConfigured := true }
    Setup.noticeConfigured h

/-! ## The members of a type -/

/-- Registers and constrains the generic parameters of a method. -/
def makeMethodGenerics (setup : Setup) (site : MemberSite) (m : MethodPlan) :
    Thread (Array GenericHandle) := do
  match m.generics with
  | none => pure #[]
  | some params =>
    let (listed, pending) ← declareGenerics (.method m.token) site.topLevel #[] params
    constrainGenerics setup site.topLevel pending
    pure listed

/-- Makes a method. -/
def makeMethod (setup : Setup) (site : MemberSite) (m : MethodPlan) : Thread MethodHandle := do
  let generics ← makeMethodGenerics setup site m
  let returnType ← setup.resolve site.topLevel m.returnType
  let paramTypes ← m.params.toList.mapM fun p => liftM (setup.resolve site.topLevel p.type)
  let params ← m.params.toList.zipIdx.mapM fun (p, position) =>
    liftM (setup.makeParam site m.name position p)
  Build.finishMethod
    { token := m.token, name := m.name, flags := m.flags, implFlags := m.implFlags
      signature :=
        { hasThis := !m.isStatic, genericCount := generics.size, returnType, params := paramTypes }
      generics, params := params.toArray }

/-- Makes a property. -/
def makeProperty (setup : Setup) (site : MemberSite) (staged : Staged) (p : PropertyPlan) :
    Thread PropertyHandle := do
  let type ← setup.resolve site.topLevel p.type
  let owner := s!"{site.typeName}::{p.name}"
  let getter ← Setup.wireAccessor staged owner .getter p.getter
  let setter ← Setup.wireAccessor staged owner .setter p.setter
  Build.allocProperty
    { token := p.token, name := p.name, flags := p.flags, hasThis := !p.isStatic, type
      semantics := getter ++ setter }

/-- Makes an event. -/
def makeEvent (setup : Setup) (site : MemberSite) (staged : Staged) (e : EventPlan) :
    Thread EventHandle := do
  let type ← setup.resolve site.topLevel e.type
  let owner := s!"{site.typeName}::{e.name}"
  let add ← Setup.wireAccessor staged owner .add e.add
  let remove ← Setup.wireAccessor staged owner .remove e.remove
  let raise ← Setup.wireAccessor staged owner .raise e.raise
  Build.allocEvent
    { token := e.token, name := e.name, flags := e.flags, type
      semantics := add ++ remove ++ raise }

/-- Makes all members of a type. A field is made in one step: only its type is looked up. -/
def stage (setup : Setup) (site : MemberSite) (p : TypePlan) : Thread Staged := do
  let fields ← p.fields.toList.mapM fun f => do
    pure (f.token, ← setup.makeField site f)
  let methods ← p.methods.toList.mapM fun m => do
    pure (m.token, ← makeMethod setup site m)
  let staged : Staged := { fields := fields.toArray, methods := methods.toArray }
  let properties ← p.properties.toList.mapM fun q => do
    pure (q.token, ← makeProperty setup site staged q)
  let events ← p.events.toList.mapM fun e => do
    pure (e.token, ← makeEvent setup site staged e)
  pure { staged with properties := properties.toArray, events := events.toArray }

/-- Links and lists all staged members of a type, unless one of their tokens is taken when it is
looked up. A member is listed in the step that links it. -/
def publish (type : TypeHandle) (staged : Staged) : Thread Unit := do
  match ← staged.tests.findM? fun test => liftM (Build.lookUpTaken test.2) with
  | some test => throw (.duplicateLink test.1)
  | none =>
    staged.fields.toList.forM fun e =>
      liftM <| Build.publishMember type LinkTable.linkField (fun t h =>
        { t with fields := t.fields.push h }) e
    staged.methods.toList.forM fun e =>
      liftM <| Build.publishMember type LinkTable.linkMethod (fun t h =>
        { t with methods := t.methods.push h }) e
    staged.properties.toList.forM fun e =>
      liftM <| Build.publishMember type LinkTable.linkProperty (fun t h =>
        { t with properties := t.properties.push h }) e
    staged.events.toList.forM fun e =>
      liftM <| Build.publishMember type LinkTable.linkEvent (fun t h =>
        { t with events := t.events.push h }) e

/-- Makes and publishes the members of a type. -/
def populate (setup : Setup) (p : TypePlan) : Thread Unit := do
  let (h, t) ← Build.managedType p
  let site : MemberSite := ⟨← Build.lookUpFullName t, setup.blueprint.topLevel p⟩
  let staged ← stage setup site p
  publish h staged
  Build.noticePopulated h

/-- Gives one type its members, or leaves out the pseudo type of the module. -/
def populateType (setup : Setup) (p : TypePlan) : Thread Unit :=
  if p.isModuleType && setup.config.skipModuleType then
    liftM (Build.notice (.skippingMembers p.name))
  else
    inContext setup .members p (populate setup p)

/-- Gives one type its members; if the configuration says so, a failure is only recorded. -/
def populateOrRecord (setup : Setup) (p : TypePlan) : Thread Unit :=
  if setup.config.continueOnTypeError then
    tryCatch (populateType setup p) fun failure => liftM (Build.record failure)
  else
    populateType setup p

end Stepwise

/-! ## Passes -/

/-- A schedule for each round of threads. -/
structure Schedules where
  declaring : Schedule := {}
  configuring : Schedule := {}
  populating : Schedule := {}

namespace Setup

/-- Registers the parameters of every type, then configures every type: side by side if the
configuration says so. -/
def configureHierarchyBy (setup : Setup) (σ : Schedules) : Build Unit := do
  Build.notice (.configuring setup.types.length setup.blueprint.module)
  let pending ← setup.runAll σ.declaring <| setup.types.map fun p =>
    Stepwise.inContext setup .hierarchy p (Stepwise.declareTypeGenerics setup p)
  let _ ← setup.runAll σ.configuring <| (setup.types.zip pending).map fun (p, pending) =>
    Stepwise.inContext setup .hierarchy p (Stepwise.configure setup p pending)
  Build.notice (.hierarchyConfigured (← get).registry.size)

/-- Gives every type its members: side by side if the configuration says so. -/
def populateMembersBy (setup : Setup) (σ : Schedules) : Build Unit := do
  Build.notice
    (.populating setup.types.length setup.blueprint.methodCount setup.blueprint.module)
  let _ ← setup.runAll σ.populating (setup.types.map (Stepwise.populateOrRecord setup))
  Build.notice (.membersPopulated (← get).links.methodCount)

end Setup

end ClrImage
