import ClrImage.Build.Parameters

/-!
# Hierarchy

The second pass gives every type its generic parameters, its base and its interfaces. The parameters
of all types are registered before any reference is resolved, so that references may point forward.

* `Setup.configureType`: configures one type.
* `Setup.configureHierarchy`: the pass over one type after the other.
-/

namespace ClrImage

namespace Setup

/-- Registers the generic parameters of a type that is not configured yet. -/
def declareTypeGenerics (setup : Setup) (p : TypePlan) : Build (Array PendingGeneric) := do
  let (h, t) ← Build.managedType p
  match p.generics with
  | none => pure #[]
  | some params =>
    if t.isConfigured then
      pure #[]
    else
      let (listed, pending) ←
        declareGenerics (.type p.token) (setup.blueprint.topLevel p) t.generics params
      Build.modifyType h fun t => { t with generics := listed }
      pure pending

/-- Sets the base of a type. -/
def configureBase (setup : Setup) (topLevel : Token) (h : TypeHandle) (base : TypeRef) :
    Build Unit := do
  let sig ← setup.resolve topLevel base
  let store ← liftExcept ((← get).store.setBase h sig)
  modify fun s => { s with store }

/-- Adds an interface to a type. -/
def configureInterface (setup : Setup) (topLevel : Token) (h : TypeHandle) (interface : TypeRef) :
    Build Unit := do
  let sig ← setup.resolve topLevel interface
  Build.modifyType h fun t => { t with interfaces := t.interfaces.push sig }

/-- Tells what a type has been configured to. -/
def noticeConfigured (h : TypeHandle) : Build Unit := do
  match (← get).store.types.get? h with
  | none => pure ()
  | some t => Build.notice (.configured h t.base t.interfaces.size t.generics.size)

/-- Gives a type its constraints, base and interfaces, and marks it as configured. -/
def configure (setup : Setup) (p : TypePlan) (pending : Array PendingGeneric) : Build Unit := do
  let (h, t) ← Build.managedType p
  if t.isConfigured then
    Build.notice (.alreadyConfigured h)
  else
    let topLevel := setup.blueprint.topLevel p
    setup.constrainGenerics topLevel pending
    p.base.forM (setup.configureBase topLevel h)
    p.interfaces.toList.forM (setup.configureInterface topLevel h)
    Build.modifyType h fun t => { t with isConfigured := true }
    noticeConfigured h

/-- Configures one type. A type that is configured already stays as it is. -/
def configureType (setup : Setup) (p : TypePlan) : Build Unit := do
  let pending ← setup.inContext .hierarchy p (setup.declareTypeGenerics p)
  setup.inContext .hierarchy p (setup.configure p pending)

/-- Registers the parameters of every type, then configures every type, one after the other up to
the first failure. The pass of a configuration that may process types side by side is
`Setup.configureHierarchyBy`, which is this one where the configuration does not. -/
def configureHierarchy (setup : Setup) : Build Unit := do
  Build.notice (.configuring setup.types.length setup.blueprint.module)
  let pending ← setup.types.mapM fun p =>
    setup.inContext .hierarchy p (setup.declareTypeGenerics p)
  (setup.types.zip pending).forM fun (p, pending) =>
    setup.inContext .hierarchy p (setup.configure p pending)
  Build.notice (.hierarchyConfigured (← get).registry.size)

end Setup

end ClrImage
