import ClrImage.Build.Basic

/-!
# Generic parameters of a build

Owners of equal keys share one object. The owner that comes first makes it, and attaches the
constraints, once all parameters that they may name have been made.

* `PendingGeneric`: a new parameter whose constraints are still to be attached.
* `Setup.declareGenerics`: registers the parameters of an owner.
* `Setup.constrainGenerics`: attaches constraints.
-/

namespace ClrImage

/-- A parameter that was made for a plan, and the constraints of that plan. -/
structure PendingGeneric where
  param : GenericHandle
  constraints : Array TypeRef

namespace Build

/-- The parameter registered under a key, made from a plan if there is none; also, whether it was
made. -/
def registerGeneric (key : GenericKey) (owner : GenericOwner) (g : GenericPlan) :
    Build (GenericHandle × Bool) :=
  modifyGet fun s =>
    let (outcome, registry) := s.registry.register key s.store.generics.next
    let generics :=
      if outcome.2 then
        s.store.generics.alloc
          { index := g.index, number := g.number, name := g.name, flags := g.flags
            declaredBy := owner }
      else s.store.generics
    (outcome, { s with store := { s.store with generics }, registry })

/-- Records an owner of a parameter. Sharing is told. -/
def addOwner (h : GenericHandle) (owner : GenericOwner) : Build Unit := do
  match (← get).store.generics.get? h with
  | none => pure ()
  | some param =>
    if param.isOwnedBy owner then
      pure ()
    else
      modifyGeneric h fun param => { param with owners := param.owners.push owner }
      if 0 < param.owners.size then
        notice (.parameterShared param.name param.index param.declaredBy owner)

end Build

namespace Setup

/-- Registers one parameter of an owner. What has been listed and what is pending for the owner
grows accordingly; an object is listed once. -/
def declareGeneric (owner : GenericOwner) (topLevel : Token)
    (acc : Array GenericHandle × Array PendingGeneric) (g : GenericPlan) :
    Build (Array GenericHandle × Array PendingGeneric) := do
  let key := (← get).registry.key g.index topLevel
  let (h, isNew) ← Build.registerGeneric key owner g
  let (listed, pending) := acc
  let listed := if listed.contains h then listed else listed.push h
  Build.addOwner h owner
  if isNew then
    Build.notice (.parameterRegistered g.name g.index owner)
    pure (listed, pending.push ⟨h, g.constraints⟩)
  else
    pure (listed, pending)

/-- Registers the parameters of an owner in order, behind those that it lists already. -/
def declareGenerics (owner : GenericOwner) (topLevel : Token) (listed : Array GenericHandle)
    (params : Array GenericPlan) : Build (Array GenericHandle × Array PendingGeneric) :=
  params.toList.foldlM (declareGeneric owner topLevel) (listed, #[])

/-- Attaches the constraints of one parameter. -/
def constrainGeneric (setup : Setup) (topLevel : Token) (pending : PendingGeneric) :
    Build Unit := do
  pending.constraints.toList.forM fun constraint => do
    let sig ← setup.resolve topLevel constraint
    Build.modifyGeneric pending.param fun param =>
      { param with constraints := param.constraints.push sig }
  Build.modifyGeneric pending.param fun param => { param with isConstrained := true }

/-- Attaches the constraints of new parameters, in order. -/
def constrainGenerics (setup : Setup) (topLevel : Token) (pending : Array PendingGeneric) :
    Build Unit :=
  pending.toList.forM (setup.constrainGeneric topLevel)

end Setup

end ClrImage
