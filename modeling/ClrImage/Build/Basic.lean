import ClrImage.Blueprint.Basic
import ClrImage.Notice
import ClrImage.Resolve

/-!
# Builds

A build turns a blueprint into the objects of an image, step by step.

* `Setup`: what a build is given.
* `BuildState`: what it has made so far.
* `Build`: a step. A step that fails keeps what it did before.
* `Setup.resolve`, `managed`, `Setup.inContext`: what the passes have in common.
-/

namespace ClrImage

/-- What a build is given. -/
structure Setup where
  blueprint : Blueprint
  config : Config := {}
  resolver : Resolver := Resolver.default

/-- What a build has made so far. -/
structure BuildState where
  store : Store := {}
  links : LinkTable := {}
  registry : GenericRegistry
  /-- The declared types, in the order of the blueprint. -/
  declared : Array TypeHandle := #[]
  /-- The failures of single types that the build went on over. -/
  failures : Array Failure := #[]
  notices : Array Notice := #[]

/-- Nothing has been made yet. -/
def BuildState.initial (config : Config) : BuildState := { registry := ⟨config.registryScope, {}⟩ }

instance : Inhabited BuildState := ⟨.initial {}⟩

/-- A step of a build. -/
abbrev Build := ExceptT Failure (StateM BuildState)

namespace Build

/-- Tells something. -/
def notice (n : Notice) : Build Unit :=
  modify fun s => { s with notices := s.notices.push n }

def modifyStore (f : Store → Store) : Build Unit :=
  modify fun s => { s with store := f s.store }

def modifyType (h : TypeHandle) (f : TypeDef → TypeDef) : Build Unit :=
  modifyStore fun store => { store with types := store.types.modify h f }

def modifyGeneric (h : GenericHandle) (f : GenericParam → GenericParam) : Build Unit :=
  modifyStore fun store => { store with generics := store.generics.modify h f }

/-- The object linked under the token of a planned type. -/
def managed (p : TypePlan) : Build TypeHandle := do
  match (← get).links.types.get? p.token with
  | some h => pure h
  | none => throw (.unresolved (TypeRef.typeDef p.token).text .notDeclared)

/-- The object linked under the token of a planned type, and what it is at the moment. -/
def managedType (p : TypePlan) : Build (TypeHandle × TypeDef) := do
  let h ← managed p
  match (← get).store.types.get? h with
  | some t => pure (h, t)
  | none => throw (.unresolved (TypeRef.typeDef p.token).text .notDeclared)

end Build

namespace Setup

/-- The signature of a reference below a top-level type. -/
def resolve (setup : Setup) (topLevel : Token) (reference : TypeRef) : Build Signature := do
  let s ← get
  liftExcept (setup.resolver ⟨s.store, s.links, s.registry, topLevel⟩ reference)

/-- A failure in the context of a type. -/
def failureIn (setup : Setup) (phase : Phase) (p : TypePlan) (source : Failure) : Failure :=
  let declaring := (p.declaring.bind setup.blueprint.type?).map setup.blueprint.fullName
  .inType phase (setup.blueprint.fullName p) (declaring.getD absentText) p.module source

/-- Tells of a failure in the context of a type, and gives the failure with the context. -/
def fail (setup : Setup) (phase : Phase) (p : TypePlan) (source : Failure) : Build Failure := do
  let failure := setup.failureIn phase p source
  Build.notice (.failed setup.config.failureLevel failure)
  pure failure

/-- Runs a step for a type; its failure is told and gets the context of the type. -/
def inContext {α : Type} (setup : Setup) (phase : Phase) (p : TypePlan) (step : Build α) :
    Build α :=
  tryCatch step fun source => do throw (← setup.fail phase p source)

/-- A flagged descriptor without its data: a failure if descriptors are strict, else only told. -/
def missing (setup : Setup) (datum : MissingDatum) : Build Unit :=
  if setup.config.strictDescriptors then throw (.flawed (.missing datum))
  else Build.notice (.skipped datum)

/-- The planned types in order. -/
def types (setup : Setup) : List TypePlan := setup.blueprint.types.toList

end Setup

end ClrImage
