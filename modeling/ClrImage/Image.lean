import ClrImage.Build.Declaration
import ClrImage.Build.Stepwise

/-!
# Images

What a build results in: the types of a module with everything that they refer to.

* `Image`: the types, under their tokens and under their full names.
* `Setup.image`: the image of what a build has made.
* `Setup.build`, `Setup.run`: the whole build, one type after the other.
* `Setup.buildBy`, `Setup.runBy`: the whole build, with types side by side if the configuration says
  so.
-/

namespace ClrImage

/-- A finished image. -/
structure Image where
  module : String
  store : Store
  types : Array TypeHandle
  /-- The tokens of the types by full name. -/
  names : Std.TreeMap String (Array Token) compare
  links : LinkTable
  registry : GenericRegistry
  /-- The failures of single types that the build went on over. -/
  failures : Array Failure

namespace Image

/-- The tokens of types by full name, in the order of the types. -/
def nameIndex (store : Store) (types : Array TypeHandle) :
    Std.TreeMap String (Array Token) compare :=
  types.foldl (fun names h =>
    match store.types.get? h with
    | some t => names.alter (store.fullName t) fun tokens => some ((tokens.getD #[]).push t.token)
    | none => names) ∅

/-- The type under a token. -/
def type? (i : Image) (token : Token) : Option TypeHandle := i.links.types.get? token

/-- The types with a full name. -/
def typesNamed (i : Image) (name : String) : List TypeHandle :=
  ((i.names[name]?).getD #[]).toList.filterMap i.type?

/-- The generic parameters, in the order of the registry. -/
def generics (i : Image) : List GenericHandle := i.registry.toList

/-- The number of methods of all types. -/
def methodCount (i : Image) : Nat :=
  i.types.foldl (fun n h => n + ((i.store.types.get? h).map (·.methods.size)).getD 0) 0

/-- The method under a token. -/
def method? (i : Image) (token : Token) : Option MethodDef :=
  (i.links.methods.get? token).bind i.store.methods.get?

/-- Gives the method under a token another body. -/
def replaceBody (i : Image) (token : Token) (body : Body) : Image :=
  match i.links.methods.get? token with
  | none => i
  | some h =>
    let methods := i.store.methods.modify h fun m => { m with body := some body }
    { i with store := { i.store with methods } }

end Image

namespace Setup

/-- The image of what has been made so far. -/
def image (setup : Setup) (s : BuildState) : Image :=
  { module := setup.blueprint.module, store := s.store, types := s.declared
    names := Image.nameIndex s.store s.declared
    links := s.links, registry := s.registry, failures := s.failures }

/-- The three passes, each over one type after the other. With types side by side, as a
configuration may ask for, they are `Setup.buildBy`. -/
def build (setup : Setup) : Build Image := do
  Build.notice
    (.building setup.blueprint.module setup.types.length setup.config.registryScope)
  setup.declareTypes
  setup.configureHierarchy
  setup.populateMembers
  let image := setup.image (← get)
  Build.notice (.built image.module image.types.size image.methodCount image.failures.size)
  pure image

/-- The outcome of a build from nothing, and what it made and told on the way. -/
def run (setup : Setup) : Except Failure Image × BuildState :=
  setup.build.run.run (.initial setup.config)

/-- The three passes, the second and the third of them by schedules. Types are always declared one
after the other. -/
def buildBy (setup : Setup) (σ : Schedules) : Build Image := do
  Build.notice
    (.building setup.blueprint.module setup.types.length setup.config.registryScope)
  setup.declareTypes
  setup.configureHierarchyBy σ
  setup.populateMembersBy σ
  let image := setup.image (← get)
  Build.notice (.built image.module image.types.size image.methodCount image.failures.size)
  pure image

/-- The outcome of a build from nothing by schedules, and what it made and told on the way. -/
def runBy (setup : Setup) (σ : Schedules) : Except Failure Image × BuildState :=
  (setup.buildBy σ).run.run (.initial setup.config)

end Setup

end ClrImage
