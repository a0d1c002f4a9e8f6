import ClrImage.GenericRegistry
import ClrImage.LinkTable
import ClrImage.Store

/-!
# Object pools

Objects outside of a build. An object stays as long as something holds it; signatures do not.

* `Pool`: objects with a link table and a registry of their own.
* `Pool.holdsType`, `Pool.holdsGeneric`: whether an object is held.
* `Pool.collect`: takes away what nothing holds.
-/

namespace ClrImage

/-- Objects, and what holds them. Types and generic parameters are listed from their creation until
they are dropped. -/
structure Pool where
  store : Store := {}
  links : LinkTable := {}
  registry : GenericRegistry := default
  droppedTypes : List TypeHandle := []
  droppedGenerics : List GenericHandle := []

namespace Pool

instance : Inhabited Pool := ⟨{}⟩

def listsType (p : Pool) (h : TypeHandle) : Bool := !p.droppedTypes.contains h

def listsGeneric (p : Pool) (h : GenericHandle) : Bool := !p.droppedGenerics.contains h

/-- A type is held by the list and by the link table. -/
def holdsType (p : Pool) (h : TypeHandle) : Bool :=
  p.listsType h || p.links.types.values.contains h

/-- A generic parameter is held by the list, by the registry, and by the types and methods that list
it. -/
def holdsGeneric (p : Pool) (h : GenericHandle) : Bool :=
  p.listsGeneric h || p.registry.toList.contains h ||
  (p.store.types.handles.any fun type =>
    (p.store.types.get? type).any fun t => t.generics.contains h) ||
  (p.store.methods.handles.any fun method =>
    (p.store.methods.get? method).any fun m => m.generics.contains h)

/-- Takes away every dropped object that is no longer held: types first, because they hold generic
parameters. -/
def collect (p : Pool) : Pool :=
  let gone := p.droppedTypes.filter (!p.holdsType ·)
  let p := { p with store := { p.store with types := gone.foldl Arena.release p.store.types } }
  let gone := p.droppedGenerics.filter (!p.holdsGeneric ·)
  { p with store := { p.store with generics := gone.foldl Arena.release p.store.generics } }

/-- Takes a type off the list. -/
def dropType (p : Pool) (h : TypeHandle) : Pool :=
  collect { p with droppedTypes := h :: p.droppedTypes }

/-- Takes a generic parameter off the list. -/
def dropGeneric (p : Pool) (h : GenericHandle) : Pool :=
  collect { p with droppedGenerics := h :: p.droppedGenerics }

/-- Starts with another registry. -/
def resetRegistry (p : Pool) (scope : RegistryScope) : Pool :=
  collect { p with registry := ⟨scope, {}⟩ }

/-- Registers a parameter under a key; if the key is free the parameter becomes an object. -/
def register (p : Pool) (key : GenericKey) (param : GenericParam) : (GenericHandle × Bool) × Pool :=
  let (outcome, registry) := p.registry.register key p.store.generics.next
  let generics := if outcome.2 then p.store.generics.alloc param else p.store.generics
  (outcome, { p with store := { p.store with generics }, registry })

end Pool

end ClrImage
