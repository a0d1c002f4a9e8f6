import ClrImage.Build.Basic

/-!
# Declaration

The first pass makes an object for every planned type and nests the objects in each other.

* `Setup.declareTypes`: the pass.
-/

namespace ClrImage

namespace Build

/-- Makes the object of a type and links it under the type's token. -/
def declareType (p : TypePlan) : Build Unit := do
  let h := (← get).store.types.next
  let links ← liftExcept ((← get).links.linkType p.token h)
  modify fun s =>
    { s with
      store := { s.store with types := s.store.types.alloc p.declaration }
      links
      declared := s.declared.push h }

end Build

namespace Setup

/-- Nests a declared type in its declaring type. -/
def wireDeclaring (setup : Setup) (p : TypePlan) : Build Unit := do
  match p.declaring with
  | none => pure ()
  | some outer =>
    if setup.blueprint.isNestingCyclic p then
      throw (.flawed (.cyclicNesting p.name))
    else match (← get).links.types.get? outer with
    | none => throw (.flawed (.unknownDeclaring outer p.name))
    | some outerHandle =>
      let h ← Build.managed p
      let store ← liftExcept ((← get).store.setDeclaring h outerHandle)
      modify fun s => { s with store }

/-- Declares every type, then nests every type. -/
def declareTypes (setup : Setup) : Build Unit := do
  setup.types.forM fun p => setup.inContext .declare p (Build.declareType p)
  setup.types.forM fun p => setup.inContext .declare p (setup.wireDeclaring p)
  Build.notice (.declared (← get).links.typeCount setup.blueprint.module)

end Setup

end ClrImage
