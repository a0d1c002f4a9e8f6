import ClrImage.Pool
import ClrImage.Proofs.Objects
import ClrImage.Proofs.Shapes

/-!
# Calls on tables

The link table and the registry are written by calls that offer an object for a token or for a key.
The token may be free, or name the object already, or name another one; the calls may come in any
order. None of them takes back what an earlier one has written, so a reference that has a signature
keeps it, **whatever calls follow**.

- `TableCall`, `Pool.call`, `Pool.callAll`: the calls, and any sequence of them.
- `Pool.Extends`: a pool has all that another one has. It is a preorder, and every call goes up in
  it (`extends_call`).
- `signature_stable`: what a reference stands for does not change behind any calls.
-/

namespace ClrImage

/-! ## Calls -/

/-- A call that writes a table, or makes an object that later calls may offer. -/
inductive TableCall
  | make (k : ObjectKind) (object : Object k)
  | linkType (token : Token) (h : TypeHandle)
  | linkField (token : Token) (h : FieldHandle)
  | linkMethod (token : Token) (h : MethodHandle)
  | linkProperty (token : Token) (h : PropertyHandle)
  | linkEvent (token : Token) (h : EventHandle)
  | register (key : GenericKey) (param : GenericParam)

namespace Pool

/-- The pool behind a call, unless the call is refused. -/
def call (p : Pool) : TableCall → Except Failure Pool
  | .make k object =>
    .ok { p with store := p.store.withArena k ((p.store.arena k).alloc object) }
  | .linkType token h => (p.links.linkType token h).map fun links => { p with links }
  | .linkField token h => (p.links.linkField token h).map fun links => { p with links }
  | .linkMethod token h => (p.links.linkMethod token h).map fun links => { p with links }
  | .linkProperty token h => (p.links.linkProperty token h).map fun links => { p with links }
  | .linkEvent token h => (p.links.linkEvent token h).map fun links => { p with links }
  | .register key param => .ok (p.register key param).2

/-- The pool behind some calls. Those that are refused leave it as it is. -/
def callAll (p : Pool) (calls : List TableCall) : Pool :=
  calls.foldl (fun p call => (p.call call).toOption.getD p) p

/-- What references below a top-level type are resolved against. -/
def scope (p : Pool) (topLevel : Token) : Scope := ⟨p.store, p.links, p.registry, topLevel⟩

/-! ## Growth -/

/-- All that a pool has is still there in another one, and no object has changed. -/
structure Extends (p p' : Pool) : Prop where
  objects : ∀ k, (p.store.arena k).Extends Eq (p'.store.arena k)
  links : p.links.Extends p'.links
  registry : p.registry.params.Extends p'.registry.params
  registryScope : p'.registry.scope = p.registry.scope

namespace Extends

variable {p p₁ p' : Pool}

theorem refl (p : Pool) : p.Extends p where
  objects _ := .refl Eq.refl _
  links := .refl _
  registry := .refl _
  registryScope := rfl

theorem trans (h₁ : p.Extends p₁) (h₂ : p₁.Extends p') : p.Extends p' where
  objects k := (h₁.objects k).trans (fun _ _ _ => Eq.trans) (h₂.objects k)
  links := h₁.links.trans h₂.links
  registry := h₁.registry.trans h₂.registry
  registryScope := h₂.registryScope.trans h₁.registryScope

/-- The tables that resolution reads have grown with the pool. -/
theorem scope (h : p.Extends p') (topLevel : Token) :
    (p.scope topLevel).Extends (p'.scope topLevel) where
  types := by
    refine Arena.Extends.mono ?_ (h.objects .type)
    rintro t _ rfl
    exact .refl t
  linkedTypes := h.links.types
  registry := h.registry
  registryScope := h.registryScope
  topLevel := rfl

end Extends

end Pool

/-- One arena of a store has grown, and the others are what they were. -/
theorem Store.arena_extends_withArena (s : Store) {k : ObjectKind} {a : Arena k (Object k)}
    (ha : (s.arena k).Extends Eq a) (j : ObjectKind) :
    (s.arena j).Extends Eq ((s.withArena k a).arena j) := by
  by_cases hj : j = k
  · subst hj
    rw [arena_withArena]
    exact ha
  · rw [arena_withArena_of_ne s a hj]
    exact .refl Eq.refl _

/-- A link that is accepted leaves all others as they are. -/
theorem LinkTable.extends_of_link {k : ObjectKind} {m m' : WriteOnce Token (Handle k)}
    {token : Token} {h : Handle k} (hlink : LinkTable.link m token h = .ok m') :
    m.Extends m' := by
  rcases link_eq_ok.mp hlink with ⟨-, rfl⟩ | ⟨-, rfl⟩
  · exact WriteOnce.extends_offer m token h
  · exact .refl _

/-- Registering a parameter leaves all others as they are. -/
theorem GenericRegistry.extends_register (r : GenericRegistry) (key : GenericKey)
    (param : GenericHandle) :
    r.params.Extends (r.register key param).2.params ∧
      (r.register key param).2.scope = r.scope := by
  unfold register
  split
  next => exact ⟨.refl _, rfl⟩
  next => exact ⟨WriteOnce.extends_offer r.params key param, rfl⟩

namespace Pool

variable {p p' : Pool}

theorem extends_links {links : LinkTable} (h : p.links.Extends links) :
    p.Extends { p with links } where
  objects _ := .refl Eq.refl _
  links := h
  registry := .refl _
  registryScope := rfl

theorem extends_make (p : Pool) (k : ObjectKind) (object : Object k) :
    p.Extends { p with store := p.store.withArena k ((p.store.arena k).alloc object) } where
  objects := p.store.arena_extends_withArena (Arena.extends_alloc Eq.refl _ object)
  links := .refl _
  registry := .refl _
  registryScope := rfl

/-- A parameter whose key is held does not become an object. -/
theorem extends_register (p : Pool) (key : GenericKey) (param : GenericParam) :
    p.Extends (p.register key param).2 := by
  obtain ⟨hgrows, hscope⟩ := p.registry.extends_register key p.store.generics.next
  have hobjects : p.store.generics.Extends Eq (p.register key param).2.store.generics := by
    by_cases hnew : (p.registry.register key p.store.generics.next).1.2 = true
    · simp only [register, hnew, if_true]
      exact Arena.extends_alloc Eq.refl _ param
    · simp only [register, hnew]
      exact .refl Eq.refl _
  exact ⟨p.store.arena_extends_withArena (k := .generic) hobjects, .refl _, hgrows, hscope⟩

/-- A table of links is written by its own rule, and the others stay as they are. -/
theorem extends_linkIn {k : ObjectKind} {token : Token} {g : Handle k}
    (table : WriteOnce Token (Handle k)) (withTable : WriteOnce Token (Handle k) → LinkTable)
    (hgrows : ∀ m, table.Extends m → p.links.Extends (withTable m))
    (h : ((LinkTable.link table token g).map withTable).map
      (fun links => { p with links }) = .ok p') : p.Extends p' := by
  obtain ⟨links, hlinks, rfl⟩ := map_eq_ok.mp h
  obtain ⟨m, hlink, rfl⟩ := map_eq_ok.mp hlinks
  exact extends_links (hgrows m (LinkTable.extends_of_link hlink))

/-- A call that is accepted takes nothing back. -/
theorem extends_call {call : TableCall} (h : p.call call = .ok p') : p.Extends p' := by
  have hrefl := LinkTable.Extends.refl p.links
  cases call with
  | make k object =>
    obtain rfl := Except.ok.inj h
    exact extends_make p k object
  | linkType token g =>
    exact extends_linkIn p.links.types (fun types => { p.links with types })
      (fun _ hm => { hrefl with types := hm }) h
  | linkField token g =>
    exact extends_linkIn p.links.fields (fun fields => { p.links with fields })
      (fun _ hm => { hrefl with fields := hm }) h
  | linkMethod token g =>
    exact extends_linkIn p.links.methods (fun methods => { p.links with methods })
      (fun _ hm => { hrefl with methods := hm }) h
  | linkProperty token g =>
    exact extends_linkIn p.links.properties (fun properties => { p.links with properties })
      (fun _ hm => { hrefl with properties := hm }) h
  | linkEvent token g =>
    exact extends_linkIn p.links.events (fun events => { p.links with events })
      (fun _ hm => { hrefl with events := hm }) h
  | register key param =>
    obtain rfl := Except.ok.inj h
    exact extends_register p key param

/-- Nor does any sequence of calls. -/
theorem extends_callAll (p : Pool) (calls : List TableCall) : p.Extends (p.callAll calls) := by
  induction calls generalizing p with
  | nil => exact .refl p
  | cons call calls ih =>
    refine .trans ?_ (ih ((p.call call).toOption.getD p))
    cases hcall : p.call call with
    | error e => exact .refl p
    | ok p' => exact extends_call hcall

end Pool

/-! ## Stable signatures -/

/-- What an atom of a signature names is the same object in both stores. A declared type is there
whenever its reference resolves; a registered parameter is as long as its object is kept. -/
def SigAtom.SameObject (s s' : Store) : SigAtom → Prop
  | .primitive _ => True
  | .classType h | .valueType h => ∃ t, s.types.get? h = some t ∧ s'.types.get? h = some t
  | .var g | .mvar g => ∀ x, s.generics.get? g = some x → s'.generics.get? g = some x

namespace Pool

variable {p p' : Pool}

/-- What a reference stands for is still the same object in a pool that has grown. -/
theorem Extends.sameObject (h : p.Extends p') {topLevel : Token} {a : RefAtom} {b : SigAtom}
    (hb : (p.scope topLevel).Names a b) : b.SameObject p.store p'.store := by
  have hgenerics : ∀ g x, p.store.generics.get? g = some x → p'.store.generics.get? g = some x :=
    fun _ _ hx => (h.objects .generic).get?_eq hx
  have htypes : ∀ g t, p.store.types.get? g = some t → p'.store.types.get? g = some t :=
    fun _ _ ht => (h.objects .type).get?_eq ht
  cases b with
  | primitive q => trivial
  | classType g =>
    cases a <;> simp only [Scope.Names] at hb
    obtain ⟨-, t, ht, -⟩ := hb
    exact ⟨t, ht, htypes g t ht⟩
  | valueType g =>
    cases a <;> simp only [Scope.Names] at hb
    obtain ⟨-, t, ht, -⟩ := hb
    exact ⟨t, ht, htypes g t ht⟩
  | var g => exact hgenerics g
  | mvar g => exact hgenerics g

/-- **A signature is stable.** Whatever calls follow, accepted or refused, a reference that has a
signature keeps it, and the signature names the objects that it named before. -/
theorem signature_stable {p : Pool} {topLevel : Token} {r : TypeRef} {sig : Signature}
    (h : (p.scope topLevel).resolve r = .ok sig) (calls : List TableCall) :
    ((p.callAll calls).scope topLevel).resolve r = .ok sig ∧
      ∀ b ∈ sig.atoms, b.SameObject p.store (p.callAll calls).store := by
  have hextends := p.extends_callAll calls
  refine ⟨Scope.resolve_extends (hextends.scope topLevel) h, ?_⟩
  intro b hb
  have hatoms : List.Forall₂ (p.scope topLevel).Names r.atoms sig.atoms :=
    TypeExpr.Rel.atoms r sig (Scope.resolve_rel h)
  obtain ⟨a, -, ha⟩ := exists_of_forall₂ hatoms.flip hb
  exact hextends.sameObject ha

end Pool

/-! ### A shelf -/

/-- The name under which a type of the shelf is made. -/
def shelfType (row : UInt32) (name : String) (flavor : Flavor) : TableCall :=
  .make .type
    { token := .ofParts Table.typeDef row, space := "", name, flags := .empty, flavor
      module := "Shelf.dll" }

/-- A generic class, a value type, and a parameter. -/
def shelf : Pool :=
  ({} : Pool).callAll
    [shelfType 1 "Row" .classType, shelfType 2 "Book" .valueType,
      .linkType ⟨0x02000001⟩ ⟨0⟩, .linkType ⟨0x02000002⟩ ⟨1⟩,
      .register ⟨none, 0⟩ ⟨0, 0, "T", .empty, .type ⟨0x02000001⟩, #[], #[], false⟩]

/-- Calls of which some repeat what is there, some are refused, and some write something new. -/
def shelfCalls : List TableCall :=
  [.linkType ⟨0x02000002⟩ ⟨1⟩, .linkType ⟨0x02000001⟩ ⟨1⟩,
    shelfType 3 "Board" .interface, .linkType ⟨0x02000002⟩ ⟨2⟩, .linkType ⟨0x02000003⟩ ⟨2⟩,
    .register ⟨none, 0⟩ ⟨0, 0, "U", .empty, .method ⟨0x06000001⟩, #[], #[], false⟩,
    .register ⟨none, 1⟩ ⟨1, 0, "V", .empty, .method ⟨0x06000001⟩, #[], #[], false⟩,
    .linkMethod ⟨0x02000001⟩ ⟨0⟩, .linkEvent ⟨0x14000001⟩ ⟨0⟩]

/-- The class, instantiated over arrays of the parameter. -/
def shelfRef : TypeRef :=
  .inst (TypeRef.typeDef ⟨0x02000001⟩) [.szArray (TypeRef.var 0), TypeRef.typeDef ⟨0x02000002⟩]

def shelfSignature : Signature :=
  .inst (Signature.classType ⟨0⟩) [.szArray (Signature.var ⟨0⟩), Signature.valueType ⟨1⟩]

theorem signature_stable_shelf :
    (shelf.scope ⟨0x02000001⟩).resolve shelfRef = .ok shelfSignature ∧
    ((shelf.callAll shelfCalls).scope ⟨0x02000001⟩).resolve shelfRef = .ok shelfSignature ∧
      ∀ b ∈ shelfSignature.atoms, b.SameObject shelf.store (shelf.callAll shelfCalls).store :=
  ⟨by decide +kernel, Pool.signature_stable (by decide +kernel) shelfCalls⟩

end ClrImage
