import ClrImage.Proofs.Steps

/-!
# Growth of a build

What a build has made, it keeps: tables only gain entries, objects only gain parts. This module
defines the order between the states of a build and proves that resolution is stable under it, so
that what was resolved early in a build may be read against the finished tables.

- `WriteOnce.Extends`, `Arena.Extends`: a table or an arena holds all that another one holds.
- `TypeDef.Alike`, `GenericParam.Alike`, `GenericParam.SameTerms`: objects that agree in the parts
  that no step changes.
- `BuildState.Extends`: the order between states, a preorder.
- `Scope.Covers`, `Scope.resolve_covers`: resolution depends on what the atoms of a reference mean.
- `Scope.resolve_extends`: a reference that has a signature keeps it when the tables grow.
-/

namespace ClrImage

/-! ## Tables and arenas -/

namespace WriteOnce

variable {κ ν : Type} [Ord κ] {m m' m'' : WriteOnce κ ν}

/-- Whatever `m` holds, `m'` holds too. -/
def Extends (m m' : WriteOnce κ ν) : Prop := ∀ key v, m.get? key = some v → m'.get? key = some v

theorem Extends.refl (m : WriteOnce κ ν) : m.Extends m := fun _ _ h => h

theorem Extends.of_eq (h : m = m') : m.Extends m' := h ▸ .refl m

theorem Extends.trans (h₁ : m.Extends m') (h₂ : m'.Extends m'') : m.Extends m'' :=
  fun key v h => h₂ key v (h₁ key v h)

theorem extends_offer [Std.TransOrd κ] [Std.LawfulEqOrd κ] [DecidableEq κ] (m : WriteOnce κ ν)
    (key : κ) (value : ν) : m.Extends (m.offer key value) := by
  intro k v h
  rw [get?_offer]
  split
  next hk =>
    subst hk
    rw [h]
    rfl
  next => exact h

end WriteOnce

namespace Arena

variable {k : ObjectKind} {α : Type} {R : α → α → Prop} {a b c : Arena k α}

/-- Every object of `a` is still in `b`, and related to what it was. -/
def Extends (R : α → α → Prop) (a b : Arena k α) : Prop :=
  ∀ h x, a.get? h = some x → ∃ y, b.get? h = some y ∧ R x y

theorem Extends.refl (hR : ∀ x, R x x) (a : Arena k α) : a.Extends R a :=
  fun _ x h => ⟨x, h, hR x⟩

theorem Extends.trans (hR : ∀ x y z, R x y → R y z → R x z) (h₁ : a.Extends R b)
    (h₂ : b.Extends R c) : a.Extends R c := by
  intro h x hx
  obtain ⟨y, hy, hxy⟩ := h₁ h x hx
  obtain ⟨z, hz, hyz⟩ := h₂ h y hy
  exact ⟨z, hz, hR x y z hxy hyz⟩

theorem Extends.mono {S : α → α → Prop} (hRS : ∀ x y, R x y → S x y) (h : a.Extends R b) :
    a.Extends S b := by
  intro g x hx
  obtain ⟨y, hy, hxy⟩ := h g x hx
  exact ⟨y, hy, hRS x y hxy⟩

/-- Objects that never change are still what they were. -/
theorem Extends.get?_eq (hab : a.Extends Eq b) {h : Handle k} {x : α} (hx : a.get? h = some x) :
    b.get? h = some x := by
  obtain ⟨_, hy, rfl⟩ := hab h x hx
  exact hy

/-- The next handle names nothing yet. -/
@[simp] theorem get?_next (a : Arena k α) : a.get? a.next = none := by
  simp [get?, next]

@[simp] theorem get?_alloc_next (a : Arena k α) (object : α) :
    (a.alloc object).get? a.next = some object := by
  rw [get?_alloc, if_pos rfl]

theorem get?_alloc_of_some {h : Handle k} {x : α} (object : α) (hx : a.get? h = some x) :
    (a.alloc object).get? h = some x := by
  rw [get?_alloc, if_neg, hx]
  rintro rfl
  rw [get?_next] at hx
  cases hx

theorem extends_alloc (hR : ∀ x, R x x) (a : Arena k α) (object : α) :
    a.Extends R (a.alloc object) :=
  fun _ x hx => ⟨x, get?_alloc_of_some object hx, hR x⟩

theorem extends_modify (hR : ∀ x, R x x) (a : Arena k α) (h : Handle k) {f : α → α}
    (hf : ∀ x, R x (f x)) : a.Extends R (a.modify h f) := by
  intro g x hx
  rw [get?_modify, hx]
  split
  · exact ⟨f x, rfl, hf x⟩
  · exact ⟨x, rfl, hR x⟩

/-- Objects that an arena has gained were not there before. -/
theorem Extends.ne_of_fresh (hab : a.Extends R b) {g h : Handle k} {x : α}
    (hg : a.get? g = some x) (hh : b.get? h = none) : g ≠ h := by
  rintro rfl
  obtain ⟨y, hy, -⟩ := hab g x hg
  rw [hh] at hy
  cases hy

end Arena

theorem bind_eq_ok {ε α β : Type} {x : Except ε α} {f : α → Except ε β} {b : β} :
    (x >>= f) = .ok b ↔ ∃ a, x = .ok a ∧ f a = .ok b := by
  cases x <;> simp [bind, Except.bind]

theorem map_eq_ok {ε α β : Type} {x : Except ε α} {f : α → β} {b : β} :
    x.map f = .ok b ↔ ∃ a, x = .ok a ∧ f a = b := by
  cases x <;> simp [Except.map]

theorem map_eq_error {ε α β : Type} {x : Except ε α} {f : α → β} {e : ε} :
    x.map f = .error e ↔ x = .error e := by
  cases x <;> simp [Except.map]

/-- A token is linked if it is free, or again if it names the very same object. -/
theorem LinkTable.link_eq_ok {k : ObjectKind} {m m' : WriteOnce Token (Handle k)} {token : Token}
    {h : Handle k} :
    LinkTable.link m token h = .ok m' ↔
      (m.get? token = none ∧ m' = m.offer token h) ∨ (m.get? token = some h ∧ m' = m) := by
  unfold LinkTable.link
  split
  next hnone => simp [hnone, eq_comm]
  next held hheld =>
    split
    next heq => simp [hheld, heq, eq_comm]
    next hne => simp [hheld, hne]

/-- It is refused only if it names another object. -/
theorem LinkTable.eq_of_link_eq_error {k : ObjectKind} {m : WriteOnce Token (Handle k)}
    {token : Token} {h : Handle k} {e : Failure} (hlink : LinkTable.link m token h = .error e) :
    e = .duplicateLink token := by
  unfold LinkTable.link at hlink
  split at hlink
  next => cases hlink
  next =>
    split at hlink
    next => cases hlink
    next => exact (Except.error.inj hlink).symm

/-- Whatever is linked stays linked. -/
structure LinkTable.Extends (t t' : LinkTable) : Prop where
  types : t.types.Extends t'.types
  fields : t.fields.Extends t'.fields
  methods : t.methods.Extends t'.methods
  properties : t.properties.Extends t'.properties
  events : t.events.Extends t'.events

namespace LinkTable.Extends

variable {t t' t'' : LinkTable}

theorem refl (t : LinkTable) : t.Extends t := ⟨.refl _, .refl _, .refl _, .refl _, .refl _⟩

theorem of_eq (h : t = t') : t.Extends t' := h ▸ .refl t

theorem trans (h₁ : t.Extends t') (h₂ : t'.Extends t'') : t.Extends t'' :=
  ⟨h₁.types.trans h₂.types, h₁.fields.trans h₂.fields, h₁.methods.trans h₂.methods,
    h₁.properties.trans h₂.properties, h₁.events.trans h₂.events⟩

end LinkTable.Extends

/-! ## Objects -/

/-- The parts of a type that are fixed with its declaration agree. -/
structure TypeDef.Alike (t t' : TypeDef) : Prop where
  token : t'.token = t.token
  space : t'.space = t.space
  name : t'.name = t.name
  flags : t'.flags = t.flags
  flavor : t'.flavor = t.flavor
  module : t'.module = t.module

theorem TypeDef.Alike.refl (t : TypeDef) : t.Alike t := ⟨rfl, rfl, rfl, rfl, rfl, rfl⟩

theorem TypeDef.Alike.trans (t₁ t₂ t₃ : TypeDef) (h₁ : t₁.Alike t₂) (h₂ : t₂.Alike t₃) :
    t₁.Alike t₃ :=
  ⟨h₂.token.trans h₁.token, h₂.space.trans h₁.space, h₂.name.trans h₁.name,
    h₂.flags.trans h₁.flags, h₂.flavor.trans h₁.flavor, h₂.module.trans h₁.module⟩

theorem TypeDef.Alike.symm {t t' : TypeDef} (h : t.Alike t') : t'.Alike t :=
  ⟨h.token.symm, h.space.symm, h.name.symm, h.flags.symm, h.flavor.symm, h.module.symm⟩

/-- The parts of a generic parameter that are fixed with its registration agree. -/
structure GenericParam.Alike (x y : GenericParam) : Prop where
  index : y.index = x.index
  number : y.number = x.number
  name : y.name = x.name
  flags : y.flags = x.flags
  declaredBy : y.declaredBy = x.declaredBy

theorem GenericParam.Alike.refl (x : GenericParam) : x.Alike x := ⟨rfl, rfl, rfl, rfl, rfl⟩

theorem GenericParam.Alike.trans (x y z : GenericParam) (h₁ : x.Alike y) (h₂ : y.Alike z) :
    x.Alike z :=
  ⟨h₂.index.trans h₁.index, h₂.number.trans h₁.number, h₂.name.trans h₁.name,
    h₂.flags.trans h₁.flags, h₂.declaredBy.trans h₁.declaredBy⟩

/-- Two parameters differ at most in their owners. -/
structure GenericParam.SameTerms (x y : GenericParam) : Prop extends x.Alike y where
  constraints : y.constraints = x.constraints
  isConstrained : y.isConstrained = x.isConstrained

theorem GenericParam.SameTerms.refl (x : GenericParam) : x.SameTerms x := ⟨.refl x, rfl, rfl⟩

theorem GenericParam.SameTerms.trans (x y z : GenericParam) (h₁ : x.SameTerms y)
    (h₂ : y.SameTerms z) : x.SameTerms z :=
  ⟨.trans x y z h₁.toAlike h₂.toAlike, h₂.constraints.trans h₁.constraints,
    h₂.isConstrained.trans h₁.isConstrained⟩

/-! ## States -/

/-- All that a state has made is still there in another one. Members never change once they are
made; types and generic parameters keep what identifies them. -/
structure BuildState.Extends (s s' : BuildState) : Prop where
  types : s.store.types.Extends TypeDef.Alike s'.store.types
  generics : s.store.generics.Extends GenericParam.Alike s'.store.generics
  fields : s.store.fields.Extends Eq s'.store.fields
  params : s.store.params.Extends Eq s'.store.params
  methods : s.store.methods.Extends Eq s'.store.methods
  properties : s.store.properties.Extends Eq s'.store.properties
  events : s.store.events.Extends Eq s'.store.events
  links : s.links.Extends s'.links
  registry : s.registry.params.Extends s'.registry.params
  registryScope : s'.registry.scope = s.registry.scope

namespace BuildState.Extends

variable {s s₁ s₂ : BuildState}

theorem refl (s : BuildState) : s.Extends s where
  types := .refl TypeDef.Alike.refl _
  generics := .refl GenericParam.Alike.refl _
  fields := .refl Eq.refl _
  params := .refl Eq.refl _
  methods := .refl Eq.refl _
  properties := .refl Eq.refl _
  events := .refl Eq.refl _
  links := .refl _
  registry := .refl _
  registryScope := rfl

theorem trans (h₁ : s.Extends s₁) (h₂ : s₁.Extends s₂) : s.Extends s₂ where
  types := h₁.types.trans TypeDef.Alike.trans h₂.types
  generics := h₁.generics.trans GenericParam.Alike.trans h₂.generics
  fields := h₁.fields.trans (fun _ _ _ => Eq.trans) h₂.fields
  params := h₁.params.trans (fun _ _ _ => Eq.trans) h₂.params
  methods := h₁.methods.trans (fun _ _ _ => Eq.trans) h₂.methods
  properties := h₁.properties.trans (fun _ _ _ => Eq.trans) h₂.properties
  events := h₁.events.trans (fun _ _ _ => Eq.trans) h₂.events
  links := h₁.links.trans h₂.links
  registry := h₁.registry.trans h₂.registry
  registryScope := h₂.registryScope.trans h₁.registryScope

end BuildState.Extends

/-! ## Resolution -/

/-- What references are resolved against in a state. -/
def BuildState.scope (s : BuildState) (topLevel : Token) : Scope :=
  ⟨s.store, s.links, s.registry, topLevel⟩

/-- The tables that resolution reads have grown. -/
structure Scope.Extends (s s' : Scope) : Prop where
  types : s.store.types.Extends TypeDef.Alike s'.store.types
  linkedTypes : s.links.types.Extends s'.links.types
  registry : s.registry.params.Extends s'.registry.params
  registryScope : s'.registry.scope = s.registry.scope
  topLevel : s'.topLevel = s.topLevel

theorem Scope.Extends.trans {s s' s'' : Scope} (h₁ : s.Extends s') (h₂ : s'.Extends s'') :
    s.Extends s'' :=
  ⟨h₁.types.trans TypeDef.Alike.trans h₂.types, h₁.linkedTypes.trans h₂.linkedTypes,
    h₁.registry.trans h₂.registry, h₂.registryScope.trans h₁.registryScope,
    h₂.topLevel.trans h₁.topLevel⟩

theorem BuildState.Extends.scope {s s' : BuildState} (h : s.Extends s') (topLevel : Token) :
    (s.scope topLevel).Extends (s'.scope topLevel) :=
  ⟨h.types, h.links.types, h.registry, h.registryScope, rfl⟩

/-- A key depends only on how the registry tells indices apart. -/
theorem GenericRegistry.key_congr {r r' : GenericRegistry} (h : r'.scope = r.scope)
    (index : UInt32) (topLevel : Token) : r'.key index topLevel = r.key index topLevel := by
  simp only [GenericRegistry.key, h]

namespace Scope

variable {s s' : Scope}

theorem resolveTypeDef_extends (h : s.Extends s') {token : Token} {sig : Signature}
    (hsig : s.resolveTypeDef token = .ok sig) : s'.resolveTypeDef token = .ok sig := by
  unfold resolveTypeDef at hsig ⊢
  split at hsig
  next => cases hsig
  next htable =>
    rw [if_neg htable]
    split at hsig
    next => cases hsig
    next g hg =>
      split at hsig
      next => cases hsig
      next t ht =>
        obtain ⟨t', ht', halike⟩ := h.types g t ht
        simp only [h.linkedTypes token g hg, ht', halike.flavor]
        exact hsig

theorem resolveIndex_extends (h : s.Extends s') {reference : TypeRef} {index : UInt32}
    {g : GenericHandle} (hg : s.resolveIndex reference index = .ok g) :
    s'.resolveIndex reference index = .ok g := by
  unfold resolveIndex at hg ⊢
  rw [GenericRegistry.key_congr h.registryScope, h.topLevel]
  split at hg
  next held hheld =>
    rw [show s'.registry.get? _ = some held from h.registry _ held hheld]
    exact hg
  next => cases hg

theorem resolveAtom_extends (h : s.Extends s') {a : RefAtom} {sig : Signature}
    (hsig : s.resolveAtom a = .ok sig) : s'.resolveAtom a = .ok sig := by
  cases a with
  | primitive p => exact hsig
  | typeDef token => exact resolveTypeDef_extends h hsig
  | var index =>
    obtain ⟨g, hg, rfl⟩ := map_eq_ok.mp hsig
    exact map_eq_ok.mpr ⟨g, resolveIndex_extends h hg, rfl⟩
  | mvar index =>
    obtain ⟨g, hg, rfl⟩ := map_eq_ok.mp hsig
    exact map_eq_ok.mpr ⟨g, resolveIndex_extends h hg, rfl⟩

/-- What an atom stands for in the first scope it stands for in the second one. -/
def Covers (s s' : Scope) : Prop := ∀ a sig, s.resolveAtom a = .ok sig → s'.resolveAtom a = .ok sig

mutual

theorem resolveAt_covers (h : s.Covers s') : (r : TypeRef) → {depth : Nat} → {sig : Signature} →
    s.resolveAt r depth = .ok sig → s'.resolveAt r depth = .ok sig
  | .atom a, depth, sig, hsig => by
    unfold resolveAt at hsig ⊢
    obtain ⟨u, hdepth, hsig⟩ := bind_eq_ok.mp hsig
    exact bind_eq_ok.mpr ⟨u, hdepth, h a sig hsig⟩
  | .szArray elem, depth, sig, hsig => by
    unfold resolveAt at hsig ⊢
    obtain ⟨u, hdepth, hsig⟩ := bind_eq_ok.mp hsig
    obtain ⟨e, helem, hsig⟩ := bind_eq_ok.mp hsig
    exact bind_eq_ok.mpr ⟨u, hdepth, bind_eq_ok.mpr ⟨e, resolveAt_covers h elem helem, hsig⟩⟩
  | .array elem rank, depth, sig, hsig => by
    unfold resolveAt at hsig ⊢
    obtain ⟨u, hdepth, hsig⟩ := bind_eq_ok.mp hsig
    refine bind_eq_ok.mpr ⟨u, hdepth, ?_⟩
    split at hsig
    next => cases hsig
    next hrank =>
      rw [if_neg hrank]
      obtain ⟨e, helem, hsig⟩ := bind_eq_ok.mp hsig
      exact bind_eq_ok.mpr ⟨e, resolveAt_covers h elem helem, hsig⟩
  | .pointer elem, depth, sig, hsig => by
    unfold resolveAt at hsig ⊢
    obtain ⟨u, hdepth, hsig⟩ := bind_eq_ok.mp hsig
    obtain ⟨e, helem, hsig⟩ := bind_eq_ok.mp hsig
    exact bind_eq_ok.mpr ⟨u, hdepth, bind_eq_ok.mpr ⟨e, resolveAt_covers h elem helem, hsig⟩⟩
  | .byRef elem, depth, sig, hsig => by
    unfold resolveAt at hsig ⊢
    obtain ⟨u, hdepth, hsig⟩ := bind_eq_ok.mp hsig
    obtain ⟨e, helem, hsig⟩ := bind_eq_ok.mp hsig
    exact bind_eq_ok.mpr ⟨u, hdepth, bind_eq_ok.mpr ⟨e, resolveAt_covers h elem helem, hsig⟩⟩
  | .inst definition args, depth, sig, hsig => by
    unfold resolveAt at hsig ⊢
    obtain ⟨u, hdepth, hsig⟩ := bind_eq_ok.mp hsig
    refine bind_eq_ok.mpr ⟨u, hdepth, ?_⟩
    split at hsig
    next => cases hsig
    next hargs =>
      rw [if_neg hargs]
      obtain ⟨d, hd, hsig⟩ := bind_eq_ok.mp hsig
      refine bind_eq_ok.mpr ⟨d, resolveAt_covers h definition hd, ?_⟩
      split at hsig
      next hdeclared =>
        rw [if_pos hdeclared]
        obtain ⟨sigs, hsigs, hsig⟩ := bind_eq_ok.mp hsig
        exact bind_eq_ok.mpr ⟨sigs, resolveAll_covers h args hsigs, hsig⟩
      next => cases hsig

theorem resolveAll_covers (h : s.Covers s') : (rs : List TypeRef) → {depth : Nat} →
    {sigs : List Signature} → s.resolveAll rs depth = .ok sigs → s'.resolveAll rs depth = .ok sigs
  | [], _, _, hsigs => hsigs
  | r :: rest, depth, sigs, hsigs => by
    unfold resolveAll at hsigs ⊢
    obtain ⟨sig, hsig, hsigs⟩ := bind_eq_ok.mp hsigs
    obtain ⟨more, hmore, hsigs⟩ := bind_eq_ok.mp hsigs
    exact bind_eq_ok.mpr ⟨sig, resolveAt_covers h r hsig,
      bind_eq_ok.mpr ⟨more, resolveAll_covers h rest hmore, hsigs⟩⟩

end

/-- A reference that has a signature has it in every scope in which its atoms mean the same. -/
theorem resolve_covers (h : s.Covers s') {r : TypeRef} {sig : Signature}
    (hsig : s.resolve r = .ok sig) : s'.resolve r = .ok sig :=
  resolveAt_covers h r hsig

/-- A reference that has a signature keeps it when the tables grow. -/
theorem resolve_extends (h : s.Extends s') {r : TypeRef} {sig : Signature}
    (hsig : s.resolve r = .ok sig) : s'.resolve r = .ok sig :=
  resolve_covers (fun _ _ => resolveAtom_extends h) hsig

end Scope

/-- What a list is related to, element by element, has a partner for each of its elements. -/
theorem exists_of_forall₂ {α β : Type*} {R : α → β → Prop} {l : List α} {l' : List β}
    (h : List.Forall₂ R l l') {a : α} (ha : a ∈ l) : ∃ b ∈ l', R a b := by
  induction h with
  | nil => cases ha
  | cons hab _ ih =>
    rcases List.mem_cons.mp ha with rfl | ha
    · exact ⟨_, List.mem_cons_self, hab⟩
    · obtain ⟨b, hb, hR⟩ := ih ha
      exact ⟨b, List.mem_cons_of_mem _ hb, hR⟩

/-- Where the values of a list are distinct, an element before or behind another one has a different
value. -/
theorem ne_of_nodup_map {α β : Type} {f : α → β} {l₁ l₂ : List α} {a b : α}
    (h : ((l₁ ++ a :: l₂).map f).Nodup) (hb : b ∈ l₁ ∨ b ∈ l₂) : f b ≠ f a := by
  rw [List.map_append, List.map_cons, List.nodup_append, List.nodup_cons] at h
  rcases hb with hb | hb
  · exact h.2.2 _ (List.mem_map_of_mem hb) _ List.mem_cons_self
  · intro heq
    exact h.2.1.1 (heq ▸ List.mem_map_of_mem hb)

/-- The list of references resolves, one by one, to the list of signatures. -/
def Scope.Resolves (s : Scope) : List TypeRef → List Signature → Prop :=
  List.Forall₂ fun r sig => s.resolve r = .ok sig

theorem Scope.Resolves.mono {s s' : Scope} (h : s.Extends s') {rs : List TypeRef}
    {sigs : List Signature} (hsigs : s.Resolves rs sigs) : s'.Resolves rs sigs :=
  hsigs.imp fun _ _ => resolve_extends h

/-- The reference, if there is one, resolves to the signature; there is one exactly if there is the
other. -/
def Scope.ResolvesOption (s : Scope) : Option TypeRef → Option Signature → Prop :=
  Option.Rel fun r sig => s.resolve r = .ok sig

theorem Scope.ResolvesOption.mono {s s' : Scope} (h : s.Extends s') {r : Option TypeRef}
    {sig : Option Signature} (hsig : s.ResolvesOption r sig) : s'.ResolvesOption r sig := by
  rcases hsig with hsig | _
  · exact .some (resolve_extends h hsig)
  · exact .none

/-- The list holds the registered objects of the planned parameters in order, each of them where it
comes first. -/
def Scope.Lists (s : Scope) (plans : List GenericPlan) (listed : Array GenericHandle) : Prop :=
  ∃ objects, List.Forall₂ (fun g h => s.registry.get? (s.registry.key g.index s.topLevel) = some h)
    plans objects ∧ listed.toList = objects.eraseDups

theorem Scope.Lists.mono {s s' : Scope} (h : s.Extends s') {plans : List GenericPlan}
    {listed : Array GenericHandle} (hlisted : s.Lists plans listed) : s'.Lists plans listed := by
  obtain ⟨objects, hobjects, hlisted⟩ := hlisted
  refine ⟨objects, hobjects.imp fun g o ho => ?_, hlisted⟩
  rw [GenericRegistry.key_congr h.registryScope, h.topLevel]
  exact h.registry _ _ ho

end ClrImage
