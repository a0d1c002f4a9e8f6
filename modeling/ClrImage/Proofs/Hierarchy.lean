import ClrImage.Proofs.Constraints
import ClrImage.Proofs.Declaration

/-!
# The hierarchy of a build

The second pass mirrors the hierarchy of the plans in the types: bases, interfaces and generic
parameters. This module says what the pass is to achieve, and what its steps do for a single type.

- `Setup.firstDeclaration?`: the plan that a key belongs to, the first in the blueprint's order.
- `TypeMirrored`, `HierarchyMirrored`: what the pass is to achieve.
- `ChangesType`: the effect of a step on one type.
- `yields_declareTypeGenerics`, `yields_configure`: what the two steps for a type do.
-/

namespace ClrImage

/-! ## The declared parameters -/

/-- The planned generic parameters of a type. -/
def TypePlan.genericPlans (p : TypePlan) : List GenericPlan := (p.generics.getD #[]).toList

namespace Setup

/-- The key of a type's generic parameter. -/
def genericKey (setup : Setup) (p : TypePlan) (g : GenericPlan) : GenericKey :=
  GenericRegistry.key ⟨setup.config.registryScope, {}⟩ g.index (setup.blueprint.topLevel p)

/-- The generic parameters that some types plan, in order, each with its type. -/
def declarations (types : List TypePlan) : List (TypePlan × GenericPlan) :=
  types.flatMap fun p => p.genericPlans.map (p, ·)

/-- The first plan among some types that has a key. -/
def firstAmong? (setup : Setup) (types : List TypePlan) (key : GenericKey) :
    Option (TypePlan × GenericPlan) :=
  (declarations types).find? fun d => setup.genericKey d.1 d.2 = key

/-- A further type comes behind the others. -/
theorem firstAmong?_append (setup : Setup) (types : List TypePlan) (p : TypePlan)
    (key : GenericKey) :
    setup.firstAmong? (types ++ [p]) key = (setup.firstAmong? types key).or
      ((p.genericPlans.find? (setup.genericKey p · = key)).map (p, ·)) := by
  unfold firstAmong? declarations
  rw [List.flatMap_append, List.find?_append, List.flatMap_singleton, List.find?_map]
  rfl

/-- The first plan of the blueprint that has a key. -/
def firstDeclaration? (setup : Setup) (key : GenericKey) : Option (TypePlan × GenericPlan) :=
  setup.firstAmong? setup.types key

/-- The first plan with a key is one of those among which it is sought, and has the key. -/
theorem of_firstAmong? {setup : Setup} {types : List TypePlan} {key : GenericKey} {p : TypePlan}
    {g : GenericPlan} (h : setup.firstAmong? types key = some (p, g)) :
    (p, g) ∈ declarations types ∧ setup.genericKey p g = key := by
  unfold firstAmong? at h
  exact ⟨List.mem_of_find?_eq_some h, by simpa using List.find?_some h⟩

theorem of_firstDeclaration? {setup : Setup} {key : GenericKey} {p : TypePlan} {g : GenericPlan}
    (h : setup.firstDeclaration? key = some (p, g)) :
    (p, g) ∈ declarations setup.types ∧ setup.genericKey p g = key :=
  of_firstAmong? h

end Setup

/-- There is a type for the plan, and it is as `Q` says. -/
def BuildState.TypeOf (s : BuildState) (p : TypePlan) (Q : TypeDef → Prop) : Prop :=
  ∃ h t, s.links.types.get? p.token = some h ∧ s.store.types.get? h = some t ∧ Q t

/-- The hierarchy of a plan is that of its type. References are read against the state `s`. -/
structure TypeMirrored (setup : Setup) (s : BuildState) (p : TypePlan) (t : TypeDef) : Prop where
  isConfigured : t.isConfigured = true
  base : (s.scope (setup.blueprint.topLevel p)).ResolvesOption p.base t.base
  interfaces : (s.scope (setup.blueprint.topLevel p)).Resolves p.interfaces.toList
    t.interfaces.toList
  generics : (s.scope (setup.blueprint.topLevel p)).Lists p.genericPlans t.generics

/-- The state mirrors the hierarchy of the blueprint: all of its types, and a parameter for every
key that its types declare, made for the first plan with the key and carrying all of its
constraints. -/
structure HierarchyMirrored (setup : Setup) (s : BuildState) : Prop where
  types : ∀ p ∈ setup.types, s.TypeOf p (TypeMirrored setup s p)
  scope : s.registry.scope = setup.config.registryScope
  registry : ∀ key, (s.registry.get? key).isSome ↔
    ∃ d ∈ Setup.declarations setup.types, setup.genericKey d.1 d.2 = key
  generics : ∀ key h, s.registry.get? key = some h → ∃ p g x,
    setup.firstDeclaration? key = some (p, g) ∧ s.store.generics.get? h = some x ∧
      x.MadeFor (.type p.token) g ∧
      x.ConstrainedBy (s.scope (setup.blueprint.topLevel p)) g.constraints

/-! ## Changes of one type -/

/-- One type is changed by `f`, and beside the notices nothing else is. -/
structure ChangesType (h : TypeHandle) (f : TypeDef → TypeDef) (s s' : BuildState) : Prop where
  types : ∀ g, s'.store.types.get? g =
    if g = h then (s.store.types.get? g).map f else s.store.types.get? g
  store : s'.store = { s.store with types := s'.store.types }
  links : s'.links = s.links
  registry : s'.registry = s.registry
  declared : s'.declared = s.declared
  failures : s'.failures = s.failures

namespace ChangesType

variable {h : TypeHandle} {f f' : TypeDef → TypeDef} {s s₁ s' : BuildState}

theorem modifyType (h : TypeHandle) (f : TypeDef → TypeDef) (s : BuildState) :
    ChangesType h f s { s with store := { s.store with types := s.store.types.modify h f } } :=
  ⟨fun g => Arena.get?_modify _ h f g, rfl, rfl, rfl, rfl, rfl⟩

/-- A change that leaves the type as it is is no change. -/
theorem of_fixed {t : TypeDef} (ht : s.store.types.get? h = some t) (hf : f t = t) :
    ChangesType h f s s := by
  refine ⟨fun g => ?_, rfl, rfl, rfl, rfl, rfl⟩
  split
  next hg => rw [hg, ht, Option.map_some, hf]
  next => rfl

theorem trans (h₁ : ChangesType h f s s₁) (h₂ : ChangesType h f' s₁ s') :
    ChangesType h (f' ∘ f) s s' where
  types g := by
    rw [h₂.types g, h₁.types g]
    split
    · rw [Option.map_map]
    · rfl
  store := by rw [h₂.store, h₁.store]
  links := h₂.links.trans h₁.links
  registry := h₂.registry.trans h₁.registry
  declared := h₂.declared.trans h₁.declared
  failures := h₂.failures.trans h₁.failures

theorem of_ne (hf : ChangesType h f s s') {g : TypeHandle} (hg : g ≠ h) :
    s'.store.types.get? g = s.store.types.get? g := by
  rw [hf.types g, if_neg hg]

theorem of_some (hf : ChangesType h f s s') {t : TypeDef} (ht : s.store.types.get? h = some t) :
    s'.store.types.get? h = some (f t) := by
  rw [hf.types h, if_pos rfl, ht]
  rfl

theorem generics (hf : ChangesType h f s s') : s'.store.generics = s.store.generics := by
  rw [hf.store]

theorem grows (hf : ChangesType h f s s') (halike : ∀ t, TypeDef.Alike t (f t)) : s.Extends s' where
  types g t ht := by
    by_cases hg : g = h
    · subst hg
      exact ⟨f t, hf.of_some ht, halike t⟩
    · exact ⟨t, (hf.of_ne hg).trans ht, .refl t⟩
  generics := hf.generics ▸ .refl GenericParam.Alike.refl _
  fields := by rw [hf.store]; exact .refl Eq.refl _
  params := by rw [hf.store]; exact .refl Eq.refl _
  methods := by rw [hf.store]; exact .refl Eq.refl _
  properties := by rw [hf.store]; exact .refl Eq.refl _
  events := by rw [hf.store]; exact .refl Eq.refl _
  links := .of_eq hf.links.symm
  registry := hf.registry ▸ .refl _
  registryScope := hf.registry ▸ rfl

/-- If the type keeps what identifies it, all scopes stay as they are. -/
theorem agrees (hf : ChangesType h f s s') (halike : ∀ t, TypeDef.Alike t (f t))
    (topLevel : Token) : (s.scope topLevel).Agrees (s'.scope topLevel) := by
  refine ⟨(hf.grows halike).scope topLevel, fun g t' ht' => ?_,
    .of_eq (congrArg LinkTable.types hf.links),
    .of_eq (congrArg GenericRegistry.params hf.registry),
    (congrArg GenericRegistry.scope hf.registry).symm, rfl⟩
  have ht' : s'.store.types.get? g = some t' := ht'
  rw [hf.types g] at ht'
  split at ht'
  · obtain ⟨t, ht, rfl⟩ := Option.map_eq_some_iff.mp ht'
    exact ⟨t, ht, (halike t).symm⟩
  · exact ⟨t', ht', .refl t'⟩

/-- Telling something afterwards changes nothing in the effect. -/
theorem of_notices (hf : ChangesType h f s s') (notices : Array Notice) :
    ChangesType h f s { s' with notices } :=
  ⟨hf.types, hf.store, hf.links, hf.registry, hf.declared, hf.failures⟩

end ChangesType

/-! ## Steps of the pass -/

/-- What the step registers, if the type plans parameters, is what it lists. -/
theorem declareTypeGenerics_cases {setup : Setup} {p : TypePlan} {pending : Array PendingGeneric}
    {h : TypeHandle} {t : TypeDef} {s s' : BuildState}
    (hlink : s.links.types.get? p.token = some h) (ht : s.store.types.get? h = some t)
    (hopen : t.isConfigured = false) (hrun : (setup.declareTypeGenerics p).Yields s pending s') :
    (p.generics = none ∧ pending = #[] ∧ s' = s) ∨ ∃ params listed s₁, p.generics = some params ∧
      (Setup.declareGenerics (.type p.token) (setup.blueprint.topLevel p) t.generics
        params).Yields s (listed, pending) s₁ ∧
      (Build.modifyType h fun u => { u with generics := listed }).Yields s₁ () s' := by
  unfold Setup.declareTypeGenerics at hrun
  obtain ⟨⟨h', t'⟩, _, hmanaged, hrun⟩ := Build.yields_bind.mp hrun
  obtain ⟨hlink', ht', rfl⟩ := Build.yields_managedType.mp hmanaged
  obtain rfl := Option.some.inj (hlink.symm.trans hlink')
  obtain rfl := Option.some.inj (ht.symm.trans ht')
  cases hplanned : p.generics with
  | none =>
    rw [hplanned] at hrun
    obtain ⟨rfl, rfl⟩ := Build.yields_pure.mp hrun
    exact .inl ⟨rfl, rfl, rfl⟩
  | some params =>
    simp only [hplanned, hopen, Bool.false_eq_true, if_false] at hrun
    obtain ⟨⟨listed, made⟩, s₁, hdeclare, hrun⟩ := Build.yields_bind.mp hrun
    obtain ⟨_, s₂, hmodify, hpure⟩ := Build.yields_bind.mp hrun
    obtain ⟨rfl, rfl⟩ := Build.yields_pure.mp hpure
    exact .inr ⟨params, listed, s₁, rfl, hdeclare, hmodify⟩

/-- The parameters of a type are registered, and the type lists their objects. -/
theorem yields_declareTypeGenerics {setup : Setup} {p : TypePlan} {pending : Array PendingGeneric}
    {h : TypeHandle} {t : TypeDef} {s s' : BuildState}
    (hlink : s.links.types.get? p.token = some h) (ht : s.store.types.get? h = some t)
    (hopen : t.isConfigured = false) (hrun : (setup.declareTypeGenerics p).Yields s pending s') :
    ∃ objects s₁,
      Registers (fun g => s.registry.key g.index (setup.blueprint.topLevel p)) (.type p.token)
        p.genericPlans s s₁ objects pending.toList ∧
      ChangesType h (fun u => { u with generics := objects.foldl listOnce t.generics }) s₁ s' := by
  unfold TypePlan.genericPlans
  obtain ⟨hplanned, rfl, rfl⟩ | ⟨params, listed, s₂, hplanned, hdeclare', hmodify⟩ :=
    declareTypeGenerics_cases hlink ht hopen hrun
  · rw [hplanned]
    exact ⟨[], s', Registers.nil s', .of_fixed ht rfl⟩
  · obtain ⟨objects, made, s₁, hdeclare, hregisters⟩ := declareGenerics_registers (.type p.token)
      (setup.blueprint.topLevel p) t.generics params s
    obtain ⟨heq, rfl⟩ := hdeclare.unique hdeclare'
    obtain ⟨rfl, rfl⟩ := Prod.mk.inj heq
    obtain rfl := Build.yields_modify.mp hmodify
    rw [hplanned]
    exact ⟨objects, s₁, hregisters, .modifyType h _ s₁⟩

/-- Telling of a configured type only tells. -/
theorem yields_noticeConfigured {h : TypeHandle} {s s' : BuildState}
    (hrun : (Setup.noticeConfigured h).Yields s () s') : ∃ notices, s' = { s with notices } := by
  unfold Setup.noticeConfigured at hrun
  rw [Build.yields_get_bind] at hrun
  split at hrun
  · obtain ⟨-, rfl⟩ := Build.yields_pure.mp hrun
    exact ⟨s.notices, rfl⟩
  · obtain rfl := Build.yields_modify.mp hrun
    exact ⟨_, rfl⟩

section Configure

variable {setup : Setup} (hresolver : setup.resolver = Resolver.default) {topLevel : Token}
  {h : TypeHandle} {t : TypeDef} {s s' : BuildState}
include hresolver

/-- The base of a type is resolved and set if there is one. -/
theorem yields_configureBase {base : Option TypeRef} (ht : s.store.types.get? h = some t)
    (hrun : Build.Yields (base.forM (setup.configureBase topLevel h)) s () s') :
    ∃ sig, (s.scope topLevel).ResolvesOption base sig ∧
      ChangesType h (fun t => { t with base := sig.or t.base }) s s' := by
  cases base with
  | none =>
    obtain ⟨-, rfl⟩ := Build.yields_pure.mp hrun
    exact ⟨none, .none, .of_fixed ht rfl⟩
  | some r =>
    obtain ⟨sig, _, hresolve, hset⟩ := Build.yields_bind.mp hrun
    obtain ⟨hsig, rfl⟩ := (yields_resolve hresolver).mp hresolve
    simp only [Build.yields_get_bind, Build.yields_liftExcept_bind, Build.yields_modify] at hset
    obtain ⟨store, hstore, rfl⟩ := hset
    unfold Store.setBase at hstore
    rw [ht] at hstore
    dsimp only at hstore
    split at hstore
    next => cases hstore
    next =>
      obtain rfl := Except.ok.inj hstore
      exact ⟨some sig, .some hsig, .modifyType h _ s⟩

/-- The interfaces of a type are resolved and added in order. -/
theorem yields_configureInterfaces {interfaces : List TypeRef}
    (ht : s.store.types.get? h = some t)
    (hrun : Build.Yields (interfaces.forM (setup.configureInterface topLevel h)) s () s') :
    ∃ sigs, (s.scope topLevel).Resolves interfaces sigs ∧
      ChangesType h (fun t => { t with interfaces := t.interfaces ++ sigs.toArray }) s s' := by
  induction interfaces generalizing s t with
  | nil =>
    obtain rfl := Build.yields_forM_nil.mp hrun
    exact ⟨[], .nil, .of_fixed ht (by simp)⟩
  | cons r rest ih =>
    obtain ⟨s₁, hfirst, hrest⟩ := Build.yields_forM_cons.mp hrun
    obtain ⟨sig, _, hresolve, hpush⟩ := Build.yields_bind.mp hfirst
    obtain ⟨hsig, rfl⟩ := (yields_resolve hresolver).mp hresolve
    obtain rfl := Build.yields_modify.mp hpush
    have h₁ := ChangesType.modifyType h (fun t => { t with interfaces := t.interfaces.push sig }) s
    obtain ⟨sigs, hsigs, h₂⟩ := ih (h₁.of_some ht) hrest
    have hback := (h₁.agrees (fun _ => ⟨rfl, rfl, rfl, rfl, rfl, rfl⟩) topLevel).2
    refine ⟨sig :: sigs, .cons hsig (hsigs.mono hback), ?_⟩
    simpa [Function.comp_def] using h₁.trans h₂

/-- A type that is not configured yet gets its constraints, its base and its interfaces, and is
marked. -/
theorem yields_configure {p : TypePlan} {pending : Array PendingGeneric}
    (hlink : s.links.types.get? p.token = some h) (ht : s.store.types.get? h = some t)
    (hopen : t.isConfigured = false) (hnodup : (pending.toList.map PendingGeneric.param).Nodup)
    (hrun : (setup.configure p pending).Yields s () s') :
    ∃ s₁ base interfaces,
      Constrains (s.scope (setup.blueprint.topLevel p)) pending.toList s s₁ ∧
      (s.scope (setup.blueprint.topLevel p)).CanConstrain pending.toList ∧
      (s.scope (setup.blueprint.topLevel p)).ResolvesOption p.base base ∧
      (s.scope (setup.blueprint.topLevel p)).Resolves p.interfaces.toList interfaces ∧
      ChangesType h (fun t =>
        { t with base := base.or t.base, interfaces := t.interfaces ++ interfaces.toArray
                 isConfigured := true }) s₁ s' := by
  unfold Setup.configure at hrun
  obtain ⟨⟨h', t'⟩, _, hmanaged, hrun⟩ := Build.yields_bind.mp hrun
  obtain ⟨hlink', ht', rfl⟩ := Build.yields_managedType.mp hmanaged
  obtain rfl := Option.some.inj (hlink.symm.trans hlink')
  obtain rfl := Option.some.inj (ht.symm.trans ht')
  simp only [hopen, Bool.false_eq_true, if_false] at hrun
  generalize setup.blueprint.topLevel p = topLevel at hrun ⊢
  obtain ⟨_, s₁, hconstrain, hrun⟩ := Build.yields_bind.mp hrun
  obtain ⟨_, s₂, hbase, hrun⟩ := Build.yields_bind.mp hrun
  obtain ⟨_, s₃, hinterfaces, hrun⟩ := Build.yields_bind.mp hrun
  obtain ⟨_, s₄, hmark, hnotice⟩ := Build.yields_bind.mp hrun
  obtain rfl := Build.yields_modify.mp hmark
  have hconstrains : Constrains (s.scope topLevel) pending.toList s s₁ := by
    rw [← hconstrain.outcome_snd]
    exact constrainGenerics_constrains hresolver topLevel pending s hnodup
  have hagrees₁ := hconstrains.toOnlyGenerics.agrees hconstrains.registry topLevel
  rw [← hconstrains.toOnlyGenerics.types] at ht
  obtain ⟨base, hbase, h₁⟩ := yields_configureBase hresolver ht hbase
  have hagrees₂ := hagrees₁.trans (h₁.agrees (fun _ => ⟨rfl, rfl, rfl, rfl, rfl, rfl⟩) topLevel)
  obtain ⟨interfaces, hinterfaces, h₂⟩ :=
    yields_configureInterfaces hresolver (h₁.of_some ht) hinterfaces
  obtain ⟨notices, rfl⟩ := yields_noticeConfigured hnotice
  refine ⟨s₁, base, interfaces, hconstrains, yields_constrainGenerics hresolver hconstrain,
    hbase.mono hagrees₁.2, hinterfaces.mono hagrees₂.2, ?_⟩
  have h₃ := ChangesType.modifyType h (fun t => { t with isConfigured := true }) s₃
  exact ((h₁.trans h₂).trans h₃).of_notices notices

end Configure

end ClrImage
