import ClrImage.Proofs.Resolvable
import ClrImage.Proofs.Rounds

/-!
# When a hierarchy can be configured

The first round of the hierarchy pass never fails, and the second one fails only over a reference
that has no signature. Behind the first round all types are linked and all parameters registered, so
which references those are can be read off the plans.

- `Setup.Knows`, `Setup.Resolvable`: what references of a blueprint may name.
- `Setup.HierarchyResolvable`: all references of a hierarchy resolve. A parameter has the
  constraints of the **first** plan with its key, and only these count.
- `configureHierarchy_yields_iff`: the pass succeeds **exactly if** they do.
-/

namespace ClrImage

/-! ## What references may name -/

namespace Setup

/-- What an atom of a reference asks for is planned. -/
def Knows (setup : Setup) (topLevel : Token) : RefAtom → Prop
  | .primitive _ => True
  | .typeDef token => token.isIn Table.typeDef = true ∧ ∃ p ∈ setup.types, p.token = token
  | .var index | .mvar index => ∃ d ∈ declarations setup.types, setup.genericKey d.1 d.2 =
    GenericRegistry.key ⟨setup.config.registryScope, {}⟩ index topLevel

/-- A reference in the plan of a type names what is planned. -/
def Resolvable (setup : Setup) (p : TypePlan) (r : TypeRef) : Prop :=
  r.height ≤ Scope.maxDepth ∧ r.WellFormed ∧
    ∀ a ∈ r.atoms, setup.Knows (setup.blueprint.topLevel p) a

/-- All references of the hierarchy name what is planned. -/
structure HierarchyResolvable (setup : Setup) : Prop where
  base : ∀ p ∈ setup.types, ∀ r, p.base = some r → setup.Resolvable p r
  interfaces : ∀ p ∈ setup.types, ∀ r ∈ p.interfaces, setup.Resolvable p r
  constraints : ∀ k p g, setup.firstDeclaration? k = some (p, g) →
    ∀ r ∈ g.constraints, setup.Resolvable p r

/-- A key has a first plan if it has a plan. -/
theorem firstDeclaration?_isSome {setup : Setup} {key : GenericKey} :
    (setup.firstDeclaration? key).isSome ↔
      ∃ d ∈ declarations setup.types, setup.genericKey d.1 d.2 = key := by
  unfold firstDeclaration? firstAmong?
  rw [List.find?_isSome]
  simp only [decide_eq_true_eq]

end Setup

/-- All types are there under their tokens, and all parameters under their keys. -/
structure Furnished (setup : Setup) (s : BuildState) : Prop where
  linked : ∀ p ∈ setup.types, s.TypeOf p fun _ => True
  planned : ∀ token h, s.links.types.get? token = some h → ∃ p ∈ setup.types, p.token = token
  scope : s.registry.scope = setup.config.registryScope
  registry : ∀ k, (s.registry.get? k).isSome ↔
    ∃ d ∈ Setup.declarations setup.types, setup.genericKey d.1 d.2 = k

namespace Furnished

variable {setup : Setup} {s : BuildState}

/-- A state that is furnished knows what is planned. -/
theorem knows_iff (h : Furnished setup s) {topLevel : Token} {a : RefAtom} :
    (s.scope topLevel).Knows a ↔ setup.Knows topLevel a := by
  have hkey (index : UInt32) : (s.registry.key index topLevel) =
      GenericRegistry.key ⟨setup.config.registryScope, {}⟩ index topLevel :=
    GenericRegistry.key_congr h.scope index topLevel
  cases a with
  | primitive p => exact iff_of_true trivial trivial
  | typeDef token =>
    refine and_congr_right fun _ => ?_
    constructor
    · rintro ⟨g, t, hlink, -⟩
      exact h.planned token g hlink
    · rintro ⟨p, hp, rfl⟩
      obtain ⟨g, t, hlink, ht, -⟩ := h.linked p hp
      exact ⟨g, t, hlink, ht⟩
  | var index =>
    show (∃ g, s.registry.get? (s.registry.key index topLevel) = some g) ↔ _
    rw [← Option.isSome_iff_exists, hkey, h.registry]
    rfl
  | mvar index =>
    show (∃ g, s.registry.get? (s.registry.key index topLevel) = some g) ↔ _
    rw [← Option.isSome_iff_exists, hkey, h.registry]
    rfl

theorem canResolve_iff (h : Furnished setup s) {p : TypePlan} {r : TypeRef} :
    (s.scope (setup.blueprint.topLevel p)).CanResolve r ↔ setup.Resolvable p r := by
  rw [Scope.canResolve_iff]
  exact and_congr_right fun _ => and_congr_right fun _ => forall₂_congr fun _ _ => h.knows_iff

/-- The state of either round, once the parameters of all types are registered. -/
theorem of_second {s₀ : BuildState} (hs₀ : Declared setup s₀) {done todo : List PendingType}
    (hall : (done ++ todo).map Prod.fst = setup.types) (h : SecondRound setup s₀ done todo s) :
    Furnished setup s where
  linked p hp := by
    rw [← hall] at hp
    obtain ⟨e, he, rfl⟩ := List.mem_map.mp hp
    rcases List.mem_append.mp he with he | he
    · obtain ⟨g, t, hlink, ht, -⟩ := h.configured e he
      exact ⟨g, t, hlink, ht, trivial⟩
    · obtain ⟨g, t, hlink, ht, -⟩ := h.waiting e he
      exact ⟨g, t, hlink, ht, trivial⟩
  planned token g hlink := by
    rw [h.links] at hlink
    exact hs₀.planned token g hlink
  scope := h.scope
  registry k := by
    rw [← Setup.firstDeclaration?_isSome]
    cases hk : s.registry.get? k with
    | none => simp [h.complete k hk]
    | some o =>
      obtain ⟨e, -, g, -, hfirst, -⟩ := h.registered k o hk
      simp [hfirst]

end Furnished

/-! ## Steps that succeed -/

section Steps

variable {setup : Setup} {p : TypePlan} {h : TypeHandle} {t : TypeDef} {s : BuildState}

/-- The parameters of a type can always be registered. -/
theorem declareTypeGenerics_yields (hlink : s.links.types.get? p.token = some h)
    (ht : s.store.types.get? h = some t) :
    ∃ pending s', (setup.declareTypeGenerics p).Yields s pending s' := by
  have hmanaged : (Build.managedType p).Yields s (h, t) s :=
    Build.yields_managedType.mpr ⟨hlink, ht, rfl⟩
  unfold Setup.declareTypeGenerics
  cases hplanned : p.generics with
  | none =>
    refine ⟨#[], s, Build.yields_bind.mpr ⟨(h, t), s, hmanaged, ?_⟩⟩
    simp
  | some params =>
    cases hopen : t.isConfigured with
    | true =>
      refine ⟨#[], s, Build.yields_bind.mpr ⟨(h, t), s, hmanaged, ?_⟩⟩
      simp [hopen]
    | false =>
      obtain ⟨objects, pending, s₁, hdeclare, -⟩ := declareGenerics_registers (.type p.token)
        (setup.blueprint.topLevel p) t.generics params s
      let list (u : TypeDef) : TypeDef := { u with generics := objects.foldl listOnce t.generics }
      refine ⟨pending, ((Build.modifyType h list).outcome s₁).2,
        Build.yields_bind.mpr ⟨(h, t), s, hmanaged, ?_⟩⟩
      simp only [hopen, Bool.false_eq_true, if_false]
      exact Build.yields_bind.mpr ⟨_, s₁, hdeclare, rfl⟩

variable (hresolver : setup.resolver = Resolver.default) {topLevel : Token}
include hresolver

/-- The base of a type without one can be set if it has a signature. -/
theorem configureBase_yields {base : Option TypeRef} (ht : s.store.types.get? h = some t)
    (hfree : t.base = none) (hbase : ∀ r, base = some r → (s.scope topLevel).CanResolve r) :
    ∃ s', Build.Yields (base.forM (setup.configureBase topLevel h)) s () s' := by
  cases base with
  | none => exact ⟨s, rfl⟩
  | some r =>
    obtain ⟨sig, hsig⟩ := hbase r rfl
    have hresolve : (setup.resolve topLevel r).Yields s sig s :=
      (yields_resolve hresolver).mpr ⟨hsig, rfl⟩
    have hset : s.store.setBase h sig = .ok { s.store with
        types := s.store.types.modify h fun t => { t with base := some sig } } := by
      simp [Store.setBase, ht, hfree]
    refine Exists.imp (fun s' hrest => Build.yields_bind.mpr ⟨sig, s, hresolve, hrest⟩) ?_
    simp only [Build.yields_get_bind, Build.yields_liftExcept_bind, Build.yields_modify]
    exact ⟨_, _, hset, rfl⟩

/-- Interfaces can be added if they have signatures. -/
theorem configureInterfaces_yields {interfaces : List TypeRef}
    (hcan : ∀ r ∈ interfaces, (s.scope topLevel).CanResolve r) :
    ∃ s', Build.Yields (interfaces.forM (setup.configureInterface topLevel h)) s () s' := by
  induction interfaces generalizing s with
  | nil => exact ⟨s, rfl⟩
  | cons r rest ih =>
    obtain ⟨sig, hsig⟩ := hcan r List.mem_cons_self
    have hchange := ChangesType.modifyType h
      (fun t => { t with interfaces := t.interfaces.push sig }) s
    have hagrees := hchange.agrees (fun _ => ⟨rfl, rfl, rfl, rfl, rfl, rfl⟩) topLevel
    obtain ⟨s', hrest⟩ := ih fun q hq =>
      hagrees.canResolve_iff.mp (hcan q (List.mem_cons_of_mem r hq))
    refine ⟨s', Build.yields_forM_cons.mpr ⟨_, ?_, hrest⟩⟩
    exact Build.yields_bind.mpr ⟨sig, s, (yields_resolve hresolver).mpr ⟨hsig, rfl⟩, rfl⟩

omit hresolver in
/-- Telling of a configured type succeeds. -/
theorem noticeConfigured_yields (h : TypeHandle) (s : BuildState) :
    ∃ s', (Setup.noticeConfigured h).Yields s () s' := by
  unfold Setup.noticeConfigured
  rw [exists_congr fun _ => Build.yields_get_bind]
  split
  · exact ⟨s, rfl⟩
  · exact ⟨_, rfl⟩

/-- A type can be configured if all references of its plan and of its pending parameters have
signatures. -/
theorem configure_yields {pending : Array PendingGeneric}
    (hlink : s.links.types.get? p.token = some h) (ht : s.store.types.get? h = some t)
    (hopen : t.isConfigured = false) (hfree : t.base = none)
    (hnodup : (pending.toList.map PendingGeneric.param).Nodup)
    (hcan : (s.scope (setup.blueprint.topLevel p)).CanConstrain pending.toList)
    (hbase : ∀ r, p.base = some r → (s.scope (setup.blueprint.topLevel p)).CanResolve r)
    (hinterfaces : ∀ r ∈ p.interfaces.toList,
      (s.scope (setup.blueprint.topLevel p)).CanResolve r) :
    ∃ s', (setup.configure p pending).Yields s () s' := by
  obtain ⟨s₁, hconstrain⟩ := constrainGenerics_yields hresolver hcan
  have hconstrains : Constrains (s.scope (setup.blueprint.topLevel p)) pending.toList s s₁ := by
    rw [← hconstrain.outcome_snd]
    exact constrainGenerics_constrains hresolver _ pending s hnodup
  -- no step changes what resolves
  have hagrees₁ := hconstrains.toOnlyGenerics.agrees hconstrains.registry
    (setup.blueprint.topLevel p)
  have ht₁ : s₁.store.types.get? h = some t := by rw [hconstrains.toOnlyGenerics.types, ht]
  obtain ⟨s₂, hset⟩ := configureBase_yields hresolver ht₁ hfree fun r hr =>
    hagrees₁.canResolve_iff.mp (hbase r hr)
  obtain ⟨sig, -, hchange⟩ := yields_configureBase hresolver ht₁ hset
  have hagrees₂ := hagrees₁.trans
    (hchange.agrees (fun _ => ⟨rfl, rfl, rfl, rfl, rfl, rfl⟩) (setup.blueprint.topLevel p))
  obtain ⟨s₃, hadd⟩ := configureInterfaces_yields (h := h) hresolver fun r hr =>
    hagrees₂.canResolve_iff.mp (hinterfaces r hr)
  obtain ⟨s', htell⟩ := noticeConfigured_yields h
    { s₃ with store := { s₃.store with
        types := s₃.store.types.modify h fun t => { t with isConfigured := true } } }
  refine ⟨s', ?_⟩
  unfold Setup.configure
  refine Build.yields_bind.mpr ⟨(h, t), s, Build.yields_managedType.mpr ⟨hlink, ht, rfl⟩, ?_⟩
  simp only [hopen, Bool.false_eq_true, if_false]
  exact Build.yields_bind.mpr ⟨(), s₁, hconstrain, Build.yields_bind.mpr ⟨(), s₂, hset,
    Build.yields_bind.mpr ⟨(), s₃, hadd, Build.yields_bind.mpr ⟨(), _, rfl, htell⟩⟩⟩⟩

end Steps

/-! ## The two rounds -/

/-- The first round always succeeds. -/
theorem registerTypes_yields {setup : Setup} {s : BuildState} (hs : Declared setup s) :
    ∃ made s', setup.registerTypes.Yields s made s' := by
  obtain ⟨made, s', hrun, -⟩ := registerTypes_yields_of (FirstRound setup s) (FirstRound.start hs)
    fun work p todo s₁ hall hI => by
      obtain ⟨h, t, hlink, ht, -⟩ := hI.untouched p List.mem_cons_self
      obtain ⟨pending, s', hstep⟩ := declareTypeGenerics_yields hlink ht
      exact ⟨pending, s', hstep, hI.step hs hall hstep⟩
  exact ⟨made, s', hrun⟩

/-- The second round succeeds if all references resolve. -/
theorem configureTypes_yields {setup : Setup} (hresolver : setup.resolver = Resolver.default)
    {s₀ s : BuildState} {work : List PendingType} (hs₀ : Declared setup s₀)
    (hall : work.map Prod.fst = setup.types) (hs : FirstRound setup s₀ work [] s)
    (hcan : setup.HierarchyResolvable) : ∃ s', (setup.configureTypes work).Yields s () s' := by
  obtain ⟨s', hrun, -⟩ := Build.forM_yields (l := work)
    (f := fun e => setup.inContext .hierarchy e.1 (setup.configure e.1 e.2))
    (fun done todo s => SecondRound setup s₀ done todo s) (hs.next hall)
    (fun done e todo s hsplit hI => by
      have hall := hsplit ▸ hall
      have hp : e.1 ∈ setup.types := by simp [← hall]
      have hiff {r : TypeRef} :=
        (Furnished.of_second hs₀ hall hI).canResolve_iff (p := e.1) (r := r)
      have hnodup := hI.nodup
      rw [List.flatMap_append, List.flatMap_cons, List.nodup_append, List.nodup_append] at hnodup
      obtain ⟨h, _, hlink, ht, d, listed, rfl, -⟩ := hI.waiting e List.mem_cons_self
      obtain ⟨s', hstep⟩ := configure_yields hresolver hlink ht rfl rfl hnodup.2.1.1
        (fun item hitem c hc => by
          obtain ⟨k, g, hfirst, hconstraints⟩ :=
            hI.planned e (by simp) item (Array.mem_toList_iff.mp hitem)
          exact hiff.mpr (hcan.constraints k e.1 g hfirst c (hconstraints ▸ hc)))
        (fun r hr => hiff.mpr (hcan.base e.1 hp r hr))
        (fun r hr => hiff.mpr (hcan.interfaces e.1 hp r (Array.mem_toList_iff.mp hr)))
      exact ⟨s', Setup.yields_inContext.mpr hstep, hI.step hresolver hs₀ hall hstep⟩)
  exact ⟨s', hrun⟩

/-- All references of a hierarchy that has been mirrored name what is planned. -/
theorem Configured.resolvable {setup : Setup} {s : BuildState} (h : Configured setup s)
    (hfurnished : Furnished setup s) : setup.HierarchyResolvable where
  base p hp r hr := by
    obtain ⟨-, t, -, -, hmirrored⟩ := h.types p hp
    have hbase := hmirrored.base
    rw [hr] at hbase
    cases hbase' : t.base with
    | none =>
      rw [hbase'] at hbase
      cases hbase
    | some sig =>
      rw [hbase', Scope.ResolvesOption, Option.rel_some_some] at hbase
      exact hfurnished.canResolve_iff.mp ⟨sig, hbase⟩
  interfaces p hp r hr := by
    obtain ⟨-, t, -, -, hmirrored⟩ := h.types p hp
    have hr := hmirrored.interfaces.canResolve r (Array.mem_toList_iff.mpr hr)
    exact hfurnished.canResolve_iff.mp hr
  constraints k p g hfirst r hr := by
    obtain ⟨hdeclares, hkey⟩ := Setup.of_firstDeclaration? hfirst
    obtain ⟨o, ho⟩ := Option.isSome_iff_exists.mp ((h.registry k).mpr ⟨(p, g), hdeclares, hkey⟩)
    obtain ⟨p', g', x, hfirst', -, -, hcomplete⟩ := h.generics k o ho
    rw [hfirst] at hfirst'
    obtain ⟨rfl, rfl⟩ := Prod.mk.inj (Option.some.inj hfirst')
    have hr := hcomplete.constraints.canResolve r (Array.mem_toList_iff.mpr hr)
    exact hfurnished.canResolve_iff.mp hr

/-- Over declared types the pass succeeds **exactly if** all references of the hierarchy name what
is planned. -/
theorem configureHierarchy_yields_iff {setup : Setup}
    (hresolver : setup.resolver = Resolver.default) {s : BuildState} (hs : Declared setup s) :
    (∃ s', setup.configureHierarchy.Yields s () s') ↔ setup.HierarchyResolvable := by
  constructor
  · rintro ⟨s', hrun⟩
    obtain ⟨work, s₂, notices, notices', hs, hall, hfinal, rfl⟩ :=
      rounds_of_yields hresolver hs hrun
    have hfurnished := Furnished.of_second hs (by rw [List.append_nil, hall]) hfinal
    exact (hfinal.finish hs hall).resolvable hfurnished
  · intro hcan
    have hs' := hs.of_notices
      (s.notices.push (.configuring setup.types.length setup.blueprint.module))
    obtain ⟨made, s₁, hfirst⟩ := registerTypes_yields hs'
    obtain ⟨hall, hround⟩ := firstRound_of_yields hs' hfirst
    obtain ⟨s₂, hsecond⟩ := configureTypes_yields hresolver hs' hall hround hcan
    exact ⟨_, yields_configureHierarchy.mpr ⟨_, made, s₁, s₂, rfl, hfirst, hsecond, rfl⟩⟩

end ClrImage
