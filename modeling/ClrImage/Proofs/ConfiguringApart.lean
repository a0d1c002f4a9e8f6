import ClrImage.Proofs.RegisteringApart

/-!
# Types apart are configured

The second round of the second pass, for types that plan no parameter with the same key. All
parameters are registered when the round starts, and nothing that a reference is checked against
changes while it lasts. So a thread finds the faults that are there at the start, whatever the
schedule: it fails with the first fault in the references of its type, or configures it.

- `AmidConfiguring`: what holds at all times of the round.
- `PartsMade`: how far constraints, base and interfaces of a type have been attached.
- `Stepwise.attaches`: references that are resolved one after the other.
- `Stepwise.configures_type`: the thread for a type.
- `yields_configuringRound`, `fails_configuringRound`: the outcomes of the round, and
  `exists_fails_configuringRound`: any fault may be the one that is reported.
-/

namespace ClrImage

/-- The first fault in the hierarchy of a type, in the context of the type. -/
def Setup.hierarchyFault? (setup : Setup) (s : BuildState) (p : TypePlan) : Option Failure :=
  ((s.scope (setup.blueprint.topLevel p)).faultIn? p.references).map (setup.failureIn .hierarchy p)

theorem SameNames.hierarchyFault?_eq {setup : Setup} {s s' : BuildState} (h : SameNames s s') :
    setup.hierarchyFault? s' = setup.hierarchyFault? s := by
  funext p
  unfold Setup.hierarchyFault?
  rw [h.faultIn?_eq]

/-! ## At all times -/

/-- What holds at all times of the second round, which starts in the state `s₁`: every check on a
reference finds what it would have found there. -/
structure AmidConfiguring (setup : Setup) (s₀ s₁ s : BuildState) : Prop
    extends Amid setup s₀ s where
  names : SameNames s₁ s

namespace AmidConfiguring

variable {setup : Setup} {s₀ s₁ s : BuildState}

theorem of_notices (h : AmidConfiguring setup s₀ s₁ s) (notices : Array Notice) :
    AmidConfiguring setup s₀ s₁ { s with notices } where
  toAmid := h.toAmid.of_notices notices
  names := h.names.trans (.of_sameNesting (.of_eq rfl rfl rfl) rfl fun _ => rfl)

theorem modifyGeneric (h : AmidConfiguring setup s₀ s₁ s) (o : GenericHandle)
    {f : GenericParam → GenericParam} (halike : ∀ x, GenericParam.Alike x (f x)) :
    AmidConfiguring setup s₀ s₁ ((Build.modifyGeneric o f).outcome s).2 where
  toAmid := h.toAmid.modifyGeneric o f
  names := h.names.trans (SameNames.keeps_modifyGeneric o (fun x => (halike x).name) s)

theorem modifyType (h : AmidConfiguring setup s₀ s₁ s) (o : TypeHandle) {f : TypeDef → TypeDef}
    (hplace : ∀ t, TypeDef.SamePlace t (f t)) :
    AmidConfiguring setup s₀ s₁ ((Build.modifyType o f).outcome s).2 where
  toAmid := h.toAmid.modifyType o hplace
  names := h.names.trans (SameNames.keeps_modifyType o hplace s)

end AmidConfiguring

/-! ## Types under way -/

/-- How far a parameter has been constrained: the references that are attached, and whether it is
marked. -/
structure Attached where
  constraints : List TypeRef := []
  isConstrained : Bool := false

/-- All that a plan asks for. -/
def Attached.all (g : GenericPlan) : Attached := ⟨g.constraints.toList, true⟩

/-- The parameter has been constrained so far. -/
structure GenericParam.Bears (x : GenericParam) (scope : Scope) (a : Attached) : Prop where
  constraints : scope.Resolves a.constraints x.constraints.toList
  isConstrained : x.isConstrained = a.isConstrained

theorem GenericParam.Bears.mono {x : GenericParam} {scope scope' : Scope} {a : Attached}
    (h : x.Bears scope a) (hscope : scope.Extends scope') : x.Bears scope' a :=
  ⟨h.constraints.mono hscope, h.isConstrained⟩

/-- The type of a plan is `t`, and the parameters of its plans that count, by their indices, have
been constrained so far. -/
structure PartsMade (setup : Setup) (p : TypePlan) (h : TypeHandle) (t : TypeDef)
    (attached : UInt32 → Attached) (s : BuildState) : Prop where
  link : s.links.types.get? p.token = some h
  type : s.store.types.get? h = some t
  params : ∀ g, p.Describes g → s.ParamOf setup p g
    (·.Bears (s.scope (setup.blueprint.topLevel p)) (attached g.index))

/-- What a type is while it is configured. -/
def TypePlan.partly (p : TypePlan) (declaring : Option TypeHandle) (generics : Array GenericHandle)
    (base : Option Signature) (interfaces : Array Signature) (isConfigured : Bool) : TypeDef :=
  { p.declaration with declaring, generics, base, interfaces, isConfigured }

theorem TypePlan.Describes.eq_of_index {p : TypePlan} {g d : GenericPlan} (hg : p.Describes g)
    (hd : p.Describes d) (hindex : d.index = g.index) : d = g := by
  unfold TypePlan.Describes at hg hd
  rw [hindex, hg] at hd
  exact (Option.some.inj hd).symm

section

variable {setup : Setup} {p : TypePlan} {h : TypeHandle} {t : TypeDef}
  {attached : UInt32 → Attached} {g : GenericPlan} {o : GenericHandle} {s s' : BuildState}

/-- A type that is registered has not been begun with. -/
theorem Stands.parts (hstands : Stands setup p .registered s) : ∃ h d listed,
    PartsMade setup p h (p.partly d listed none #[] false) (fun _ => {}) s ∧
      (s.scope (setup.blueprint.topLevel p)).Lists p.genericPlans listed := by
  obtain ⟨h, t, hlink, ht, d, listed, rfl, hlists⟩ := hstands.type
  refine ⟨h, d, listed, ⟨hlink, ht, fun g hg => (hstands.params g hg).imp fun x hx => ?_⟩, hlists⟩
  refine ⟨?_, hx.isConstrained⟩
  rw [hx.constraints]
  exact .nil

namespace PartsMade

theorem spared (hparts : PartsMade setup p h t attached s) (hs : SparesType setup p s s') :
    PartsMade setup p h t attached s' where
  link := hs.grows.links.types _ _ hparts.link
  type := (hs.type h hparts.link).trans hparts.type
  params g hg := by
    obtain ⟨o, x, ho, hx, hmade, howners, hbears⟩ := hparts.params g hg
    exact ⟨o, x, hs.grows.registry _ _ ho, hs.params o x hx hmade.declaredBy, hmade, howners,
      hbears.mono (hs.grows.scope _)⟩

/-- A change of a parameter leaves those of other plans. -/
theorem constrain (hparts : PartsMade setup p h t attached s) (hg : p.Describes g)
    (hheld : s.registry.get? (setup.genericKey p g) = some o) {f : GenericParam → GenericParam}
    {next : Attached} (halike : ∀ x, GenericParam.Alike x (f x))
    (howners : ∀ x, (f x).owners = x.owners)
    (hnext : ∀ x, x.Bears (s.scope (setup.blueprint.topLevel p)) (attached g.index) →
      (f x).Bears (s.scope (setup.blueprint.topLevel p)) next) :
    PartsMade setup p h t (Function.update attached g.index next)
      ((Build.modifyGeneric o f).outcome s).2 := by
  have hgrows : s.Extends ((Build.modifyGeneric o f).outcome s).2 :=
    (keeps_modifyGeneric o halike s).toExtends
  have hget (o' : GenericHandle) :
      ((Build.modifyGeneric o f).outcome s).2.store.generics.get? o' =
        if o' = o then (s.store.generics.get? o').map f else s.store.generics.get? o' :=
    Arena.get?_modify _ o f o'
  obtain ⟨o₁, y, ho₁, hy, hmade₁, -⟩ := hparts.params g hg
  obtain rfl := Option.some.inj (hheld.symm.trans ho₁)
  refine ⟨hparts.link, hparts.type, fun d hd => ?_⟩
  obtain ⟨o', x, ho', hx, hmade, hown, hbears⟩ := hparts.params d hd
  -- plans that count have different indices, and so do the parameters made for them
  by_cases hindex : d.index = g.index
  · obtain rfl := hg.eq_of_index hd hindex
    obtain rfl := Option.some.inj (hheld.symm.trans ho')
    rw [Function.update_self]
    refine ⟨o, f x, ho', ?_, hmade.of_alike (halike x), (howners x).trans hown,
      (hnext x hbears).mono (hgrows.scope _)⟩
    rw [hget, if_pos rfl, hx]
    rfl
  · rw [Function.update_of_ne hindex]
    refine ⟨o', x, ho', ?_, hmade, hown, hbears.mono (hgrows.scope _)⟩
    rw [hget, if_neg, hx]
    rintro rfl
    obtain rfl := Option.some.inj (hx.symm.trans hy)
    exact hindex (hmade.index.symm.trans hmade₁.index)

/-- A change of the type leaves its parameters. -/
theorem changeType (hparts : PartsMade setup p h t attached s) {f : TypeDef → TypeDef}
    (hplace : ∀ t, TypeDef.SamePlace t (f t)) :
    PartsMade setup p h (f t) attached ((Build.modifyType h f).outcome s).2 := by
  have hgrows : s.Extends ((Build.modifyType h f).outcome s).2 :=
    (AllowsCalls.modifyType (R := Later) h f hplace s).toExtends
  refine ⟨hparts.link, ?_, fun g hg => (hparts.params g hg).imp fun x hx =>
    hx.mono (hgrows.scope _)⟩
  show (s.store.types.modify h f).get? h = some (f t)
  rw [Arena.get?_modify, if_pos rfl, hparts.type]
  rfl

/-- When all parts have been attached, the type is configured. -/
theorem stands {d : Option TypeHandle} {listed : Array GenericHandle} {base : Option Signature}
    {interfaces : Array Signature}
    (hparts : PartsMade setup p h (p.partly d listed base interfaces true) attached s)
    (hall : ∀ g, p.Describes g → attached g.index = .all g)
    (hlists : (s.scope (setup.blueprint.topLevel p)).Lists p.genericPlans listed)
    (hbase : (s.scope (setup.blueprint.topLevel p)).ResolvesOption p.base base)
    (hinterfaces : (s.scope (setup.blueprint.topLevel p)).Resolves p.interfaces.toList
      interfaces.toList) :
    Stands setup p .configured s where
  type := ⟨h, _, hparts.link, hparts.type, ⟨rfl, rfl, rfl, rfl, rfl, rfl⟩, ⟨rfl, rfl, rfl, rfl⟩,
    rfl, hbase, hinterfaces, hlists⟩
  params g hg := (hparts.params g hg).imp fun x hx => by
    rw [hall g hg] at hx
    exact ⟨hx.constraints, hx.isConstrained⟩

end PartsMade

end

/-! ## Threads -/

namespace Stepwise

open Thread

variable {setup : Setup} {s₀ s₁ s : BuildState} {p : TypePlan} {h : TypeHandle} {t : TypeDef}
  {attached : UInt32 → Attached} {g : GenericPlan} {E : Failure → BuildState → Prop}
  {before after : List TypeRef}

/-! ### Single changes -/

/-- A parameter of the type is changed. -/
theorem constrains_param {old next : Attached}
    (hparts : PartsMade setup p h t (Function.update attached g.index old) s) (hg : p.Describes g)
    {o : GenericHandle} (hheld : s.registry.get? (setup.genericKey p g) = some o)
    {f : GenericParam → GenericParam}
    (halike : ∀ x, GenericParam.Alike x (f x)) (howners : ∀ x, (f x).owners = x.owners)
    (hnext : ∀ s', s.Extends s' → ∀ x : GenericParam,
      x.Bears (s'.scope (setup.blueprint.topLevel p)) old →
      (f x).Bears (s'.scope (setup.blueprint.topLevel p)) next) :
    (liftM (Build.modifyGeneric o f) : Thread Unit).Safe
      (setup.apart (AmidConfiguring setup s₀ s₁) p)
      (fun _ => PartsMade setup p h t (Function.update attached g.index next)) E s := by
  refine Safe.lift_of_yields fun s₂ hs₂ hamid => ?_
  have hparts₂ := hparts.spared hs₂
  have hheld₂ := hs₂.grows.registry _ _ hheld
  have hchanged := hparts₂.constrain hg hheld₂ halike howners fun x hx =>
    hnext s₂ hs₂.grows x (Function.update_self g.index old attached ▸ hx)
  rw [Function.update_idem] at hchanged
  refine ⟨(), _, rfl, hamid.modifyGeneric o halike, .modifyGeneric (fun x hx => ?_) halike,
    fun s' hs' _ => hchanged.spared hs'⟩
  obtain ⟨o', y, ho', hy, hmade, -⟩ := hparts₂.params g hg
  obtain rfl := Option.some.inj (hheld₂.symm.trans ho')
  obtain rfl := Option.some.inj (hx.symm.trans hy)
  exact hmade.declaredBy

/-- The type itself is changed. -/
theorem changes_type (hs₀ : Declared setup s₀) (hp : p ∈ setup.types)
    (hparts : PartsMade setup p h t attached s) {f : TypeDef → TypeDef}
    (hplace : ∀ t, TypeDef.SamePlace t (f t)) {action : Build Unit}
    (haction : ∀ s : BuildState, s.store.types.get? h = some t →
      action.outcome s = (Build.modifyType h f).outcome s) :
    (liftM action : Thread Unit).Safe (setup.apart (AmidConfiguring setup s₀ s₁) p)
      (fun _ => PartsMade setup p h (f t) attached) E s := by
  refine Safe.lift_of_yields fun s₂ hs₂ hamid => ?_
  have hparts₂ := hparts.spared hs₂
  exact ⟨(), _, haction s₂ hparts₂.type, hamid.modifyType h hplace,
    .modifyType hs₀ hamid.toAmid hp hparts₂.link hplace,
    fun s' hs' _ => (hparts₂.changeType hplace).spared hs'⟩

/-- A base is set where there is none. -/
theorem outcome_setBase_of_none (ht : s.store.types.get? h = some t) (hfree : t.base = none)
    (sig : Signature) : (Build.setBase h sig).outcome s =
      (Build.modifyType h fun t => { t with base := some sig }).outcome s := by
  have hset : s.store.setBase h sig = .ok { s.store with
      types := s.store.types.modify h fun t => { t with base := some sig } } := by
    simp [Store.setBase, ht, hfree]
  unfold Build.setBase Build.modifyType Build.modifyStore
  simp only [Build.outcome_bind, Build.outcome_get, Build.outcome_liftExcept, hset,
    Build.outcome_modify]

/-! ### References -/

section

variable (hresolver : setup.resolver = Resolver.default)
include hresolver

/-- A reference is resolved, or the first fault in the references of the type is found. -/
theorem resolves {r : TypeRef} (hrefs : p.references = before ++ r :: after)
    (hbefore : (s₁.scope (setup.blueprint.topLevel p)).faultIn? before = none) :
    (liftM (setup.resolve (setup.blueprint.topLevel p) r) : Thread Signature).Safe
      (setup.apart (AmidConfiguring setup s₀ s₁) p)
      (fun sig s' => (s₁.scope (setup.blueprint.topLevel p)).faultIn? (before ++ [r]) = none ∧
        (s'.scope (setup.blueprint.topLevel p)).resolve r = .ok sig ∧ SparesType setup p s s')
      (fun e _ => (s₁.scope (setup.blueprint.topLevel p)).faultIn? p.references = some e) s := by
  refine .tells (fun _ n h => h.of_notices n) (keeps_resolve _ r)
    (fun s₂ sig s₃ _ hamid hrun s' hs' hs₂' _ => ?_) fun s₂ e s₃ _ hamid hrun _ _ _ => ?_
  · obtain ⟨hsig, rfl⟩ := (yields_resolve hresolver).mp hrun
    refine ⟨?_, Scope.resolve_extends (hs₂'.grows.scope _) hsig, hs'⟩
    rw [Scope.faultIn?_append, hbefore, Option.none_or, ← hamid.names.faultIn?_eq,
      Scope.faultIn?_eq_none, List.forall_mem_singleton]
    exact ⟨sig, hsig⟩
  · obtain ⟨he, rfl⟩ := (fails_resolve hresolver).mp hrun
    rw [hrefs, Scope.faultIn?_append, hbefore, Option.none_or, Scope.faultIn?_cons,
      ← hamid.names.faultIn?_eq]
    obtain ⟨sig, hsig, -⟩ | ⟨e', he', hfault⟩ := (s₂.scope _).resolve_cases r
    · cases he.symm.trans hsig
    · rw [hfault, Option.some_or]
      exact congrArg some (Except.error.inj (he'.symm.trans he))

/-- References are resolved one after the other, and something is done with each signature. -/
theorem attaches {refs : List TypeRef} {change : Signature → Thread Unit}
    (J : List TypeRef → BuildState → Prop)
    (hJ : ∀ done s s', SparesType setup p s s' → J done s → J done s')
    (hrefs : p.references = before ++ (refs ++ after))
    (hbefore : (s₁.scope (setup.blueprint.topLevel p)).faultIn? before = none) (start : J [] s)
    (hchange : ∀ done r sig s', s.Extends s' → J done s' →
      (s'.scope (setup.blueprint.topLevel p)).resolve r = .ok sig →
      (change sig).Safe (setup.apart (AmidConfiguring setup s₀ s₁) p) (fun _ => J (done ++ [r]))
        (fun e _ => (s₁.scope (setup.blueprint.topLevel p)).faultIn? p.references = some e) s') :
    (refs.forM fun r => (do
      let sig ← setup.resolve (setup.blueprint.topLevel p) r
      change sig : Thread Unit)).Safe (setup.apart (AmidConfiguring setup s₀ s₁) p)
      (fun _ s' => (s₁.scope (setup.blueprint.topLevel p)).faultIn? (before ++ refs) = none ∧
        J refs s')
      (fun e _ => (s₁.scope (setup.blueprint.topLevel p)).faultIn? p.references = some e) s := by
  refine Safe.forM (fun done s' =>
    (s₁.scope (setup.blueprint.topLevel p)).faultIn? (before ++ done) = none ∧ J done s')
    (fun done _ _ hs' hdone => ⟨hdone.1, hJ done _ _ hs' hdone.2⟩) ⟨by simpa using hbefore, start⟩
    ?_ fun _ _ => id
  rintro done r todo s₂ rfl hs₂ - ⟨hdone, hJ₂⟩
  have hsplit : p.references = (before ++ done) ++ r :: (todo ++ after) := by simp [hrefs]
  refine (resolves hresolver hsplit hdone).bind ?_
  rintro sig s₃ - - ⟨hnone, hsig, hs₃⟩
  have hgrows := (Setup.extends_of_passes hs₂).trans hs₃.grows
  refine (hchange done r sig s₃ hgrows (hJ done _ _ hs₃ hJ₂) hsig).imp
    (fun _ _ _ _ hJ₃ => ⟨?_, hJ₃⟩) fun _ _ _ _ => id
  rw [← List.append_assoc]
  exact hnone

/-! ### The parts of a type -/

/-- A parameter gets its constraints, and is marked. -/
theorem configures_constrainGeneric (hg : p.Describes g) {item : PendingGeneric}
    (hconstraints : item.constraints = g.constraints)
    (hheld : s.registry.get? (setup.genericKey p g) = some item.param)
    (hrefs : p.references = before ++ (g.constraints.toList ++ after))
    (hbefore : (s₁.scope (setup.blueprint.topLevel p)).faultIn? before = none)
    (hparts : PartsMade setup p h t attached s) (hopen : attached g.index = {}) :
    (constrainGeneric setup (setup.blueprint.topLevel p) item).Safe
      (setup.apart (AmidConfiguring setup s₀ s₁) p)
      (fun _ s' => (s₁.scope (setup.blueprint.topLevel p)).faultIn?
          (before ++ g.constraints.toList) = none ∧
        PartsMade setup p h t (Function.update attached g.index (.all g)) s')
      (fun e _ => (s₁.scope (setup.blueprint.topLevel p)).faultIn? p.references = some e) s := by
  unfold constrainGeneric
  rw [hconstraints]
  refine (attaches hresolver (fun done => PartsMade setup p h t
    (Function.update attached g.index ⟨done, false⟩)) (fun _ _ _ hs hparts => hparts.spared hs)
    hrefs hbefore ?_ ?_).bind ?_
  · rwa [← hopen, Function.update_eq_self]
  · intro done r sig s₂ hs₂ hparts₂ hsig
    refine constrains_param hparts₂ hg (hs₂.registry _ _ hheld)
      (fun _ => ⟨rfl, rfl, rfl, rfl, rfl⟩) (fun _ => rfl) fun s₃ hs₃ x hx => ?_
    refine ⟨?_, hx.isConstrained⟩
    rw [Array.toList_push]
    exact List.rel_append hx.constraints (.cons (Scope.resolve_extends (hs₃.scope _) hsig) .nil)
  · rintro _ s₂ hs₂ - ⟨hnone, hparts₂⟩
    have hheld₂ := (Setup.extends_of_passes hs₂).registry _ _ hheld
    refine Safe.imp (P := fun _ =>
        PartsMade setup p h t (Function.update attached g.index (.all g)))
      (constrains_param hparts₂ hg hheld₂ (fun _ => ⟨rfl, rfl, rfl, rfl, rfl⟩) (fun _ => rfl)
        fun _ _ x hx => ⟨hx.constraints, rfl⟩)
      (fun _ _ _ _ hparts₃ => ⟨hnone, hparts₃⟩) fun _ _ _ _ => id

/-- So do all that are pending, wherever the thread has got to. -/
theorem configures_constrainGenerics {done plans : List GenericPlan} {items : List PendingGeneric}
    (hitems : List.Forall₂ (fun g item => item.constraints = g.constraints ∧
      s.registry.get? (setup.genericKey p g) = some item.param) plans items)
    (hnodup : (items.map PendingGeneric.param).Nodup) (hown : p.ownPlans = done ++ plans)
    (hbefore : (s₁.scope (setup.blueprint.topLevel p)).faultIn?
      (done.flatMap (·.constraints.toList)) = none)
    (hparts : PartsMade setup p h t attached s) (hdone : ∀ g ∈ done, attached g.index = .all g)
    (hopen : ∀ g ∈ plans, attached g.index = {}) :
    (items.forM (constrainGeneric setup (setup.blueprint.topLevel p))).Safe
      (setup.apart (AmidConfiguring setup s₀ s₁) p)
      (fun _ s' => (s₁.scope (setup.blueprint.topLevel p)).faultIn?
          (p.ownPlans.flatMap (·.constraints.toList)) = none ∧
        ∃ attached, (∀ g, p.Describes g → attached g.index = .all g) ∧
          PartsMade setup p h t attached s')
      (fun e _ => (s₁.scope (setup.blueprint.topLevel p)).faultIn? p.references = some e) s := by
  induction plans generalizing items done attached s with
  | nil =>
    cases hitems
    rw [List.append_nil] at hown
    refine Safe.pure fun s' hs' _ => ⟨hown ▸ hbefore, attached, fun g hg => ?_, hparts.spared hs'⟩
    exact hdone g (hown ▸ TypePlan.mem_ownPlans.mpr hg)
  | cons g plans ih =>
    obtain - | ⟨⟨hconstraints, hheld⟩, hrest⟩ := hitems
    obtain ⟨hopen₁, hopens⟩ := List.forall_mem_cons.mp hopen
    rw [List.map_cons, List.nodup_cons] at hnodup
    have hg : p.Describes g := TypePlan.mem_ownPlans.mp (by simp [hown])
    have hrefs : p.references = done.flatMap (·.constraints.toList) ++ (g.constraints.toList ++
        (plans.flatMap (·.constraints.toList) ++ (p.base.toList ++ p.interfaces.toList))) := by
      simp [TypePlan.references, hown]
    refine (configures_constrainGeneric hresolver hg hconstraints hheld hrefs hbefore hparts
      hopen₁).bind ?_
    rintro _ s₂ hs₂ - ⟨hnone, hparts₂⟩
    have hgrows := Setup.extends_of_passes hs₂
    -- the plans that are left have other indices, because other parameters are pending for them
    have hother : ∀ d ∈ plans, d.index ≠ g.index := by
      intro d hd hindex
      obtain ⟨item', hitem', -, hheld'⟩ := exists_of_forall₂ hrest hd
      rw [Setup.genericKey_eq_iff.mpr hindex] at hheld'
      refine hnodup.1 (List.mem_map.mpr ⟨item', hitem', ?_⟩)
      exact Option.some.inj (hheld'.symm.trans hheld)
    have hown' : p.ownPlans = (done ++ [g]) ++ plans := by simp [hown]
    refine ih (hrest.imp fun _ _ hitem => ⟨hitem.1, hgrows.registry _ _ hitem.2⟩) hnodup.2 hown'
      (by simpa using hnone) hparts₂ (fun d hd => ?_) fun d hd => ?_
    · rcases List.mem_append.mp hd with hd | hd
      · rw [Function.update_apply]
        split
        next hindex =>
          have hdescribes : p.Describes d := TypePlan.mem_ownPlans.mp (by simp [hown, hd])
          rw [hg.eq_of_index hdescribes hindex]
        next => exact hdone d hd
      · obtain rfl := List.mem_singleton.mp hd
        exact Function.update_self ..
    · rw [Function.update_of_ne (hother d hd)]
      exact hopens d hd

/-- The type gets its base. -/
theorem configures_configureBase (hs₀ : Declared setup s₀) (hp : p ∈ setup.types)
    (hrefs : p.references = before ++ (p.base.toList ++ after))
    (hbefore : (s₁.scope (setup.blueprint.topLevel p)).faultIn? before = none)
    {d : Option TypeHandle} {listed : Array GenericHandle}
    (hparts : PartsMade setup p h (p.partly d listed none #[] false) attached s) :
    (p.base.forM (configureBase setup (setup.blueprint.topLevel p) h)).Safe
      (setup.apart (AmidConfiguring setup s₀ s₁) p)
      (fun _ s' => (s₁.scope (setup.blueprint.topLevel p)).faultIn?
          (before ++ p.base.toList) = none ∧
        ∃ base, (s'.scope (setup.blueprint.topLevel p)).ResolvesOption p.base base ∧
          PartsMade setup p h (p.partly d listed base #[] false) attached s')
      (fun e _ => (s₁.scope (setup.blueprint.topLevel p)).faultIn? p.references = some e) s := by
  cases hbase : p.base with
  | none =>
    refine Safe.pure fun s' hs' _ => ⟨?_, none, .none, hparts.spared hs'⟩
    simpa using hbefore
  | some r =>
    rw [hbase] at hrefs
    show (configureBase setup (setup.blueprint.topLevel p) h r).Safe _ _ _ _
    unfold configureBase
    refine (resolves hresolver hrefs hbefore).bind ?_
    rintro sig s₂ - - ⟨hnone, hsig, hs₂⟩
    refine (changes_type hs₀ hp (hparts.spared hs₂) (f := fun t => { t with base := some sig })
      (fun _ => ⟨⟨rfl, rfl, rfl, rfl, rfl, rfl⟩, rfl⟩)
      fun s' ht => outcome_setBase_of_none ht rfl sig).imp
      (fun _ s₃ hs₃ _ hparts₃ => ?_) fun _ _ _ _ => id
    exact ⟨hnone, some sig,
      .some (Scope.resolve_extends ((Setup.extends_of_passes hs₃).scope _) hsig), hparts₃⟩

/-- The type gets its interfaces. -/
theorem configures_configureInterfaces (hs₀ : Declared setup s₀) (hp : p ∈ setup.types)
    (hrefs : p.references = before ++ (p.interfaces.toList ++ after))
    (hbefore : (s₁.scope (setup.blueprint.topLevel p)).faultIn? before = none)
    {d : Option TypeHandle} {listed : Array GenericHandle} {base : Option Signature}
    (hparts : PartsMade setup p h (p.partly d listed base #[] false) attached s) :
    (p.interfaces.toList.forM (configureInterface setup (setup.blueprint.topLevel p) h)).Safe
      (setup.apart (AmidConfiguring setup s₀ s₁) p)
      (fun _ s' => (s₁.scope (setup.blueprint.topLevel p)).faultIn?
          (before ++ p.interfaces.toList) = none ∧
        ∃ interfaces : Array Signature,
          (s'.scope (setup.blueprint.topLevel p)).Resolves p.interfaces.toList interfaces.toList ∧
          PartsMade setup p h (p.partly d listed base interfaces false) attached s')
      (fun e _ => (s₁.scope (setup.blueprint.topLevel p)).faultIn? p.references = some e) s := by
  unfold configureInterface
  refine attaches hresolver (fun done s' => ∃ interfaces : Array Signature,
    (s'.scope (setup.blueprint.topLevel p)).Resolves done interfaces.toList ∧
      PartsMade setup p h (p.partly d listed base interfaces false) attached s')
    ?_ hrefs hbefore ⟨#[], .nil, hparts⟩ ?_
  · rintro done s₂ s₃ hs₃ ⟨interfaces, hsigs, hparts₂⟩
    exact ⟨interfaces, hsigs.mono (hs₃.grows.scope _), hparts₂.spared hs₃⟩
  · rintro done r sig s₂ - ⟨interfaces, hsigs, hparts₂⟩ hsig
    refine (changes_type hs₀ hp hparts₂
      (f := fun t => { t with interfaces := t.interfaces.push sig })
      (fun _ => ⟨⟨rfl, rfl, rfl, rfl, rfl, rfl⟩, rfl⟩) fun _ _ => rfl).imp
      (fun _ s₃ hs₃ _ hparts₃ => ?_) fun _ _ _ _ => id
    have hgrows := (Setup.extends_of_passes hs₃).scope (setup.blueprint.topLevel p)
    refine ⟨interfaces.push sig, ?_, hparts₃⟩
    rw [Array.toList_push]
    exact List.rel_append (hsigs.mono hgrows) (.cons (Scope.resolve_extends hgrows hsig) .nil)

/-! ### The whole type -/

/-- A type whose parameters are registered is configured, or fails with its first fault. -/
theorem configures_registeredType (hs₀ : Declared setup s₀) (hp : p ∈ setup.types)
    {pending : Array PendingGeneric} (hstands : Stands setup p .registered s)
    (hawaits : AwaitsConstraints setup s p pending) :
    (configure setup p pending).Safe (setup.apart (AmidConfiguring setup s₀ s₁) p)
      (fun _ => Stands setup p .configured)
      (fun e _ => (s₁.scope (setup.blueprint.topLevel p)).faultIn? p.references = some e) s := by
  obtain ⟨h, d, listed, hparts, hlists⟩ := hstands.parts
  unfold configure
  refine Safe.bind ((Safe.managedType (fun _ n h => h.of_notices n) hparts.link hparts.type).imp
    (fun _ _ _ _ => id) fun _ _ _ _ => False.elim) ?_
  rintro _ s₂ - - ⟨rfl, hs₂⟩
  dsimp only
  rw [if_neg (by simp [TypePlan.partly])]
  have hown : p.ownPlans = [] ++ p.ownPlans := rfl
  refine (configures_constrainGenerics hresolver
    (hawaits.items.imp fun _ _ hitem => ⟨hitem.1, hs₂.grows.registry _ _ hitem.2⟩) hawaits.nodup
    hown rfl (hparts.spared hs₂) nofun fun _ _ => rfl).bind ?_
  rintro _ s₃ hs₃ - ⟨hconstraints, attached, hattached, hparts₃⟩
  refine (configures_configureBase hresolver hs₀ hp rfl hconstraints hparts₃).bind ?_
  rintro _ s₄ hs₄ - ⟨hbases, base, hbase, hparts₄⟩
  have hrefs : p.references = p.ownPlans.flatMap (·.constraints.toList) ++ p.base.toList ++
      (p.interfaces.toList ++ []) := by simp [TypePlan.references]
  refine (configures_configureInterfaces hresolver hs₀ hp hrefs hbases hparts₄).bind ?_
  rintro _ s₅ hs₅ - ⟨-, interfaces, hinterfaces, hparts₅⟩
  refine Safe.bind (P := fun _ => Stands setup p .configured)
    ((changes_type hs₀ hp hparts₅ (f := fun t => { t with isConfigured := true })
      (fun _ => ⟨⟨rfl, rfl, rfl, rfl, rfl, rfl⟩, rfl⟩) fun _ _ => rfl).imp
      (fun _ s₆ hs₆ _ hparts₆ => ?_) fun _ _ _ _ => id) fun _ s₆ _ _ hstands₆ => ?_
  · have hgrows₆ := (Setup.extends_of_passes hs₆).scope (setup.blueprint.topLevel p)
    have hgrows₅ := (Setup.extends_of_passes hs₅).scope (setup.blueprint.topLevel p)
    have hgrows₂ := (hs₂.grows.trans (Setup.extends_of_passes hs₃)).trans
      (Setup.extends_of_passes hs₄)
    exact PartsMade.stands hparts₆ hattached
      (((hlists.mono (hgrows₂.scope _)).mono hgrows₅).mono hgrows₆)
      ((hbase.mono hgrows₅).mono hgrows₆) (hinterfaces.mono hgrows₆)
  · have hkeeps : Build.Keeps OnlyTells (Setup.noticeConfigured h) := by
      intro s
      obtain ⟨s', hrun⟩ := noticeConfigured_yields h s
      rw [hrun.outcome_snd]
      exact yields_noticeConfigured hrun
    refine .tells (fun _ n h => h.of_notices n) hkeeps
      (fun _ _ _ _ _ _ s' hs' _ _ => hstands₆.spared hs') fun s₇ e s₈ _ _ hrun => ?_
    obtain ⟨_, hyields⟩ := noticeConfigured_yields h s₇
    exact absurd hrun hyields.not_fails

end

/-- A type that is configured already is only told of. -/
theorem configures_configuredType {I : BuildState → Prop}
    (hI : ∀ s notices, I s → I { s with notices }) {pending : Array PendingGeneric}
    (hstands : Stands setup p .configured s) :
    (configure setup p pending).Safe (setup.apart I p)
      (fun _ => Stands setup p .configured) (fun _ _ => False) s := by
  obtain ⟨h, t, hlink, ht, -, -, hmirrored⟩ := hstands.type
  unfold configure
  refine (Safe.managedType hI hlink ht).bind ?_
  rintro _ s₂ - - ⟨rfl, hs₂⟩
  dsimp only
  rw [if_pos hmirrored.isConfigured]
  exact (Safe.notice hI _).imp
    (fun _ _ _ _ hs₃ => hstands.spared (hs₂.trans hs₃)) fun _ _ _ _ => id

/-- The thread for a type that is ready: it fails with the first fault in its hierarchy, as it was
when the round started, or configures the type. -/
theorem configures_type (hresolver : setup.resolver = Resolver.default) (hs₀ : Declared setup s₀)
    (hp : p ∈ setup.types) {pending : Array PendingGeneric}
    (hready : MayConfigure setup p pending s) :
    (inContext setup .hierarchy p (configure setup p pending)).Safe
      (setup.apart (AmidConfiguring setup s₀ s₁) p) (fun _ => Stands setup p .configured)
      (fun e _ => setup.hierarchyFault? s₁ p = some e) s := by
  have hsafe : (configure setup p pending).Safe (setup.apart (AmidConfiguring setup s₀ s₁) p)
      (fun _ => Stands setup p .configured)
      (fun e _ => (s₁.scope (setup.blueprint.topLevel p)).faultIn? p.references = some e) s := by
    rcases hready with hconfigured | ⟨hregistered, hawaits⟩
    · exact (configures_configuredType (fun _ n h => h.of_notices n) hconfigured).imp
        (fun _ _ _ _ => id) fun _ _ _ _ => False.elim
    · exact configures_registeredType hresolver hs₀ hp hregistered hawaits
  refine (Safe.inContext (fun _ n h => h.of_notices n) hsafe).imp (fun _ _ _ _ => id) ?_
  rintro _ _ - - ⟨source, hsource, rfl⟩
  rw [Setup.hierarchyFault?, hsource]
  rfl

end Stepwise

/-! ## The second round -/

section

variable {setup : Setup} {s₀ s₁ s' : BuildState} {made : List (Array PendingGeneric)}
  {σ : Schedule}

/-- The threads of the round keep to their terms. -/
theorem Amid.safe_configuring (hresolver : setup.resolver = Resolver.default)
    (hs₀ : Declared setup s₀)
    (hready : List.Forall₂ (fun p pending => MayConfigure setup p pending s₁) setup.types made) :
    List.Forall₂ (fun p t => Thread.Safe (setup.apart (AmidConfiguring setup s₀ s₁) p)
        (fun (_ : Unit) => Stands setup p .configured)
        (fun e _ => setup.hierarchyFault? s₁ p = some e) t s₁)
      setup.types ((setup.types.zip made).map fun (p, pending) =>
        Stepwise.inContext setup .hierarchy p (Stepwise.configure setup p pending)) := by
  rw [List.forall₂_map_right_iff]
  refine List.Forall₂.imp ?_ (List.forall₂_and_left _ _ |>.mpr ⟨fun _ => id, forall₂_zip hready⟩)
  rintro _ ⟨p, pending⟩ ⟨hp, rfl, hready⟩
  exact Stepwise.configures_type hresolver hs₀ hp hready

/-- A type that is configured had no fault in its hierarchy when the round started. -/
theorem AmidConfiguring.hierarchyFault?_eq_none (h : AmidConfiguring setup s₀ s₁ s')
    {p : TypePlan} (hstands : Stands setup p .configured s') :
    setup.hierarchyFault? s₁ p = none := by
  rw [← h.names.hierarchyFault?_eq, Setup.hierarchyFault?, hstands.faultIn?_eq_none]
  rfl

variable (hresolver : setup.resolver = Resolver.default) (hs₀ : Declared setup s₀)
  (hs₁ : Amid setup s₀ s₁)
  (hready : List.Forall₂ (fun p pending => MayConfigure setup p pending s₁) setup.types made)
include hresolver hs₀ hs₁ hready

/-- If the round succeeds, all types are configured, and there has been no fault in any. -/
theorem yields_configuringRound {units : List Unit}
    (hrun : (setup.configuringRound σ made).Yields s₁ units s') :
    Amid setup s₀ s' ∧ (∀ p ∈ setup.types, Stands setup p .configured s') ∧
      ∀ p ∈ setup.types, setup.hierarchyFault? s₁ p = none := by
  unfold Setup.configuringRound at hrun
  rw [Setup.runAll_eq] at hrun
  obtain ⟨hamid, -, hunits⟩ := yields_sideBySide
    (Setup.apart_agree hs₀.nodup (AmidConfiguring setup s₀ s₁))
    (Amid.safe_configuring hresolver hs₀ hready) ⟨hs₁, .refl s₁⟩ hrun
  have hstands (p : TypePlan) (hp : p ∈ setup.types) : Stands setup p .configured s' := by
    obtain ⟨-, -, hp⟩ := exists_of_forall₂ hunits hp
    exact hp
  exact ⟨hamid.toAmid, hstands, fun p hp => hamid.hierarchyFault?_eq_none (hstands p hp)⟩

/-- If it fails, then with the first fault in the hierarchy of a type. -/
theorem fails_configuringRound {e : Failure}
    (hrun : (setup.configuringRound σ made).Fails s₁ e s') :
    ∃ p ∈ setup.types, setup.hierarchyFault? s₁ p = some e := by
  unfold Setup.configuringRound at hrun
  rw [Setup.runAll_eq] at hrun
  exact (fails_sideBySide (Setup.apart_agree hs₀.nodup (AmidConfiguring setup s₀ s₁))
    (Amid.safe_configuring hresolver hs₀ hready) ⟨hs₁, .refl s₁⟩ hrun).2.2

/-- Where types are processed side by side, it may fail with that of any type. -/
theorem exists_fails_configuringRound (hconcurrent : setup.config.concurrent = true)
    {p : TypePlan} (hp : p ∈ setup.types) {e : Failure}
    (hfault : setup.hierarchyFault? s₁ p = some e) :
    ∃ σ s', (setup.configuringRound σ made).Fails s₁ e s' := by
  obtain ⟨i, hi⟩ := List.mem_iff_getElem?.mp hp
  obtain ⟨s', hamid, ⟨_, hstands⟩ | ⟨e', hrun, hfault'⟩⟩ := blamed_sideBySide
    (Setup.apart_agree hs₀.nodup (AmidConfiguring setup s₀ s₁))
    (Amid.safe_configuring hresolver hs₀ hready) ⟨hs₁, .refl s₁⟩ hi
  · -- the thread cannot have come to a result, since its type has a fault
    rw [hamid.hierarchyFault?_eq_none hstands] at hfault
    cases hfault
  · obtain rfl := Option.some.inj (hfault.symm.trans hfault')
    refine ⟨.blaming i, s', ?_⟩
    unfold Setup.configuringRound
    rw [Setup.runAll_eq, if_pos hconcurrent]
    exact hrun

end

end ClrImage
