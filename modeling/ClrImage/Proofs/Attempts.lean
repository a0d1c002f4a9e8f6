import ClrImage.Proofs.Configurable

/-!
# Attempts to configure a type

A type is configured in two parts: its parameters are registered, and then constraints, base and
interfaces are attached to it one after the other. The second part may fail anywhere. What it has
written by then stays, but what it had still to do is forgotten. This module says what either part
does **whatever its outcome**.

- `TypePlan.Describes`: the plans of a type that parameters are made for.
- `Registering`: the effect of registering the parameters of a type.
- `Attempting`: the effect of an attempt on a type that is not configured yet.
- `outcome_configure`: an attempt has that effect, or finds the type configured.
-/

namespace ClrImage

/-! ## Registering the parameters of a type -/

/-- Plans of one type have one key if they have one index. -/
theorem Setup.genericKey_eq_iff {setup : Setup} {p : TypePlan} {g g' : GenericPlan} :
    setup.genericKey p g = setup.genericKey p g' ↔ g.index = g'.index := by
  unfold Setup.genericKey GenericRegistry.key
  cases setup.config.registryScope <;> simp

/-- The plan is the first one of the type with its index, which is the one that counts. -/
def TypePlan.Describes (p : TypePlan) (g : GenericPlan) : Prop :=
  p.genericPlans.find? (·.index = g.index) = some g

/-- Two types agree in what the hierarchy pass is to give them, generic parameters aside. -/
structure TypeDef.SameProgress (t t' : TypeDef) : Prop where
  base : t'.base = t.base
  interfaces : t'.interfaces = t.interfaces
  isConfigured : t'.isConfigured = t.isConfigured

/-- What registering the parameters of a type does. All parameters that it makes are pending, and
those that there were stay as they were, whoever has made them. A type that is configured gets no
further ones. -/
structure Registering (p : TypePlan) (pending : Array PendingGeneric) (s s' : BuildState) :
    Prop where
  grows : s.Extends s'
  links : s'.links = s.links
  types : ∀ h t', s'.store.types.get? h = some t' →
    ∃ t, s.store.types.get? h = some t ∧ t.SameProgress t'
  generics : s.store.generics.Extends GenericParam.SameTerms s'.store.generics
  fresh : ∀ item ∈ pending, s.store.generics.get? item.param = none
  new : ∀ h x, s.store.generics.get? h = none → s'.store.generics.get? h = some x →
    ∃ item ∈ pending, item.param = h
  made : ∀ item ∈ pending, ∃ g x, p.Describes g ∧ item.constraints = g.constraints ∧
    s'.store.generics.get? item.param = some x ∧ x.MadeFor (.type p.token) g ∧ x.Unconstrained
  nodup : (pending.toList.map PendingGeneric.param).Nodup
  idle : (s.TypeOf p fun t => t.isConfigured = true) → pending = #[]

namespace Registering

variable {setup : Setup} {p : TypePlan} {pending : Array PendingGeneric} {s s' : BuildState}

/-- Nothing is registered for a type that is configured already. -/
theorem refl (p : TypePlan) (s : BuildState) : Registering p #[] s s where
  grows := .refl s
  links := rfl
  types _ t ht := ⟨t, ht, rfl, rfl, rfl⟩
  generics := .refl GenericParam.SameTerms.refl _
  fresh := by simp
  new h x hnone hsome := by
    rw [hnone] at hsome
    cases hsome
  made := by simp
  nodup := .nil
  idle _ := rfl

theorem of_registers {objects : List GenericHandle} {h : TypeHandle} {t : TypeDef}
    {listed : Array GenericHandle} {s₁ : BuildState} (hlink : s.links.types.get? p.token = some h)
    (ht : s.store.types.get? h = some t) (hopen : t.isConfigured = false)
    (hregisters : Registers (setup.genericKey p) (.type p.token) p.genericPlans s s₁ objects
      pending.toList)
    (hchange : ChangesType h (fun t => { t with generics := listed }) s₁ s') :
    Registering p pending s s' where
  grows := hregisters.extends_state.trans
    (hchange.grows fun _ => ⟨rfl, rfl, rfl, rfl, rfl, rfl⟩)
  links := hchange.links.trans hregisters.links
  types g t' ht' := by
    rw [hchange.types, hregisters.types] at ht'
    split at ht'
    · obtain ⟨t, ht, rfl⟩ := Option.map_eq_some_iff.mp ht'
      exact ⟨t, ht, rfl, rfl, rfl⟩
    · exact ⟨t', ht', rfl, rfl, rfl⟩
  generics := hchange.generics ▸ hregisters.generics
  fresh item hitem := (hregisters.fresh item (Array.mem_toList_iff.mpr hitem)).1
  new g x hnone hsome := by
    rw [hchange.generics] at hsome
    obtain ⟨item, hitem, rfl⟩ := hregisters.new g x hnone hsome
    exact ⟨item, Array.mem_toList_iff.mp hitem, rfl⟩
  made item hitem := by
    rw [hchange.generics]
    have hitem := Array.mem_toList_iff.mpr hitem
    -- the entry of a key that was free says whom the parameter is made for
    obtain ⟨g, hfind, hconstraints, hfree, hheld⟩ := hregisters.pends item hitem
    obtain ⟨g', hfind', -, x, hx, hmade⟩ := hregisters.made _ _ hfree hheld
    obtain rfl := Option.some.inj (hfind.symm.trans hfind')
    obtain ⟨-, y, hy, hun⟩ := hregisters.fresh item hitem
    obtain rfl := Option.some.inj (hx.symm.trans hy)
    refine ⟨g, x, ?_, hconstraints, hx, hmade, hun⟩
    simpa only [TypePlan.Describes, Setup.genericKey_eq_iff] using hfind
  nodup := hregisters.nodup
  idle := by
    rintro ⟨h', t', hlink', ht', hmarked⟩
    obtain rfl := Option.some.inj (hlink.symm.trans hlink')
    obtain rfl := Option.some.inj (ht.symm.trans ht')
    rw [hopen] at hmarked
    cases hmarked

/-- Registering the parameters of a linked type has that effect. -/
theorem of_yields {h : TypeHandle} {t : TypeDef}
    (hscope : s.registry.scope = setup.config.registryScope)
    (hlink : s.links.types.get? p.token = some h) (ht : s.store.types.get? h = some t)
    (hrun : (setup.declareTypeGenerics p).Yields s pending s') : Registering p pending s s' := by
  cases hmarked : t.isConfigured with
  | true =>
    unfold Setup.declareTypeGenerics at hrun
    obtain ⟨⟨h', t'⟩, _, hmanaged, hrun⟩ := Build.yields_bind.mp hrun
    obtain ⟨hlink', ht', rfl⟩ := Build.yields_managedType.mp hmanaged
    obtain rfl := Option.some.inj (hlink.symm.trans hlink')
    obtain rfl := Option.some.inj (ht.symm.trans ht')
    simp only [hmarked, if_true] at hrun
    split at hrun
    all_goals
      obtain ⟨rfl, rfl⟩ := Build.yields_pure.mp hrun
      exact .refl p s
  | false =>
    obtain ⟨objects, s₁, hregisters, hchange⟩ := yields_declareTypeGenerics hlink ht hmarked hrun
    have hkey : (fun g : GenericPlan => s.registry.key g.index (setup.blueprint.topLevel p)) =
        setup.genericKey p :=
      funext fun g => GenericRegistry.key_congr (r := ⟨setup.config.registryScope, {}⟩) hscope
        g.index (setup.blueprint.topLevel p)
    rw [hkey] at hregisters
    exact .of_registers hlink ht hmarked hregisters hchange

end Registering

/-! ## Attempting to configure a type -/

/-- The type with a base, if there is one, and with further interfaces, marked if all is done. -/
def TypeDef.attempted (base : Option Signature) (extra : List Signature) (done : Bool)
    (t : TypeDef) : TypeDef :=
  { t with
    base := base.or t.base
    interfaces := t.interfaces ++ extra.toArray
    isConfigured := done || t.isConfigured }

/-- What an attempt to configure a type that is still open does. Constraints are attached, which
leaves the state `s₁`, and then the type is changed. It is marked only if everything resolves. -/
structure Attempting (scope : Scope) (p : TypePlan) (pending : Array PendingGeneric)
    (h : TypeHandle) (base : Option Signature) (extra : List Signature) (done : Bool)
    (s s₁ s' : BuildState) : Prop where
  link : s.links.types.get? p.token = some h
  opened : ∃ t, s.store.types.get? h = some t ∧ t.isConfigured = false
  constrains : Constrains scope pending.toList s s₁
  changes : ChangesType h (TypeDef.attempted base extra done) s₁ s'
  baseless : p.base = none → base = none
  complete : done = true → scope.CanConstrain pending.toList ∧ scope.ResolvesOption p.base base ∧
    scope.Resolves p.interfaces.toList extra

section Outcomes

variable {setup : Setup} (hresolver : setup.resolver = Resolver.default) {topLevel : Token}
  {p : TypePlan} {pending : Array PendingGeneric} {h : TypeHandle} {t : TypeDef}
  {s s' : BuildState} {e : Failure}
include hresolver

/-- A base that cannot be set is not set. -/
theorem fails_configureBase {base : Option TypeRef}
    (hrun : Build.Fails (base.forM (setup.configureBase topLevel h)) s e s') : s' = s := by
  cases base with
  | none => cases hrun
  | some r =>
    rcases Build.fails_bind.mp hrun with hresolve | ⟨sig, s₁, hresolve, hset⟩
    · exact ((fails_resolve hresolver).mp hresolve).2.symm
    · obtain ⟨-, rfl⟩ := (yields_resolve hresolver).mp hresolve
      rcases Build.fails_bind.mp hset with hget | ⟨_, _, hget, hset⟩
      · simp at hget
      · obtain ⟨rfl, rfl⟩ := Build.yields_get.mp hget
        rcases Build.fails_bind.mp hset with hlift | ⟨_, _, -, hmodify⟩
        · exact (Build.fails_liftExcept.mp hlift).2.symm
        · cases Build.fails_modify.mp hmodify

/-- The interfaces before the first one without a signature are added, in order. -/
theorem fails_configureInterfaces {interfaces : List TypeRef} (ht : s.store.types.get? h = some t)
    (hrun : Build.Fails (interfaces.forM (setup.configureInterface topLevel h)) s e s') :
    ∃ extra : List Signature,
      ChangesType h (fun t => { t with interfaces := t.interfaces ++ extra.toArray }) s s' := by
  induction interfaces generalizing s t with
  | nil => cases hrun
  | cons r rest ih =>
    rcases Build.fails_forM_cons.mp hrun with hfirst | ⟨s₁, hfirst, hrest⟩
    · rcases Build.fails_bind.mp hfirst with hresolve | ⟨_, _, -, hpush⟩
      · obtain ⟨-, rfl⟩ := (fails_resolve hresolver).mp hresolve
        exact ⟨[], .of_fixed ht (by simp)⟩
      · cases Build.fails_modify.mp hpush
    · obtain ⟨sig, _, hresolve, hpush⟩ := Build.yields_bind.mp hfirst
      obtain ⟨-, rfl⟩ := (yields_resolve hresolver).mp hresolve
      obtain rfl := Build.yields_modify.mp hpush
      have h₁ := ChangesType.modifyType h
        (fun t => { t with interfaces := t.interfaces.push sig }) s
      obtain ⟨extra, h₂⟩ := ih (h₁.of_some ht) hrest
      refine ⟨sig :: extra, ?_⟩
      simpa [Function.comp_def] using h₁.trans h₂

/-- An attempt that fails has gone some way, but has not marked the type. -/
theorem fails_configure (hlink : s.links.types.get? p.token = some h)
    (ht : s.store.types.get? h = some t)
    (hnodup : (pending.toList.map PendingGeneric.param).Nodup)
    (hrun : (setup.configure p pending).Fails s e s') :
    ∃ s₁ base extra,
      Attempting (s.scope (setup.blueprint.topLevel p)) p pending h base extra false s s₁ s' := by
  have hconstrains := constrainGenerics_constrains hresolver (setup.blueprint.topLevel p) pending s
    hnodup
  unfold Setup.configure at hrun
  rcases Build.fails_bind.mp hrun with hmanaged | ⟨⟨h', t'⟩, _, hmanaged, hrun⟩
  · have hyields : (Build.managedType p).Yields s (h, t) s :=
      Build.yields_managedType.mpr ⟨hlink, ht, rfl⟩
    exact absurd hmanaged hyields.not_fails
  obtain ⟨hlink', ht', rfl⟩ := Build.yields_managedType.mp hmanaged
  obtain rfl := Option.some.inj (hlink.symm.trans hlink')
  obtain rfl := Option.some.inj (ht.symm.trans ht')
  cases hopen : t.isConfigured with
  | true =>
    simp only [hopen, if_true] at hrun
    cases Build.fails_modify.mp hrun
  | false =>
    simp only [hopen, Bool.false_eq_true, if_false] at hrun
    have hopened : ∃ t, s.store.types.get? h = some t ∧ t.isConfigured = false := ⟨t, ht, hopen⟩
    rcases Build.fails_bind.mp hrun with hconstrain | ⟨_, s₁, hconstrain, hrun⟩
    · rw [hconstrain.outcome_snd] at hconstrains
      have ht' := hconstrains.types ▸ ht
      exact ⟨s', none, [], hlink, hopened, hconstrains,
        .of_fixed ht' (by simp [TypeDef.attempted]), fun _ => rfl, nofun⟩
    rw [hconstrain.outcome_snd] at hconstrains
    rw [← hconstrains.types] at ht
    rcases Build.fails_bind.mp hrun with hbase | ⟨_, s₂, hbase, hrun⟩
    · obtain rfl := fails_configureBase hresolver hbase
      exact ⟨s', none, [], hlink, hopened, hconstrains,
        .of_fixed ht (by simp [TypeDef.attempted]), fun _ => rfl, nofun⟩
    obtain ⟨base, hbase, h₁⟩ := yields_configureBase hresolver ht hbase
    rcases Build.fails_bind.mp hrun with hinterfaces | ⟨_, s₃, -, hrun⟩
    · obtain ⟨extra, h₂⟩ := fails_configureInterfaces hresolver (h₁.of_some ht) hinterfaces
      refine ⟨s₁, base, extra, hlink, hopened, hconstrains, h₁.trans h₂, fun hnone => ?_, nofun⟩
      rw [hnone] at hbase
      cases hbase
      rfl
    -- nothing fails behind the interfaces
    rcases Build.fails_bind.mp hrun with hmark | ⟨_, s₄, -, htell⟩
    · cases Build.fails_modify.mp hmark
    · obtain ⟨_, hyields⟩ := noticeConfigured_yields h s₄
      exact absurd htell hyields.not_fails

/-- A type that is configured already stays as it is, and any other one is attempted. -/
theorem outcome_configure (hlink : s.links.types.get? p.token = some h)
    (ht : s.store.types.get? h = some t)
    (hnodup : (pending.toList.map PendingGeneric.param).Nodup) :
    (t.isConfigured = true ∧
      ∃ notices, ((setup.configure p pending).outcome s).2 = { s with notices }) ∨
    ∃ s₁ base extra done,
      Attempting (s.scope (setup.blueprint.topLevel p)) p pending h base extra done s s₁
        ((setup.configure p pending).outcome s).2 := by
  rcases Build.yields_or_fails (setup.configure p pending) s with ⟨_, s', hrun⟩ | ⟨e, s', hrun⟩
  · rw [hrun.outcome_snd]
    cases hmarked : t.isConfigured with
    | true =>
      unfold Setup.configure at hrun
      obtain ⟨⟨h', t'⟩, _, hmanaged, hrun⟩ := Build.yields_bind.mp hrun
      obtain ⟨hlink', ht', rfl⟩ := Build.yields_managedType.mp hmanaged
      obtain rfl := Option.some.inj (hlink.symm.trans hlink')
      obtain rfl := Option.some.inj (ht.symm.trans ht')
      simp only [hmarked, if_true] at hrun
      obtain rfl := Build.yields_modify.mp hrun
      exact .inl ⟨rfl, _, rfl⟩
    | false =>
      obtain ⟨s₁, base, extra, hconstrains, hcan, hbase, hinterfaces, hchange⟩ :=
        yields_configure hresolver hlink ht hmarked hnodup hrun
      refine .inr ⟨s₁, base, extra, true, hlink, ⟨t, ht, hmarked⟩, hconstrains, hchange,
        fun hnone => ?_, fun _ => ⟨hcan, hbase, hinterfaces⟩⟩
      rw [hnone] at hbase
      cases hbase
      rfl
  · rw [hrun.outcome_snd]
    obtain ⟨s₁, base, extra, hattempt⟩ := fails_configure hresolver hlink ht hnodup hrun
    exact .inr ⟨s₁, base, extra, false, hattempt⟩

end Outcomes

namespace Attempting

variable {scope : Scope} {p : TypePlan} {pending : Array PendingGeneric} {h : TypeHandle}
  {base : Option Signature} {extra : List Signature} {done : Bool} {s s₁ s' : BuildState}

theorem grows (ha : Attempting scope p pending h base extra done s s₁ s')
    (hun : ∀ item ∈ pending, ∃ x, s.store.generics.get? item.param = some x ∧ x.Unconstrained) :
    s.Extends s' := by
  have hconstrained : s.Extends s₁ := ha.constrains.toOnlyGenerics.grows
    (ha.constrains.extends fun item hitem => hun item (Array.mem_toList_iff.mp hitem))
    (.of_eq (congrArg GenericRegistry.params ha.constrains.registry).symm)
    (congrArg GenericRegistry.scope ha.constrains.registry)
  exact hconstrained.trans (ha.changes.grows fun _ => ⟨rfl, rfl, rfl, rfl, rfl, rfl⟩)

theorem links (ha : Attempting scope p pending h base extra done s s₁ s') : s'.links = s.links :=
  ha.changes.links.trans ha.constrains.links

theorem type (ha : Attempting scope p pending h base extra done s s₁ s') {t : TypeDef}
    (ht : s.store.types.get? h = some t) :
    s'.store.types.get? h = some (t.attempted base extra done) :=
  ha.changes.of_some (ha.constrains.types ▸ ht)

/-- Other types are not touched. -/
theorem type_of_ne (ha : Attempting scope p pending h base extra done s s₁ s') {g : TypeHandle}
    (hg : g ≠ h) : s'.store.types.get? g = s.store.types.get? g := by
  rw [ha.changes.of_ne hg, ha.constrains.types]

/-- Parameters that are not pending are not touched. -/
theorem generic_of_forall_ne (ha : Attempting scope p pending h base extra done s s₁ s')
    {g : GenericHandle} (hg : ∀ item ∈ pending, item.param ≠ g) :
    s'.store.generics.get? g = s.store.generics.get? g := by
  rw [ha.changes.generics]
  refine ha.constrains.others g fun hmem => ?_
  obtain ⟨item, hitem, rfl⟩ := List.mem_map.mp hmem
  exact hg item (Array.mem_toList_iff.mp hitem) rfl

/-- A pending parameter is marked only with all of its constraints, and it is if the type is. -/
theorem attached (ha : Attempting scope p pending h base extra done s s₁ s')
    {item : PendingGeneric} (hitem : item ∈ pending) {x : GenericParam}
    (hx : s.store.generics.get? item.param = some x) (hun : x.Unconstrained) :
    ∃ y, s'.store.generics.get? item.param = some y ∧ x.Alike y ∧
      (y.isConstrained = true → y.ConstrainedBy scope item.constraints) ∧
      (done = true → y.isConstrained = true) := by
  obtain ⟨before, after, hsplit⟩ := List.append_of_mem (Array.mem_toList_iff.mpr hitem)
  obtain ⟨y, hy, halike, hstate⟩ := ha.constrains.attached before item after x hsplit hx hun
  refine ⟨y, ha.changes.generics ▸ hy, halike, fun hmarked => ?_, fun hdone => ?_⟩
  · rcases hstate with ⟨-, hcomplete⟩ | ⟨-, hunmarked⟩
    · exact hcomplete
    · rw [hunmarked] at hmarked
      cases hmarked
  · rcases hstate with ⟨-, hcomplete⟩ | ⟨hcannot, -⟩
    · exact hcomplete.isConstrained
    · exact absurd (hsplit ▸ (ha.complete hdone).1).upTo hcannot

end Attempting

end ClrImage
