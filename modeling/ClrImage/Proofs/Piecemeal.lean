import ClrImage.Proofs.FirstFaults
import ClrImage.Proofs.FreeKeys
import ClrImage.Proofs.HierarchyOrder
import Mathlib.Logic.Function.Basic

/-!
# Configuring types in pieces

A type is configured in two steps. Its parameters are registered, and then its constraints, base and
interfaces are attached. A pass takes the first step for all types before the second one, and a call
for a single type takes both at once. Where no two types plan a parameter with the same key, a step
touches nothing that belongs to another type. So **how far each type has come** tells the whole
state, whatever the order of the steps was.

- `Progress`, `Stands`: how far a type has come, and what there is for it then.
- `Piecemeal`: how far each type has come, and the state that goes with it.
- `Piecemeal.register`, `Piecemeal.configure`: either step takes one type further.
- `Piecemeal.sameNames`: where all types are registered, references are checked alike.
- `Piecemeal.arranged`: where all types are configured, the state is that behind a pass.
-/

namespace ClrImage

/-! ## Types that are configured already -/

section Configured

variable {p : TypePlan} {s : BuildState} (setup : Setup)
  (htype : s.TypeOf p fun t => t.isConfigured = true)
include htype

/-- No parameters are registered for a type that is configured. -/
theorem declareTypeGenerics_of_configured : (setup.declareTypeGenerics p).Yields s #[] s := by
  obtain ⟨h, t, hlink, ht, hmarked⟩ := htype
  unfold Setup.declareTypeGenerics
  refine Build.yields_bind.mpr ⟨(h, t), s, Build.yields_managedType.mpr ⟨hlink, ht, rfl⟩, ?_⟩
  cases p.generics <;> simp [hmarked]

/-- A type that is configured is only told of. -/
theorem configure_of_configured (pending : Array PendingGeneric) :
    ∃ notices, (setup.configure p pending).Yields s () { s with notices } := by
  obtain ⟨h, t, hlink, ht, hmarked⟩ := htype
  refine ⟨s.notices.push (.alreadyConfigured h), ?_⟩
  unfold Setup.configure
  refine Build.yields_bind.mpr ⟨(h, t), s, Build.yields_managedType.mpr ⟨hlink, ht, rfl⟩, ?_⟩
  simp only [hmarked, if_true]
  exact Build.yields_modify.mpr rfl

end Configured

/-! ## How far each type has come -/

/-- The references of a type's hierarchy, in the order in which they are resolved. -/
def TypePlan.references (p : TypePlan) : List TypeRef :=
  p.ownPlans.flatMap (·.constraints.toList) ++ (p.base.toList ++ p.interfaces.toList)

/-- How far a type has come. -/
inductive Progress
  | declared
  | registered
  | configured
deriving DecidableEq

/-- The key of a plan holds a parameter, which was made for the plan and belongs to its type alone,
and `Q` holds of it. -/
def BuildState.ParamOf (s : BuildState) (setup : Setup) (p : TypePlan) (g : GenericPlan)
    (Q : GenericParam → Prop) : Prop :=
  ∃ h x, s.registry.get? (setup.genericKey p g) = some h ∧ s.store.generics.get? h = some x ∧
    x.MadeFor (.type p.token) g ∧ x.owners = #[.type p.token] ∧ Q x

theorem BuildState.ParamOf.imp {s : BuildState} {setup : Setup} {p : TypePlan} {g : GenericPlan}
    {Q Q' : GenericParam → Prop} (h : s.ParamOf setup p g Q) (hQ : ∀ x, Q x → Q' x) :
    s.ParamOf setup p g Q' := by
  obtain ⟨o, x, ho, hx, hmade, howners, hQx⟩ := h
  exact ⟨o, x, ho, hx, hmade, howners, hQ x hQx⟩

namespace Progress

/-- A step that does not take its type to `a` takes no type there. -/
theorem update_ne {progress : Token → Progress} {token other : Token} {next a : Progress}
    (h : progress other ≠ a) (hnext : next ≠ a) :
    Function.update progress token next other ≠ a := by
  rw [Function.update_apply]
  split
  · exact hnext
  · exact h

/-- What a type is. -/
def OfType (setup : Setup) (s : BuildState) (p : TypePlan) : Progress → TypeDef → Prop
  | declared, t => ∃ d, t = { p.declaration with declaring := d }
  | registered, t => ∃ d listed, t = { p.declaration with declaring := d, generics := listed } ∧
    (s.scope (setup.blueprint.topLevel p)).Lists p.genericPlans listed
  | configured, t => p.declaration.Alike t ∧ t.HasNoMembers ∧ TypeMirrored setup s p t

/-- What is there for a plan of the type that counts. -/
def OfParam (setup : Setup) (s : BuildState) (p : TypePlan) (g : GenericPlan) : Progress → Prop
  | declared => s.registry.get? (setup.genericKey p g) = none
  | registered => s.ParamOf setup p g GenericParam.Unconstrained
  | configured => s.ParamOf setup p g
    (·.ConstrainedBy (s.scope (setup.blueprint.topLevel p)) g.constraints)

variable {setup : Setup} {s s' : BuildState} {p : TypePlan} {g : GenericPlan} {progress : Progress}

/-- Growth of the state does not take a type back. -/
theorem OfType.mono (hs : s.Extends s') {t : TypeDef} (h : progress.OfType setup s p t) :
    progress.OfType setup s' p t := by
  cases progress with
  | declared => exact h
  | registered =>
    obtain ⟨d, listed, rfl, hlisted⟩ := h
    exact ⟨d, listed, rfl, hlisted.mono (hs.scope _)⟩
  | configured => exact ⟨h.1, h.2.1, h.2.2.mono hs⟩

/-- Behind the first step the parameter is there. -/
theorem OfParam.exists (h : progress.OfParam setup s p g) (hprogress : progress ≠ declared) :
    s.ParamOf setup p g fun _ => True := by
  cases progress with
  | declared => exact absurd rfl hprogress
  | registered => exact h.imp fun _ _ => trivial
  | configured => exact h.imp fun _ _ => trivial

/-- Nothing that concerns the plan has changed. -/
theorem OfParam.mono (hs : s.Extends s')
    (hkey : s'.registry.get? (setup.genericKey p g) = s.registry.get? (setup.genericKey p g))
    (hkept : ∀ h, s.registry.get? (setup.genericKey p g) = some h → ∀ x,
      s.store.generics.get? h = some x → s'.store.generics.get? h = some x)
    (h : progress.OfParam setup s p g) : progress.OfParam setup s' p g := by
  have hparam {Q : GenericParam → Prop} (h : s.ParamOf setup p g Q) : s'.ParamOf setup p g Q := by
    obtain ⟨o, x, ho, hx, hrest⟩ := h
    exact ⟨o, x, hkey.trans ho, hkept o ho x hx, hrest⟩
  cases progress with
  | declared => exact hkey.trans h
  | registered => exact hparam h
  | configured => exact (hparam h).imp fun x hx => hx.mono (hs.scope _)

end Progress

/-- What there is for a type that has come so far. -/
structure Stands (setup : Setup) (p : TypePlan) (progress : Progress) (s : BuildState) : Prop where
  type : s.TypeOf p (progress.OfType setup s p)
  params : ∀ g, p.Describes g → progress.OfParam setup s p g

namespace Stands

variable {setup : Setup} {p : TypePlan} {s : BuildState}

theorem isConfigured (h : Stands setup p .configured s) :
    s.TypeOf p fun t => t.isConfigured = true := by
  obtain ⟨o, t, hlink, ht, -, -, hmirrored⟩ := h.type
  exact ⟨o, t, hlink, ht, hmirrored.isConfigured⟩

/-- There is no fault in the references of a type that is configured. -/
theorem faultIn?_eq_none (h : Stands setup p .configured s) :
    (s.scope (setup.blueprint.topLevel p)).faultIn? p.references = none := by
  obtain ⟨o, t, -, -, -, -, hmirrored⟩ := h.type
  rw [Scope.faultIn?_eq_none]
  unfold TypePlan.references
  simp only [List.forall_mem_append, List.mem_flatMap]
  refine ⟨?_, ?_, hmirrored.interfaces.canResolve⟩
  · rintro r ⟨g, hg, hr⟩
    obtain ⟨o, x, -, -, -, -, hcomplete⟩ := h.params g (TypePlan.mem_ownPlans.mp hg)
    exact hcomplete.constraints.canResolve r hr
  · intro r hr
    obtain ⟨hnone, -⟩ | ⟨r', sig, hr', -, hsig⟩ := rel_cases hmirrored.base
    · rw [hnone] at hr
      cases hr
    · rw [hr', Option.toList_some, List.mem_singleton] at hr
      exact hr ▸ ⟨sig, hsig⟩

end Stands

/-- Each type has come as far as `progress` says of its token, since the declaration that left the
state `s₀`. -/
structure Piecemeal (setup : Setup) (s₀ : BuildState) (progress : Token → Progress)
    (s : BuildState) : Prop extends SinceDeclaration setup s₀ s where
  nesting : SameNesting s₀ s
  types : ∀ p ∈ setup.types, s.TypeOf p ((progress p.token).OfType setup s p)
  params : ∀ p ∈ setup.types, ∀ g, p.Describes g → (progress p.token).OfParam setup s p g
  /-- A key is held for a type that has come further than its declaration. -/
  keys : ∀ key h, s.registry.get? key = some h → ∃ p ∈ setup.types,
    progress p.token ≠ .declared ∧ ∃ g, p.Describes g ∧ setup.genericKey p g = key

/-- What is pending for a type that has been registered: its parameters, in order. -/
structure AwaitsConstraints (setup : Setup) (s : BuildState) (p : TypePlan)
    (pending : Array PendingGeneric) : Prop where
  items : List.Forall₂ (fun g item => item.constraints = g.constraints ∧
    s.registry.get? (setup.genericKey p g) = some item.param) p.ownPlans pending.toList
  nodup : (pending.toList.map PendingGeneric.param).Nodup

theorem AwaitsConstraints.mono {setup : Setup} {s s' : BuildState} {p : TypePlan}
    {pending : Array PendingGeneric} (h : AwaitsConstraints setup s p pending)
    (hs : s.registry.params.Extends s'.registry.params) : AwaitsConstraints setup s' p pending :=
  ⟨h.items.imp fun _ _ hitem => ⟨hitem.1, hs _ _ hitem.2⟩, h.nodup⟩

/-- The constraints that are pending are those of the plans that count. -/
theorem AwaitsConstraints.constraints_eq {setup : Setup} {s : BuildState} {p : TypePlan}
    {pending : Array PendingGeneric} (h : AwaitsConstraints setup s p pending) :
    pending.toList.flatMap (·.constraints.toList) = p.ownPlans.flatMap (·.constraints.toList) := by
  have hitems := h.items
  generalize p.ownPlans = plans at hitems
  generalize pending.toList = items at hitems
  induction hitems with
  | nil => rfl
  | cons hitem _ ih => rw [List.flatMap_cons, List.flatMap_cons, ih, hitem.1]

namespace Piecemeal

variable {setup : Setup} {s₀ s s₁ s' : BuildState} {progress : Token → Progress} {p : TypePlan}
  {pending : Array PendingGeneric}

/-- Of a step for one type there is something to show for this type, and for those that stay where
they are. -/
theorem forall_update (hs₀ : Declared setup s₀) (hp : p ∈ setup.types) {next : Progress}
    {P : TypePlan → Progress → Prop} (self : P p next)
    (others : ∀ q ∈ setup.types, q.token ≠ p.token → P q (progress q.token)) :
    ∀ q ∈ setup.types, P q (Function.update progress p.token next q.token) := by
  intro q hq
  by_cases htoken : q.token = p.token
  · obtain rfl := List.inj_on_of_nodup_map hs₀.nodup hq hp htoken
    rw [Function.update_self]
    exact self
  · rw [Function.update_of_ne htoken]
    exact others q hq htoken

theorem of_declared (hs : Declared setup s) : Piecemeal setup s (fun _ => .declared) s where
  toSinceDeclaration := .of_declared hs
  nesting := .refl s
  types p hp := by
    obtain ⟨h, d, hlink, ht⟩ := hs.linked p hp
    exact ⟨h, _, hlink, ht, d, rfl⟩
  params p _ g _ := by
    show s.registry.get? _ = none
    rw [hs.registry]
    simp [GenericRegistry.get?]
  keys key h hh := by
    rw [hs.registry] at hh
    simp [GenericRegistry.get?] at hh

theorem of_notices (hs : Piecemeal setup s₀ progress s) (notices : Array Notice) :
    Piecemeal setup s₀ progress { s with notices } := by
  have hgrows : s.Extends { s with notices } := { BuildState.Extends.refl s with }
  refine { links := hs.links, declared := hs.declared, store := hs.store, scope := hs.scope
           failures := hs.failures, known := hs.known, declaring := hs.declaring
           nesting := hs.nesting.trans (.of_eq rfl rfl rfl), types := fun p hp => ?_
           params := fun p hp g hg => ?_, keys := hs.keys }
  · obtain ⟨h, t, hlink, ht, hof⟩ := hs.types p hp
    exact ⟨h, t, hlink, ht, hof.mono hgrows⟩
  · exact (hs.params p hp g hg).mono hgrows rfl fun _ _ _ => id

/-- The parameters of a type that is only declared are free. -/
theorem free (hs : Piecemeal setup s₀ progress s) (hp : p ∈ setup.types)
    (hprogress : progress p.token = .declared) {g : GenericPlan} (hg : g ∈ p.genericPlans) :
    s.registry.get? (setup.genericKey p g) = none := by
  obtain ⟨g', hdescribes, hindex⟩ := TypePlan.exists_describes hg
  have hparam := hs.params p hp g' hdescribes
  rw [hprogress] at hparam
  rw [← Setup.genericKey_eq_iff.mpr hindex]
  exact hparam

theorem stands (hs : Piecemeal setup s₀ progress s) (hp : p ∈ setup.types) :
    Stands setup p (progress p.token) s := ⟨hs.types p hp, hs.params p hp⟩

theorem configured (hs : Piecemeal setup s₀ progress s) (hp : p ∈ setup.types)
    (hprogress : progress p.token = .configured) : Stands setup p .configured s :=
  hprogress ▸ hs.stands hp

/-- Two types have no parameter in common. -/
theorem param_ne (hs : Piecemeal setup s₀ progress s) {q : TypePlan} (hp : p ∈ setup.types)
    (hq : q ∈ setup.types) (hne : q.token ≠ p.token) {g d : GenericPlan} (hg : p.Describes g)
    (hd : q.Describes d) {h o : GenericHandle}
    (hh : s.registry.get? (setup.genericKey p g) = some h)
    (ho : s.registry.get? (setup.genericKey q d) = some o) : o ≠ h := by
  have hmade {p : TypePlan} (hp : p ∈ setup.types) {g : GenericPlan} (hg : p.Describes g)
      {h : GenericHandle} (hh : s.registry.get? (setup.genericKey p g) = some h) :
      ∃ x, s.store.generics.get? h = some x ∧ x.MadeFor (.type p.token) g := by
    have hparam := hs.params p hp g hg
    have hprogress : progress p.token ≠ .declared := by
      intro heq
      rw [heq] at hparam
      cases hh.symm.trans hparam
    obtain ⟨h', x, hh', hx, hmade, -⟩ := hparam.exists hprogress
    obtain rfl := Option.some.inj (hh.symm.trans hh')
    exact ⟨x, hx, hmade⟩
  rintro rfl
  obtain ⟨x, hx, hmade₁⟩ := hmade hp hg hh
  obtain ⟨y, hy, hmade₂⟩ := hmade hq hd ho
  obtain rfl := Option.some.inj (hx.symm.trans hy)
  exact hne (GenericOwner.type.inj (hmade₂.declaredBy.symm.trans hmade₁.declaredBy))

/-! ### The first step -/

/-- The parameters of a type are registered. -/
theorem register (hs₀ : Declared setup s₀) (hseparate : setup.SeparateKeys) (hp : p ∈ setup.types)
    (hprogress : progress p.token = .declared) (hs : Piecemeal setup s₀ progress s)
    (hrun : (setup.declareTypeGenerics p).Yields s pending s') :
    Piecemeal setup s₀ (Function.update progress p.token .registered) s' ∧
      AwaitsConstraints setup s' p pending := by
  obtain ⟨h, t, hlink, ht, hof⟩ := hs.types p hp
  rw [hprogress] at hof
  obtain ⟨d, rfl⟩ := hof
  have hmakes := introduces_declareTypeGenerics hs.scope hlink ht rfl
    (fun g hg => hs.free hp hprogress hg) hrun
  obtain ⟨objects, s₁, hregisters, hchange⟩ := yields_declareTypeGenerics hlink ht rfl hrun
  have hlists := hregisters.lists
  have hchanged : s₁.Extends s' := hchange.grows fun _ => ⟨rfl, rfl, rfl, rfl, rfl, rfl⟩
  have hgrows : s.Extends s' := hregisters.extends_state.trans hchanged
  have hsince := (hs.toSinceDeclaration.onlyGenerics hregisters.toOnlyGenerics
    hregisters.scope).changesType hchange fun _ => rfl
  refine ⟨{ toSinceDeclaration := hsince, nesting := ?nesting, types := ?types, params := ?params
            keys := ?keys }, hmakes.made.imp fun g item hitem => ⟨hitem.1, hitem.2.1⟩,
          hregisters.nodup⟩
  case nesting =>
    exact hs.nesting.trans
      ((keeps_declareTypeGenerics_of_allows (R := SameNesting) p).of_yields hrun)
  case types =>
    refine forall_update (P := fun q next => s'.TypeOf q (next.OfType setup s' q)) hs₀ hp ?_
      fun q hq htoken => ?_
    · refine ⟨h, _, ?_, hchange.of_some (hregisters.types ▸ ht), d, objects.foldl listOnce #[], rfl,
        hlists.mono (hchanged.scope _)⟩
      rw [hchange.links, hregisters.links, hlink]
    · exact (hs.types q hq).of_other hs₀ hs.toSinceDeclaration hp hq htoken hlink
        hregisters.toOnlyGenerics hchange fun t => Progress.OfType.mono hgrows
  case params =>
    refine forall_update (P := fun q next => ∀ g, q.Describes g → next.OfParam setup s' q g) hs₀ hp
      (fun g hg => ?_) fun q hq htoken g hg => ?_
    · obtain ⟨item, -, -, hheld, hx⟩ :=
        exists_of_forall₂ hmakes.made (TypePlan.mem_ownPlans.mpr hg)
      exact ⟨item.param, _, hheld, hx, ⟨rfl, rfl, rfl, rfl, rfl⟩, rfl, rfl, rfl⟩
    · refine (hs.params q hq g hg).mono hgrows (hmakes.others _ fun d hd heq => htoken ?_)
        fun h _ => hmakes.kept h
      have hmem := List.mem_of_find?_eq_some (TypePlan.mem_ownPlans.mp hd)
      exact (hseparate (p, d) (Setup.mem_declarations.mpr ⟨hp, hmem⟩) (q, g)
        (Setup.mem_declarations.mpr ⟨hq, List.mem_of_find?_eq_some hg⟩) heq).symm
  case keys =>
    intro key o ho
    by_cases hnew : ∃ g ∈ p.ownPlans, setup.genericKey p g = key
    · obtain ⟨g, hg, hkey⟩ := hnew
      refine ⟨p, hp, ?_, g, TypePlan.mem_ownPlans.mp hg, hkey⟩
      rw [Function.update_self]
      decide
    · rw [hmakes.others key fun g hg heq => hnew ⟨g, hg, heq⟩] at ho
      obtain ⟨q, hq, hfurther, hrest⟩ := hs.keys key o ho
      exact ⟨q, hq, Progress.update_ne hfurther (by decide), hrest⟩

/-! ### The second step -/

/-- What is pending for a type has no constraints yet. -/
theorem unconstrained (hp : p ∈ setup.types) (hprogress : progress p.token = .registered)
    (hs : Piecemeal setup s₀ progress s) (hawaits : AwaitsConstraints setup s p pending)
    {item : PendingGeneric} (hitem : item ∈ pending) :
    ∃ g, p.Describes g ∧ s.registry.get? (setup.genericKey p g) = some item.param ∧
      ∃ x, s.store.generics.get? item.param = some x ∧ x.Unconstrained := by
  obtain ⟨g, hg, -, hheld⟩ := exists_of_forall₂ hawaits.items.flip (Array.mem_toList_iff.mpr hitem)
  have hdescribes := TypePlan.mem_ownPlans.mp hg
  have hparam := hs.params p hp g hdescribes
  rw [hprogress] at hparam
  obtain ⟨h, x, hh, hx, -, -, hun⟩ := hparam
  obtain rfl := Option.some.inj (hheld.symm.trans hh)
  exact ⟨g, hdescribes, hheld, x, hx, hun⟩

/-- A type whose parameters are registered is configured. -/
theorem configure (hresolver : setup.resolver = Resolver.default) (hs₀ : Declared setup s₀)
    (hp : p ∈ setup.types) (hprogress : progress p.token = .registered)
    (hs : Piecemeal setup s₀ progress s) (hawaits : AwaitsConstraints setup s p pending)
    (hrun : (setup.configure p pending).Yields s () s') :
    Piecemeal setup s₀ (Function.update progress p.token .configured) s' := by
  obtain ⟨h, t, hlink, ht, hof⟩ := hs.types p hp
  rw [hprogress] at hof
  obtain ⟨d, listed, rfl, hlisted⟩ := hof
  obtain ⟨s₁, base, interfaces, hconstrains, hcan, hbase, hinterfaces, hchange⟩ :=
    yields_configure hresolver hlink ht rfl hawaits.nodup hrun
  have hregistry : s'.registry = s.registry := hchange.registry.trans hconstrains.registry
  have hun {item : PendingGeneric} (hitem : item ∈ pending.toList) :=
    hs.unconstrained hp hprogress hawaits (Array.mem_toList_iff.mp hitem)
  have hconstrained : s.Extends s₁ := hconstrains.toOnlyGenerics.grows
    (hconstrains.extends fun item hitem => by
      obtain ⟨-, -, -, hx⟩ := hun hitem
      exact hx)
    (.of_eq (congrArg GenericRegistry.params hconstrains.registry).symm)
    (congrArg GenericRegistry.scope hconstrains.registry)
  have hgrows : s.Extends s' :=
    hconstrained.trans (hchange.grows fun _ => ⟨rfl, rfl, rfl, rfl, rfl, rfl⟩)
  have hsince := (hs.toSinceDeclaration.onlyGenerics hconstrains.toOnlyGenerics
    (congrArg GenericRegistry.scope hconstrains.registry)).changesType hchange fun _ => rfl
  refine { toSinceDeclaration := hsince, nesting := ?nesting, types := ?types, params := ?params
           keys := ?keys }
  case nesting =>
    exact hs.nesting.trans
      ((keeps_configure_of_allows (R := SameNesting) p pending).of_yields hrun)
  case types =>
    refine forall_update (P := fun q next => s'.TypeOf q (next.OfType setup s' q)) hs₀ hp ?_
      fun q hq htoken => ?_
    · refine ⟨h, _, ?_, hchange.of_some (hconstrains.types ▸ ht), ⟨rfl, rfl, rfl, rfl, rfl, rfl⟩,
        ⟨rfl, rfl, rfl, rfl⟩, rfl, ?_, ?_, hlisted.mono (hgrows.scope _)⟩
      · rw [hchange.links, hconstrains.links, hlink]
      · simpa [TypePlan.declaration] using hbase.mono (hgrows.scope _)
      · simpa [TypePlan.declaration] using hinterfaces.mono (hgrows.scope _)
    · exact (hs.types q hq).of_other hs₀ hs.toSinceDeclaration hp hq htoken hlink
        hconstrains.toOnlyGenerics hchange fun t => Progress.OfType.mono hgrows
  case params =>
    refine forall_update (P := fun q next => ∀ g, q.Describes g → next.OfParam setup s' q g) hs₀ hp
      (fun g hg => ?_) fun q hq htoken g hg => ?_
    · have hparam := hs.params p hp g hg
      rw [hprogress] at hparam
      obtain ⟨o, x, ho, hx, hmade, howners, hunconstrained⟩ := hparam
      obtain ⟨item, hitem, hconstraints, hheld⟩ :=
        exists_of_forall₂ hawaits.items (TypePlan.mem_ownPlans.mpr hg)
      obtain rfl := Option.some.inj (hheld.symm.trans ho)
      obtain ⟨y, hy, halike, hcomplete⟩ := hconstrains.complete hcan hitem hx hunconstrained
      have hsame : y.owners = x.owners := by
        rw [← BuildState.ownersOf_of_some hx, ← BuildState.ownersOf_of_some hy, hconstrains.owners]
      exact ⟨item.param, y, hregistry ▸ ho, hchange.generics ▸ hy, hmade.of_alike halike,
        hsame.trans howners, hconstraints ▸ hcomplete.mono (hgrows.scope _)⟩
    · refine (hs.params q hq g hg).mono hgrows (by rw [hregistry]) fun o ho x hx => ?_
      rw [hchange.generics, hconstrains.others, hx]
      intro hmem
      obtain ⟨item, hitem, hparam⟩ := List.mem_map.mp hmem
      obtain ⟨g', hdescribes, hheld, -⟩ := hun hitem
      exact hs.param_ne hp hq htoken hdescribes hg hheld ho hparam.symm
  case keys =>
    intro key o ho
    rw [hregistry] at ho
    obtain ⟨q, hq, hfurther, hrest⟩ := hs.keys key o ho
    exact ⟨q, hq, Progress.update_ne hfurther (by decide), hrest⟩

/-! ### Registered types -/

/-- Where all types are registered, the keys that are held are those of the plans that count. -/
theorem held_iff (hs : Piecemeal setup s₀ progress s)
    (hall : ∀ p ∈ setup.types, progress p.token ≠ .declared) {key : GenericKey} :
    (s.registry.get? key).isSome ↔
      ∃ p ∈ setup.types, ∃ g, p.Describes g ∧ setup.genericKey p g = key := by
  constructor
  · intro hkey
    obtain ⟨h, hh⟩ := Option.isSome_iff_exists.mp hkey
    obtain ⟨p, hp, -, hrest⟩ := hs.keys key h hh
    exact ⟨p, hp, hrest⟩
  · rintro ⟨p, hp, g, hg, rfl⟩
    obtain ⟨h, -, hh, -⟩ := (hs.params p hp g hg).exists (hall p hp)
    exact Option.isSome_iff_exists.mpr ⟨h, hh⟩

theorem paramName?_eq (hs : Piecemeal setup s₀ progress s)
    (hall : ∀ p ∈ setup.types, progress p.token ≠ .declared) (hp : p ∈ setup.types)
    {g : GenericPlan} (hg : p.Describes g) :
    s.paramName? (setup.genericKey p g) = some g.name := by
  obtain ⟨h, x, hh, hx, hmade, -⟩ := (hs.params p hp g hg).exists (hall p hp)
  rw [BuildState.paramName?, hh, Option.bind_some, hx, Option.map_some, hmade.name]

/-- Where all types are registered, references are checked alike, whatever else has been done. -/
theorem sameNames {progress' : Token → Progress} (hs : Piecemeal setup s₀ progress s)
    (hs' : Piecemeal setup s₀ progress' s')
    (hall : ∀ p ∈ setup.types, progress p.token ≠ .declared)
    (hall' : ∀ p ∈ setup.types, progress' p.token ≠ .declared) : SameNames s s' where
  toSameNesting := hs.nesting.symm.trans hs'.nesting
  scope := hs'.scope.trans hs.scope.symm
  held key := by
    rw [Bool.eq_iff_iff, ← Option.not_isSome, ← Option.not_isSome]
    simp only [Bool.not_eq_true']
    rw [← Bool.not_eq_true, ← Bool.not_eq_true, hs.held_iff hall, hs'.held_iff hall']
  names key := by
    by_cases hkey : ∃ p ∈ setup.types, ∃ g, p.Describes g ∧ setup.genericKey p g = key
    · obtain ⟨p, hp, g, hg, rfl⟩ := hkey
      rw [hs.paramName?_eq hall hp hg, hs'.paramName?_eq hall' hp hg]
    · have hnone {progress : Token → Progress} {s : BuildState}
          (hs : Piecemeal setup s₀ progress s)
          (hall : ∀ p ∈ setup.types, progress p.token ≠ .declared) : s.paramName? key = none := by
        rw [BuildState.paramName?, Option.not_isSome_iff_eq_none.mp (mt (hs.held_iff hall).mp hkey)]
        rfl
      rw [hnone hs hall, hnone hs' hall']

/-! ### Configured types -/

section AllConfigured

variable (hseparate : setup.SeparateKeys) (hnodup : (setup.types.map TypePlan.token).Nodup)
  (hs : Piecemeal setup s₀ progress s)
  (hall : ∀ p ∈ setup.types, progress p.token = .configured)
include hs hall

theorem mirrored (hp : p ∈ setup.types) : s.TypeOf p fun t =>
    p.declaration.Alike t ∧ t.HasNoMembers ∧ TypeMirrored setup s p t :=
  (hs.configured hp (hall p hp)).type

include hseparate hnodup

/-- Where all types are configured, the hierarchy is mirrored. -/
theorem hierarchyMirrored : HierarchyMirrored setup s where
  types p hp := by
    obtain ⟨h, t, hlink, ht, -, -, hmirrored⟩ := hs.mirrored hall hp
    exact ⟨h, t, hlink, ht, hmirrored⟩
  scope := hs.scope
  registry key := by
    rw [hs.held_iff fun p hp => by rw [hall p hp]; decide]
    constructor
    · rintro ⟨p, hp, g, hg, hkey⟩
      exact ⟨(p, g), Setup.mem_declarations.mpr ⟨hp, List.mem_of_find?_eq_some hg⟩, hkey⟩
    · rintro ⟨⟨p, g⟩, hd, rfl⟩
      obtain ⟨hp, hg⟩ := Setup.mem_declarations.mp hd
      obtain ⟨g', hdescribes, hindex⟩ := TypePlan.exists_describes hg
      exact ⟨p, hp, g', hdescribes, Setup.genericKey_eq_iff.mpr hindex⟩
  generics key h hh := by
    obtain ⟨p, hp, -, g, hg, rfl⟩ := hs.keys key h hh
    obtain ⟨h', x, hh', hx, hmade, -, hcomplete⟩ := (hs.configured hp (hall p hp)).params g hg
    obtain rfl := Option.some.inj (hh.symm.trans hh')
    exact ⟨p, g, x, (Setup.firstAmong?_eq_some (hseparate.unique hnodup _)).mpr ⟨hp, hg.find?_key⟩,
      hx, hmade, hcomplete⟩

/-- A parameter is owned by the one type that plans it. -/
theorem recordsOwners : RecordsOwners setup setup.types s := by
  intro key h hh
  obtain ⟨p, hp, -, g, hg, rfl⟩ := hs.keys key h hh
  obtain ⟨h', x, hh', hx, -, howners, -⟩ := (hs.configured hp (hall p hp)).params g hg
  obtain rfl := Option.some.inj (hh.symm.trans hh')
  have hdeclares : setup.declares (setup.genericKey p g) p = true :=
    Setup.declares_of_find? hg.find?_key
  have hfilter : setup.types.filter (setup.declares (setup.genericKey p g)) = [p] := by
    refine List.perm_singleton.mp ((List.perm_ext_iff_of_nodup
      ((List.Nodup.of_map _ hnodup).filter _) (List.nodup_singleton p)).mpr fun q => ?_)
    rw [List.mem_filter, List.mem_singleton]
    constructor
    · exact fun hq => hseparate.unique hnodup _ q hq.1 p hp hq.2 hdeclares
    · rintro rfl
      exact ⟨hp, hdeclares⟩
  rw [BuildState.ownersOf_of_some hx, howners, hfilter]
  rfl

end AllConfigured

/-- Where all types are configured, the state is the one that a pass makes, in whatever order they
have been. -/
theorem arranged (hseparate : setup.SeparateKeys) (hs₀ : Nests setup setup.types [] s₀)
    (hs : Piecemeal setup s₀ progress s)
    (hall : ∀ p ∈ setup.types, progress p.token = .configured) : Arranged setup s where
  toHierarchyMirrored := hs.hierarchyMirrored hseparate hs₀.nodup hall
  nodup := hs₀.nodup
  injective p hp q hq h hph hqh := by
    rw [hs.links] at hph hqh
    exact hs₀.token_injective hp hq hph hqh
  bare p hp := by
    obtain ⟨h, t, hlink, ht, halike, hbare, -⟩ := hs.mirrored hall hp
    exact ⟨h, t, hlink, ht, halike, hbare⟩
  known := hs.known
  listed := by
    rw [hs.links, hs.declared]
    exact hs₀.listed
  store := hs.store
  links := by rw [hs.links, hs₀.links]
  failures := hs.failures
  planned := by
    rw [hs.links]
    exact hs₀.planned
  nested p hp := by
    obtain ⟨h, t, hlink, ht, -⟩ := hs.mirrored hall hp
    obtain ⟨h₀, t₀, hlink₀, ht₀, hnested⟩ := hs₀.nested p hp
    rw [hs.links] at hlink
    obtain rfl := Option.some.inj (hlink.symm.trans hlink₀)
    obtain ⟨t₁, ht₁, hkept⟩ := hs.declaring h t ht
    obtain rfl := Option.some.inj (ht₀.symm.trans ht₁)
    exact ⟨h, t, hs.links ▸ hlink, ht, by rw [hs.links, ← hnested]; exact hkept⟩
  owners := hs.recordsOwners hseparate hs₀.nodup hall

end Piecemeal

end ClrImage
