import ClrImage.Proofs.Hierarchy

/-!
# The two rounds of the hierarchy pass

The pass goes over all types twice, and both rounds share one registry. The parameters that the
first round makes are carried as pending work into the second one. An invariant for each round
relates the registry, the lists of the types and the pending work.

- `FirstRound`, `SecondRound`: the invariants. Either one speaks of the types that its round has
  processed and of those that it has still to process.
- `Configured`: the state of a build behind the pass.
- `hierarchy_mirrored`: declaration and hierarchy, if both succeed, mirror the blueprint.
-/

namespace ClrImage

/-- A planned type and the new parameters that the first round has made for it. -/
abbrev PendingType := TypePlan × Array PendingGeneric

/-! ## What neither round touches -/

/-- Nothing but types and generic parameters has changed since the declaration. -/
structure SinceDeclaration (setup : Setup) (s₀ s : BuildState) : Prop where
  links : s.links = s₀.links
  declared : s.declared = s₀.declared
  store : s.store = { types := s.store.types, generics := s.store.generics }
  scope : s.registry.scope = setup.config.registryScope
  failures : s.failures = #[]
  known : ∀ h t, s.store.types.get? h = some t →
    ∃ p ∈ setup.types, s.links.types.get? p.token = some h
  declaring : ∀ h t, s.store.types.get? h = some t →
    ∃ t₀, s₀.store.types.get? h = some t₀ ∧ t.declaring = t₀.declaring

namespace SinceDeclaration

variable {setup : Setup} {s₀ s s' : BuildState}

theorem of_declared (h : Declared setup s) : SinceDeclaration setup s s where
  links := rfl
  declared := rfl
  store := by rw [h.store]
  scope := by rw [h.registry]
  failures := h.failures
  known := h.known
  declaring _ t ht := ⟨t, ht, rfl⟩

theorem onlyGenerics (h : SinceDeclaration setup s₀ s) (hs : OnlyGenerics s s')
    (hscope : s'.registry.scope = s.registry.scope) : SinceDeclaration setup s₀ s' where
  links := hs.links.trans h.links
  declared := hs.declared.trans h.declared
  store := by rw [hs.store, h.store]
  scope := hscope.trans h.scope
  failures := hs.failures.trans h.failures
  known := by rw [hs.types, hs.links]; exact h.known
  declaring := by rw [hs.types]; exact h.declaring

theorem changesType (h : SinceDeclaration setup s₀ s) {g : TypeHandle} {f : TypeDef → TypeDef}
    (hs : ChangesType g f s s') (hf : ∀ t, (f t).declaring = t.declaring) :
    SinceDeclaration setup s₀ s' where
  links := hs.links.trans h.links
  declared := hs.declared.trans h.declared
  store := by rw [hs.store, h.store]
  scope := by rw [hs.registry, h.scope]
  failures := hs.failures.trans h.failures
  known o t ht := by
    rw [hs.links]
    rw [hs.types] at ht
    split at ht
    · obtain ⟨t, ht, -⟩ := Option.map_eq_some_iff.mp ht
      exact h.known o t ht
    · exact h.known o t ht
  declaring o t ht := by
    rw [hs.types] at ht
    split at ht
    · obtain ⟨u, hu, rfl⟩ := Option.map_eq_some_iff.mp ht
      obtain ⟨t₀, ht₀, hdeclaring⟩ := h.declaring o u hu
      exact ⟨t₀, ht₀, (hf u).trans hdeclaring⟩
    · exact h.declaring o t ht

/-- The keys of a type's parameters are those of the blueprint. -/
theorem key_eq (h : SinceDeclaration setup s₀ s) (p : TypePlan) :
    (fun g : GenericPlan => s.registry.key g.index (setup.blueprint.topLevel p)) =
      setup.genericKey p :=
  funext fun g => GenericRegistry.key_congr (r := ⟨setup.config.registryScope, {}⟩) h.scope g.index
    (setup.blueprint.topLevel p)

end SinceDeclaration

/-! ## Other types -/

/-- A step for one type leaves the types of other plans as they are. -/
theorem BuildState.TypeOf.of_other {setup : Setup} {s₀ s s₁ s' : BuildState} {p q : TypePlan}
    {h : TypeHandle} {f : TypeDef → TypeDef} {Q Q' : TypeDef → Prop} (hs₀ : Declared setup s₀)
    (hs : SinceDeclaration setup s₀ s) (hp : p ∈ setup.types) (hq : q ∈ setup.types)
    (hne : q.token ≠ p.token) (hlink : s.links.types.get? p.token = some h)
    (h₁ : OnlyGenerics s s₁) (h₂ : ChangesType h f s₁ s') (hQ : ∀ t, Q t → Q' t)
    (htype : s.TypeOf q Q) : s'.TypeOf q Q' := by
  obtain ⟨g, t, hg, ht, hQt⟩ := htype
  have hgh : g ≠ h := by
    rintro rfl
    rw [hs.links] at hg hlink
    exact hne (hs₀.token_injective hq hp hg hlink)
  refine ⟨g, t, ?_, ?_, hQ t hQt⟩
  · rw [h₂.links, h₁.links, hg]
  · rw [h₂.of_ne hgh, h₁.types, ht]

theorem TypeMirrored.mono {setup : Setup} {s s' : BuildState} {p : TypePlan} {t : TypeDef}
    (hs : s.Extends s') (h : TypeMirrored setup s p t) : TypeMirrored setup s' p t :=
  ⟨h.isConfigured, h.base.mono (hs.scope _), h.interfaces.mono (hs.scope _),
    h.generics.mono (hs.scope _)⟩

/-! ## The first round -/

/-- The first round has processed the types of `work` and has still to process those of `todo`. -/
structure FirstRound (setup : Setup) (s₀ : BuildState) (work : List PendingType)
    (todo : List TypePlan) (s : BuildState) : Prop extends SinceDeclaration setup s₀ s where
  listed : ∀ e ∈ work, s.TypeOf e.1 fun t => ∃ d listed,
    t = { e.1.declaration with declaring := d, generics := listed } ∧
      (s.scope (setup.blueprint.topLevel e.1)).Lists e.1.genericPlans listed
  untouched : ∀ p ∈ todo, s.TypeOf p fun t => ∃ d, t = { p.declaration with declaring := d }
  /-- Every entry of the registry belongs to the first plan with its key, and is pending. -/
  registered : ∀ k h, s.registry.get? k = some h → ∃ e ∈ work, ∃ g x,
    setup.firstAmong? (work.map Prod.fst) k = some (e.1, g) ∧ ⟨h, g.constraints⟩ ∈ e.2 ∧
      s.store.generics.get? h = some x ∧ x.MadeFor (.type e.1.token) g
  complete : ∀ k, s.registry.get? k = none → setup.firstAmong? (work.map Prod.fst) k = none
  /-- What is pending is pending for the first plan with its key. -/
  planned : ∀ e ∈ work, ∀ item ∈ e.2, ∃ k g,
    setup.firstAmong? (work.map Prod.fst) k = some (e.1, g) ∧ item.constraints = g.constraints
  pending : ∀ e ∈ work, ∀ item ∈ e.2, ∃ x,
    s.store.generics.get? item.param = some x ∧ x.Unconstrained
  nodup : (work.flatMap fun e => e.2.toList.map PendingGeneric.param).Nodup

namespace FirstRound

variable {setup : Setup} {s₀ s s' : BuildState}

theorem start (hs : Declared setup s) : FirstRound setup s [] setup.types s where
  toSinceDeclaration := .of_declared hs
  listed := by simp
  untouched p hp := by
    obtain ⟨h, d, hlink, ht⟩ := hs.linked p hp
    exact ⟨h, _, hlink, ht, d, rfl⟩
  registered k h hh := by
    rw [hs.registry] at hh
    simp [GenericRegistry.get?] at hh
  complete k _ := rfl
  planned := by simp
  pending := by simp
  nodup := by simp

section Step

/-! A type's parameters are registered, which leaves the state `s₁`, and then they are listed. -/

variable {s₁ : BuildState} {work : List PendingType} {p : TypePlan} {todo : List TypePlan}
  {objects : List GenericHandle} {pending : Array PendingGeneric} {h : TypeHandle}
  {f : TypeDef → TypeDef}
  (hregisters : Registers (setup.genericKey p) (.type p.token) p.genericPlans s s₁ objects
    pending.toList)
  (hchange : ChangesType h f s₁ s')
include hregisters hchange

/-- The parameter of a key is that of the first plan with it, which may be a plan of this type. -/
theorem registered_step (hs : FirstRound setup s₀ work (p :: todo) s) (k : GenericKey)
    (o : GenericHandle) (ho : s'.registry.get? k = some o) :
    ∃ e ∈ work ++ [(p, pending)], ∃ g x,
      setup.firstAmong? ((work ++ [(p, pending)]).map Prod.fst) k = some (e.1, g) ∧
        ⟨o, g.constraints⟩ ∈ e.2 ∧ s'.store.generics.get? o = some x ∧
        x.MadeFor (.type e.1.token) g := by
  rw [hchange.registry] at ho
  rw [List.map_append, List.map_singleton, Setup.firstAmong?_append, hchange.generics]
  -- a key that had a parameter was planned before, any other one by this type
  cases hk : s.registry.get? k with
  | some o' =>
    obtain rfl := Option.some.inj ((hregisters.registry k o' hk).symm.trans ho)
    obtain ⟨e, he, g, x, hfirst, hpending, hx, hmade⟩ := hs.registered k o' hk
    obtain ⟨y, hy, hterms⟩ := hregisters.generics o' x hx
    exact ⟨e, by simp [he], g, y, by rw [hfirst]; rfl, hpending, hy,
      hmade.of_alike hterms.toAlike⟩
  | none =>
    obtain ⟨g, hfind, hpending, x, hx, hmade⟩ := hregisters.made k o hk ho
    exact ⟨(p, pending), by simp, g, x, by rw [hs.complete k hk, hfind]; rfl,
      Array.mem_toList_iff.mp hpending, hx, hmade⟩

/-- A key without a parameter is planned by none of the types so far. -/
theorem complete_step (hs : FirstRound setup s₀ work (p :: todo) s) (k : GenericKey)
    (hk : s'.registry.get? k = none) :
    setup.firstAmong? ((work ++ [(p, pending)]).map Prod.fst) k = none := by
  rw [hchange.registry] at hk
  have hnone : s.registry.get? k = none := by
    cases hheld : s.registry.get? k with
    | none => rfl
    | some o =>
      rw [show s₁.registry.get? k = some o from hregisters.registry k o hheld] at hk
      cases hk
  have hunplanned : p.genericPlans.find? (setup.genericKey p · = k) = none := by
    rw [List.find?_eq_none]
    intro g hg hkey
    obtain ⟨o, -, ho⟩ := exists_of_forall₂ hregisters.objects_eq hg
    rw [of_decide_eq_true hkey, hk] at ho
    cases ho
  rw [List.map_append, List.map_singleton, Setup.firstAmong?_append, hs.complete k hnone,
    hunplanned]
  rfl

omit hchange in
/-- What is pending keeps the plan that it is pending for, and what is new is pending for a plan of
this type. -/
theorem planned_step (hs : FirstRound setup s₀ work (p :: todo) s) (e : PendingType)
    (he : e ∈ work ++ [(p, pending)]) (item : PendingGeneric) (hitem : item ∈ e.2) :
    ∃ k g, setup.firstAmong? ((work ++ [(p, pending)]).map Prod.fst) k = some (e.1, g) ∧
      item.constraints = g.constraints := by
  rw [List.map_append, List.map_singleton]
  rcases List.mem_append.mp he with he | he
  · obtain ⟨k, g, hfirst, hconstraints⟩ := hs.planned e he item hitem
    exact ⟨k, g, by rw [Setup.firstAmong?_append, hfirst]; rfl, hconstraints⟩
  · obtain rfl := List.mem_singleton.mp he
    have hitem := Array.mem_toList_iff.mpr hitem
    obtain ⟨g, hfind, hconstraints, hfree, -⟩ := hregisters.pends item hitem
    refine ⟨setup.genericKey p g, g, ?_, hconstraints⟩
    rw [Setup.firstAmong?_append, hs.complete _ hfree, hfind]
    rfl

/-- The pending parameters of all types so far are without constraints. -/
theorem pending_step (hs : FirstRound setup s₀ work (p :: todo) s) (e : PendingType)
    (he : e ∈ work ++ [(p, pending)]) (item : PendingGeneric) (hitem : item ∈ e.2) :
    ∃ x, s'.store.generics.get? item.param = some x ∧ x.Unconstrained := by
  rw [hchange.generics]
  rcases List.mem_append.mp he with he | he
  · obtain ⟨x, hx, hun⟩ := hs.pending e he item hitem
    obtain ⟨y, hy, hterms⟩ := hregisters.generics _ x hx
    exact ⟨y, hy, hun.of_sameTerms hterms⟩
  · obtain rfl := List.mem_singleton.mp he
    exact (hregisters.fresh item (Array.mem_toList_iff.mpr hitem)).2

omit hchange in
/-- What was pending before is not new. -/
theorem nodup_step (hs : FirstRound setup s₀ work (p :: todo) s) :
    ((work ++ [(p, pending)]).flatMap fun e => e.2.toList.map PendingGeneric.param).Nodup := by
  rw [List.flatMap_append, List.flatMap_singleton, List.nodup_append]
  refine ⟨hs.nodup, hregisters.nodup, ?_⟩
  rintro _ hold _ hnew rfl
  obtain ⟨e, he, hold⟩ := List.mem_flatMap.mp hold
  obtain ⟨i, hi, rfl⟩ := List.mem_map.mp hold
  obtain ⟨j, hj, heq⟩ := List.mem_map.mp hnew
  obtain ⟨x, hx, -⟩ := hs.pending e he i (Array.mem_toList_iff.mp hi)
  rw [← heq, (hregisters.fresh j hj).1] at hx
  cases hx

end Step

/-- Registering the parameters of a type extends the invariant to it. -/
theorem step (hs₀ : Declared setup s₀) {work : List PendingType} {p : TypePlan}
    {todo : List TypePlan} {pending : Array PendingGeneric}
    (hall : setup.types = work.map Prod.fst ++ p :: todo)
    (hs : FirstRound setup s₀ work (p :: todo) s)
    (hrun : (setup.declareTypeGenerics p).Yields s pending s') :
    FirstRound setup s₀ (work ++ [(p, pending)]) todo s' := by
  obtain ⟨h, _, hlink, ht, d, rfl⟩ := hs.untouched p List.mem_cons_self
  obtain ⟨objects, s₁, hregisters, hchange⟩ := yields_declareTypeGenerics hlink ht rfl hrun
  have hlists := hregisters.lists
  rw [hs.key_eq p] at hregisters
  have hsince₁ := hs.toSinceDeclaration.onlyGenerics hregisters.toOnlyGenerics hregisters.scope
  have hchanged : s₁.Extends s' := hchange.grows fun _ => ⟨rfl, rfl, rfl, rfl, rfl, rfl⟩
  have hgrows : s.Extends s' := hregisters.extends_state.trans hchanged
  have hother {q : TypePlan} {Q Q' : TypeDef → Prop} (hq : q ∈ setup.types)
      (hne : q.token ≠ p.token) : (∀ t, Q t → Q' t) → s.TypeOf q Q → s'.TypeOf q Q' :=
    BuildState.TypeOf.of_other hs₀ hs.toSinceDeclaration (by simp [hall]) hq hne hlink
      hregisters.toOnlyGenerics hchange
  have hnodup := hs₀.nodup
  rw [hall] at hnodup
  refine { toSinceDeclaration := hsince₁.changesType hchange fun _ => rfl
           listed := ?listed, untouched := ?untouched
           registered := registered_step hregisters hchange hs
           complete := complete_step hregisters hchange hs
           planned := planned_step hregisters hs
           pending := pending_step hregisters hchange hs, nodup := nodup_step hregisters hs }
  case listed =>
    intro e he
    rcases List.mem_append.mp he with he | he
    · have hmem : e.1 ∈ work.map Prod.fst := List.mem_map_of_mem he
      refine hother (by simp [hall, hmem]) ?_ ?_ (hs.listed e he)
      · exact ne_of_nodup_map hnodup (.inl hmem)
      · rintro t ⟨d, listed, rfl, hlisted⟩
        exact ⟨d, listed, rfl, hlisted.mono (hgrows.scope _)⟩
    · obtain rfl := List.mem_singleton.mp he
      refine ⟨h, _, ?_, hchange.of_some (hregisters.types ▸ ht), d, objects.foldl listOnce #[],
        rfl, hlists.mono (hchanged.scope _)⟩
      rw [hchange.links, hregisters.links, hlink]
  case untouched =>
    intro q hq
    have hne : q.token ≠ p.token := ne_of_nodup_map hnodup (.inr hq)
    exact hother (by simp [hall, hq]) hne (fun t ht => ht) (hs.untouched q (by simp [hq]))

end FirstRound

/-! ## The second round -/

/-- The second round has processed the types of `done` and has still to process those of `todo`. -/
structure SecondRound (setup : Setup) (s₀ : BuildState) (done todo : List PendingType)
    (s : BuildState) : Prop extends SinceDeclaration setup s₀ s where
  configured : ∀ e ∈ done, s.TypeOf e.1 fun t => ∃ d base interfaces listed,
    t = { e.1.declaration with
          declaring := d, base, isConfigured := true, interfaces, generics := listed } ∧
      TypeMirrored setup s e.1 t
  waiting : ∀ e ∈ todo, s.TypeOf e.1 fun t => ∃ d listed,
    t = { e.1.declaration with declaring := d, generics := listed } ∧
      (s.scope (setup.blueprint.topLevel e.1)).Lists e.1.genericPlans listed
  registered : ∀ k h, s.registry.get? k = some h → ∃ e ∈ done ++ todo, ∃ g x,
    setup.firstDeclaration? k = some (e.1, g) ∧ ⟨h, g.constraints⟩ ∈ e.2 ∧
      s.store.generics.get? h = some x ∧ x.MadeFor (.type e.1.token) g
  complete : ∀ k, s.registry.get? k = none → setup.firstDeclaration? k = none
  planned : ∀ e ∈ done ++ todo, ∀ item ∈ e.2, ∃ k g,
    setup.firstDeclaration? k = some (e.1, g) ∧ item.constraints = g.constraints
  constrained : ∀ e ∈ done, ∀ item ∈ e.2, ∃ x, s.store.generics.get? item.param = some x ∧
    x.ConstrainedBy (s.scope (setup.blueprint.topLevel e.1)) item.constraints
  pending : ∀ e ∈ todo, ∀ item ∈ e.2, ∃ x,
    s.store.generics.get? item.param = some x ∧ x.Unconstrained
  nodup : ((done ++ todo).flatMap fun e => e.2.toList.map PendingGeneric.param).Nodup

/-- The second round goes on from where the first one ends. -/
theorem FirstRound.next {setup : Setup} {s₀ s : BuildState} {work : List PendingType}
    (hall : work.map Prod.fst = setup.types) (h : FirstRound setup s₀ work [] s) :
    SecondRound setup s₀ [] work s where
  toSinceDeclaration := h.toSinceDeclaration
  configured := by simp
  waiting := h.listed
  registered := by
    unfold Setup.firstDeclaration?
    rw [← hall]
    exact h.registered
  complete := by
    unfold Setup.firstDeclaration?
    rw [← hall]
    exact h.complete
  planned := by
    unfold Setup.firstDeclaration?
    rw [← hall]
    exact h.planned
  constrained := by simp
  pending := h.pending
  nodup := h.nodup

namespace SecondRound

variable {setup : Setup} {s₀ s s₁ s' : BuildState}

section Step

/-! A type's constraints are attached, which leaves the state `s₁`, and then the type is changed. -/

variable {done todo : List PendingType} {e : PendingType} {h : TypeHandle} {f : TypeDef → TypeDef}
  (hs : SecondRound setup s₀ done (e :: todo) s)
  (hconstrains : Constrains (s.scope (setup.blueprint.topLevel e.1)) e.2.toList s s₁)
  (hchange : ChangesType h f s₁ s')
include hs hconstrains hchange

theorem extends_step (halike : ∀ t, TypeDef.Alike t (f t)) : s.Extends s' := by
  have hpending : ∀ item ∈ e.2.toList, ∃ x,
      s.store.generics.get? item.param = some x ∧ x.Unconstrained :=
    fun item hitem => hs.pending e List.mem_cons_self item (Array.mem_toList_iff.mp hitem)
  have hconstrained : s.Extends s₁ :=
    hconstrains.toOnlyGenerics.grows (hconstrains.extends hpending)
      (.of_eq (congrArg GenericRegistry.params hconstrains.registry).symm)
      (congrArg GenericRegistry.scope hconstrains.registry)
  exact hconstrained.trans (hchange.grows halike)

/-- The parameters that are pending for other types stay as they are. -/
theorem others_step {e' : PendingType} (he' : e' ∈ done ∨ e' ∈ todo) {item : PendingGeneric}
    (hitem : item ∈ e'.2) :
    s'.store.generics.get? item.param = s.store.generics.get? item.param := by
  have hnodup := hs.nodup
  rw [List.flatMap_append, List.flatMap_cons, List.nodup_append, List.nodup_append] at hnodup
  rw [hchange.generics]
  refine hconstrains.others _ fun hmem => ?_
  have hparam : item.param ∈ e'.2.toList.map PendingGeneric.param :=
    List.mem_map_of_mem (Array.mem_toList_iff.mpr hitem)
  rcases he' with he' | he'
  · exact hnodup.2.2 _ (List.mem_flatMap.mpr ⟨e', he', hparam⟩) _
      (List.mem_append_left _ hmem) rfl
  · exact hnodup.2.1.2.2 _ hmem _ (List.mem_flatMap.mpr ⟨e', he', hparam⟩) rfl

/-- The parameters of all types that have been processed are complete. -/
theorem constrained_step (hcan : (s.scope (setup.blueprint.topLevel e.1)).CanConstrain e.2.toList)
    (hgrows : s.Extends s') (e' : PendingType) (he' : e' ∈ done ++ [e]) (item : PendingGeneric)
    (hitem : item ∈ e'.2) :
    ∃ x, s'.store.generics.get? item.param = some x ∧
      x.ConstrainedBy (s'.scope (setup.blueprint.topLevel e'.1)) item.constraints := by
  rcases List.mem_append.mp he' with he' | he'
  · obtain ⟨x, hx, hcomplete⟩ := hs.constrained e' he' item hitem
    exact ⟨x, (hs.others_step hconstrains hchange (.inl he') hitem).trans hx,
      hcomplete.mono (hgrows.scope _)⟩
  · obtain rfl := List.mem_singleton.mp he'
    obtain ⟨x, hx, hun⟩ := hs.pending e' List.mem_cons_self item hitem
    obtain ⟨y, hy, -, hcomplete⟩ :=
      hconstrains.complete hcan (Array.mem_toList_iff.mpr hitem) hx hun
    rw [← hchange.generics] at hy
    exact ⟨y, hy, hcomplete.mono (hgrows.scope _)⟩

end Step

/-- Configuring a type moves it to those that the second round has processed. -/
theorem step (hresolver : setup.resolver = Resolver.default) (hs₀ : Declared setup s₀)
    {done todo : List PendingType} {e : PendingType}
    (hall : (done ++ e :: todo).map Prod.fst = setup.types)
    (hs : SecondRound setup s₀ done (e :: todo) s)
    (hrun : (setup.configure e.1 e.2).Yields s () s') :
    SecondRound setup s₀ (done ++ [e]) todo s' := by
  obtain ⟨h, _, hlink, ht, d, listed, rfl, hlisted⟩ := hs.waiting e List.mem_cons_self
  have hnodup := hs.nodup
  rw [List.flatMap_append, List.flatMap_cons, List.nodup_append, List.nodup_append] at hnodup
  obtain ⟨s₁, base, interfaces, hconstrains, hcan, hbase, hinterfaces, hchange⟩ :=
    yields_configure hresolver hlink ht rfl hnodup.2.1.1 hrun
  have hgrows := hs.extends_step hconstrains hchange fun _ => ⟨rfl, rfl, rfl, rfl, rfl, rfl⟩
  have hregistry : s'.registry = s.registry := hchange.registry.trans hconstrains.registry
  have htokens := hs₀.nodup
  rw [← hall, List.map_map] at htokens
  have hplanned (e' : PendingType) (he' : e' ∈ done ∨ e' ∈ e :: todo) : e'.1 ∈ setup.types := by
    rw [← hall]
    exact List.mem_map_of_mem (List.mem_append.mpr he')
  have hne (e' : PendingType) (he' : e' ∈ done ∨ e' ∈ todo) : e'.1.token ≠ e.1.token :=
    ne_of_nodup_map (f := TypePlan.token ∘ Prod.fst) htokens he'
  have hother {e' : PendingType} {Q Q' : TypeDef → Prop} (he' : e' ∈ done ∨ e' ∈ todo) :
      (∀ t, Q t → Q' t) → s.TypeOf e'.1 Q → s'.TypeOf e'.1 Q' :=
    BuildState.TypeOf.of_other hs₀ hs.toSinceDeclaration (hplanned e (.inr List.mem_cons_self))
      (hplanned e' (he'.imp_right (List.mem_cons_of_mem e))) (hne e' he') hlink
      hconstrains.toOnlyGenerics hchange
  refine {
    toSinceDeclaration := (hs.toSinceDeclaration.onlyGenerics hconstrains.toOnlyGenerics
      (congrArg GenericRegistry.scope hconstrains.registry)).changesType hchange fun _ => rfl
    configured := ?configured, waiting := ?waiting, registered := ?registered
    complete := hregistry ▸ hs.complete
    planned := by simpa using hs.planned
    constrained := hs.constrained_step hconstrains hchange hcan hgrows
    pending := ?pending, nodup := by simpa using hs.nodup }
  case configured =>
    intro e' he'
    rcases List.mem_append.mp he' with he' | he'
    · refine hother (.inl he') ?_ (hs.configured e' he')
      rintro t ⟨d, base, interfaces, listed, rfl, hmirrored⟩
      exact ⟨d, base, interfaces, listed, rfl, hmirrored.mono hgrows⟩
    · obtain rfl := List.mem_singleton.mp he'
      refine ⟨h, _, ?_, hchange.of_some (hconstrains.types ▸ ht), d, base, interfaces.toArray,
        listed, ?_, ?_⟩
      · rw [hchange.links, hconstrains.links, hlink]
      · simp [TypePlan.declaration]
      · refine ⟨rfl, ?_, ?_, hlisted.mono (hgrows.scope _)⟩
        · simpa [TypePlan.declaration] using hbase.mono (hgrows.scope _)
        · simpa [TypePlan.declaration] using hinterfaces.mono (hgrows.scope _)
  case waiting =>
    intro e' he'
    refine hother (.inr he') ?_ (hs.waiting e' (List.mem_cons_of_mem e he'))
    rintro t ⟨d, listed, rfl, hlisted⟩
    exact ⟨d, listed, rfl, hlisted.mono (hgrows.scope _)⟩
  case registered =>
    intro k o ho
    rw [hregistry] at ho
    obtain ⟨e', he', g, x, hfirst, hpending, hx, hmade⟩ := hs.registered k o ho
    obtain ⟨y, hy, halike⟩ := hgrows.generics o x hx
    exact ⟨e', by simpa using he', g, y, hfirst, hpending, hy, hmade.of_alike halike⟩
  case pending =>
    intro e' he' item hitem
    rw [hs.others_step hconstrains hchange (.inr he') hitem]
    exact hs.pending e' (List.mem_cons_of_mem e he') item hitem

end SecondRound

/-! ## The whole pass -/

/-- A type without members. -/
structure TypeDef.HasNoMembers (t : TypeDef) : Prop where
  fields : t.fields = #[]
  methods : t.methods = #[]
  properties : t.properties = #[]
  events : t.events = #[]

/-- The state of a build behind its hierarchy pass: the hierarchy is mirrored, and there are no
members yet. -/
structure Configured (setup : Setup) (s : BuildState) : Prop extends HierarchyMirrored setup s where
  nodup : (setup.types.map TypePlan.token).Nodup
  injective : ∀ p ∈ setup.types, ∀ q ∈ setup.types, ∀ h, s.links.types.get? p.token = some h →
    s.links.types.get? q.token = some h → p.token = q.token
  bare : ∀ p ∈ setup.types, s.TypeOf p fun t => p.declaration.Alike t ∧ t.HasNoMembers
  known : ∀ h t, s.store.types.get? h = some t →
    ∃ p ∈ setup.types, s.links.types.get? p.token = some h
  listed : List.Forall₂ (fun p h => s.links.types.get? p.token = some h) setup.types
    s.declared.toList
  store : s.store = { types := s.store.types, generics := s.store.generics }
  links : s.links = { types := s.links.types }
  failures : s.failures = #[]

/-- Behind both rounds the hierarchy is mirrored. -/
theorem SecondRound.finish {setup : Setup} {s₀ s : BuildState} (hs₀ : Declared setup s₀)
    {work : List PendingType} (hall : work.map Prod.fst = setup.types)
    (h : SecondRound setup s₀ work [] s) : Configured setup s where
  types p hp := by
    rw [← hall] at hp
    obtain ⟨e, he, rfl⟩ := List.mem_map.mp hp
    obtain ⟨g, t, hlink, ht, -, -, -, -, -, hmirrored⟩ := h.configured e he
    exact ⟨g, t, hlink, ht, hmirrored⟩
  scope := h.scope
  registry k := by
    constructor
    · intro hk
      obtain ⟨o, ho⟩ := Option.isSome_iff_exists.mp hk
      obtain ⟨e, -, g, x, hfirst, -⟩ := h.registered k o ho
      exact ⟨(e.1, g), Setup.of_firstDeclaration? hfirst⟩
    · rintro ⟨d, hd, hkey⟩
      rw [Option.isSome_iff_ne_none]
      intro hnone
      have := List.find?_eq_none.mp (h.complete k hnone) d hd
      exact this (decide_eq_true hkey)
  generics k o ho := by
    obtain ⟨e, he, g, x, hfirst, hpending, hx, hmade⟩ := h.registered k o ho
    rw [List.append_nil] at he
    obtain ⟨x', hx', hcomplete⟩ := h.constrained e he _ hpending
    obtain rfl := Option.some.inj (hx.symm.trans hx')
    exact ⟨e.1, g, x, hfirst, hx, hmade, hcomplete⟩
  nodup := hs₀.nodup
  injective p hp q hq o hpo hqo := by
    rw [h.links] at hpo hqo
    exact hs₀.token_injective hp hq hpo hqo
  bare p hp := by
    rw [← hall] at hp
    obtain ⟨e, he, rfl⟩ := List.mem_map.mp hp
    obtain ⟨g, _, hlink, ht, d, base, interfaces, listed, rfl, -⟩ := h.configured e he
    exact ⟨g, _, hlink, ht, ⟨rfl, rfl, rfl, rfl, rfl, rfl⟩, rfl, rfl, rfl, rfl⟩
  known := h.known
  listed := by
    rw [h.links, h.declared]
    exact hs₀.listed
  store := h.store
  links := by rw [h.links, hs₀.links]
  failures := h.failures

theorem Configured.of_notices {setup : Setup} {s : BuildState} (h : Configured setup s)
    (notices : Array Notice) : Configured setup { s with notices } :=
  { types := fun p hp => by
      obtain ⟨g, t, hlink, ht, hmirrored⟩ := h.types p hp
      exact ⟨g, t, hlink, ht, hmirrored.isConfigured, hmirrored.base, hmirrored.interfaces,
        hmirrored.generics⟩
    scope := h.scope, registry := h.registry, generics := h.generics, nodup := h.nodup
    injective := h.injective, bare := h.bare, known := h.known, listed := h.listed
    store := h.store, links := h.links, failures := h.failures }

/-- The first round: the parameters of all types are registered. -/
def Setup.registerTypes (setup : Setup) : Build (List (Array PendingGeneric)) :=
  setup.types.mapM fun p => setup.inContext .hierarchy p (setup.declareTypeGenerics p)

/-- The second round: all types are configured. -/
def Setup.configureTypes (setup : Setup) (work : List PendingType) : Build Unit :=
  work.forM fun e => setup.inContext .hierarchy e.1 (setup.configure e.1 e.2)

/-- The pass consists of its two rounds, with a notice before and one behind them. -/
theorem yields_configureHierarchy {setup : Setup} {s s' : BuildState} :
    setup.configureHierarchy.Yields s () s' ↔ ∃ s₀ made s₁ s₂,
      s₀ = { s with notices :=
              s.notices.push (.configuring setup.types.length setup.blueprint.module) } ∧
      setup.registerTypes.Yields s₀ made s₁ ∧
      (setup.configureTypes (setup.types.zip made)).Yields s₁ () s₂ ∧
      s' = { s₂ with notices := s₂.notices.push (.hierarchyConfigured s₂.registry.size) } := by
  unfold Setup.configureHierarchy
  rw [Build.yields_bind]
  constructor
  · rintro ⟨_, s₀, htell, hrun⟩
    obtain rfl := Build.yields_modify.mp htell
    obtain ⟨made, s₁, hfirst, hrun⟩ := Build.yields_bind.mp hrun
    obtain ⟨_, s₂, hsecond, htell⟩ := Build.yields_bind.mp hrun
    exact ⟨_, made, s₁, s₂, rfl, hfirst, hsecond, (Build.yields_modify.mp htell).symm⟩
  · rintro ⟨_, made, s₁, s₂, rfl, hfirst, hsecond, rfl⟩
    exact ⟨(), _, rfl, Build.yields_bind.mpr ⟨made, s₁, hfirst,
      Build.yields_bind.mpr ⟨(), s₂, hsecond, rfl⟩⟩⟩

/-- What each type of the first round preserves holds behind it. There is one entry of pending work
for each type then, in order. -/
theorem registerTypes_induction {setup : Setup} {s s' : BuildState}
    {made : List (Array PendingGeneric)} (I : List PendingType → List TypePlan → BuildState → Prop)
    (start : I [] setup.types s)
    (step : ∀ work p todo pending s s', setup.types = work.map Prod.fst ++ p :: todo →
      I work (p :: todo) s → (setup.declareTypeGenerics p).Yields s pending s' →
      I (work ++ [(p, pending)]) todo s')
    (hrun : setup.registerTypes.Yields s made s') :
    (setup.types.zip made).map Prod.fst = setup.types ∧ I (setup.types.zip made) [] s' := by
  obtain ⟨hlength, hround⟩ := Build.mapM_induction
    (fun done todo made s' => made.length = done.length ∧ I (done.zip made) todo s')
    ⟨rfl, start⟩ (fun done p todo made pending s s' hall hI hstep => by
      have hzip : (done ++ [p]).zip (made ++ [pending]) = done.zip made ++ [(p, pending)] :=
        List.zip_append hI.1.symm
      have hfst : (done.zip made).map Prod.fst = done :=
        List.map_fst_zip (Nat.le_of_eq hI.1.symm)
      refine ⟨by simp [hI.1], ?_⟩
      rw [hzip]
      exact step _ p todo pending s s' (hfst.symm ▸ hall) hI.2 (Setup.yields_inContext.mp hstep))
    hrun
  exact ⟨List.map_fst_zip (Nat.le_of_eq hlength.symm), hround⟩

/-- The first round succeeds if the parameters of each type can be registered where the invariant
has brought it. -/
theorem registerTypes_yields_of {setup : Setup} {s : BuildState}
    (I : List PendingType → List TypePlan → BuildState → Prop) (start : I [] setup.types s)
    (step : ∀ work p todo s, setup.types = work.map Prod.fst ++ p :: todo → I work (p :: todo) s →
      ∃ pending s', (setup.declareTypeGenerics p).Yields s pending s' ∧
        I (work ++ [(p, pending)]) todo s') :
    ∃ made s', setup.registerTypes.Yields s made s' ∧ I (setup.types.zip made) [] s' := by
  obtain ⟨made, s', hrun, -, hround⟩ := Build.mapM_yields (l := setup.types)
    (f := fun p => setup.inContext .hierarchy p (setup.declareTypeGenerics p))
    (fun done todo made s' => made.length = done.length ∧ I (done.zip made) todo s')
    ⟨rfl, start⟩ (fun done p todo made s hall hI => by
      have hfst : (done.zip made).map Prod.fst = done :=
        List.map_fst_zip (Nat.le_of_eq hI.1.symm)
      obtain ⟨pending, s', hstep, hI'⟩ := step _ p todo s (hfst.symm ▸ hall) hI.2
      have hzip : (done ++ [p]).zip (made ++ [pending]) = done.zip made ++ [(p, pending)] :=
        List.zip_append hI.1.symm
      exact ⟨pending, s', Setup.yields_inContext.mpr hstep, by simp [hI.1], hzip ▸ hI'⟩)
  exact ⟨made, s', hrun, hround⟩

/-- The first round registers the parameters of all types. -/
theorem firstRound_of_yields {setup : Setup} {s s' : BuildState}
    {made : List (Array PendingGeneric)} (hs : Declared setup s)
    (hrun : setup.registerTypes.Yields s made s') :
    (setup.types.zip made).map Prod.fst = setup.types ∧
      FirstRound setup s (setup.types.zip made) [] s' :=
  registerTypes_induction (FirstRound setup s) (FirstRound.start hs)
    (fun _ _ _ _ _ _ hall hI hstep => hI.step hs hall hstep) hrun

/-- The second round processes all types that the first one leaves. -/
theorem secondRound_of_yields {setup : Setup} (hresolver : setup.resolver = Resolver.default)
    {s₀ s s' : BuildState} {work : List PendingType} (hs₀ : Declared setup s₀)
    (hall : work.map Prod.fst = setup.types) (hs : FirstRound setup s₀ work [] s)
    (hrun : (setup.configureTypes work).Yields s () s') : SecondRound setup s₀ work [] s' :=
  Build.forM_induction (fun done todo s => SecondRound setup s₀ done todo s) (hs.next hall)
    (fun _ _ _ _ _ hsplit hI hstep =>
      hI.step hresolver hs₀ (hsplit ▸ hall) (Setup.yields_inContext.mp hstep)) hrun

/-- A hierarchy pass over declared types that succeeds has been through both rounds. -/
theorem rounds_of_yields {setup : Setup} (hresolver : setup.resolver = Resolver.default)
    {s s' : BuildState} (hs : Declared setup s) (hrun : setup.configureHierarchy.Yields s () s') :
    ∃ work s₂ notices notices', Declared setup { s with notices } ∧
      work.map Prod.fst = setup.types ∧ SecondRound setup { s with notices } work [] s₂ ∧
      s' = { s₂ with notices := notices' } := by
  obtain ⟨_, made, s₁, s₂, rfl, hfirst, hsecond, rfl⟩ := yields_configureHierarchy.mp hrun
  have hs := hs.of_notices (s.notices.push (.configuring setup.types.length setup.blueprint.module))
  obtain ⟨hall, hround⟩ := firstRound_of_yields hs hfirst
  have hfinal := secondRound_of_yields hresolver hs hall hround hsecond
  exact ⟨_, s₂, _, _, hs, hall, hfinal, rfl⟩

/-- A hierarchy pass over declared types that succeeds leaves a configured state. -/
theorem configured_of_yields {setup : Setup} (hresolver : setup.resolver = Resolver.default)
    {s s' : BuildState} (hs : Declared setup s) (hrun : setup.configureHierarchy.Yields s () s') :
    Configured setup s' := by
  obtain ⟨work, s₂, notices, notices', hs, hall, hfinal, rfl⟩ :=
    rounds_of_yields hresolver hs hrun
  exact (hfinal.finish hs hall).of_notices notices'

/-- The pass changes nothing but types and generic parameters, and leaves every type where it is
nested. -/
theorem sinceDeclaration_of_yields {setup : Setup} (hresolver : setup.resolver = Resolver.default)
    {s s' : BuildState} (hs : Declared setup s) (hrun : setup.configureHierarchy.Yields s () s') :
    SinceDeclaration setup s s' := by
  obtain ⟨work, s₂, notices, notices', -, -, hfinal, rfl⟩ := rounds_of_yields hresolver hs hrun
  exact ⟨hfinal.links, hfinal.declared, hfinal.store, hfinal.scope, hfinal.failures, hfinal.known,
    hfinal.declaring⟩

/-- If a blueprint's types are declared and their hierarchy is configured, both with success, then
the hierarchy of the blueprint is mirrored, with every reference read against the final state. -/
theorem hierarchy_mirrored {setup : Setup} (hresolver : setup.resolver = Resolver.default)
    {s s' : BuildState} (hdeclare : setup.declareTypes.Yields (.initial setup.config) () s)
    (hconfigure : setup.configureHierarchy.Yields s () s') : HierarchyMirrored setup s' :=
  (configured_of_yields hresolver (declared_of_yields hdeclare)
    hconfigure).toHierarchyMirrored

/-- Two types that share a parameter. The first one lists it twice, with constraints that lead back
to it and on to the second type, which comes later. -/
def sharedParameter : Setup where
  blueprint := .ofTypes "shared"
    #[{ token := ⟨0x02000001⟩, space := "", name := "Node", flags := .empty, flavor := .classType
        module := "shared"
        generics := some
          #[⟨0, 0, "T", .empty, #[.inst (TypeRef.typeDef ⟨0x02000001⟩) [TypeRef.var 0],
              TypeRef.typeDef ⟨0x02000002⟩]⟩,
            ⟨1, 1, "U", .empty, #[TypeRef.var 0]⟩, ⟨0, 2, "V", .empty, #[]⟩] },
      { token := ⟨0x02000002⟩, space := "", name := "Leaf", flags := .empty, flavor := .interface
        module := "shared"
        base := some (.inst (TypeRef.typeDef ⟨0x02000001⟩) [TypeRef.var 0, TypeRef.var 1])
        interfaces := #[TypeRef.typeDef ⟨0x02000002⟩, .szArray (TypeRef.var 1)]
        generics := some #[⟨1, 0, "W", .empty, #[]⟩] }]

theorem hierarchy_mirrored_sharedParameter :
    ∃ s s', sharedParameter.resolver = Resolver.default ∧
      sharedParameter.declareTypes.Yields (.initial sharedParameter.config) () s ∧
      sharedParameter.configureHierarchy.Yields s () s' ∧ HierarchyMirrored sharedParameter s' := by
  have hdeclare := Build.yields_of_isOk sharedParameter.declareTypes
    (.initial sharedParameter.config) (by decide +kernel)
  have hconfigure := Build.yields_of_isOk sharedParameter.configureHierarchy
    (sharedParameter.declareTypes.outcome (.initial sharedParameter.config)).2 (by decide +kernel)
  exact ⟨_, _, rfl, hdeclare, hconfigure, hierarchy_mirrored rfl hdeclare hconfigure⟩

end ClrImage
