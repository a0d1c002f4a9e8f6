import ClrImage.Proofs.Attempts
import ClrImage.Proofs.Repetition

/-!
# Parameters under free keys

A type may plan several parameters with one index, and the first of these plans counts. If the keys
of a type's parameters are free, registration makes one for each plan that counts, in order, and
leaves all other parameters exactly as they are.

- `TypePlan.ownPlans`: the plans of a type that count.
- `Introduces`: the effect of registering plans whose keys are free.
- `introduces_declareTypeGenerics`: registering the parameters of a type has that effect.
-/

namespace ClrImage

/-! ## The plans that count -/

/-- A plan counts unless one before it has its index. -/
def addPlan (plans : List GenericPlan) (g : GenericPlan) : List GenericPlan :=
  if plans.any (·.index = g.index) then plans else plans ++ [g]

theorem addPlan_of_mem {plans : List GenericPlan} {g d : GenericPlan} (hd : d ∈ plans)
    (hindex : d.index = g.index) : addPlan plans g = plans :=
  if_pos (List.any_eq_true.mpr ⟨d, hd, decide_eq_true hindex⟩)

theorem addPlan_of_forall_ne {plans : List GenericPlan} {g : GenericPlan}
    (hnew : ∀ d ∈ plans, d.index ≠ g.index) : addPlan plans g = plans ++ [g] := by
  refine if_neg fun hany => ?_
  obtain ⟨d, hd, hindex⟩ := List.any_eq_true.mp hany
  exact hnew d hd (of_decide_eq_true hindex)

theorem mem_foldl_addPlan {l plans : List GenericPlan} {g : GenericPlan} :
    g ∈ l.foldl addPlan plans ↔
      g ∈ plans ∨ l.find? (·.index = g.index) = some g ∧ ∀ d ∈ plans, d.index ≠ g.index := by
  induction l generalizing plans with
  | nil => simp
  | cons a l ih =>
    rw [List.foldl_cons, ih]
    by_cases hold : ∃ d ∈ plans, d.index = a.index
    · obtain ⟨d, hd, hindex⟩ := hold
      rw [addPlan_of_mem hd hindex]
      refine or_congr_right (and_congr_left fun hnew => ?_)
      -- the plan in front has an index that is taken, so it is not the one
      rw [List.find?_cons_of_neg]
      rw [decide_eq_true_eq, ← hindex]
      exact hnew d hd
    · have hnew : ∀ d ∈ plans, d.index ≠ a.index := fun d hd hindex => hold ⟨d, hd, hindex⟩
      rw [addPlan_of_forall_ne hnew, List.mem_append, List.mem_singleton, List.forall_mem_append,
        List.forall_mem_singleton]
      by_cases hga : a.index = g.index
      · rw [List.find?_cons_of_pos (by simpa using hga), Option.some.injEq]
        have hfree : ∀ d ∈ plans, d.index ≠ g.index := hga ▸ hnew
        rw [and_iff_left hfree, or_iff_left fun h => h.2.2 hga, eq_comm]
      · rw [List.find?_cons_of_neg (by simpa using hga)]
        have hne : g ≠ a := fun heq => hga (heq ▸ rfl)
        simp [hga, hne]

namespace TypePlan

/-- The plans of a type that parameters are made for, in order. -/
def ownPlans (p : TypePlan) : List GenericPlan := p.genericPlans.foldl addPlan []

theorem mem_ownPlans {p : TypePlan} {g : GenericPlan} : g ∈ p.ownPlans ↔ p.Describes g := by
  unfold ownPlans Describes
  rw [mem_foldl_addPlan]
  simp

/-- For every index that is planned there is a plan that counts. -/
theorem exists_describes {p : TypePlan} {g : GenericPlan} (hg : g ∈ p.genericPlans) :
    ∃ g', p.Describes g' ∧ g'.index = g.index := by
  have hsome : (p.genericPlans.find? (·.index = g.index)).isSome = true :=
    List.find?_isSome.mpr ⟨g, hg, decide_eq_true rfl⟩
  obtain ⟨g', hfind⟩ := Option.isSome_iff_exists.mp hsome
  have hindex : g'.index = g.index := by simpa using List.find?_some hfind
  refine ⟨g', ?_, hindex⟩
  unfold Describes
  rwa [hindex]

end TypePlan

/-- A plan that counts is the first one of its type with its key. -/
theorem TypePlan.Describes.find?_key {setup : Setup} {p : TypePlan} {g : GenericPlan}
    (h : p.Describes g) :
    p.genericPlans.find? (setup.genericKey p · = setup.genericKey p g) = some g := by
  simp only [Setup.genericKey_eq_iff]
  exact h

/-! ## Free keys -/

/-- The parameter that is made for a plan, with its owner. -/
def GenericPlan.paramFor (g : GenericPlan) (owner : GenericOwner) : GenericParam :=
  { index := g.index, number := g.number, name := g.name, flags := g.flags, declaredBy := owner
    owners := #[owner] }

/-- What registering some plans of a type does if their keys are free: each gets its own parameter,
which is pending. -/
structure Introduces (setup : Setup) (p : TypePlan) (plans : List GenericPlan) (s s' : BuildState)
    (pending : List PendingGeneric) : Prop where
  scope : s'.registry.scope = s.registry.scope
  others : ∀ key, (∀ g ∈ plans, setup.genericKey p g ≠ key) →
    s'.registry.get? key = s.registry.get? key
  kept : ∀ h x, s.store.generics.get? h = some x → s'.store.generics.get? h = some x
  made : List.Forall₂ (fun g item => item.constraints = g.constraints ∧
    s'.registry.get? (setup.genericKey p g) = some item.param ∧
    s'.store.generics.get? item.param = some (g.paramFor (.type p.token))) plans pending

/-- A new parameter is pending behind the others. -/
theorem pending_of_declareGeneric {owner : GenericOwner} {topLevel : Token} {g : GenericPlan}
    {acc out : Array GenericHandle × Array PendingGeneric} {s s' : BuildState}
    (hfree : s.registry.get? (s.registry.key g.index topLevel) = none)
    (hrun : (Setup.declareGeneric owner topLevel acc g).Yields s out s') :
    out.2 = acc.2.push ⟨s.store.generics.next, g.constraints⟩ := by
  unfold Setup.declareGeneric at hrun
  rw [Build.yields_get_bind] at hrun
  obtain ⟨made, s₁, hregister, hrun⟩ := Build.yields_bind.mp hrun
  obtain ⟨rfl, rfl⟩ := (registerGeneric_of_none hfree owner g).unique hregister
  obtain ⟨_, s₂, -, hrest⟩ := Build.yields_bind.mp hrun
  rw [if_pos rfl] at hrest
  obtain ⟨_, s₃, -, hpure⟩ := Build.yields_bind.mp hrest
  obtain ⟨rfl, -⟩ := Build.yields_pure.mp hpure
  rfl

namespace Introduces

variable {setup : Setup} {p : TypePlan} {plans : List GenericPlan} {s s₁ s' : BuildState}
  {pending : List PendingGeneric}

theorem nil (setup : Setup) (p : TypePlan) (s : BuildState) : Introduces setup p [] s s [] :=
  ⟨rfl, fun _ _ => rfl, fun _ _ => id, .nil⟩

/-- Neither registry nor parameters are touched afterwards. -/
theorem of_eq (h : Introduces setup p plans s s₁ pending) (registry : s'.registry = s₁.registry)
    (generics : s'.store.generics = s₁.store.generics) : Introduces setup p plans s s' pending :=
  ⟨by rw [registry, h.scope], by rw [registry]; exact h.others, by rw [generics]; exact h.kept,
    by rw [registry, generics]; exact h.made⟩

/-- One more plan of the type. -/
theorem step {acc out : Array GenericHandle × Array PendingGeneric} {g : GenericPlan}
    (hscope : s.registry.scope = setup.config.registryScope)
    (hfree : s.registry.get? (setup.genericKey p g) = none)
    (h : Introduces setup p plans s s₁ acc.2.toList)
    (hrun : (Setup.declareGeneric (.type p.token) (setup.blueprint.topLevel p) acc g).Yields s₁ out
      s') :
    Introduces setup p (addPlan plans g) s s' out.2.toList := by
  have hkey : s₁.registry.key g.index (setup.blueprint.topLevel p) = setup.genericKey p g :=
    GenericRegistry.key_congr (r := ⟨setup.config.registryScope, {}⟩) (h.scope.trans hscope)
      g.index _
  by_cases hold : ∃ d ∈ plans, d.index = g.index
  · obtain ⟨d, hd, hindex⟩ := hold
    rw [addPlan_of_mem hd hindex]
    -- the parameter has been made for a plan before, and has the owner
    obtain ⟨item, -, -, hheld, hparam⟩ := exists_of_forall₂ h.made hd
    rw [Setup.genericKey_eq_iff.mpr hindex, ← hkey] at hheld
    obtain ⟨listed, hyields⟩ := declareGeneric_of_held acc hheld hparam
      (show GenericOwner.type p.token ∈ (d.paramFor (.type p.token)).owners by
        simp [GenericPlan.paramFor])
    obtain ⟨rfl, rfl⟩ := hyields.unique hrun
    exact h
  · have hnew : ∀ d ∈ plans, d.index ≠ g.index := fun d hd hindex => hold ⟨d, hd, hindex⟩
    have hdistinct : ∀ d ∈ plans, setup.genericKey p d ≠ setup.genericKey p g := fun d hd heq =>
      hnew d hd (Setup.genericKey_eq_iff.mp heq)
    have hfree₁ :
        s₁.registry.get? (s₁.registry.key g.index (setup.blueprint.topLevel p)) = none := by
      rw [hkey, h.others _ hdistinct, hfree]
    have hfounds := founds_of_declareGeneric hrun hfree₁
    rw [hkey] at hfounds
    have hparam {o : GenericHandle} {x : GenericParam} (hx : s₁.store.generics.get? o = some x) :
        s'.store.generics.get? o = some x := by
      rw [hfounds.generics, if_neg, hx]
      rintro rfl
      rw [Arena.get?_next] at hx
      cases hx
    have hheld {key : GenericKey} {o : GenericHandle} (ho : s₁.registry.get? key = some o) :
        s'.registry.get? key = some o := by
      rw [hfounds.registry, if_neg, ho]
      rintro rfl
      rw [hfounds.free] at ho
      cases ho
    rw [addPlan_of_forall_ne hnew, pending_of_declareGeneric hfree₁ hrun, Array.toList_push]
    refine ⟨hfounds.scope.trans h.scope, fun key hne => ?_,
      fun o x hx => hparam (h.kept o x hx), ?_⟩
    · obtain ⟨hne, hlast⟩ := List.forall_mem_append.mp hne
      have hother := hlast g (List.mem_singleton.mpr rfl)
      rw [hfounds.registry, if_neg hother.symm, h.others key hne]
    · refine List.rel_append (h.made.imp ?_) (.cons ⟨rfl, ?_, ?_⟩ .nil)
      · exact fun d item ⟨hconstraints, ho, hx⟩ => ⟨hconstraints, hheld ho, hparam hx⟩
      · rw [hfounds.registry, if_pos rfl]
      · exact (hfounds.generics _).trans (if_pos rfl)

/-- Some more plans of the type, wherever the pass over them has got to. -/
theorem steps {rest : List GenericPlan} {acc out : Array GenericHandle × Array PendingGeneric}
    (hscope : s.registry.scope = setup.config.registryScope)
    (hfree : ∀ g ∈ rest, s.registry.get? (setup.genericKey p g) = none)
    (h : Introduces setup p plans s s₁ acc.2.toList)
    (hrun : Build.Yields (List.foldlM (Setup.declareGeneric (.type p.token)
      (setup.blueprint.topLevel p)) acc rest) s₁ out s') :
    Introduces setup p (rest.foldl addPlan plans) s s' out.2.toList := by
  induction rest generalizing plans acc s₁ with
  | nil =>
    obtain ⟨rfl, rfl⟩ := Build.yields_pure.mp hrun
    exact h
  | cons g rest ih =>
    obtain ⟨hfirst, hrest⟩ := List.forall_mem_cons.mp hfree
    obtain ⟨acc₁, s₂, hstep, hrun⟩ := Build.yields_foldlM_cons.mp hrun
    exact ih hrest (h.step hscope hfirst hstep) hrun

end Introduces

/-- Registering the parameters of an open type makes one for each of its plans that counts. -/
theorem introduces_declareTypeGenerics {setup : Setup} {p : TypePlan}
    {pending : Array PendingGeneric} {h : TypeHandle} {t : TypeDef} {s s' : BuildState}
    (hscope : s.registry.scope = setup.config.registryScope)
    (hlink : s.links.types.get? p.token = some h) (ht : s.store.types.get? h = some t)
    (hopen : t.isConfigured = false)
    (hfree : ∀ g ∈ p.genericPlans, s.registry.get? (setup.genericKey p g) = none)
    (hrun : (setup.declareTypeGenerics p).Yields s pending s') :
    Introduces setup p p.ownPlans s s' pending.toList := by
  obtain ⟨hplanned, rfl, rfl⟩ | ⟨params, listed, s₁, hplanned, hdeclare, hmodify⟩ :=
    declareTypeGenerics_cases hlink ht hopen hrun
  · have hnone : p.ownPlans = [] := by simp [TypePlan.ownPlans, TypePlan.genericPlans, hplanned]
    rw [hnone]
    exact .nil setup p s'
  obtain rfl := Build.yields_modify.mp hmodify
  have hplans : p.genericPlans = params.toList := by simp [TypePlan.genericPlans, hplanned]
  unfold TypePlan.ownPlans
  rw [hplans] at hfree ⊢
  unfold Setup.declareGenerics at hdeclare
  have hstart : Introduces setup p [] s s (t.generics, (#[] : Array PendingGeneric)).2.toList :=
    .nil setup p s
  exact (hstart.steps hscope hfree hdeclare).of_eq rfl rfl

end ClrImage
