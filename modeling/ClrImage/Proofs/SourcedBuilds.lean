import ClrImage.Proofs.SourcedThreads

/-!
# Where the signatures of an image come from

Whatever schedules a build goes by, all that its image holds comes from plans, and all parameters
have owners. This holds when all types have been declared, and both rounds of the second pass and
the third pass keep it, since all threads keep to their terms.

- `Grounded`: everything comes from plans, and parameters have owners.
- `Grounded.runAll`: threads for all types keep it so.
- `Grounded.configureHierarchyBy`, `Grounded.populateMembersBy`: so do the passes.
- `passes_of_runBy`, `grounded_of_runBy`: every image is grounded, whatever the schedules.
-/

namespace ClrImage

/-- Everything comes from plans, and the parameters of every type have owners. -/
structure Grounded (setup : Setup) (s : BuildState) : Prop extends Sourced setup s where
  makersOwn : ∀ p ∈ setup.types, MakersOwn setup p none s

variable {setup : Setup} {s s₁ s' : BuildState}

/-- When all types have been declared there is no parameter. -/
theorem Declares.grounded (h : Declares setup.config setup.types s) : Grounded setup s where
  toSourced := h.sourced
  makersOwn p _ g x hx := by
    rw [h.store] at hx
    simp at hx

/-- Telling something changes nothing else. -/
theorem Grounded.notice (h : Grounded setup s) (n : Notice) :
    Grounded setup { s with notices := s.notices.push n } where
  toSourced := h.toSourced.idles (.of_allocates (keeps_notice n s))
  makersOwn := h.makersOwn

/-- Threads for all types that keep to their terms: whatever the schedule, if all come to a result
then everything is grounded, and what has been shown of each result holds. -/
theorem Grounded.runAll {α : Type} {P : TypePlan → α → BuildState → Prop} {σ : Schedule}
    {threads : List (Thread α)} {as : List α} (h : Grounded setup s)
    (hsafe : List.Forall₂ (fun p t => Thread.Safe (setup.side p)
      (fun a s => P p a s ∧ MakersOwn setup p none s) (fun _ => MakersOwn setup p none) t s)
      setup.types threads)
    (hrun : (setup.runAll σ threads).Yields s as s') :
    Grounded setup s' ∧ Later s s' ∧ SameNesting s s' ∧
      List.Forall₂ (fun p a => P p a s') setup.types as := by
  rw [Setup.runAll_eq] at hrun
  have hnodup : setup.types.Nodup := h.nodup.of_map TypePlan.token
  obtain ⟨hsourced, hmoves, hresults⟩ :=
    yields_sideBySide (Setup.side_agree hnodup) hsafe h.toSourced hrun
  refine ⟨⟨hsourced, fun p hp => ?_⟩, ?_, ?_, hresults.imp fun _ _ h => h.1⟩
  · obtain ⟨_, -, -, hmakers⟩ := exists_of_forall₂ hresults hp
    exact hmakers
  · exact hmoves.related fun p _ _ _ _ (h : Advances _ _ _) => h.later
  · exact hmoves.related fun p _ _ _ _ (h : Advances _ _ _) => h.nesting

namespace Grounded

variable (hresolver : setup.resolver = Resolver.default)
include hresolver

/-- The second pass keeps everything grounded. -/
theorem configureHierarchyBy {σ : Schedules} (h : Grounded setup s)
    (hrun : (setup.configureHierarchyBy σ).Yields s () s') :
    Grounded setup s' ∧ SameNesting s s' := by
  obtain ⟨pending, s₁, units, s₂, hdeclare, hconfigure, rfl⟩ :=
    Setup.yields_configureHierarchyBy.mp hrun
  obtain ⟨h₁, -, hnesting₁, hpends⟩ := (h.notice _).runAll
    (P := fun p pending s => ∀ item ∈ pending,
      Stepwise.Pends (.type p.token) p.genericPlans item s)
    (List.forall₂_map_right_iff.mpr (List.forall₂_same.mpr fun p hp =>
      Stepwise.safe_inContext (Stepwise.safe_declareTypeGenerics hp (h.makersOwn p hp)))) hdeclare
  have hsafe : List.Forall₂ (fun p t => Thread.Safe (setup.side p)
      (fun (_ : Unit) s => True ∧ MakersOwn setup p none s) (fun _ => MakersOwn setup p none) t s₁)
      setup.types ((setup.types.zip pending).map fun entry =>
        Stepwise.inContext setup .hierarchy entry.1
          (Stepwise.configure setup entry.1 entry.2)) := by
    rw [List.forall₂_map_right_iff]
    refine List.Forall₂.imp ?_ (List.forall₂_and_left _ _ |>.mpr ⟨fun _ => id, forall₂_zip hpends⟩)
    rintro _ ⟨p, pending⟩ ⟨hp, rfl, hpends⟩
    refine Stepwise.safe_inContext (Thread.Safe.leavesMakers ?_ (h₁.makersOwn p hp))
    exact Stepwise.safe_configure hresolver hp hpends
  obtain ⟨h₂, -, hnesting₂, -⟩ := h₁.runAll hsafe hconfigure
  exact ⟨h₂.notice _, { hnesting₁.trans hnesting₂ with }⟩

/-- So does the third pass. -/
theorem populateMembersBy {σ : Schedules} (h : Grounded setup s)
    (hrun : (setup.populateMembersBy σ).Yields s () s') :
    Grounded setup s' ∧ SameNesting s s' := by
  unfold Setup.populateMembersBy at hrun
  obtain ⟨_, _, htell, hrun⟩ := Build.yields_bind.mp hrun
  obtain rfl := Build.yields_modify.mp htell
  obtain ⟨units, s₁, hpopulate, hrun⟩ := Build.yields_bind.mp hrun
  rw [Build.yields_get_bind] at hrun
  obtain rfl := Build.yields_modify.mp hrun
  have h₀ := h.notice (.populating setup.types.length setup.blueprint.methodCount
    setup.blueprint.module)
  obtain ⟨h₁, -, hnesting, -⟩ := h₀.runAll (P := fun _ _ _ => True)
    (List.forall₂_map_right_iff.mpr (List.forall₂_same.mpr fun p hp =>
      (Stepwise.safe_populateOrRecord hresolver hp (h₀.makersOwn p hp)).imp
        (fun _ _ _ _ hmakers => ⟨trivial, hmakers⟩) fun _ _ _ _ => id)) hpopulate
  exact ⟨h₁.notice _, { hnesting with }⟩

end Grounded

/-- A build that gives an image has been through its three passes, each with success. -/
theorem passes_of_runBy {σ : Schedules} {image : Image} (hrun : setup.runBy σ = (.ok image, s)) :
    ∃ s₀ s₁ s₂,
      setup.declareTypes.Yields
        { BuildState.initial setup.config with
          notices := #[.building setup.blueprint.module setup.types.length
            setup.config.registryScope] } () s₀ ∧
      (setup.configureHierarchyBy σ).Yields s₀ () s₁ ∧
      (setup.populateMembersBy σ).Yields s₁ () s₂ ∧ image = setup.image s₂ := by
  have hrun : (setup.buildBy σ).Yields (.initial setup.config) image s := hrun
  unfold Setup.buildBy at hrun
  obtain ⟨_, s₀, htell, hrun⟩ := Build.yields_bind.mp hrun
  obtain rfl := Build.yields_modify.mp htell
  obtain ⟨_, s₀, hdeclare, hrun⟩ := Build.yields_bind.mp hrun
  obtain ⟨_, s₁, hconfigure, hrun⟩ := Build.yields_bind.mp hrun
  obtain ⟨_, s₂, hpopulate, hrun⟩ := Build.yields_bind.mp hrun
  rw [Build.yields_get_bind] at hrun
  obtain ⟨_, _, -, hpure⟩ := Build.yields_bind.mp hrun
  exact ⟨s₀, s₁, s₂, hdeclare, hconfigure, hpopulate, (Build.yields_pure.mp hpure).1.symm⟩

theorem Setup.runBy_of_isOk (setup : Setup) {σ : Schedules}
    (h : (setup.runBy σ).1.isOk = true) : ∃ image s, setup.runBy σ = (.ok image, s) := by
  rcases hrun : setup.runBy σ with ⟨_ | image, s⟩
  · rw [hrun] at h
    cases h
  · exact ⟨image, s, rfl⟩

/-- Every image comes from plans, and its types are as they were declared. -/
theorem grounded_of_runBy (hresolver : setup.resolver = Resolver.default) {σ : Schedules}
    {image : Image} (hrun : setup.runBy σ = (.ok image, s)) : ∃ s₀ s₁, Declared setup s₀ ∧
      SameNesting s₀ s₁ ∧ Grounded setup s₁ ∧ image = setup.image s₁ := by
  obtain ⟨s₀, s₁, s₂, hdeclare, hconfigure, hpopulate, rfl⟩ := passes_of_runBy hrun
  have hdeclared : Declared setup s₀ := declared_of_yields hdeclare
  obtain ⟨h₁, hnesting₁⟩ := hdeclared.grounded.configureHierarchyBy hresolver hconfigure
  obtain ⟨h₂, hnesting₂⟩ := h₁.populateMembersBy hresolver hpopulate
  exact ⟨s₀, s₂, hdeclared, hnesting₁.trans hnesting₂, h₂, rfl⟩

end ClrImage
