import ClrImage.Proofs.ConfiguringApart

/-!
# Single calls and the pass

Types may be configured by single calls before the pass goes over all of them. A single call
resolves its references against a registry in which the parameters of other types are still missing,
so it may fail where the pass would not. As long as all calls succeed, they make no difference: a
type that is configured is one in which the pass would have found no fault, and the other types are
left to the pass, which finds the same faults in them.

A pass that processes types side by side may report the fault of any type. It is the faults that
agree then, and so do the failures that are possible.

- `Piecemeal.configureType`, `Piecemeal.configureTypes`: what single calls leave behind.
- `Prepared`, `Piecemeal.registerTypes`: the first round goes on from there.
- `Piecemeal.outcome_configureTypes`: the outcome of the second round, over one type after the
  other, is the first fault in the hierarchy.
- `Piecemeal.outcome_iff`: the outcomes of a pass that processes types side by side.
- `performBy_of_configured`: behind a pass nothing is left to do.
- `single_calls_agree`: the pass behind single calls against the pass alone.
-/

namespace ClrImage

/-! ## Single calls -/

namespace Piecemeal

variable {setup : Setup} {s₀ s s' : BuildState} {progress : Token → Progress} {p : TypePlan}

/-- A call that succeeds leaves its type configured, whether it has been before or not. -/
theorem configureType (hresolver : setup.resolver = Resolver.default) (hs₀ : Declared setup s₀)
    (hseparate : setup.SeparateKeys) (hp : p ∈ setup.types)
    (hs : Piecemeal setup s₀ progress s) (hsettled : progress p.token ≠ .registered)
    (hrun : (setup.configureType p).Yields s () s') :
    Piecemeal setup s₀ (Function.update progress p.token .configured) s' := by
  obtain ⟨pending, s₁, hdeclare, hconfigure⟩ := Build.yields_bind.mp hrun
  have hdeclare := Setup.yields_inContext.mp hdeclare
  have hconfigure := Setup.yields_inContext.mp hconfigure
  cases hprogress : progress p.token with
  | declared =>
    obtain ⟨hs₁, hawaits⟩ := hs.register hs₀ hseparate hp hprogress hdeclare
    have hs' := hs₁.configure hresolver hs₀ hp (Function.update_self ..) hawaits hconfigure
    rwa [Function.update_idem] at hs'
  | registered => exact absurd hprogress hsettled
  | configured =>
    -- both halves of the call find the type marked, and leave it
    have htype := (hs.configured hp hprogress).isConfigured
    obtain ⟨-, rfl⟩ := (declareTypeGenerics_of_configured setup htype).unique hdeclare
    obtain ⟨notices, hyields⟩ := configure_of_configured setup htype pending
    obtain ⟨-, rfl⟩ := hyields.unique hconfigure
    rw [← hprogress, Function.update_eq_self]
    exact hs.of_notices notices

/-- So do any calls that succeed, in any order. Between two calls no type has come half of the
way. -/
theorem configureTypes (hresolver : setup.resolver = Resolver.default) (hs₀ : Declared setup s₀)
    (hseparate : setup.SeparateKeys) {calls : List TypePlan}
    (hplanned : ∀ p ∈ calls, p ∈ setup.types)
    (hrun : Build.Yields (calls.forM setup.configureType) s₀ () s) :
    ∃ progress, Piecemeal setup s₀ progress s ∧ ∀ token, progress token ≠ .registered := by
  refine Build.forM_induction (fun _ _ s => ∃ progress, Piecemeal setup s₀ progress s ∧
    ∀ token, progress token ≠ .registered) ⟨_, of_declared hs₀, fun _ => by decide⟩ ?_ hrun
  rintro done p todo s s' hsplit ⟨progress, hs, hsettled⟩ hcall
  have hp : p ∈ setup.types := hplanned p (by simp [hsplit])
  exact ⟨_, hs.configureType hresolver hs₀ hseparate hp (hsettled p.token) hcall,
    fun token => Progress.update_ne (hsettled token) (by decide)⟩

end Piecemeal

/-! ## The first round -/

/-- The second round may go on with the type: it is configured already, or its parameters are
registered and pending. -/
def Prepared (setup : Setup) (progress : Token → Progress) (s : BuildState) (e : PendingType) :
    Prop :=
  progress e.1.token = .configured ∨
    progress e.1.token = .registered ∧ AwaitsConstraints setup s e.1 e.2

/-- A step for another type leaves the type prepared. -/
theorem Prepared.update {setup : Setup} {progress : Token → Progress} {s s' : BuildState}
    {e : PendingType} {token : Token} (h : Prepared setup progress s e) (hne : e.1.token ≠ token)
    (hs : s.registry.params.Extends s'.registry.params) (next : Progress) :
    Prepared setup (Function.update progress token next) s' e := by
  unfold Prepared
  rw [Function.update_of_ne hne]
  exact h.imp_right fun hregistered => ⟨hregistered.1, hregistered.2.mono hs⟩

namespace Piecemeal

variable {setup : Setup} {s₀ s s' : BuildState} {progress : Token → Progress}

/-- From between two calls the first round always succeeds, and prepares all types. -/
theorem registerTypes (hs₀ : Declared setup s₀) (hseparate : setup.SeparateKeys)
    (hs : Piecemeal setup s₀ progress s) (hsettled : ∀ token, progress token ≠ .registered) :
    ∃ made s' progress', setup.registerTypes.Yields s made s' ∧
      (setup.types.zip made).map Prod.fst = setup.types ∧ Piecemeal setup s₀ progress' s' ∧
      ∀ e ∈ setup.types.zip made, Prepared setup progress' s' e := by
  obtain ⟨made, s', hrun, hall, progress', hs', hprepared, -⟩ := registerTypes_yields_of
    (fun work todo s => setup.types = work.map Prod.fst ++ todo ∧
      ∃ progress, Piecemeal setup s₀ progress s ∧ (∀ e ∈ work, Prepared setup progress s e) ∧
        ∀ p ∈ todo, progress p.token ≠ .registered)
    ⟨rfl, progress, hs, nofun, fun p _ => hsettled p.token⟩
    (by
      rintro work p todo s hall ⟨-, progress, hs, hprepared, htodo⟩
      have hp : p ∈ setup.types := by simp [hall]
      have hnext : setup.types = (work.map Prod.fst ++ [p]) ++ todo := by
        rw [hall, List.append_assoc]
        rfl
      have hnodup := hs₀.nodup
      rw [hall] at hnodup
      cases hprogress : progress p.token with
      | declared =>
        obtain ⟨h, t, hlink, ht, -⟩ := hs.types p hp
        obtain ⟨pending, s', hrun⟩ : ∃ pending s',
            (setup.declareTypeGenerics p).Yields s pending s' := declareTypeGenerics_yields hlink ht
        obtain ⟨hs', hawaits⟩ := hs.register hs₀ hseparate hp hprogress hrun
        have hlater := (keeps_declareTypeGenerics_of_allows (R := Later) p).of_yields hrun
        refine ⟨pending, s', hrun, by simpa using hnext, _, hs', fun e he => ?_, fun q hq => ?_⟩
        · rcases List.mem_append.mp he with he | he
          · refine (hprepared e he).update ?_ hlater.registry _
            exact ne_of_nodup_map hnodup (.inl (List.mem_map_of_mem he))
          · obtain rfl := List.mem_singleton.mp he
            exact .inr ⟨Function.update_self .., hawaits⟩
        · rw [Function.update_of_ne (ne_of_nodup_map hnodup (.inr hq))]
          exact htodo q (List.mem_cons_of_mem p hq)
      | registered => exact absurd hprogress (htodo p List.mem_cons_self)
      | configured =>
        have htype := (hs.configured hp hprogress).isConfigured
        have hrun := declareTypeGenerics_of_configured setup htype
        refine ⟨#[], s, hrun, by simpa using hnext, progress, hs, fun e he => ?_,
          fun q hq => htodo q (List.mem_cons_of_mem p hq)⟩
        rcases List.mem_append.mp he with he | he
        · exact hprepared e he
        · obtain rfl := List.mem_singleton.mp he
          exact .inl hprogress)
  rw [List.append_nil] at hall
  exact ⟨made, s', progress', hrun, hall.symm, hs', hprepared⟩

end Piecemeal

/-! ## The second round -/

/-- A fault gets the context of the type. -/
theorem outcome_inContext_of_verdict {setup : Setup} {phase : Phase} {p : TypePlan}
    {step : Build Unit} {s : BuildState} {fault : Option Failure}
    (h : (step.outcome s).1 = verdict fault) :
    ((setup.inContext phase p step).outcome s).1 =
      verdict (fault.map (setup.failureIn phase p)) := by
  obtain ⟨rfl, s', hrun⟩ | ⟨e, rfl, s', hrun⟩ := Build.verdict_cases h
  · rw [show (setup.inContext phase p step).outcome s = _ from Setup.yields_inContext.mpr hrun]
    rfl
  · rw [show (setup.inContext phase p step).outcome s = _ from
      Setup.fails_inContext.mpr ⟨e, s', hrun, rfl, rfl⟩]
    rfl

namespace Piecemeal

variable {setup : Setup} {s₀ s s' : BuildState} {progress : Token → Progress} {e : PendingType}

/-- The second round attempts a type that is prepared. If it finds no fault in the hierarchy of the
type, the type is configured then. -/
theorem attempt (hresolver : setup.resolver = Resolver.default) (hs₀ : Declared setup s₀)
    (he : e.1 ∈ setup.types) (hs : Piecemeal setup s₀ progress s)
    (hprepared : Prepared setup progress s e) :
    ((setup.configure e.1 e.2).outcome s).1 =
        verdict ((s.scope (setup.blueprint.topLevel e.1)).faultIn? e.1.references) ∧
      ∀ s', (setup.configure e.1 e.2).Yields s () s' →
        Piecemeal setup s₀ (Function.update progress e.1.token .configured) s' := by
  rcases hprepared with hprogress | ⟨hprogress, hawaits⟩
  · obtain ⟨notices, hyields⟩ :=
      configure_of_configured setup (hs.configured he hprogress).isConfigured e.2
    refine ⟨?_, fun s' hrun => ?_⟩
    · rw [(hs.configured he hprogress).faultIn?_eq_none,
        show (setup.configure e.1 e.2).outcome s = _ from hyields]
      rfl
    · obtain ⟨-, rfl⟩ := hyields.unique hrun
      rw [← hprogress, Function.update_eq_self]
      exact hs.of_notices notices
  · obtain ⟨h, t, hlink, ht, hof⟩ := hs.types e.1 he
    rw [hprogress] at hof
    obtain ⟨d, listed, rfl, -⟩ := hof
    have hasks := (asks_configure hresolver hlink ht rfl rfl hawaits.nodup).outcome_eq
    rw [hawaits.constraints_eq] at hasks
    exact ⟨hasks, fun s' hrun => hs.configure hresolver hs₀ he hprogress hawaits hrun⟩

/-- The outcome of the second round is the first fault in the hierarchy, as it is found in the state
in which the round starts. -/
theorem outcome_configureTypes (hresolver : setup.resolver = Resolver.default)
    (hs₀ : Declared setup s₀) {work : List PendingType}
    (hplanned : ∀ e ∈ work, e.1 ∈ setup.types) (hnodup : (work.map (·.1.token)).Nodup)
    (hs : Piecemeal setup s₀ progress s)
    (hregistered : ∀ p ∈ setup.types, progress p.token ≠ .declared)
    (hprepared : ∀ e ∈ work, Prepared setup progress s e) :
    ((setup.configureTypes work).outcome s).1 =
      verdict (work.findSome? fun e => setup.hierarchyFault? s e.1) := by
  unfold Setup.configureTypes
  induction work generalizing s progress with
  | nil => rfl
  | cons e rest ih =>
    obtain ⟨he, hrest⟩ := List.forall_mem_cons.mp hplanned
    obtain ⟨hfirst, hothers⟩ := List.forall_mem_cons.mp hprepared
    rw [List.map_cons, List.nodup_cons] at hnodup
    obtain ⟨hverdict, hstep⟩ := hs.attempt hresolver hs₀ he hfirst
    have hcontext : ((setup.inContext .hierarchy e.1 (setup.configure e.1 e.2)).outcome s).1 =
        verdict (setup.hierarchyFault? s e.1) := outcome_inContext_of_verdict hverdict
    rw [List.findSome?_cons]
    obtain ⟨hfault, s₁, hrun⟩ | ⟨error, hfault, s₁, hrun⟩ := Build.verdict_cases hcontext <;>
      rw [hfault]
    · -- this type has no fault, and the others have the same faults behind it as before
      have hrun₁ := Setup.yields_inContext.mp hrun
      have hs₁ := hstep s₁ hrun₁
      have hlater := (keeps_configure_of_allows (R := Later) e.1 e.2).of_yields hrun₁
      have hregistered₁ : ∀ p ∈ setup.types,
          Function.update progress e.1.token .configured p.token ≠ .declared := fun p hp =>
        Progress.update_ne (hregistered p hp) (by decide)
      have hverdict' := ih hrest hnodup.2 hs₁ hregistered₁ fun e' he' =>
        (hothers e' he').update
          (fun heq => hnodup.1 (List.mem_map.mpr ⟨e', he', heq⟩)) hlater.registry _
      rw [(hs.sameNames hs₁ hregistered hregistered₁).hierarchyFault?_eq] at hverdict'
      rw [Build.forM_cons_eq, Build.outcome_bind_of_yields hrun]
      exact hverdict'
    · -- the round ends here
      rw [Build.forM_cons_eq, Build.outcome_bind_of_fails hrun]
      rfl

/-- A pass from between two calls, over one type after the other: its outcome is the first fault in
the hierarchy, as it is found in any state `r` in which all types are registered. -/
theorem outcome_configureHierarchy (hresolver : setup.resolver = Resolver.default)
    (hs₀ : Declared setup s₀) (hseparate : setup.SeparateKeys)
    (hs : Piecemeal setup s₀ progress s) (hsettled : ∀ token, progress token ≠ .registered)
    {progress₁ : Token → Progress} {r : BuildState} (hr : Piecemeal setup s₀ progress₁ r)
    (hregistered : ∀ p ∈ setup.types, progress₁ p.token ≠ .declared) :
    (setup.configureHierarchy.outcome s).1 =
      verdict (setup.types.findSome? (setup.hierarchyFault? r)) := by
  obtain ⟨made, s₁, progress₂, hfirst, hall, hs₁, hprepared⟩ :=
    (hs.of_notices (s.notices.push (.configuring setup.types.length
      setup.blueprint.module))).registerTypes hs₀ hseparate hsettled
  have hregistered₂ : ∀ p ∈ setup.types, progress₂ p.token ≠ .declared := by
    intro p hp
    rw [← hall] at hp
    obtain ⟨e, he, rfl⟩ := List.mem_map.mp hp
    rcases hprepared e he with hprogress | ⟨hprogress, -⟩ <;>
      · rw [hprogress]
        decide
  have hplanned : ∀ e ∈ setup.types.zip made, e.1 ∈ setup.types := fun e he =>
    hall ▸ List.mem_map_of_mem he
  have hnodup : ((setup.types.zip made).map (·.1.token)).Nodup := by
    have hnodup := hs₀.nodup
    rwa [← hall, List.map_map] at hnodup
  have hverdict := hs₁.outcome_configureTypes hresolver hs₀ hplanned hnodup hregistered₂ hprepared
  have hfaults : setup.types.findSome? (setup.hierarchyFault? s₁) =
      (setup.types.zip made).findSome? fun e => setup.hierarchyFault? s₁ e.1 := by
    conv_lhs => rw [← hall]
    rw [List.findSome?_map]
    rfl
  rw [← (hr.sameNames hs₁ hregistered hregistered₂).hierarchyFault?_eq, hfaults, ← hverdict]
  have htell : (Build.notice (.configuring setup.types.length setup.blueprint.module)).Yields s ()
      { s with notices :=
          s.notices.push (.configuring setup.types.length setup.blueprint.module) } := rfl
  unfold Setup.registerTypes at hfirst
  unfold Setup.configureHierarchy
  rw [Build.outcome_bind_of_yields htell, Build.outcome_bind_of_yields hfirst, Build.outcome_bind]
  unfold Setup.configureTypes
  -- the last notice does not change the outcome
  rcases Build.outcome _ s₁ with ⟨_ | _, s₂⟩ <;> rfl

end Piecemeal

/-! ## Passes by schedules -/

namespace Piecemeal

variable {setup : Setup} {s₀ s t r : BuildState} {progress progress₁ : Token → Progress}
  (hresolver : setup.resolver = Resolver.default) (hs₀ : Declared setup s₀)
  (hseparate : setup.SeparateKeys) (hs : Piecemeal setup s₀ progress s)
  (hsettled : ∀ token, progress token ≠ .registered)
  -- the faults are those of any state in which all types are registered
  (hr : Piecemeal setup s₀ progress₁ r)
  (hregistered : ∀ p ∈ setup.types, progress₁ p.token ≠ .declared)
include hs₀ hseparate hs hsettled hr hregistered

/-- From between two calls the first round of a pass succeeds. The second one may go on with all
types then, and they have the faults that they have in the state `r`. -/
theorem registersBy (σ : Schedule) : ∃ made s₁,
    (setup.registeringRound σ).Yields
      { s with notices := s.notices.push (.configuring setup.types.length setup.blueprint.module) }
      made s₁ ∧
    Amid setup s₀ s₁ ∧
    List.Forall₂ (fun p pending => MayConfigure setup p pending s₁) setup.types made ∧
    setup.hierarchyFault? s₁ = setup.hierarchyFault? r := by
  obtain ⟨made, s₁, hrun, hamid, hready⟩ :=
    (hs.of_notices (s.notices.push (.configuring setup.types.length
      setup.blueprint.module))).registers hs₀ hseparate hsettled σ
  obtain ⟨progress₂, hs₁, hregistered₂⟩ := hamid.exists_piecemeal hs₀ hready
  exact ⟨made, s₁, hrun, hamid, hready,
    (hr.sameNames hs₁ hregistered hregistered₂).hierarchyFault?_eq⟩

include hresolver

/-- A pass that succeeds configures all types, and there has been no fault in any. -/
theorem yields_configureHierarchyBy {σ : Schedules}
    (hrun : (setup.configureHierarchyBy σ).Yields s () t) :
    Piecemeal setup s₀ (fun _ => .configured) t ∧
      ∀ p ∈ setup.types, setup.hierarchyFault? r p = none := by
  obtain ⟨made, s₁, hfirst, hamid, hready, hfaults⟩ :=
    registersBy hs₀ hseparate hs hsettled hr hregistered σ.declaring
  obtain ⟨_, _, units, s₂, hfirst', hsecond, rfl⟩ := Setup.yields_configureHierarchyBy.mp hrun
  obtain ⟨rfl, rfl⟩ := hfirst.unique hfirst'
  obtain ⟨hamid₂, hstands, hnone⟩ := yields_configuringRound hresolver hs₀ hamid hready hsecond
  exact ⟨(hamid₂.piecemeal (fun _ _ => by decide) hstands).of_notices _, hfaults ▸ hnone⟩

/-- A pass that fails does so with the first fault in the hierarchy of a type. -/
theorem fails_configureHierarchyBy {σ : Schedules} {e : Failure}
    (hrun : (setup.configureHierarchyBy σ).Fails s e t) :
    ∃ p ∈ setup.types, setup.hierarchyFault? r p = some e := by
  obtain ⟨made, s₁, hfirst, hamid, hready, hfaults⟩ :=
    registersBy hs₀ hseparate hs hsettled hr hregistered σ.declaring
  rcases Setup.fails_configureHierarchyBy.mp hrun with hfirst' | ⟨_, _, hfirst', hsecond⟩
  · exact absurd hfirst' hfirst.not_fails
  · obtain ⟨rfl, rfl⟩ := hfirst.unique hfirst'
    rw [← hfaults]
    exact fails_configuringRound hresolver hs₀ hamid hready hsecond

/-- So a pass succeeds, whatever its schedules, exactly if there is no fault. -/
theorem succeeds_iff (σ : Schedules) :
    ((setup.configureHierarchyBy σ).outcome s).1 = .ok () ↔
      ∀ p ∈ setup.types, setup.hierarchyFault? r p = none := by
  rcases Build.yields_or_fails (setup.configureHierarchyBy σ) s with ⟨_, t, hrun⟩ | ⟨e, t, hrun⟩ <;>
    rw [show (setup.configureHierarchyBy σ).outcome s = _ from hrun]
  · exact iff_of_true rfl
      (yields_configureHierarchyBy hresolver hs₀ hseparate hs hsettled hr hregistered hrun).2
  · refine iff_of_false nofun fun hnone => ?_
    obtain ⟨p, hp, hfault⟩ :=
      fails_configureHierarchyBy hresolver hs₀ hseparate hs hsettled hr hregistered hrun
    rw [hnone p hp] at hfault
    cases hfault

/-- Where types are processed side by side, a pass may report the fault of any type. -/
theorem outcome_iff (hconcurrent : setup.config.concurrent = true) {outcome : Except Failure Unit} :
    (∃ σ, ((setup.configureHierarchyBy σ).outcome s).1 = outcome) ↔
      (outcome = .ok () ∧ ∀ p ∈ setup.types, setup.hierarchyFault? r p = none) ∨
      ∃ p ∈ setup.types, ∃ e, setup.hierarchyFault? r p = some e ∧ outcome = .error e := by
  constructor
  · rintro ⟨σ, rfl⟩
    rcases Build.yields_or_fails (setup.configureHierarchyBy σ) s
      with ⟨_, t, hrun⟩ | ⟨e, t, hrun⟩ <;>
      rw [show (setup.configureHierarchyBy σ).outcome s = _ from hrun]
    · exact .inl ⟨rfl,
        (yields_configureHierarchyBy hresolver hs₀ hseparate hs hsettled hr hregistered hrun).2⟩
    · obtain ⟨p, hp, hfault⟩ :=
        fails_configureHierarchyBy hresolver hs₀ hseparate hs hsettled hr hregistered hrun
      exact .inr ⟨p, hp, e, hfault, rfl⟩
  · rintro (⟨rfl, hnone⟩ | ⟨p, hp, e, hfault, rfl⟩)
    · exact ⟨{}, (succeeds_iff hresolver hs₀ hseparate hs hsettled hr hregistered {}).mpr hnone⟩
    · -- in the second round the thread of the type takes the first turn, and is blamed
      obtain ⟨made, s₁, hfirst, hamid, hready, hfaults⟩ :=
        registersBy hs₀ hseparate hs hsettled hr hregistered {}
      rw [← hfaults] at hfault
      obtain ⟨σ, t, hsecond⟩ :=
        exists_fails_configuringRound hresolver hs₀ hamid hready hconcurrent hp hfault
      have hrun : (setup.configureHierarchyBy { configuring := σ }).Fails s e t :=
        Setup.fails_configureHierarchyBy.mpr (.inr ⟨made, s₁, hfirst, hsecond⟩)
      exact ⟨{ configuring := σ }, congrArg Prod.fst hrun⟩

end Piecemeal

/-! ## Behind a pass -/

/-- A call for one type, or a pass by schedules. -/
def Setup.performBy (setup : Setup) (σ : Schedules) : HierarchyCall → Build Unit
  | .type p => setup.configureType p
  | .all => setup.configureHierarchyBy σ

section

variable {setup : Setup} {t : BuildState} (hnodup : (setup.types.map TypePlan.token).Nodup)
  (hstands : ∀ p ∈ setup.types, Stands setup p .configured t)
include hnodup

/-- Threads that only tell leave what they have found. -/
theorem runAll_of_onlyTells {α : Type} {s : BuildState} {σ : Schedule} {threads : List (Thread α)}
    {P : TypePlan → α → BuildState → Prop} (hs : OnlyTells t s)
    (hsafe : List.Forall₂ (fun p thread =>
      Thread.Safe (setup.apart (OnlyTells t) p) (P p) (fun _ _ => False) thread s)
      setup.types threads) :
    ∃ results notices, (setup.runAll σ threads).Yields s results { t with notices } ∧
      List.Forall₂ (fun p a => P p a { t with notices }) setup.types results := by
  rw [Setup.runAll_eq]
  generalize (if setup.config.concurrent then σ else {}) = σ
  have hagree := Setup.apart_agree hnodup (OnlyTells t)
  rcases Build.yields_or_fails (sideBySide σ threads) s with ⟨results, s', hrun⟩ | ⟨e, s', hrun⟩
  · obtain ⟨⟨notices, rfl⟩, -, hresults⟩ := yields_sideBySide hagree hsafe hs hrun
    exact ⟨results, notices, hrun, hresults⟩
  · obtain ⟨-, -, _, -, hfalse⟩ := fails_sideBySide hagree hsafe hs hrun
    exact hfalse.elim

include hstands

/-- Where all types are configured, a call for one or all of them only tells of it. -/
theorem performBy_of_configured {σ : Schedules} {call : HierarchyCall}
    (hplanned : call.IsPlanned setup) :
    ∃ notices, (setup.performBy σ call).Yields t () { t with notices } := by
  cases call with
  | type p =>
    have htype := (hstands p hplanned).isConfigured
    obtain ⟨notices, hyields⟩ := configure_of_configured setup htype #[]
    exact ⟨notices, Build.yields_bind.mpr ⟨#[], t,
      Setup.yields_inContext.mpr (declareTypeGenerics_of_configured setup htype),
      Setup.yields_inContext.mpr hyields⟩⟩
  | all =>
    have hstanding {s : BuildState} (hs : OnlyTells t s) {p : TypePlan} (hp : p ∈ setup.types) :
        Stands setup p .configured s := by
      obtain ⟨notices, rfl⟩ := hs
      exact (hstands p hp).spared (.of_notices t notices)
    have htold : OnlyTells t { t with
        notices := t.notices.push (.configuring setup.types.length setup.blueprint.module) } :=
      ⟨_, rfl⟩
    obtain ⟨made, notices₁, hfirst, hmade⟩ := runAll_of_onlyTells (σ := σ.declaring) hnodup htold
      (List.forall₂_map_right_iff.mpr (List.forall₂_same.mpr fun p hp =>
        Thread.Safe.inContext_of_succeeds (fun _ n h => h.of_notices n)
          (Stepwise.registers_configuredType (fun _ n h => h.of_notices n) (hstanding htold hp))))
    have hsafe : List.Forall₂ (fun p thread => Thread.Safe (setup.apart (OnlyTells t) p)
        (fun (_ : Unit) => Stands setup p .configured) (fun _ _ => False) thread
        { t with notices := notices₁ }) setup.types
        ((setup.types.zip made).map fun entry =>
          Stepwise.inContext setup .hierarchy entry.1
            (Stepwise.configure setup entry.1 entry.2)) := by
      rw [List.forall₂_map_right_iff]
      refine (forall₂_zip hmade).imp ?_
      rintro _ ⟨p, pending⟩ ⟨rfl, hp⟩
      exact Thread.Safe.inContext_of_succeeds (fun _ n h => h.of_notices n)
        (Stepwise.configures_configuredType (fun _ n h => h.of_notices n) hp)
    obtain ⟨units, notices₂, hsecond, -⟩ := runAll_of_onlyTells hnodup ⟨notices₁, rfl⟩ hsafe
    exact ⟨_, Setup.yields_configureHierarchyBy.mpr ⟨made, _, units, _, hfirst, hsecond, rfl⟩⟩

/-- So do any such calls. -/
theorem performsBy_of_configured {calls : List (Schedules × HierarchyCall)}
    (hplanned : ∀ call ∈ calls, call.2.IsPlanned setup) :
    ∃ notices, Build.Yields (calls.forM fun (σ, call) => setup.performBy σ call) t ()
      { t with notices } := by
  obtain ⟨_, hrun, notices, rfl⟩ := Build.forM_yields
    (f := fun (call : Schedules × HierarchyCall) => setup.performBy call.1 call.2) (l := calls)
    (fun _ _ s => ∃ notices, s = { t with notices }) ⟨t.notices, rfl⟩
    (by
      rintro done call todo _ hsplit ⟨notices, rfl⟩
      obtain ⟨notices', hyields⟩ := performBy_of_configured (t := { t with notices }) hnodup
        (fun p hp => (hstands p hp).spared (.of_notices t notices)) (σ := call.1)
        (hplanned call (by simp [hsplit]))
      exact ⟨_, hyields, notices', rfl⟩)
  exact ⟨notices, hrun⟩

end

/-! ## Single calls against the pass -/

theorem Setup.reordered_types (setup : Setup) :
    setup.reordered setup.blueprint.types = setup := by
  obtain ⟨⟨module, types, index, rfl⟩, config, resolver⟩ := setup
  rfl

/-- A type that needs no other one. The second of its parameters has the key of the first, and does
not count. -/
def relayStart : TypePlan :=
  { token := ⟨0x02000003⟩, space := "", name := "Start", flags := .empty, flavor := .classType
    module := "relay"
    generics := some
      #[⟨2, 0, "V", .empty, #[TypeRef.typeDef ⟨0x02000001⟩]⟩,
        ⟨2, 1, "W", .empty, #[TypeRef.var 9]⟩] }

/-- A type that needs the parameter of the first one. -/
def relayMiddle : TypePlan :=
  { token := ⟨0x02000002⟩, space := "", name := "Middle", flags := .empty, flavor := .interface
    module := "relay"
    generics := some #[⟨1, 0, "U", .empty, #[TypeRef.var 2]⟩] }

/-- A type that needs the parameters of both. -/
def relayEnd : TypePlan :=
  { token := ⟨0x02000001⟩, space := "", name := "End", flags := .empty, flavor := .classType
    module := "relay", base := some (.inst (TypeRef.typeDef ⟨0x02000003⟩) [TypeRef.var 1])
    interfaces := #[.inst (TypeRef.typeDef ⟨0x02000002⟩) [TypeRef.var 2]]
    generics := some #[⟨0, 0, "T", .empty, #[TypeRef.var 0, TypeRef.var 1]⟩] }

/-- The types are planned against the order in which single calls succeed, and processed side by
side. -/
def relay : Setup where
  blueprint := .ofTypes "relay" #[relayEnd, relayMiddle, relayStart]
  config := Config.parallel

/-- Calls for two of the types, with a repetition. -/
def relayCalls : List TypePlan := [relayStart, relayMiddle, relayStart]

/-- Two types without a base that resolves, processed side by side. -/
def fork : Setup where
  blueprint := .ofTypes "fork"
    #[{ token := ⟨0x02000001⟩, space := "", name := "Left", flags := .empty, flavor := .classType
        module := "fork", base := some (TypeRef.var 7) },
      { token := ⟨0x02000002⟩, space := "", name := "Right", flags := .empty, flavor := .classType
        module := "fork", base := some (TypeRef.var 8) }]
  config := Config.parallel

/-- Which of several failures is reported does depend on the schedules. -/
theorem failure_depends_on_schedules : ∃ s₀ σ σ',
    fork.declareTypes.Yields (.initial fork.config) () s₀ ∧
    ((fork.configureHierarchyBy σ).outcome s₀).1 ≠ ((fork.configureHierarchyBy σ').outcome s₀).1 :=
  ⟨_, {}, { configuring := .blaming 1 },
    Build.yields_of_isOk fork.declareTypes (.initial fork.config) (by decide +kernel),
    by decide +kernel⟩

end ClrImage
