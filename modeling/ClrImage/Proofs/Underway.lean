import ClrImage.Proofs.Attempts
import Mathlib.Data.List.Nodup

/-!
# Calls to configure types

Types can be configured one at a time or all at once, and a call that fails can be made again. This
module takes calls apart into what they do to single types, and says what holds within any of them.

- `HierarchyCall`, `Setup.performAll`: the calls, and any sequence of them.
- `perform_induction`: a call registers the parameters of some types and then attempts these types
  one after the other, up to the first failure.
- `Underway`: the invariant of all calls. What is pending within a call has been made by that call.
- `Underway.perform_induction`: what the effects of the parts preserve, a call preserves.
-/

namespace ClrImage

/-! ## Calls -/

/-- A call to configure one type or all of them. -/
inductive HierarchyCall
  | type (p : TypePlan)
  | all

/-- The call is for types of the blueprint. -/
def HierarchyCall.IsPlanned (setup : Setup) : HierarchyCall → Prop
  | .type p => p ∈ setup.types
  | .all => True

namespace Setup

def perform (setup : Setup) : HierarchyCall → Build Unit
  | .type p => setup.configureType p
  | .all => setup.configureHierarchy

/-- The state behind some calls. Each one is made in the state that the one before it leaves, also
if that one has failed. -/
def performAll (setup : Setup) (s : BuildState) (calls : List HierarchyCall) : BuildState :=
  calls.foldl (fun s call => ((setup.perform call).outcome s).2) s

theorem performAll_append (setup : Setup) (s : BuildState) (calls later : List HierarchyCall) :
    setup.performAll s (calls ++ later) = setup.performAll (setup.performAll s calls) later :=
  List.foldl_append

/-- Putting a failure in context only tells it. -/
theorem outcome_inContext_snd {α : Type} (setup : Setup) (phase : Phase) (p : TypePlan)
    (step : Build α) (s : BuildState) :
    ∃ notices, ((setup.inContext phase p step).outcome s).2 =
      { (step.outcome s).2 with notices } := by
  rcases Build.yields_or_fails step s with ⟨a, s', hrun⟩ | ⟨e, s', hrun⟩
  · rw [(yields_inContext.mpr hrun).outcome_snd, hrun.outcome_snd]
    exact ⟨s'.notices, rfl⟩
  · rw [(fails_inContext.mpr ⟨e, s', hrun, rfl, rfl⟩).outcome_snd, hrun.outcome_snd]
    exact ⟨_, rfl⟩

end Setup

/-! ## A whole call -/

/-- What each attempt preserves holds behind a round of attempts, which ends with the first one that
fails. -/
theorem outcome_configureTypes_induction {setup : Setup} {J : List PendingType → BuildState → Prop}
    (attempt : ∀ e rest s, J (e :: rest) s → J rest ((setup.configure e.1 e.2).outcome s).2)
    (notice : ∀ work s notices, J work s → J work { s with notices }) {work : List PendingType}
    {s : BuildState} (start : J work s) :
    ∃ rest, J rest ((setup.configureTypes work).outcome s).2 := by
  unfold Setup.configureTypes
  induction work generalizing s with
  | nil => exact ⟨[], start⟩
  | cons e rest ih =>
    have hstep := attempt e rest s start
    rw [Build.forM_cons_eq]
    rcases Build.yields_or_fails (setup.inContext .hierarchy e.1 (setup.configure e.1 e.2)) s with
      ⟨_, s₁, hrun⟩ | ⟨failure, s₁, hrun⟩
    · rw [(Setup.yields_inContext.mp hrun).outcome_snd] at hstep
      rw [Build.outcome_bind_of_yields hrun]
      exact ih hstep
    · obtain ⟨notices, hnotices⟩ :=
        setup.outcome_inContext_snd .hierarchy e.1 (setup.configure e.1 e.2) s
      rw [Build.outcome_bind_of_fails hrun]
      rw [hrun.outcome_snd] at hnotices
      exact ⟨rest, hnotices ▸ notice rest _ notices hstep⟩

/-- A call registers the parameters of one type or of all types, and then attempts those types one
after the other. What the first part preserves is `I`, and what the attempts preserve is `J`. -/
theorem perform_induction {setup : Setup} (hnodup : (setup.types.map TypePlan.token).Nodup)
    {call : HierarchyCall} (hplanned : call.IsPlanned setup) {s : BuildState}
    {I J : List PendingType → BuildState → Prop}
    (linked : ∀ work s, I work s → ∀ p ∈ setup.types, s.TypeOf p fun _ => True)
    (start : ∀ notices, I [] { s with notices })
    (register : ∀ work p pending s s', p ∈ setup.types → (∀ e ∈ work, e.1.token ≠ p.token) →
      I work s → (setup.declareTypeGenerics p).Yields s pending s' → I (work ++ [(p, pending)]) s')
    (turn : ∀ work s, I work s → J work s)
    (attempt : ∀ e rest s, J (e :: rest) s → J rest ((setup.configure e.1 e.2).outcome s).2)
    (notice : ∀ work s notices, J work s → J work { s with notices }) :
    ∃ rest, J rest ((setup.perform call).outcome s).2 := by
  have registers {work : List PendingType} {s₁ : BuildState} {p : TypePlan} (hp : p ∈ setup.types)
      (hI : I work s₁) : ∃ pending s₂, (setup.declareTypeGenerics p).Yields s₁ pending s₂ := by
    obtain ⟨h, t, hlink, ht, -⟩ := linked work s₁ hI p hp
    exact declareTypeGenerics_yields hlink ht
  cases call with
  | type p =>
    have hstart : I [] s := start s.notices
    obtain ⟨pending, s₁, hrun⟩ := registers hplanned hstart
    have hJ := turn _ _ (register [] p pending s s₁ hplanned (by simp) hstart hrun)
    obtain ⟨notices, hnotices⟩ :=
      setup.outcome_inContext_snd .hierarchy p (setup.configure p pending) s₁
    refine ⟨[], ?_⟩
    unfold Setup.perform Setup.configureType
    rw [Build.outcome_bind_of_yields (Setup.yields_inContext.mpr hrun), hnotices]
    exact notice [] _ notices (attempt (p, pending) [] s₁ hJ)
  | all =>
    obtain ⟨told, htell, hstart⟩ : ∃ told, (Build.notice (.configuring setup.types.length
        setup.blueprint.module)).Yields s () told ∧ I [] told :=
      ⟨_, Build.yields_modify.mpr rfl, start _⟩
    have hround : ∃ made s₁, setup.registerTypes.Yields told made s₁ ∧
        I (setup.types.zip made) s₁ := by
      refine registerTypes_yields_of (fun work _ s => I work s) hstart
        fun work p todo s₁ hall hI => ?_
      have hp : p ∈ setup.types := by simp [hall]
      obtain ⟨pending, s₂, hrun⟩ := registers hp hI
      refine ⟨pending, s₂, hrun, register work p pending s₁ s₂ hp (fun e he => ?_) hI hrun⟩
      rw [hall] at hnodup
      exact ne_of_nodup_map hnodup (.inl (List.mem_map_of_mem he))
    obtain ⟨made, s₁, hrun, hI⟩ := hround
    obtain ⟨rest, hJ⟩ := outcome_configureTypes_induction attempt notice (turn _ _ hI)
    unfold Setup.registerTypes at hrun
    refine ⟨rest, ?_⟩
    show J rest (setup.configureHierarchy.outcome s).2
    unfold Setup.configureHierarchy
    rw [Build.outcome_bind_of_yields htell, Build.outcome_bind_of_yields hrun]
    exact Build.outcome_bind_induction (J rest) hJ fun _ s₂ _ hJ₂ => notice rest s₂ _ hJ₂

/-! ## The invariant of all calls -/

/-- Two plans of one type are the same. -/
theorem Declares.plan_injective {config : Config} {plans : List TypePlan} {s : BuildState}
    (hs : Declares config plans s) {p q : TypePlan} {h : TypeHandle} (hp : p ∈ plans)
    (hq : q ∈ plans) (hph : s.links.types.get? p.token = some h)
    (hqh : s.links.types.get? q.token = some h) : p = q :=
  List.inj_on_of_nodup_map hs.nodup hp hq (hs.token_injective hp hq hph hqh)

/-- The state is within a call that has still to attempt the types of `work`, with the parameters
that it has made for them. Between two calls there are none. -/
structure Underway (setup : Setup) (s₀ : BuildState) (work : List PendingType) (s : BuildState) :
    Prop where
  links : s.links = s₀.links
  scope : s.registry.scope = setup.config.registryScope
  linked : ∀ p ∈ setup.types, s.TypeOf p fun t => p.base = none → t.base = none
  /-- Every parameter was made for a plan of a type, and is marked only with all constraints of that
  plan. -/
  made : ∀ h x, s.store.generics.get? h = some x → ∃ p ∈ setup.types, ∃ g, p.Describes g ∧
    x.MadeFor (.type p.token) g ∧
    (x.isConstrained = true → x.ConstrainedBy (s.scope (setup.blueprint.topLevel p)) g.constraints)
  planned : ∀ e ∈ work, e.1 ∈ setup.types
  distinct : (work.map fun e => e.1.token).Nodup
  pending : ∀ e ∈ work, ∀ item ∈ e.2, ∃ g x, e.1.Describes g ∧ item.constraints = g.constraints ∧
    s.store.generics.get? item.param = some x ∧ x.MadeFor (.type e.1.token) g ∧ x.Unconstrained
  nodup : (work.flatMap fun e => e.2.toList.map PendingGeneric.param).Nodup

namespace Underway

variable {setup : Setup} {s₀ s s' : BuildState} {work rest : List PendingType} {e : PendingType}

theorem of_declared (hs : Declared setup s) : Underway setup s [] s where
  links := rfl
  scope := by rw [hs.registry]
  linked p hp := by
    obtain ⟨h, d, hlink, ht⟩ := hs.linked p hp
    exact ⟨h, _, hlink, ht, fun _ => rfl⟩
  made h x hx := by
    rw [hs.store] at hx
    simp [Arena.get?] at hx
  planned := by simp
  distinct := .nil
  pending := by simp
  nodup := .nil

theorem of_notices (hs : Underway setup s₀ work s) (notices : Array Notice) :
    Underway setup s₀ work { s with notices } :=
  ⟨hs.links, hs.scope, hs.linked, hs.made, hs.planned, hs.distinct, hs.pending, hs.nodup⟩

/-- The first type is left out. -/
theorem skip (hs : Underway setup s₀ (e :: rest) s) : Underway setup s₀ rest s where
  links := hs.links
  scope := hs.scope
  linked := hs.linked
  made := hs.made
  planned e' he' := hs.planned e' (List.mem_cons_of_mem e he')
  distinct := (List.nodup_cons.mp hs.distinct).2
  pending e' he' := hs.pending e' (List.mem_cons_of_mem e he')
  nodup := (List.nodup_append.mp (List.flatMap_cons ▸ hs.nodup)).2.1

/-- When a call ends, what it had still to do is forgotten. -/
theorem forget (hs : Underway setup s₀ work s) : Underway setup s₀ [] s :=
  ⟨hs.links, hs.scope, hs.linked, hs.made, by simp, .nil, by simp, .nil⟩

/-- The parameters of the first type are not those of the others. -/
theorem param_ne (hs : Underway setup s₀ (e :: rest) s) {e' : PendingType} (he' : e' ∈ rest)
    {item item' : PendingGeneric} (hitem : item ∈ e.2) (hitem' : item' ∈ e'.2) :
    item.param ≠ item'.param := by
  have hnodup := hs.nodup
  rw [List.flatMap_cons, List.nodup_append] at hnodup
  refine hnodup.2.2 _ (List.mem_map_of_mem (Array.mem_toList_iff.mpr hitem)) _ ?_
  exact List.mem_flatMap.mpr ⟨e', he', List.mem_map_of_mem (Array.mem_toList_iff.mpr hitem')⟩

/-- A type that is still to be attempted later is not the first one. -/
theorem plan_ne (hs : Underway setup s₀ (e :: rest) s) {p : TypePlan}
    (hp : p ∈ rest.map Prod.fst) : e.1 ≠ p := by
  obtain ⟨e', he', rfl⟩ := List.mem_map.mp hp
  intro heq
  exact (List.nodup_cons.mp hs.distinct).1
    (List.mem_map.mpr ⟨e', he', congrArg TypePlan.token heq.symm⟩)

/-- The types are known in any state. -/
theorem exists_type (hs : Underway setup s₀ work s) {p : TypePlan} (hp : p ∈ setup.types)
    {h : TypeHandle} (hlink : s₀.links.types.get? p.token = some h) :
    ∃ t, s.store.types.get? h = some t ∧ (p.base = none → t.base = none) := by
  obtain ⟨h', t, hlink', ht, hbase⟩ := hs.linked p hp
  rw [hs.links] at hlink'
  obtain rfl := Option.some.inj (hlink.symm.trans hlink')
  exact ⟨t, ht, hbase⟩

/-- The parameters of another type are registered. -/
theorem register {p : TypePlan} {pending : Array PendingGeneric} (hp : p ∈ setup.types)
    (hne : ∀ e ∈ work, e.1.token ≠ p.token) (hs : Underway setup s₀ work s)
    (hr : Registering p pending s s') : Underway setup s₀ (work ++ [(p, pending)]) s' where
  links := hr.links.trans hs.links
  scope := hr.grows.registryScope.trans hs.scope
  linked q hq := by
    obtain ⟨h, t, hlink, ht, hbase⟩ := hs.linked q hq
    obtain ⟨t', ht', -⟩ := hr.grows.types h t ht
    obtain ⟨u, hu, hsame⟩ := hr.types h t' ht'
    obtain rfl := Option.some.inj (ht.symm.trans hu)
    exact ⟨h, t', by rw [hr.links, hlink], ht', fun hnone => hsame.base.trans (hbase hnone)⟩
  made h x hx := by
    cases hold : s.store.generics.get? h with
    | some y =>
      obtain ⟨q, hq, g, hdescribes, hmade, hcomplete⟩ := hs.made h y hold
      obtain ⟨x', hx', hterms⟩ := hr.generics h y hold
      obtain rfl := Option.some.inj (hx.symm.trans hx')
      refine ⟨q, hq, g, hdescribes, hmade.of_alike hterms.toAlike, fun hmarked => ?_⟩
      have hcomplete := hcomplete (hterms.isConstrained.symm.trans hmarked)
      exact (hcomplete.of_sameTerms hterms).mono (hr.grows.scope _)
    | none =>
      obtain ⟨item, hitem, rfl⟩ := hr.new h x hold hx
      obtain ⟨g, x', hdescribes, -, hx', hmade, hun⟩ := hr.made item hitem
      obtain rfl := Option.some.inj (hx.symm.trans hx')
      refine ⟨p, hp, g, hdescribes, hmade, fun hmarked => ?_⟩
      rw [hun.isConstrained] at hmarked
      cases hmarked
  planned e he := by
    rcases List.mem_append.mp he with he | he
    · exact hs.planned e he
    · exact List.mem_singleton.mp he ▸ hp
  distinct := by
    rw [List.map_append, List.map_singleton, List.nodup_append]
    refine ⟨hs.distinct, List.nodup_singleton _, ?_⟩
    rintro _ htoken _ hlast rfl
    obtain ⟨e, he, htoken⟩ := List.mem_map.mp htoken
    exact hne e he (htoken.trans (List.mem_singleton.mp hlast))
  pending e he item hitem := by
    rcases List.mem_append.mp he with he | he
    · obtain ⟨g, x, hdescribes, hconstraints, hx, hmade, hun⟩ := hs.pending e he item hitem
      obtain ⟨y, hy, hterms⟩ := hr.generics _ x hx
      exact ⟨g, y, hdescribes, hconstraints, hy, hmade.of_alike hterms.toAlike,
        hun.of_sameTerms hterms⟩
    · obtain rfl := List.mem_singleton.mp he
      exact hr.made item hitem
  nodup := by
    rw [List.flatMap_append, List.flatMap_singleton, List.nodup_append]
    refine ⟨hs.nodup, hr.nodup, ?_⟩
    rintro _ hold _ hnew rfl
    obtain ⟨e, he, hold⟩ := List.mem_flatMap.mp hold
    obtain ⟨i, hi, rfl⟩ := List.mem_map.mp hold
    obtain ⟨j, hj, heq⟩ := List.mem_map.mp hnew
    obtain ⟨g, x, -, -, hx, -⟩ := hs.pending e he i (Array.mem_toList_iff.mp hi)
    rw [← heq, hr.fresh j (Array.mem_toList_iff.mp hj)] at hx
    cases hx

section Attempt

variable {h : TypeHandle} {base : Option Signature} {extra : List Signature} {done : Bool}
  {s₁ : BuildState}

theorem grows (hs : Underway setup s₀ (e :: rest) s)
    (ha : Attempting (s.scope (setup.blueprint.topLevel e.1)) e.1 e.2 h base extra done s s₁ s') :
    s.Extends s' :=
  ha.grows fun item hitem => by
    obtain ⟨g, x, -, -, hx, -, hun⟩ := hs.pending e List.mem_cons_self item hitem
    exact ⟨x, hx, hun⟩

/-- The type behind the handle of the attempt is that of the first plan. -/
theorem plan_eq {scope : Scope} (hs₀ : Declared setup s₀) (hs : Underway setup s₀ (e :: rest) s)
    {p : TypePlan} (hp : p ∈ setup.types) (hlink : s₀.links.types.get? p.token = some h)
    (ha : Attempting scope e.1 e.2 h base extra done s s₁ s') : p = e.1 :=
  hs₀.plan_injective hp (hs.planned e List.mem_cons_self) hlink (hs.links ▸ ha.link)

/-- The first type is attempted. -/
theorem attempted (hs₀ : Declared setup s₀) (hs : Underway setup s₀ (e :: rest) s)
    (ha : Attempting (s.scope (setup.blueprint.topLevel e.1)) e.1 e.2 h base extra done s s₁ s') :
    Underway setup s₀ rest s' where
  links := ha.links.trans hs.links
  scope := (hs.grows ha).registryScope.trans hs.scope
  linked p hp := by
    obtain ⟨g, t, hg, ht, hbase⟩ := hs.linked p hp
    by_cases hgh : g = h
    · subst hgh
      obtain rfl : p = e.1 := hs.plan_eq hs₀ hp (hs.links ▸ hg) ha
      refine ⟨g, _, ha.links ▸ hg, ha.type ht, fun hnone => ?_⟩
      simp [TypeDef.attempted, ha.baseless hnone, hbase hnone]
    · exact ⟨g, t, ha.links ▸ hg, (ha.type_of_ne hgh).trans ht, hbase⟩
  made g y hy := by
    by_cases hpending : ∃ item ∈ e.2, item.param = g
    · obtain ⟨item, hitem, rfl⟩ := hpending
      obtain ⟨plan, x, hdescribes, hconstraints, hx, hmade, hun⟩ :=
        hs.pending e List.mem_cons_self item hitem
      obtain ⟨y', hy', halike, hcomplete, -⟩ := ha.attached hitem hx hun
      obtain rfl := Option.some.inj (hy.symm.trans hy')
      refine ⟨e.1, hs.planned e List.mem_cons_self, plan, hdescribes, hmade.of_alike halike,
        fun hmarked => ?_⟩
      exact hconstraints ▸ (hcomplete hmarked).mono ((hs.grows ha).scope _)
    · rw [ha.generic_of_forall_ne (by simpa using hpending)] at hy
      obtain ⟨p, hp, plan, hdescribes, hmade, hcomplete⟩ := hs.made g y hy
      exact ⟨p, hp, plan, hdescribes, hmade,
        fun hmarked => (hcomplete hmarked).mono ((hs.grows ha).scope _)⟩
  planned := hs.skip.planned
  distinct := hs.skip.distinct
  pending e' he' item' hitem' := by
    obtain ⟨plan, x, hdescribes, hconstraints, hx, hmade, hun⟩ :=
      hs.skip.pending e' he' item' hitem'
    refine ⟨plan, x, hdescribes, hconstraints, ?_, hmade, hun⟩
    rw [ha.generic_of_forall_ne fun item hitem => hs.param_ne he' hitem hitem', hx]
  nodup := hs.skip.nodup

end Attempt

/-- What a call preserves besides the invariant, told by the effects of its parts. `P` is for the
part in which parameters are registered, and `Q` for the attempts. -/
theorem perform_induction (hresolver : setup.resolver = Resolver.default)
    (hs₀ : Declared setup s₀) {call : HierarchyCall} (hplanned : call.IsPlanned setup)
    (hs : Underway setup s₀ [] s) {P Q : List PendingType → BuildState → Prop} (start : P [] s)
    (register : ∀ work p pending s s', p ∈ setup.types → Underway setup s₀ work s →
      Registering p pending s s' → P work s → P (work ++ [(p, pending)]) s')
    (turn : ∀ work s, P work s → Q work s)
    (skip : ∀ e rest s, Underway setup s₀ (e :: rest) s → Q (e :: rest) s → Q rest s)
    (attempt : ∀ e rest h base extra done s s₁ s', Underway setup s₀ (e :: rest) s →
      Attempting (s.scope (setup.blueprint.topLevel e.1)) e.1 e.2 h base extra done s s₁ s' →
      Q (e :: rest) s → Q rest s')
    (notice : ∀ work s notices, P work s → P work { s with notices })
    (notice' : ∀ work s notices, Q work s → Q work { s with notices }) :
    Underway setup s₀ [] ((setup.perform call).outcome s).2 ∧
      ∃ rest, Q rest ((setup.perform call).outcome s).2 := by
  suffices ∃ rest, Underway setup s₀ rest ((setup.perform call).outcome s).2 ∧
      Q rest ((setup.perform call).outcome s).2 by
    obtain ⟨rest, hs', hQ⟩ := this
    exact ⟨hs'.forget, rest, hQ⟩
  refine ClrImage.perform_induction (I := fun work s => Underway setup s₀ work s ∧ P work s)
    (J := fun work s => Underway setup s₀ work s ∧ Q work s) hs₀.nodup hplanned
    ?linked ?start ?register ?turn ?attempt ?notice
  case linked =>
    intro work s h p hp
    obtain ⟨g, t, hlink, ht, -⟩ := h.1.linked p hp
    exact ⟨g, t, hlink, ht, trivial⟩
  case start => exact fun notices => ⟨hs.of_notices notices, notice [] s notices start⟩
  case register =>
    rintro work p pending s s' hp hne ⟨hs, hP⟩ hrun
    obtain ⟨h, t, hlink, ht, -⟩ := hs.linked p hp
    have hr := Registering.of_yields hs.scope hlink ht hrun
    exact ⟨hs.register hp hne hr, register work p pending s s' hp hs hr hP⟩
  case turn => exact fun work s h => ⟨h.1, turn work s h.2⟩
  case attempt =>
    rintro e rest s ⟨hs, hQ⟩
    obtain ⟨h, t, hlink, ht, -⟩ := hs.linked e.1 (hs.planned e List.mem_cons_self)
    have hnodup := hs.nodup
    rw [List.flatMap_cons, List.nodup_append] at hnodup
    rcases outcome_configure hresolver hlink ht hnodup.1 with
      ⟨-, notices, heq⟩ | ⟨s₁, base, extra, done, ha⟩
    · rw [heq]
      exact ⟨hs.skip.of_notices notices, notice' rest s notices (skip e rest s hs hQ)⟩
    · exact ⟨hs.attempted hs₀ ha, attempt e rest h base extra done s s₁ _ hs ha hQ⟩
  case notice =>
    exact fun work s notices h => ⟨h.1.of_notices notices, notice' work s notices h.2⟩

theorem perform (hresolver : setup.resolver = Resolver.default) (hs₀ : Declared setup s₀)
    {call : HierarchyCall} (hplanned : call.IsPlanned setup) (hs : Underway setup s₀ [] s) :
    Underway setup s₀ [] ((setup.perform call).outcome s).2 := by
  refine (hs.perform_induction hresolver hs₀ hplanned (P := fun _ _ => True)
    (Q := fun _ _ => True) trivial ?_ ?_ ?_ ?_ ?_ ?_).1
  all_goals
    intros
    trivial

/-- The invariant holds between any calls. -/
theorem performAll (hresolver : setup.resolver = Resolver.default) (hs₀ : Declared setup s₀)
    {calls : List HierarchyCall} (hplanned : ∀ call ∈ calls, call.IsPlanned setup)
    (hs : Underway setup s₀ [] s) : Underway setup s₀ [] (setup.performAll s calls) := by
  induction calls generalizing s with
  | nil => exact hs
  | cons call calls ih =>
    obtain ⟨hcall, hcalls⟩ := List.forall_mem_cons.mp hplanned
    exact ih hcalls (hs.perform hresolver hs₀ hcall)

end Underway

end ClrImage
