import ClrImage.Proofs.Underway

/-!
# Retries

A type that is marked as configured need not be complete. A call that fails may leave a type
halfway: with interfaces, which a later call adds once more, or with parameters whose constraints no
later call knows of. This module says that nothing else goes wrong, however often the calls are made
and whichever of them fail.

- `HierarchyComplete`, `MarkerTruthful`: what the mark of a type is to say.
- `LeftHalfway`: the types that no later call can complete.
- `Spoilt`: what such a type keeps, whatever is done with it afterwards.
- `Settled`, `Poised`: what other types keep, between calls and within them.
- `marker_truthful_iff`: the marks are right **exactly if** no marked type was ever left halfway.
-/

namespace ClrImage

/-! ## What the mark of a type is to say -/

/-- The type has the base and the interfaces of its plan. References are read against the state. -/
structure HierarchyAttached (setup : Setup) (s : BuildState) (p : TypePlan) (t : TypeDef) :
    Prop where
  base : (s.scope (setup.blueprint.topLevel p)).ResolvesOption p.base t.base
  interfaces : (s.scope (setup.blueprint.topLevel p)).Resolves p.interfaces.toList
    t.interfaces.toList

/-- The type has the hierarchy of its plan: its base, its interfaces, and all constraints of the
parameters that were made for it. -/
structure HierarchyComplete (setup : Setup) (s : BuildState) (p : TypePlan) (t : TypeDef) :
    Prop extends HierarchyAttached setup s p t where
  parameters : ∀ h x, s.store.generics.get? h = some x → x.declaredBy = .type p.token →
    ∃ g, p.Describes g ∧ x.MadeFor (.type p.token) g ∧
      x.ConstrainedBy (s.scope (setup.blueprint.topLevel p)) g.constraints

/-- Whatever type is marked as configured has the hierarchy of its plan. -/
def MarkerTruthful (setup : Setup) (s : BuildState) : Prop :=
  ∀ p ∈ setup.types, ∀ h t, s.links.types.get? p.token = some h → s.store.types.get? h = some t →
    t.isConfigured = true → HierarchyComplete setup s p t

/-- The parameter was made for the type and does not carry its constraints. -/
def BuildState.Unfinished (s : BuildState) (p : TypePlan) (h : GenericHandle) : Prop :=
  ∃ x, s.store.generics.get? h = some x ∧ x.declaredBy = .type p.token ∧ x.isConstrained = false

/-- The type is not configured, but some of it has been done already: there are interfaces, or there
are parameters whose constraints have not been attached. -/
def LeftHalfway (s : BuildState) (p : TypePlan) : Prop :=
  s.TypeOf p fun t => t.isConfigured = false ∧ (t.interfaces ≠ #[] ∨ ∃ h, s.Unfinished p h)

/-! ## Types that have been left halfway -/

/-- The type has more interfaces than it should: any at all while it is open, and more than planned
once it is configured. -/
def TypeDef.HasSurplus (t : TypeDef) (p : TypePlan) : Prop :=
  (if t.isConfigured then p.interfaces.size else 0) < t.interfaces.size

theorem TypeDef.HasSurplus.of_sameProgress {t t' : TypeDef} {p : TypePlan} (h : t.HasSurplus p)
    (hsame : t.SameProgress t') : t'.HasSurplus p := by
  unfold TypeDef.HasSurplus
  rw [hsame.isConfigured, hsame.interfaces]
  exact h

/-- The type behind the handle cannot become complete any more. It has too many interfaces, or a
parameter whose constraints nobody is to attach. -/
inductive Spoilt (p : TypePlan) (h : TypeHandle) (work : List PendingType) (s : BuildState) : Prop
  | interfaces (t : TypeDef) (type : s.store.types.get? h = some t) (surplus : t.HasSurplus p)
  | parameter (g : GenericHandle) (unfinished : s.Unfinished p g)
      (abandoned : ∀ e ∈ work, ∀ item ∈ e.2, item.param ≠ g)

namespace Spoilt

variable {setup : Setup} {p : TypePlan} {h : TypeHandle} {work rest : List PendingType}
  {e : PendingType} {s₀ s s₁ s' : BuildState}

theorem of_leftHalfway (hhalf : LeftHalfway s p) (hlink : s.links.types.get? p.token = some h) :
    Spoilt p h [] s := by
  obtain ⟨h', t, hlink', ht, hopen, hdone⟩ := hhalf
  obtain rfl := Option.some.inj (hlink.symm.trans hlink')
  rcases hdone with hinterfaces | ⟨g, hunfinished⟩
  · refine .interfaces t ht ?_
    simpa [TypeDef.HasSurplus, hopen, Array.size_pos_iff] using hinterfaces
  · exact .parameter g hunfinished (by simp)

theorem skip (hspoilt : Spoilt p h (e :: rest) s) : Spoilt p h rest s := by
  cases hspoilt with
  | interfaces t ht hsurplus => exact .interfaces t ht hsurplus
  | parameter g hunfinished habandoned =>
    exact .parameter g hunfinished fun e' he' => habandoned e' (List.mem_cons_of_mem e he')

theorem of_notices (hspoilt : Spoilt p h work s) (notices : Array Notice) :
    Spoilt p h work { s with notices } := by
  cases hspoilt with
  | interfaces t ht hsurplus => exact .interfaces t ht hsurplus
  | parameter g hunfinished habandoned => exact .parameter g hunfinished habandoned

/-- A call does not take up the parameters that earlier calls have made. -/
theorem register {q : TypePlan} {pending : Array PendingGeneric} (hr : Registering q pending s s')
    (hspoilt : Spoilt p h work s) : Spoilt p h (work ++ [(q, pending)]) s' := by
  cases hspoilt with
  | interfaces t ht hsurplus =>
    obtain ⟨t', ht', -⟩ := hr.grows.types h t ht
    obtain ⟨u, hu, hsame⟩ := hr.types h t' ht'
    obtain rfl := Option.some.inj (ht.symm.trans hu)
    exact .interfaces t' ht' (hsurplus.of_sameProgress hsame)
  | parameter g hunfinished habandoned =>
    obtain ⟨x, hx, hdeclared, hunmarked⟩ := hunfinished
    obtain ⟨y, hy, hterms⟩ := hr.generics g x hx
    refine .parameter g ⟨y, hy, hterms.declaredBy.trans hdeclared,
      hterms.isConstrained.trans hunmarked⟩ fun e he item hitem heq => ?_
    rcases List.mem_append.mp he with he | he
    · exact habandoned e he item hitem heq
    · obtain rfl := List.mem_singleton.mp he
      rw [← heq, hr.fresh item hitem] at hx
      cases hx

section Calls

variable (hs₀ : Declared setup s₀) (hp : p ∈ setup.types)
  (hlink : s₀.links.types.get? p.token = some h)
include hs₀ hp hlink

/-- Another attempt adds interfaces, and the constraints of what it has made itself. -/
theorem attempt {g : TypeHandle} {base : Option Signature} {extra : List Signature} {done : Bool}
    {scope : Scope} (hs : Underway setup s₀ (e :: rest) s)
    (ha : Attempting scope e.1 e.2 g base extra done s s₁ s') (hspoilt : Spoilt p h (e :: rest) s) :
    Spoilt p h rest s' := by
  cases hspoilt with
  | interfaces u hu hsurplus =>
    by_cases hgh : h = g
    · subst hgh
      obtain rfl : p = e.1 := hs.plan_eq hs₀ hp hlink ha
      obtain ⟨t, ht, hopen⟩ := ha.opened
      obtain rfl := Option.some.inj (ht.symm.trans hu)
      refine .interfaces _ (ha.type ht) ?_
      have hsome : 0 < t.interfaces.size := by simpa [TypeDef.HasSurplus, hopen] using hsurplus
      cases done with
      | false =>
        simp only [TypeDef.HasSurplus, TypeDef.attempted, hopen, Bool.or_self, Bool.false_eq_true,
          if_false, Array.size_append]
        omega
      | true =>
        -- as many interfaces are added as are planned
        have hlength : e.1.interfaces.size = extra.length := by
          simpa using (ha.complete rfl).2.2.length_eq
        simp [TypeDef.HasSurplus, TypeDef.attempted, hlength, hsome]
    · exact .interfaces u ((ha.type_of_ne hgh).trans hu) hsurplus
  | parameter o hunfinished habandoned =>
    obtain ⟨x, hx, hunfinished⟩ := hunfinished
    rw [← ha.generic_of_forall_ne (habandoned e List.mem_cons_self)] at hx
    exact .parameter o ⟨x, hx, hunfinished⟩
      fun e' he' => habandoned e' (List.mem_cons_of_mem e he')

variable (hresolver : setup.resolver = Resolver.default)
include hresolver

/-- No call, whatever its outcome, makes up for what another one has left. -/
theorem perform {call : HierarchyCall} (hplanned : call.IsPlanned setup)
    (hs : Underway setup s₀ [] s)
    (hspoilt : Spoilt p h [] s) : Spoilt p h [] ((setup.perform call).outcome s).2 := by
  obtain ⟨-, rest, hspoilt⟩ := hs.perform_induction hresolver hs₀ hplanned
    (P := Spoilt p h) (Q := Spoilt p h) hspoilt
    (fun _ _ _ _ _ _ _ hr hspoilt => hspoilt.register hr) (fun _ _ hspoilt => hspoilt)
    (fun _ _ _ _ hspoilt => hspoilt.skip)
    (fun _ _ _ _ _ _ _ _ _ hs ha hspoilt => hspoilt.attempt hs₀ hp hlink hs ha)
    (fun _ _ notices hspoilt => hspoilt.of_notices notices)
    (fun _ _ notices hspoilt => hspoilt.of_notices notices)
  clear hs
  induction rest with
  | nil => exact hspoilt
  | cons e rest ih => exact ih hspoilt.skip

theorem performAll {calls : List HierarchyCall}
    (hplanned : ∀ call ∈ calls, call.IsPlanned setup) (hs : Underway setup s₀ [] s)
    (hspoilt : Spoilt p h [] s) : Spoilt p h [] (setup.performAll s calls) := by
  induction calls generalizing s with
  | nil => exact hspoilt
  | cons call calls ih =>
    obtain ⟨hcall, hcalls⟩ := List.forall_mem_cons.mp hplanned
    exact ih hcalls (hs.perform hresolver hs₀ hcall)
      (hspoilt.perform hs₀ hp hlink hresolver hcall hs)

end Calls

end Spoilt

/-! ## Types that have not -/

/-- The type has the base and the interfaces of its plan, and all of its parameters are marked. -/
structure Finished (setup : Setup) (s : BuildState) (p : TypePlan) (t : TypeDef) :
    Prop extends HierarchyAttached setup s p t where
  parameters : ∀ g, ¬ s.Unfinished p g

theorem Finished.mono {setup : Setup} {s s' : BuildState} {p : TypePlan} {t t' : TypeDef}
    (h : Finished setup s p t) (hgrows : s.Extends s') (hsame : t.SameProgress t')
    (hparams : ∀ g, s'.Unfinished p g → s.Unfinished p g) : Finished setup s' p t' where
  base := hsame.base ▸ h.base.mono (hgrows.scope _)
  interfaces := hsame.interfaces ▸ h.interfaces.mono (hgrows.scope _)
  parameters g hg := h.parameters g (hparams g hg)

/-- The type behind the handle, if it is marked, is finished. -/
def Settled (setup : Setup) (p : TypePlan) (h : TypeHandle) (s : BuildState) : Prop :=
  ∀ t, s.store.types.get? h = some t → t.isConfigured = true → Finished setup s p t

/-- The type behind the handle, if it is open, has no interfaces yet, and the constraints of its
parameters are still to be attached by this call. -/
def Poised (p : TypePlan) (h : TypeHandle) (work : List PendingType) (s : BuildState) : Prop :=
  ∀ t, s.store.types.get? h = some t → t.isConfigured = false → t.interfaces = #[] ∧
    ∀ g, s.Unfinished p g → ∃ e ∈ work, e.1 = p ∧ ∃ item ∈ e.2, item.param = g

section Unfinished

variable {setup : Setup} {p : TypePlan} {e : PendingType} {rest : List PendingType}
  {s₀ s s₁ s' : BuildState} {g : GenericHandle}

/-- A parameter without constraints that registering leaves has been there or is new. -/
theorem Registering.unfinished {q : TypePlan} {pending : Array PendingGeneric}
    (hr : Registering q pending s s') (hg : s'.Unfinished p g) :
    s.Unfinished p g ∨ (q.token = p.token ∧ ∃ item ∈ pending, item.param = g) := by
  obtain ⟨y, hy, hdeclared, hunmarked⟩ := hg
  cases hold : s.store.generics.get? g with
  | some x =>
    obtain ⟨y', hy', hterms⟩ := hr.generics g x hold
    obtain rfl := Option.some.inj (hy.symm.trans hy')
    exact .inl ⟨x, hold, hterms.declaredBy.symm.trans hdeclared,
      hterms.isConstrained.symm.trans hunmarked⟩
  | none =>
    obtain ⟨item, hitem, rfl⟩ := hr.new g y hold hy
    obtain ⟨plan, y', -, -, hy', hmade, -⟩ := hr.made item hitem
    obtain rfl := Option.some.inj (hy.symm.trans hy')
    have htoken : q.token = p.token :=
      GenericOwner.type.inj (hmade.declaredBy.symm.trans hdeclared)
    exact .inr ⟨htoken, item, hitem, rfl⟩

variable {h : TypeHandle} {base : Option Signature} {extra : List Signature} {done : Bool}
  {scope : Scope} (hs : Underway setup s₀ (e :: rest) s)
  (ha : Attempting scope e.1 e.2 h base extra done s s₁ s')
include hs ha

/-- A parameter without constraints that an attempt leaves was without them before. If the attempt
has marked the type, it is not one of those that the attempt was to complete. -/
theorem Underway.unfinished (hg : s'.Unfinished p g) :
    s.Unfinished p g ∧ (done = true → ∀ item ∈ e.2, item.param ≠ g) := by
  obtain ⟨y, hy, hdeclared, hunmarked⟩ := hg
  by_cases hpending : ∃ item ∈ e.2, item.param = g
  · obtain ⟨item, hitem, rfl⟩ := hpending
    obtain ⟨plan, x, -, -, hx, -, hun⟩ := hs.pending e List.mem_cons_self item hitem
    obtain ⟨y', hy', halike, -, hdone⟩ := ha.attached hitem hx hun
    obtain rfl := Option.some.inj (hy.symm.trans hy')
    refine ⟨⟨x, hx, halike.declaredBy.symm.trans hdeclared, hun.isConstrained⟩, fun h => ?_⟩
    rw [hdone h] at hunmarked
    cases hunmarked
  · have hne : ∀ item ∈ e.2, item.param ≠ g := by simpa using hpending
    rw [ha.generic_of_forall_ne hne] at hy
    exact ⟨⟨y, hy, hdeclared, hunmarked⟩, fun _ => hne⟩

omit ha in
/-- An attempt that has marked its type has attached the hierarchy, if nothing was there before. -/
theorem Underway.hierarchyAttached {t : TypeDef}
    (ha : Attempting (s.scope (setup.blueprint.topLevel e.1)) e.1 e.2 h base extra true s s₁ s')
    (ht : s.store.types.get? h = some t) (hnone : t.interfaces = #[]) :
    HierarchyAttached setup s' e.1 (t.attempted base extra true) := by
  obtain ⟨-, hbase, hinterfaces⟩ := ha.complete rfl
  have hor : (t.attempted base extra true).base = base := by
    cases base with
    | some sig => rfl
    | none =>
      -- no base was resolved, so none is planned, and there was none before
      obtain ⟨t', ht', hfree⟩ :=
        hs.exists_type (hs.planned e List.mem_cons_self) (hs.links ▸ ha.link)
      obtain rfl := Option.some.inj (ht.symm.trans ht')
      cases hplanned : e.1.base with
      | none => exact hfree hplanned
      | some r =>
        rw [hplanned] at hbase
        cases hbase
  constructor
  · rw [hor]
    exact hbase.mono ((hs.grows ha).scope _)
  · simpa [TypeDef.attempted, hnone] using hinterfaces.mono ((hs.grows ha).scope _)

end Unfinished

namespace Settled

variable {setup : Setup} {p : TypePlan} {h : TypeHandle} {work rest : List PendingType}
  {e : PendingType} {s₀ s s₁ s' : BuildState}

theorem of_notices (hsettled : Settled setup p h s) (notices : Array Notice) :
    Settled setup p h { s with notices } := fun t ht hmarked =>
  ⟨⟨(hsettled t ht hmarked).base, (hsettled t ht hmarked).interfaces⟩,
    (hsettled t ht hmarked).parameters⟩

/-- Nothing is registered for a type that is marked. -/
theorem register {q : TypePlan} {pending : Array PendingGeneric} (hs₀ : Declared setup s₀)
    (hp : p ∈ setup.types) (hlink : s₀.links.types.get? p.token = some h) (hq : q ∈ setup.types)
    (hs : Underway setup s₀ work s) (hr : Registering q pending s s')
    (hsettled : Settled setup p h s) : Settled setup p h s' := by
  intro t' ht' hmarked
  obtain ⟨t, ht, hsame⟩ := hr.types h t' ht'
  have hmarked : t.isConfigured = true := hsame.isConfigured.symm.trans hmarked
  refine (hsettled t ht hmarked).mono hr.grows hsame fun g hg => ?_
  rcases hr.unfinished hg with hold | ⟨htoken, item, hitem, -⟩
  · exact hold
  · obtain rfl := List.inj_on_of_nodup_map hs₀.nodup hq hp htoken
    rw [hr.idle ⟨h, t, hs.links ▸ hlink, ht, hmarked⟩] at hitem
    exact absurd hitem (Array.not_mem_empty item)

/-- An attempt does not touch a type that is marked, and marks a type only if it has done all that
there was to do. -/
theorem attempt {g : TypeHandle} {base : Option Signature} {extra : List Signature} {done : Bool}
    (hs₀ : Declared setup s₀) (hp : p ∈ setup.types)
    (hlink : s₀.links.types.get? p.token = some h) (hs : Underway setup s₀ (e :: rest) s)
    (ha : Attempting (s.scope (setup.blueprint.topLevel e.1)) e.1 e.2 g base extra done s s₁ s')
    (hsettled : Settled setup p h s) (hpoised : e.1 = p → Poised p h (e :: rest) s) :
    Settled setup p h s' := by
  intro u hu hmarked
  by_cases hgh : h = g
  · subst hgh
    obtain rfl : p = e.1 := hs.plan_eq hs₀ hp hlink ha
    obtain ⟨t, ht, hopen⟩ := ha.opened
    obtain rfl := Option.some.inj ((ha.type ht).symm.trans hu)
    obtain rfl : done = true := by simpa [TypeDef.attempted, hopen] using hmarked
    obtain ⟨hnone, hawaited⟩ := hpoised rfl t ht hopen
    refine ⟨hs.hierarchyAttached ha ht hnone, fun o ho => ?_⟩
    -- what is not complete was pending for this type, which is attempted only once
    obtain ⟨hold, hnot⟩ := hs.unfinished ha ho
    obtain ⟨e', he', hsame, item, hitem, hparam⟩ := hawaited o hold
    rcases List.mem_cons.mp he' with rfl | he'
    · exact hnot rfl item hitem hparam
    · exact hs.plan_ne (List.mem_map.mpr ⟨e', he', hsame⟩) rfl
  · rw [ha.type_of_ne hgh] at hu
    exact (hsettled u hu hmarked).mono (hs.grows ha) ⟨rfl, rfl, rfl⟩
      fun o ho => (hs.unfinished ha ho).1

end Settled

namespace Poised

variable {setup : Setup} {p : TypePlan} {h : TypeHandle} {work rest : List PendingType}
  {e : PendingType} {s₀ s s₁ s' : BuildState}

/-- What is registered for the type will be attended to. -/
theorem register {q : TypePlan} {pending : Array PendingGeneric} (hs₀ : Declared setup s₀)
    (hp : p ∈ setup.types) (hq : q ∈ setup.types) (hr : Registering q pending s s')
    (hpoised : Poised p h work s) : Poised p h (work ++ [(q, pending)]) s' := by
  intro t' ht' hopen
  obtain ⟨t, ht, hsame⟩ := hr.types h t' ht'
  obtain ⟨hnone, hawaited⟩ := hpoised t ht (hsame.isConfigured.symm.trans hopen)
  refine ⟨hsame.interfaces.trans hnone, fun g hg => ?_⟩
  rcases hr.unfinished hg with hold | ⟨htoken, hnew⟩
  · obtain ⟨e, he, hpending⟩ := hawaited g hold
    exact ⟨e, List.mem_append_left _ he, hpending⟩
  · obtain rfl := List.inj_on_of_nodup_map hs₀.nodup hq hp htoken
    exact ⟨(q, pending), by simp, rfl, hnew⟩

/-- The first type is left out. -/
theorem skip (hne : e.1 ≠ p) (hpoised : Poised p h (e :: rest) s) : Poised p h rest s := by
  intro t ht hopen
  obtain ⟨hnone, hawaited⟩ := hpoised t ht hopen
  refine ⟨hnone, fun g hg => ?_⟩
  obtain ⟨e', he', hsame, hpending⟩ := hawaited g hg
  rcases List.mem_cons.mp he' with rfl | he'
  · exact absurd hsame hne
  · exact ⟨e', he', hsame, hpending⟩

/-- Another type is attempted. -/
theorem attempt {g : TypeHandle} {base : Option Signature} {extra : List Signature} {done : Bool}
    {scope : Scope} (hs : Underway setup s₀ (e :: rest) s) (hgh : h ≠ g) (hne : e.1 ≠ p)
    (ha : Attempting scope e.1 e.2 g base extra done s s₁ s')
    (hpoised : Poised p h (e :: rest) s) : Poised p h rest s' := by
  intro t ht hopen
  rw [ha.type_of_ne hgh] at ht
  obtain ⟨hnone, hawaited⟩ := hpoised.skip hne t ht hopen
  exact ⟨hnone, fun o ho => hawaited o (hs.unfinished ha ho).1⟩

end Poised

/-- A call settles a type, whatever its outcome, unless the type has been left halfway before. -/
theorem Settled.perform {setup : Setup} {p : TypePlan} {h : TypeHandle} {s₀ s : BuildState}
    (hresolver : setup.resolver = Resolver.default) (hs₀ : Declared setup s₀)
    {call : HierarchyCall} (hplanned : call.IsPlanned setup) (hp : p ∈ setup.types)
    (hlink : s₀.links.types.get? p.token = some h) (hs : Underway setup s₀ [] s)
    (hsettled : Settled setup p h s) (hclean : ¬ LeftHalfway s p) :
    Settled setup p h ((setup.perform call).outcome s).2 := by
  have hpoised : Poised p h [] s := by
    intro t ht hopen
    have hdone : ¬ (t.interfaces ≠ #[] ∨ ∃ g, s.Unfinished p g) :=
      fun hdone => hclean ⟨h, t, hs.links ▸ hlink, ht, hopen, hdone⟩
    rw [not_or, not_not, not_exists] at hdone
    exact ⟨hdone.1, fun g hg => absurd hg (hdone.2 g)⟩
  -- only while the type is still to be attempted does it matter what there is to do
  suffices ∃ rest, Settled setup p h ((setup.perform call).outcome s).2 ∧
      (p ∈ rest.map Prod.fst → Poised p h rest ((setup.perform call).outcome s).2) by
    obtain ⟨-, hsettled, -⟩ := this
    exact hsettled
  refine (hs.perform_induction hresolver hs₀ hplanned
    (P := fun work s => Settled setup p h s ∧ Poised p h work s)
    (Q := fun work s => Settled setup p h s ∧ (p ∈ work.map Prod.fst → Poised p h work s))
    ⟨hsettled, hpoised⟩ ?register ?turn ?skip ?attempt ?notice ?notice').2
  case register =>
    rintro work q pending s s' hq hs hr ⟨hsettled, hpoised⟩
    exact ⟨hsettled.register hs₀ hp hlink hq hs hr, hpoised.register hs₀ hp hq hr⟩
  case turn => exact fun work s ⟨hsettled, hpoised⟩ => ⟨hsettled, fun _ => hpoised⟩
  case skip =>
    rintro e rest s hs ⟨hsettled, hpoised⟩
    exact ⟨hsettled, fun hrest => (hpoised (List.mem_cons_of_mem _ hrest)).skip (hs.plan_ne hrest)⟩
  case attempt =>
    rintro e rest g base extra done s s₁ s' hs ha ⟨hsettled, hpoised⟩
    refine ⟨hsettled.attempt hs₀ hp hlink hs ha fun hfirst => ?_, fun hrest => ?_⟩
    · exact hpoised (List.mem_cons.mpr (.inl hfirst.symm))
    · have hne := hs.plan_ne hrest
      refine (hpoised (List.mem_cons_of_mem _ hrest)).attempt hs ?_ hne ha
      rintro rfl
      exact hne (hs.plan_eq hs₀ hp hlink ha).symm
  case notice => exact fun work s notices ⟨hsettled, hpoised⟩ => ⟨hsettled.of_notices _, hpoised⟩
  case notice' => exact fun work s notices ⟨hsettled, hpoised⟩ => ⟨hsettled.of_notices _, hpoised⟩

/-- Declaration marks no type. -/
theorem Settled.of_declared {setup : Setup} {p : TypePlan} {h : TypeHandle} {s₀ : BuildState}
    (hs₀ : Declared setup s₀) (hp : p ∈ setup.types)
    (hlink : s₀.links.types.get? p.token = some h) : Settled setup p h s₀ := by
  intro t ht hmarked
  obtain ⟨h', d, hlink', ht'⟩ := hs₀.linked p hp
  obtain rfl := Option.some.inj (hlink.symm.trans hlink')
  obtain rfl := Option.some.inj (ht.symm.trans ht')
  cases hmarked

/-- Calls settle a type unless they leave it halfway. -/
theorem Settled.performAll {setup : Setup} {p : TypePlan} {h : TypeHandle} {s₀ : BuildState}
    (hresolver : setup.resolver = Resolver.default) (hs₀ : Declared setup s₀)
    {calls : List HierarchyCall} (hplanned : ∀ call ∈ calls, call.IsPlanned setup)
    (hp : p ∈ setup.types) (hlink : s₀.links.types.get? p.token = some h)
    (hclean : ∀ earlier, earlier <+: calls → ¬ LeftHalfway (setup.performAll s₀ earlier) p) :
    Settled setup p h (setup.performAll s₀ calls) := by
  -- from the end, because each call goes on from where those before it have ended
  induction calls using List.reverseRecOn with
  | nil => exact .of_declared hs₀ hp hlink
  | append_singleton calls call ih =>
    have hbefore : ∀ c ∈ calls, c.IsPlanned setup :=
      fun c hc => hplanned c (List.mem_append_left _ hc)
    have hsettled := ih hbefore fun earlier hearlier =>
      hclean earlier (hearlier.trans (List.prefix_append calls [call]))
    rw [Setup.performAll_append]
    exact hsettled.perform hresolver hs₀ (hplanned call (by simp)) hp hlink
      ((Underway.of_declared hs₀).performAll hresolver hs₀ hbefore)
      (hclean calls (List.prefix_append calls [call]))

/-! ## When the marks are right -/

namespace Finished

variable {setup : Setup} {s₀ s : BuildState} {work : List PendingType} {p : TypePlan}
  {t : TypeDef}

/-- A parameter that is marked carries the constraints that it should. -/
theorem complete (hs₀ : Declared setup s₀) (hp : p ∈ setup.types) (hs : Underway setup s₀ work s)
    (h : Finished setup s p t) : HierarchyComplete setup s p t where
  base := h.base
  interfaces := h.interfaces
  parameters g x hx hdeclared := by
    obtain ⟨q, hq, plan, hdescribes, hmade, hcomplete⟩ := hs.made g x hx
    have htoken : q.token = p.token :=
      GenericOwner.type.inj (hmade.declaredBy.symm.trans hdeclared)
    obtain rfl := List.inj_on_of_nodup_map hs₀.nodup hq hp htoken
    refine ⟨plan, hdescribes, hmade, hcomplete ?_⟩
    by_contra hunmarked
    exact h.parameters g ⟨x, hx, hdeclared, Bool.eq_false_iff.mpr hunmarked⟩

end Finished

theorem Spoilt.not_complete {setup : Setup} {p : TypePlan} {h : TypeHandle} {s : BuildState}
    {t : TypeDef} (hspoilt : Spoilt p h [] s) (ht : s.store.types.get? h = some t)
    (hmarked : t.isConfigured = true) : ¬ HierarchyComplete setup s p t := by
  intro hcomplete
  cases hspoilt with
  | interfaces u hu hsurplus =>
    obtain rfl := Option.some.inj (ht.symm.trans hu)
    have hlength := hcomplete.interfaces.length_eq
    simp only [TypeDef.HasSurplus, hmarked, if_true] at hsurplus
    simp only [Array.length_toList] at hlength
    omega
  | parameter g hunfinished =>
    obtain ⟨x, hx, hdeclared, hunmarked⟩ := hunfinished
    obtain ⟨_, -, -, hconstrained⟩ := hcomplete.parameters g x hx hdeclared
    rw [hconstrained.isConstrained] at hunmarked
    cases hunmarked

/-- Over declared types, and after any calls to configure them, whatever the outcomes of these: the
types that are marked have the hierarchy of their plans **exactly if** none of them had been left
halfway between two of the calls. -/
theorem marker_truthful_iff {setup : Setup} (hresolver : setup.resolver = Resolver.default)
    {s : BuildState} (hdeclare : setup.declareTypes.Yields (.initial setup.config) () s)
    {calls : List HierarchyCall} (hplanned : ∀ call ∈ calls, call.IsPlanned setup) :
    MarkerTruthful setup (setup.performAll s calls) ↔
      ∀ p ∈ setup.types,
        ((setup.performAll s calls).TypeOf p fun t => t.isConfigured = true) →
        ∀ earlier, earlier <+: calls → ¬ LeftHalfway (setup.performAll s earlier) p := by
  have hs₀ := declared_of_yields hdeclare
  have hbetween {some : List HierarchyCall} (hsome : some <+: calls) :
      Underway setup s [] (setup.performAll s some) :=
    (Underway.of_declared hs₀).performAll hresolver hs₀ fun call hcall =>
      hplanned call (hsome.subset hcall)
  have hend := hbetween (List.prefix_refl calls)
  constructor
  · rintro htruthful p hp ⟨h, t, hlink, ht, hmarked⟩ earlier ⟨later, rfl⟩ hhalf
    have hbefore := hbetween (List.prefix_append earlier later)
    have hlink₀ := hend.links ▸ hlink
    have hspoilt := (Spoilt.of_leftHalfway hhalf (hbefore.links ▸ hlink₀)).performAll hs₀ hp hlink₀
      hresolver (fun call hcall => hplanned call (List.mem_append_right _ hcall)) hbefore
    rw [← Setup.performAll_append] at hspoilt
    exact hspoilt.not_complete ht hmarked (htruthful p hp h t hlink ht hmarked)
  · intro hclean p hp h t hlink ht hmarked
    have hsettled := Settled.performAll hresolver hs₀ hplanned hp (hend.links ▸ hlink)
      (hclean p hp ⟨h, t, hlink, ht, hmarked⟩)
    exact (hsettled t ht hmarked).complete hs₀ hp hend

instance (s : BuildState) (p : TypePlan) (Q : TypeDef → Prop) [DecidablePred Q] :
    Decidable (s.TypeOf p Q) :=
  decidable_of_iff (((s.links.types.get? p.token).bind s.store.types.get?).any (Q ·) = true) <| by
    simp only [Option.any_eq_true, Option.bind_eq_some_iff, decide_eq_true_eq]
    exact ⟨fun ⟨t, ⟨h, hlink, ht⟩, hQ⟩ => ⟨h, t, hlink, ht, hQ⟩,
      fun ⟨h, t, hlink, ht, hQ⟩ => ⟨t, ⟨h, hlink, ht⟩, hQ⟩⟩

/-- A type whose parameter is constrained by one that only a later type declares. -/
def constrainedByLate : TypePlan where
  token := ⟨0x02000001⟩
  space := ""
  name := "First"
  flags := .empty
  flavor := .classType
  module := "late"
  generics := some #[⟨0, 0, "T", .empty, #[TypeRef.var 9]⟩]

/-- A type with an interface that is known and one that only the later type declares. -/
def implementsLate : TypePlan where
  token := ⟨0x02000002⟩
  space := ""
  name := "Second"
  flags := .empty
  flavor := .classType
  module := "late"
  interfaces := #[TypeRef.typeDef ⟨0x02000001⟩, TypeRef.var 9]

def late : TypePlan where
  token := ⟨0x02000003⟩
  space := ""
  name := "Last"
  flags := .empty
  flavor := .classType
  module := "late"
  generics := some #[⟨9, 0, "U", .empty, #[]⟩]

def latecomer : Setup where
  blueprint := .ofTypes "late" #[constrainedByLate, implementsLate, late]

/-- The first two types fail before the later one is configured, and succeed when tried again. -/
def lateCalls : List HierarchyCall :=
  [.type constrainedByLate, .type implementsLate, .type late, .type constrainedByLate,
    .type implementsLate]

/-- All types are marked in the end, two of which had been left halfway. -/
theorem marker_truthful_iff_latecomer :
    ∃ s, latecomer.resolver = Resolver.default ∧
      latecomer.declareTypes.Yields (.initial latecomer.config) () s ∧
      (∀ call ∈ lateCalls, call.IsPlanned latecomer) ∧
      (∀ p ∈ latecomer.types,
        (latecomer.performAll s lateCalls).TypeOf p fun t => t.isConfigured = true) ∧
      LeftHalfway (latecomer.performAll s (lateCalls.take 2)) constrainedByLate ∧
      LeftHalfway (latecomer.performAll s (lateCalls.take 2)) implementsLate ∧
      ¬ MarkerTruthful latecomer (latecomer.performAll s lateCalls) := by
  have hdeclare := Build.yields_of_isOk latecomer.declareTypes (.initial latecomer.config)
    (by decide +kernel)
  have htypes : latecomer.types = [constrainedByLate, implementsLate, late] := rfl
  have hplanned : ∀ call ∈ lateCalls, call.IsPlanned latecomer := by
    simp [lateCalls, HierarchyCall.IsPlanned, htypes]
  generalize hs : (latecomer.declareTypes.outcome (.initial latecomer.config)).2 = s at hdeclare
  have hmarked : ∀ p ∈ latecomer.types,
      (latecomer.performAll s lateCalls).TypeOf p fun t => t.isConfigured = true := by
    subst hs
    decide +kernel
  have hfirst : LeftHalfway (latecomer.performAll s (lateCalls.take 2)) constrainedByLate := by
    have hopen : (latecomer.performAll s (lateCalls.take 2)).TypeOf constrainedByLate
        fun t => t.isConfigured = false := by
      subst hs
      decide +kernel
    have hunmarked : ((latecomer.performAll s (lateCalls.take 2)).store.generics.get? ⟨0⟩).map
        (fun x => (x.declaredBy, x.isConstrained)) = some (.type ⟨0x02000001⟩, false) := by
      subst hs
      decide +kernel
    obtain ⟨h, t, hlink, ht, hopen⟩ := hopen
    obtain ⟨x, hx, hterms⟩ := Option.map_eq_some_iff.mp hunmarked
    obtain ⟨hdeclared, hfalse⟩ := Prod.mk.inj hterms
    exact ⟨h, t, hlink, ht, hopen, .inr ⟨⟨0⟩, x, hx, hdeclared, hfalse⟩⟩
  have hsecond : LeftHalfway (latecomer.performAll s (lateCalls.take 2)) implementsLate := by
    have hpartial : (latecomer.performAll s (lateCalls.take 2)).TypeOf implementsLate
        fun t => t.isConfigured = false ∧ t.interfaces ≠ #[] := by
      subst hs
      decide +kernel
    obtain ⟨h, t, hlink, ht, hopen, hsome⟩ := hpartial
    exact ⟨h, t, hlink, ht, hopen, .inl hsome⟩
  refine ⟨s, rfl, hdeclare, hplanned, hmarked, hfirst, hsecond, fun htruthful => ?_⟩
  have hmem : constrainedByLate ∈ latecomer.types := by simp [htypes]
  exact (marker_truthful_iff rfl hdeclare hplanned).mp htruthful constrainedByLate hmem
    (hmarked _ hmem) (lateCalls.take 2) (List.take_prefix 2 lateCalls) hfirst

end ClrImage
