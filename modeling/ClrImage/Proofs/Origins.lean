import ClrImage.Proofs.Members

/-!
# The origin of generic parameters

Generic parameters are made in two places: in the hierarchy pass for types, and later for methods,
while the members of a type are made. A parameter gets its constraints from the call that makes it,
and from no other. That call may fail, and the build may go on over the failure. This module follows
every parameter back to its call, through runs of any outcome.

- `Setup.ReachesMethod`, `Setup.Makes`: the calls that make parameters for methods.
- `Setup.Origin`: the plan that a parameter was made for, and how far its call got.
- `Traced`: the invariant of the third pass. Every parameter has an origin, and whatever types and
  methods list is registered.
- `traced_populateOrRecord`: population of a type preserves it, whether or not a failure is
  recorded.
-/

namespace ClrImage

/-! ## Calls that make parameters -/

namespace Setup

/-- The part of a population in which the fields and the methods `earlier` have been made. -/
def populateUpTo (setup : Setup) (p : TypePlan) (earlier : List MethodPlan) : Build Unit := do
  let (_, t) ← Build.managedType p
  let site : MemberSite := ⟨(← get).store.fullName t, setup.blueprint.topLevel p⟩
  let _ ← p.fields.toList.mapM fun f => do
    pure (f.token, ← setup.makeField site f)
  let _ ← earlier.mapM fun m => do
    pure (m.token, ← setup.makeMethod site m)
  pure ()

/-- The build comes to a method of a type in a state. -/
def ReachesMethod (setup : Setup) (p : TypePlan) (m : MethodPlan) (s : BuildState) : Prop :=
  ∃ s₀ earlier later, setup.Reaches p s₀ ∧ ¬ setup.Skips p ∧
    p.methods.toList = earlier ++ m :: later ∧ (setup.populateUpTo p earlier).Yields s₀ () s

/-- The build comes to a method of a type and registers its parameters, which leaves the state `s`.
The parameter of `item` is new, and its constraints are to be attached behind those of `before`. -/
def Makes (setup : Setup) (p : TypePlan) (m : MethodPlan) (before : List PendingGeneric)
    (item : PendingGeneric) (s : BuildState) : Prop :=
  ∃ s₀ params listed pending after, setup.ReachesMethod p m s₀ ∧ m.generics = some params ∧
    (declareGenerics (.method m.token) (setup.blueprint.topLevel p) #[] params).Yields s₀
      (listed, pending) s ∧
    pending.toList = before ++ item :: after

/-- The plan that a parameter was made for. A parameter of a type carries all of its constraints.
A parameter of a method does so exactly if the call that made it could resolve them, and those of
the parameters made before it in that call. -/
inductive Origin (setup : Setup) (s : BuildState) (h : GenericHandle) (x : GenericParam) : Prop
  | type (key : GenericKey) (p : TypePlan) (g : GenericPlan)
      (registered : s.registry.get? key = some h)
      (first : setup.firstDeclaration? key = some (p, g))
      (made : x.MadeFor (.type p.token) g)
      (complete : x.ConstrainedBy (s.scope (setup.blueprint.topLevel p)) g.constraints)
  | method (p : TypePlan) (m : MethodPlan) (g : GenericPlan) (before : List PendingGeneric)
      (s₁ : BuildState) (planned : g ∈ (m.generics.getD #[]).toList)
      (made : x.MadeFor (.method m.token) g)
      (makes : setup.Makes p m before ⟨h, g.constraints⟩ s₁)
      (attached :
        (s₁.scope (setup.blueprint.topLevel p)).CanConstrain (before ++ [⟨h, g.constraints⟩]) ∧
            x.ConstrainedBy (s.scope (setup.blueprint.topLevel p)) g.constraints ∨
          ¬ (s₁.scope (setup.blueprint.topLevel p)).CanConstrain
              (before ++ [⟨h, g.constraints⟩]) ∧ x.isConstrained = false)

end Setup

/-- A parameter keeps its origin while the build goes on. -/
theorem Setup.Origin.mono {setup : Setup} {s s' : BuildState} {h : GenericHandle}
    {x y : GenericParam} (horigin : setup.Origin s h x) (hs : s.Extends s')
    (hxy : x.SameTerms y) : setup.Origin s' h y := by
  cases horigin with
  | type key p g registered first made complete =>
    exact .type key p g (hs.registry key h registered) first (made.of_alike hxy.toAlike)
      ((complete.of_sameTerms hxy).mono (hs.scope _))
  | method p m g before s₁ planned made makes attached =>
    refine .method p m g before s₁ planned (made.of_alike hxy.toAlike) makes ?_
    rcases attached with ⟨hcan, hcomplete⟩ | ⟨hcannot, hunmarked⟩
    · exact .inl ⟨hcan, (hcomplete.of_sameTerms hxy).mono (hs.scope _)⟩
    · exact .inr ⟨hcannot, hxy.isConstrained.trans hunmarked⟩

/-! ## The invariant -/

/-- Some key names the parameter. -/
def GenericRegistry.Names (r : GenericRegistry) (h : GenericHandle) : Prop :=
  ∃ key, r.get? key = some h

theorem BuildState.Extends.names {s s' : BuildState} (hs : s.Extends s') {h : GenericHandle}
    (hh : s.registry.Names h) : s'.registry.Names h := by
  obtain ⟨key, hkey⟩ := hh
  exact ⟨key, hs.registry key h hkey⟩

/-- All parameters have an origin, and those that types and methods list are registered. -/
structure Traced (setup : Setup) (s : BuildState) : Prop where
  origin : ∀ key h, s.registry.get? key = some h →
    ∃ x, s.store.generics.get? h = some x ∧ setup.Origin s h x
  ofType : ∀ o t, s.store.types.get? o = some t → ∀ h ∈ t.generics, s.registry.Names h
  ofMethod : ∀ o m, s.store.methods.get? o = some m → ∀ h ∈ m.generics, s.registry.Names h

namespace Traced

variable {setup : Setup} {s s₁ s' : BuildState}

/-- A step that touches no parameter leaves all of them traced. -/
theorem sameGenerics (h : Traced setup s) (hs : SameGenerics s s') : Traced setup s' where
  origin key o ho := by
    rw [hs.registry_eq] at ho
    obtain ⟨x, hx, horigin⟩ := h.origin key o ho
    exact ⟨x, by rw [hs.generics_eq, hx], horigin.mono hs.toExtends (.refl x)⟩
  ofType o t ht g hg := by
    have hlists := hs.typeGenerics o
    rw [ht] at hlists
    obtain ⟨t', ht', heq⟩ := Option.map_eq_some_iff.mp hlists.symm
    exact hs.names (h.ofType o t' ht' g (heq ▸ hg))
  ofMethod o m hm g hg := by
    rw [hs.methods_eq] at hm
    exact hs.names (h.ofMethod o m hm g hg)

theorem keeps_of_sameGenerics {α : Type} {step : Build α} (h : Build.Keeps SameGenerics step) :
    Build.Keeps (Build.Preserves (Traced setup)) step :=
  h.mono fun _ _ hs htraced => htraced.sameGenerics hs

/-- Registering and constraining the parameters of a method leaves all parameters traced: the old
ones are as they were, and the new ones have their origin here. -/
theorem constrains (h : Traced setup s) {p : TypePlan} {m : MethodPlan}
    {params : Array GenericPlan} {listed : Array GenericHandle} {objects : List GenericHandle}
    {pending : Array PendingGeneric} (hreach : setup.ReachesMethod p m s)
    (hparams : m.generics = some params)
    (hdeclare : (Setup.declareGenerics (.method m.token) (setup.blueprint.topLevel p) #[]
      params).Yields s (listed, pending) s₁)
    (hregisters : Registers (fun g => s.registry.key g.index (setup.blueprint.topLevel p))
      (.method m.token) params.toList s s₁ objects pending.toList)
    (hconstrains : Constrains (s₁.scope (setup.blueprint.topLevel p)) pending.toList s₁ s')
    (hgrows : s₁.Extends s') : Traced setup s' := by
  have hall : s.Extends s' := hregisters.extends_state.trans hgrows
  constructor
  case origin =>
    intro key o ho
    rw [hconstrains.registry] at ho
    cases hold : s.registry.get? key with
    | some o' =>
      obtain rfl : o' = o := Option.some.inj ((hregisters.registry key o' hold).symm.trans ho)
      obtain ⟨x, hx, horigin⟩ := h.origin key o' hold
      obtain ⟨y, hy, hterms⟩ := hregisters.generics o' x hx
      -- only new parameters are pending, so the constraints of this one are left alone
      have hsettled : o' ∉ pending.toList.map PendingGeneric.param := by
        intro hmem
        obtain ⟨item, hitem, rfl⟩ := List.mem_map.mp hmem
        rw [(hregisters.fresh item hitem).1] at hx
        cases hx
      exact ⟨y, (hconstrains.others o' hsettled).trans hy, horigin.mono hall hterms⟩
    | none =>
      obtain ⟨g, hfirst, hitem, x, hx, hmade⟩ := hregisters.made key o hold ho
      have hplanned : g ∈ (m.generics.getD #[]).toList := by
        rw [hparams]
        exact List.mem_of_find?_eq_some hfirst
      obtain ⟨-, x', hx', hun⟩ := hregisters.fresh _ hitem
      obtain rfl := Option.some.inj (hx.symm.trans hx')
      obtain ⟨before, after, hsplit⟩ := List.append_of_mem hitem
      obtain ⟨y, hy, halike, hattached⟩ := hconstrains.attached before _ after x hsplit hx hun
      refine ⟨y, hy, .method p m g before s₁ hplanned (hmade.of_alike halike)
        ⟨s, params, listed, pending, after, hreach, hparams, hdeclare, hsplit⟩ ?_⟩
      exact hattached.imp_left (And.imp_right (·.mono (hgrows.scope _)))
  case ofType =>
    intro o t ht g hg
    rw [hconstrains.types, hregisters.types] at ht
    exact hall.names (h.ofType o t ht g hg)
  case ofMethod =>
    intro o d hd g hg
    rw [hconstrains.store, hregisters.store] at hd
    exact hall.names (h.ofMethod o d hd g hg)

end Traced

/-! ## Methods -/

/-- All parameters are traced, and those that a method is going to list are registered. -/
structure TracedWith (setup : Setup) (listed : Array GenericHandle) (s : BuildState) : Prop
    extends Traced setup s where
  names : ∀ h ∈ listed, s.registry.Names h

namespace TracedWith

variable {setup : Setup} {listed : Array GenericHandle} {s : BuildState}

theorem keeps_of_allocates {α : Type} {step : Build α} (h : Build.Keeps Allocates step) :
    Build.Keeps (Build.Preserves (TracedWith setup listed)) step :=
  h.mono fun _ _ hs htraced =>
    ⟨htraced.toTraced.sameGenerics hs.toSameGenerics, fun g hg => hs.names (htraced.names g hg)⟩

/-- A new method may list them. -/
theorem keeps_allocMethod {d : MethodDef} (hd : d.generics = listed) :
    Build.Keeps (Build.Preserves (TracedWith setup listed)) (Build.allocMethod d) := by
  subst hd
  intro s h
  have hgrows := (ClrImage.keeps_allocMethod d s).toExtends
  refine ⟨⟨fun key o ho => ?_, fun o t ht => h.ofType o t ht, fun o m hm => ?_⟩, h.names⟩
  · obtain ⟨x, hx, horigin⟩ := h.origin key o ho
    exact ⟨x, hx, horigin.mono hgrows (.refl x)⟩
  · have hm : (s.store.methods.alloc d).get? o = some m := hm
    rw [Arena.get?_alloc] at hm
    split at hm
    · obtain rfl := Option.some.inj hm
      exact h.names
    · exact h.ofMethod o m hm

end TracedWith

section Methods

variable {setup : Setup} (hresolver : setup.resolver = Resolver.default) {site : MemberSite}
  {p : TypePlan} {m : MethodPlan} {s : BuildState}

include hresolver in
/-- The parameters of a method are traced, whether or not all constraints could be attached. -/
theorem traced_makeMethodGenerics (hsite : site.topLevel = setup.blueprint.topLevel p)
    (htraced : Traced setup s) (hreach : setup.ReachesMethod p m s) :
    Traced setup ((setup.makeMethodGenerics site m).outcome s).2 := by
  unfold Setup.makeMethodGenerics
  split
  next => exact htraced
  next params hparams =>
    rw [hsite]
    obtain ⟨objects, pending, s₁, hdeclare, hregisters⟩ :=
      declareGenerics_registers (.method m.token) (setup.blueprint.topLevel p) #[] params s
    have hnodup := hregisters.nodup
    have hconstrains := constrainGenerics_constrains hresolver (setup.blueprint.topLevel p) pending
      s₁ hnodup
    have hgrows : s₁.Extends
        ((setup.constrainGenerics (setup.blueprint.topLevel p) pending).outcome s₁).2 :=
      (keeps_constrainGenerics _ pending s₁).toExtends
    rw [Build.outcome_bind_of_yields hdeclare, Build.outcome_bind_pure_snd]
    exact htraced.constrains hreach hparams hdeclare hregisters hconstrains hgrows

include hresolver in
/-- Making a method, whatever its outcome, leaves all parameters traced. -/
theorem traced_makeMethod (hsite : site.topLevel = setup.blueprint.topLevel p)
    (htraced : Traced setup s) (hreach : setup.ReachesMethod p m s) :
    Traced setup ((setup.makeMethod site m).outcome s).2 := by
  have hgenerics := traced_makeMethodGenerics hresolver hsite htraced hreach
  unfold Setup.makeMethod
  refine Build.outcome_bind_induction _ hgenerics fun listed s₁ hyields htraced₁ => ?_
  have hlisted : ∀ h ∈ listed, s₁.registry.Names h := by
    obtain ⟨objects, hobjects, heq⟩ := yields_makeMethodGenerics hyields
    intro h hh
    rw [← Array.mem_toList_iff, heq, List.mem_eraseDups] at hh
    obtain ⟨g, -, hg⟩ := exists_of_forall₂ hobjects.flip hh
    exact ⟨_, hg⟩
  -- the steps between touch no parameter, and the method comes last
  refine (show Build.Keeps (Build.Preserves (TracedWith setup listed)) _ from ?_) s₁
    ⟨htraced₁, hlisted⟩ |>.toTraced
  refine Build.Keeps.bind (keeps_resolve _ _) fun _ => ?_
  refine Build.Keeps.bind (Build.Keeps.mapM (fun _ => keeps_resolve _ _) _) fun _ => ?_
  refine Build.Keeps.bind (TracedWith.keeps_of_allocates ?_) fun _ => ?_
  · exact Build.Keeps.mapM (fun _ => keeps_makeParam site _ _ _) _
  · exact Build.Keeps.bind Build.Keeps.get fun _ => TracedWith.keeps_allocMethod rfl

end Methods

/-! ## Types -/

section Types

variable {setup : Setup} (hresolver : setup.resolver = Resolver.default) {p : TypePlan}
  {s : BuildState}
include hresolver

/-- Making the members of a type, whatever its outcome, leaves all parameters traced. -/
theorem traced_stage {h : TypeHandle} {t : TypeDef} (hreach : setup.Reaches p s)
    (hskip : ¬ setup.Skips p) (hmanaged : (Build.managedType p).Yields s (h, t) s)
    (htraced : Traced setup s) :
    Traced setup
      ((setup.stage ⟨s.store.fullName t, setup.blueprint.topLevel p⟩ p).outcome s).2 := by
  have hkeeps {α : Type} {step : Build α} (h : Build.Keeps Allocates step) :
      Build.Keeps (Build.Preserves (Traced setup)) step :=
    Traced.keeps_of_sameGenerics (h.mono fun _ _ => Allocates.toSameGenerics)
  unfold Setup.stage
  refine Build.outcome_bind_induction _ (hkeeps (keeps_makeFields _ p) s htraced)
    fun fields s₁ hfields htraced₁ => ?_
  refine Build.outcome_bind_induction _ ?_ fun methods s₂ _ htraced₂ => ?_
  · -- the methods come one after the other, each in a state that the build comes to
    refine Build.outcome_mapM_induction (Traced setup) htraced₁ ?_
    intro earlier m later made s₂ hsplit hearlier htraced₂
    rw [Build.outcome_bind_pure_snd]
    refine traced_makeMethod hresolver rfl htraced₂ ⟨s, earlier, later, hreach, hskip, hsplit, ?_⟩
    unfold Setup.populateUpTo
    refine Build.yields_bind.mpr ⟨(h, t), s, hmanaged, ?_⟩
    refine Build.yields_bind.mpr ⟨s, s, rfl, Build.yields_bind.mpr ⟨fields, s₁, hfields, ?_⟩⟩
    exact Build.yields_bind.mpr ⟨made, s₂, hearlier, rfl⟩
  · refine (show Build.Keeps (Build.Preserves (Traced setup)) _ from ?_) s₂ htraced₂
    refine Build.Keeps.bind (hkeeps (keeps_makeProperties _ _ p)) fun _ => ?_
    exact Build.Keeps.bind (hkeeps (keeps_makeEvents _ _ p)) fun _ => Build.Keeps.pure _

/-- Populating a type, whatever its outcome, leaves all parameters traced. -/
theorem traced_populate (hreach : setup.Reaches p s) (hskip : ¬ setup.Skips p)
    (htraced : Traced setup s) : Traced setup ((setup.populate p).outcome s).2 := by
  unfold Setup.populate
  refine Build.outcome_bind_induction (Traced setup) ?_ fun entry s₁ hmanaged htraced₁ => ?_
  · rw [Build.outcome_managedType_snd]
    exact htraced
  obtain rfl := (Build.yields_managedType.mp hmanaged).2.2
  refine Build.outcome_bind_induction _ htraced₁ fun s₁ s₂ hget _ => ?_
  obtain ⟨rfl, rfl⟩ := Build.yields_get.mp hget
  refine Build.outcome_bind_induction _ (traced_stage hresolver hreach hskip hmanaged htraced)
    fun staged s₂ _ htraced₂ => ?_
  refine (show Build.Keeps (Build.Preserves (Traced setup)) _ from ?_) s₂ htraced₂
  refine Build.Keeps.bind (Traced.keeps_of_sameGenerics ?_) fun _ =>
    Traced.keeps_of_sameGenerics ?_
  · exact (keeps_publish entry.1 staged).mono fun _ _ => PublishesInto.toSameGenerics
  · exact (keeps_noticePopulated entry.1).mono fun _ _ => Allocates.toSameGenerics

/-- So does going on over a failure. -/
theorem traced_populateOrRecord (hreach : setup.Reaches p s) (htraced : Traced setup s) :
    Traced setup ((setup.populateOrRecord p).outcome s).2 := by
  have hnotice (n : Notice) (s : BuildState) (h : Traced setup s) :
      Traced setup ((Build.notice n).outcome s).2 :=
    h.sameGenerics (keeps_notice n s).toSameGenerics
  have htype : Traced setup ((setup.populateType p).outcome s).2 := by
    unfold Setup.populateType
    split
    next => exact hnotice _ s htraced
    next hskip =>
      exact Build.outcome_tryCatch_induction _ (traced_populate hresolver hreach hskip htraced)
        fun e s₁ _ htraced₁ => hnotice _ s₁ htraced₁
  unfold Setup.populateOrRecord
  split
  · refine Build.outcome_tryCatch_induction _ htype fun e s₁ _ htraced₁ => ?_
    exact htraced₁.sameGenerics ⟨{ BuildState.Extends.refl s₁ with }, rfl, rfl, rfl, fun _ => rfl⟩
  · exact htype

end Types

end ClrImage
