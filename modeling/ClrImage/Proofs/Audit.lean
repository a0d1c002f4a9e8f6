import ClrImage.Proofs.Continuation
import ClrImage.Proofs.Independence
import ClrImage.Proofs.Ledger

/-!
# The ledger of a build

A build keeps the ledger of owners from its start to its end, also where it goes on over failures,
and whatever its resolver. Each owner of a parameter is a container in the plan of some type, and
the key of the parameter is one that an index stands for in that plan.

- `TypePlan.Contains`, `Setup.MayOwn`: containers of parameters, and the keys that they may own.
- `Booked`: the ledger, with owners that the plans allow.
- `Booked.populateOrRecord`: population of a type preserves it, whatever its outcome.
- `passes_of_run`, `run_of_passes`: a build that gives an image consists of three passes that
  succeed.
- `booked_of_run`: the ledger of that image.
-/

namespace ClrImage

/-- The containers of generic parameters in the plan of a type: the type and its methods. -/
inductive TypePlan.Contains (p : TypePlan) : GenericOwner → Prop
  | type : Contains p (.type p.token)
  | method {m : MethodPlan} (planned : m ∈ p.methods) : Contains p (.method m.token)

/-- A container in the plan of a type may own what an index stands for in that plan. -/
def Setup.MayOwn (setup : Setup) (key : GenericKey) (owner : GenericOwner) : Prop :=
  ∃ p ∈ setup.types, p.Contains owner ∧ ∃ index, key = setup.keyAt p index

/-- The ledger is right, and all owners are containers that may own what they do. -/
structure Booked (setup : Setup) (s : BuildState) : Prop extends Ledger setup.MayOwn s where
  scope : s.registry.scope = setup.config.registryScope

/-! ## Steps -/

/-- Whatever does not depend on more than lists and owners is preserved by the hierarchy pass, if
registering the parameters of a type preserves it. -/
theorem configureHierarchy_preserves {setup : Setup} {I : BuildState → Prop} {s s' : BuildState}
    (same : ∀ s s', SameLists s s' → I s → I s')
    (declare : ∀ p ∈ setup.types, ∀ s pending s', I s →
      (setup.declareTypeGenerics p).Yields s pending s' → I s')
    (hs : I s) (hrun : setup.configureHierarchy.Yields s () s') : I s' := by
  obtain ⟨_, made, s₁, s₂, rfl, hfirst, hsecond, rfl⟩ := yields_configureHierarchy.mp hrun
  have htold {s : BuildState} (h : I s) {n : Notice} (hn : n.tellsSharing = false) :
      I { s with notices := s.notices.push n } :=
    same _ _ (keeps_notice_sameLists hn s) h
  have h₁ := Build.mapM_induction (fun _ _ _ s => I s) (htold hs rfl)
    (fun _ p _ _ _ _ _ hsplit h hstep =>
      declare p (by simp [hsplit]) _ _ _ h (Setup.yields_inContext.mp hstep)) hfirst
  have h₂ := Build.forM_induction (fun _ _ s => I s) h₁
    (fun _ e _ _ _ _ h hstep => same _ _ ((keeps_configure_sameLists e.1 e.2).of_yields
      (Setup.yields_inContext.mp hstep)) h) hsecond
  exact htold h₂ rfl

namespace Booked

variable {setup : Setup} {s s' : BuildState} {p : TypePlan}

theorem sameOwners (hs : Booked setup s) (h : SameOwners s s') : Booked setup s' :=
  ⟨hs.toLedger.sameOwners h, h.registry ▸ hs.scope⟩

theorem keeps_of_sameOwners {α : Type} {step : Build α} (h : Build.Keeps SameOwners step) :
    Build.Keeps (Build.Preserves (Booked setup)) step :=
  h.mono fun _ _ hsame hs => hs.sameOwners hsame

theorem keeps_of_sameLists {α : Type} {step : Build α} (h : Build.Keeps SameLists step) :
    Build.Keeps (Build.Preserves (Booked setup)) step :=
  keeps_of_sameOwners (h.mono fun _ _ => SameLists.toSameOwners)

/-- Nothing is owned at the start. -/
theorem initial (setup : Setup) : Booked setup (.initial setup.config) where
  closed k h hk := by simp [BuildState.initial, GenericRegistry.get?] at hk
  injective k k' h hk := by simp [BuildState.initial, GenericRegistry.get?] at hk
  registered i hi := absurd hi (Nat.not_lt_zero i)
  allowed k h hk := by simp [BuildState.initial, GenericRegistry.get?] at hk
  nodup h := by simp [BuildState.initial, BuildState.ownersOf]
  first h x hx := by simp [BuildState.initial] at hx
  told := rfl
  scope := rfl

/-- The parameters of a container in a type's plan get an owner that may own them. -/
theorem declareGenerics (hs : Booked setup s) (hp : p ∈ setup.types) {owner : GenericOwner}
    (howner : p.Contains owner) {listed : Array GenericHandle} {params : Array GenericPlan}
    {out : Array GenericHandle × Array PendingGeneric}
    (hrun : (Setup.declareGenerics owner (setup.blueprint.topLevel p) listed params).Yields s
      out s') : Booked setup s' where
  toLedger := by
    refine hs.toLedger.declareGenerics (fun g _ => ⟨p, hp, howner, g.index, ?_⟩) hrun
    exact GenericRegistry.key_congr hs.scope g.index _
  scope :=
    ((keeps_declareGenerics owner _ listed params).of_yields hrun).registryScope.trans hs.scope

theorem declareTypeGenerics (hs : Booked setup s) (hp : p ∈ setup.types) {pending}
    (hrun : (setup.declareTypeGenerics p).Yields s pending s') : Booked setup s' := by
  unfold Setup.declareTypeGenerics at hrun
  obtain ⟨⟨h, t⟩, _, hmanaged, hrun⟩ := Build.yields_bind.mp hrun
  obtain ⟨-, -, rfl⟩ := Build.yields_managedType.mp hmanaged
  dsimp only at hrun
  split at hrun
  next =>
    obtain ⟨-, rfl⟩ := Build.yields_pure.mp hrun
    exact hs
  next params _ =>
    split at hrun
    next =>
      obtain ⟨-, rfl⟩ := Build.yields_pure.mp hrun
      exact hs
    next =>
      obtain ⟨out, s₁, hdeclare, hrun⟩ := Build.yields_bind.mp hrun
      obtain ⟨_, s₂, hlist, hpure⟩ := Build.yields_bind.mp hrun
      obtain ⟨-, rfl⟩ := Build.yields_pure.mp hpure
      obtain rfl := Build.yields_modify.mp hlist
      exact (hs.declareGenerics hp .type hdeclare).sameOwners (.of_eq rfl rfl rfl)

/-- The hierarchy pass keeps the ledger. -/
theorem configureHierarchy (hs : Booked setup s)
    (hrun : setup.configureHierarchy.Yields s () s') : Booked setup s' :=
  configureHierarchy_preserves (fun _ _ hsame hs => hs.sameOwners hsame.toSameOwners)
    (fun _ hp _ _ _ hs hstep => hs.declareTypeGenerics hp hstep) hs hrun

/-- The parameters of a method are booked, whether or not its constraints can be attached. -/
theorem makeMethodGenerics (hs : Booked setup s) (hp : p ∈ setup.types) {site : MemberSite}
    (hsite : site.topLevel = setup.blueprint.topLevel p) {m : MethodPlan} (hm : m ∈ p.methods) :
    Booked setup ((setup.makeMethodGenerics site m).outcome s).2 := by
  unfold Setup.makeMethodGenerics
  split
  next => exact hs
  next params _ =>
    obtain ⟨objects, pending, s₁, hdeclare, -⟩ :=
      declareGenerics_registers (.method m.token) site.topLevel #[] params s
    rw [Build.outcome_bind_of_yields hdeclare, Build.outcome_bind_pure_snd]
    rw [hsite] at hdeclare
    exact keeps_of_sameLists (keeps_constrainGenerics_sameLists _ pending) s₁
      (hs.declareGenerics hp (.method hm) hdeclare)

theorem makeMethod (hs : Booked setup s) (hp : p ∈ setup.types) {site : MemberSite}
    (hsite : site.topLevel = setup.blueprint.topLevel p) {m : MethodPlan} (hm : m ∈ p.methods) :
    Booked setup ((setup.makeMethod site m).outcome s).2 := by
  unfold Setup.makeMethod
  refine Build.outcome_bind_induction _ (hs.makeMethodGenerics hp hsite hm) fun _ s₁ _ h₁ => ?_
  refine (show Build.Keeps (Build.Preserves (Booked setup)) _ from ?_) s₁ h₁
  refine Build.Keeps.bind (keeps_resolve _ _) fun _ => ?_
  refine Build.Keeps.bind (Build.Keeps.mapM (fun _ => keeps_resolve _ _) _) fun _ => ?_
  refine Build.Keeps.bind (keeps_of_sameLists ?_) fun _ => ?_
  · exact Build.Keeps.mapM (fun _ => keeps_makeParam site _ _ _) _
  · exact Build.Keeps.bind Build.Keeps.get
      fun _ => keeps_of_sameOwners (keeps_allocMethod_sameOwners _)

/-- Making the members of a type keeps the ledger, whatever the outcome. -/
theorem stage (hs : Booked setup s) (hp : p ∈ setup.types) {site : MemberSite}
    (hsite : site.topLevel = setup.blueprint.topLevel p) :
    Booked setup ((setup.stage site p).outcome s).2 := by
  unfold Setup.stage
  refine Build.outcome_bind_induction _ (keeps_of_sameLists (keeps_makeFields site p) s hs)
    fun fields s₁ _ h₁ => ?_
  refine Build.outcome_bind_induction _ ?_ fun methods s₂ _ h₂ => ?_
  · refine Build.outcome_mapM_induction _ h₁ fun earlier m later made s₂ hsplit _ h₂ => ?_
    have hm : m ∈ p.methods := by
      rw [← Array.mem_toList_iff, hsplit]
      simp
    rw [Build.outcome_bind_pure_snd]
    exact h₂.makeMethod hp hsite hm
  · refine (show Build.Keeps (Build.Preserves (Booked setup)) _ from ?_) s₂ h₂
    refine Build.Keeps.bind (keeps_of_sameLists (keeps_makeProperties site _ p)) fun _ => ?_
    exact Build.Keeps.bind (keeps_of_sameLists (keeps_makeEvents site _ p))
      fun _ => Build.Keeps.pure _

theorem populate (hs : Booked setup s) (hp : p ∈ setup.types) :
    Booked setup ((setup.populate p).outcome s).2 := by
  unfold Setup.populate
  refine Build.outcome_bind_induction (Booked setup) ?_ fun entry s₁ _ h₁ => ?_
  · rw [Build.outcome_managedType_snd]
    exact hs
  refine Build.outcome_bind_induction _ h₁ fun _ s₂ hget h₂ => ?_
  refine Build.outcome_bind_induction _ (h₂.stage hp rfl) fun staged s₃ _ h₃ => ?_
  refine Build.outcome_bind_induction _ ?_ fun _ s₄ _ h₄ => ?_
  · exact keeps_of_sameOwners (keeps_publish_sameOwners _ _) s₃ h₃
  · exact keeps_of_sameLists (keeps_noticePopulated_sameLists _) s₄ h₄

/-- So does going on over a failure. -/
theorem populateOrRecord (hs : Booked setup s) (hp : p ∈ setup.types) :
    Booked setup ((setup.populateOrRecord p).outcome s).2 := by
  have htold (n : Notice) (hn : n.tellsSharing = false) (s : BuildState) (h : Booked setup s) :
      Booked setup ((Build.notice n).outcome s).2 :=
    keeps_of_sameLists (keeps_notice_sameLists hn) s h
  have htype : Booked setup ((setup.populateType p).outcome s).2 := by
    unfold Setup.populateType
    split
    · exact htold _ rfl s hs
    · exact Build.outcome_tryCatch_induction _ (hs.populate hp) fun _ s₁ _ h₁ => htold _ rfl s₁ h₁
  unfold Setup.populateOrRecord
  split
  · exact Build.outcome_tryCatch_induction _ htype fun e s₁ _ h₁ =>
      h₁.sameOwners (.of_eq rfl rfl rfl)
  · exact htype

end Booked

/-! ## Builds -/

/-- Nesting a type touches no parameter. -/
theorem keeps_wireDeclaring_sameOwners (setup : Setup) (p : TypePlan) :
    Build.Keeps SameOwners (setup.wireDeclaring p) := by
  unfold Setup.wireDeclaring
  split
  · exact Build.Keeps.pure ()
  split
  · exact Build.Keeps.throw _
  refine Build.Keeps.bind Build.Keeps.get fun _ => ?_
  split
  · exact Build.Keeps.throw _
  next outer _ =>
    refine Build.Keeps.bind (keeps_managed p) fun h s => ?_
    rw [Build.outcome_bind, Build.outcome_get]
    dsimp only
    rw [Build.outcome_bind, Build.outcome_liftExcept]
    rcases hset : s.store.setDeclaring h outer with e | store
    · exact .refl s
    refine .of_eq rfl ?_ rfl
    unfold Store.setDeclaring at hset
    split at hset
    next =>
      obtain rfl := Except.ok.inj hset
      rfl
    next =>
      split at hset
      next => cases hset
      next =>
        obtain rfl := Except.ok.inj hset
        rfl

/-- Declaring types touches no parameter. -/
theorem keeps_declareTypes_sameOwners (setup : Setup) :
    Build.Keeps SameOwners setup.declareTypes := by
  have hcontext {step : Build Unit} (p : TypePlan) (h : Build.Keeps SameOwners step) :
      Build.Keeps SameOwners (setup.inContext .declare p step) :=
    Build.Keeps.inContext (fun _ _ => SameLists.toSameOwners) h
  unfold Setup.declareTypes
  refine Build.Keeps.bind (Build.Keeps.forM (fun p => hcontext p ?_) _) fun _ => ?_
  · exact Build.Keeps.bind Build.Keeps.get fun _ => Build.Keeps.bind Build.Keeps.get fun _ =>
      Build.Keeps.bind (Build.Keeps.liftExcept _) fun _ =>
        Build.Keeps.modify fun _ => .of_eq rfl rfl rfl
  refine Build.Keeps.bind (Build.Keeps.forM (fun p => hcontext p ?_) _) fun _ => ?_
  · exact keeps_wireDeclaring_sameOwners setup p
  · exact Build.Keeps.bind Build.Keeps.get fun _ =>
      (keeps_notice_sameLists rfl).mono fun _ _ => SameLists.toSameOwners

/-- A build that gives an image has been through its three passes, each with success. -/
theorem passes_of_run {setup : Setup} {image : Image} {s : BuildState}
    (hrun : setup.run = (.ok image, s)) : ∃ s₀ s₁ s₂,
      setup.declareTypes.Yields
        { BuildState.initial setup.config with
          notices := #[.building setup.blueprint.module setup.types.length
            setup.config.registryScope] } () s₀ ∧
      setup.configureHierarchy.Yields s₀ () s₁ ∧
      Build.Yields (setup.types.forM setup.populateOrRecord) (setup.opened s₁) () s₂ ∧
      image = setup.image s₂ ∧ s.sharings = s₂.sharings := by
  have hrun : setup.build.Yields (.initial setup.config) image s := hrun
  unfold Setup.build at hrun
  obtain ⟨_, s₀, htell, hrun⟩ := Build.yields_bind.mp hrun
  obtain rfl := Build.yields_modify.mp htell
  obtain ⟨_, s₁, hdeclare, hrun⟩ := Build.yields_bind.mp hrun
  obtain ⟨_, s₂, hconfigure, hrun⟩ := Build.yields_bind.mp hrun
  obtain ⟨_, s₃, hmembers, hrun⟩ := Build.yields_bind.mp hrun
  rw [Build.yields_get_bind] at hrun
  obtain ⟨_, s₄, htell, hpure⟩ := Build.yields_bind.mp hrun
  obtain ⟨rfl, rfl⟩ := Build.yields_pure.mp hpure
  obtain rfl := Build.yields_modify.mp htell
  unfold Setup.populateMembers at hmembers
  obtain ⟨_, _, htell, hmembers⟩ := Build.yields_bind.mp hmembers
  obtain rfl := Build.yields_modify.mp htell
  obtain ⟨_, s₅, hpass, htell⟩ := Build.yields_bind.mp hmembers
  rw [Build.yields_get_bind] at htell
  obtain rfl := Build.yields_modify.mp htell
  refine ⟨s₁, s₂, s₅, hdeclare, hconfigure, hpass, rfl, ?_⟩
  simp [BuildState.sharings, Notice.tellsSharing]

/-- Three passes that succeed one after the other are a build. -/
theorem run_of_passes {setup : Setup} {s₀ s₁ s₂ : BuildState}
    (hdeclare : setup.declareTypes.Yields
      { BuildState.initial setup.config with
        notices := #[.building setup.blueprint.module setup.types.length
          setup.config.registryScope] } () s₀)
    (hconfigure : setup.configureHierarchy.Yields s₀ () s₁)
    (hpass : Build.Yields (setup.types.forM setup.populateOrRecord) (setup.opened s₁) () s₂) :
    ∃ s, setup.run = (.ok (setup.image s₂), s) := by
  have hmembers : setup.populateMembers.Yields s₁ ()
      { s₂ with notices := s₂.notices.push (.membersPopulated s₂.links.methodCount) } :=
    Build.yields_bind.mpr ⟨(), _, rfl, Build.yields_bind.mpr ⟨(), s₂, hpass, rfl⟩⟩
  suffices ∃ s, setup.build.Yields (.initial setup.config) (setup.image s₂) s from this
  exact ⟨_, Build.yields_bind.mpr ⟨(), _, rfl, Build.yields_bind.mpr ⟨(), s₀, hdeclare,
    Build.yields_bind.mpr ⟨(), s₁, hconfigure, Build.yields_bind.mpr ⟨(), _, hmembers, rfl⟩⟩⟩⟩⟩

/-- The ledger is right when all types have been declared. -/
theorem booked_of_declareTypes {setup : Setup} {n : Notice} (hn : n.tellsSharing = false)
    {s : BuildState}
    (hdeclare : setup.declareTypes.Yields
      { BuildState.initial setup.config with notices := #[n] } () s) : Booked setup s := by
  have htold := keeps_notice_sameLists hn (.initial setup.config)
  exact ((Booked.initial setup).sameOwners htold.toSameOwners).sameOwners
    ((keeps_declareTypes_sameOwners setup).of_yields hdeclare)

/-- Every image has its owners in a ledger that is right. -/
theorem booked_of_run {setup : Setup} {image : Image} {s : BuildState}
    (hrun : setup.run = (.ok image, s)) :
    ∃ s₁, Booked setup s₁ ∧ image = setup.image s₁ ∧ s.sharings = s₁.sharings := by
  obtain ⟨s₀, s₁, s₂, hdeclare, hconfigure, hpass, himage, hsharings⟩ := passes_of_run hrun
  refine ⟨s₂, ?_, himage, hsharings⟩
  have hopened : Booked setup (setup.opened s₁) :=
    ((booked_of_declareTypes rfl hdeclare).configureHierarchy hconfigure).sameOwners
      (keeps_notice_sameLists rfl s₁).toSameOwners
  exact Build.forM_induction (fun _ _ s => Booked setup s) hopened
    (fun _ p _ _ _ hsplit h hstep =>
      hstep.outcome_snd ▸ h.populateOrRecord (by simp [hsplit])) hpass

end ClrImage
