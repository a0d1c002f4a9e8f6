import ClrImage.Proofs.Sides

/-!
# Threads keep everything sourced

What is done for a type keeps to the terms of the type, step by step: all that it adds to the build
was resolved from the plan of the type, whatever other types do in between.

- `Stepwise.safe_declareGenerics`, `Stepwise.safe_constrainGenerics`: generic parameters.
- `Stepwise.safe_declareTypeGenerics`, `Stepwise.safe_configure`: the hierarchy of a type.
- `Stepwise.safe_stage`, `Stepwise.safe_publish`: its members.
- `Stepwise.safe_populateOrRecord`: the whole population of a type.
-/

namespace ClrImage

namespace Stepwise

open Thread

variable {setup : Setup} {p : TypePlan} {s : BuildState}

/-! ## Steps of all threads -/

section

variable {E : Failure → BuildState → Prop}

/-- Telling something changes nothing else. -/
theorem quiet_notice (n : Notice) (E : Failure → BuildState → Prop) :
    (liftM (Build.notice n) : Thread Unit).Safe (setup.quietSide p) (fun _ _ => True) E s :=
  .idle ((keeps_notice n).mono fun _ _ => .of_allocates) (fun _ _ _ _ _ _ _ _ _ => trivial)
    fun _ _ _ hrun => (Build.fails_modify.mp hrun).elim

theorem safe_notice (n : Notice) (hmakers : MakersOwn setup p none s) :
    (liftM (Build.notice n) : Thread Unit).Safe (setup.side p) (fun _ => MakersOwn setup p none)
      (fun _ => MakersOwn setup p none) s :=
  ((quiet_notice n fun _ _ => True).leavesMakers hmakers).imp (fun _ _ _ _ h => h.2)
    fun _ _ _ _ => id

/-- A reference that has been resolved stays so. -/
theorem safe_resolve (hresolver : setup.resolver = Resolver.default) (topLevel : Token)
    (r : TypeRef) : (liftM (setup.resolve topLevel r) : Thread Signature).Safe (setup.quietSide p)
      (fun sig s => (s.scope topLevel).resolve r = .ok sig) (fun _ _ => True) s := by
  refine .idle (keeps_resolve topLevel r) (fun s₁ sig s₂ _ _ hrun s' hs' _ => ?_)
    fun _ _ _ _ _ => trivial
  obtain ⟨hsig, rfl⟩ := (yields_resolve hresolver).mp hrun
  exact Scope.resolve_extends (hs'.toExtends.scope _) hsig

/-- The type of a plan is found where it is linked, and lists what its plan's indices stand for. -/
theorem safe_managedType (hp : p ∈ setup.types) :
    (liftM (Build.managedType p) : Thread (TypeHandle × TypeDef)).Safe (setup.quietSide p)
      (fun entry s => s.links.types.get? p.token = some entry.1 ∧ ∀ h ∈ entry.2.generics,
        ∃ index, s.registry.get? (setup.keyAt p index) = some h) (fun _ _ => True) s := by
  refine .idle keeps_managedType (fun s₁ entry s₂ _ hsourced hrun s' hs' _ => ?_)
    fun _ _ _ _ _ => trivial
  obtain ⟨hlink, ht, rfl⟩ := Build.yields_managedType.mp hrun
  refine ⟨hs'.toExtends.links.types _ _ hlink, fun h hh => ?_⟩
  obtain ⟨index, hheld⟩ := (hsourced.of_type hp hlink ht).generics h hh
  exact ⟨index, hs'.toExtends.registry _ _ (hsourced.key_eq p index ▸ hheld)⟩

/-- A failure is told, and gets the context of the type. -/
theorem safe_inContext {α : Type} {P : α → BuildState → Prop} {phase : Phase} {t : Thread α}
    (h : t.Safe (setup.side p) P (fun _ => MakersOwn setup p none) s) :
    (inContext setup phase p t).Safe (setup.side p) P (fun _ => MakersOwn setup p none) s := by
  refine h.tryCatch fun source s₁ _ _ hmakers => ?_
  have hfail : (liftM (setup.fail phase p source) : Thread Failure).Safe (setup.quietSide p)
      (fun _ _ => True) (fun _ _ => True) s₁ :=
    .idle (Build.Keeps.bind ((keeps_notice _).mono fun _ _ => .of_allocates)
      fun _ => Build.Keeps.pure _) (fun _ _ _ _ _ _ _ _ _ => trivial) fun _ _ _ _ _ => trivial
  refine (hfail.leavesMakers hmakers).bind fun failure s₂ _ _ ⟨_, hmakers₂⟩ => ?_
  exact Safe.throw fun s' hs' _ => hmakers₂.mono hs' fun _ => id

end

/-! ## Generic parameters -/

section Generics

variable {owner : GenericOwner}

/-- The parameter is there, and the owner has been recorded for it. -/
def IsOwner (owner : GenericOwner) (h : GenericHandle) (s : BuildState) : Prop :=
  ∃ x, s.store.generics.get? h = some x ∧ owner ∈ x.owners

theorem IsOwner.mono {h : GenericHandle} {s s' : BuildState} (howner : IsOwner owner h s)
    (hs : Later s s') : IsOwner owner h s' := by
  obtain ⟨x, hx, hmem⟩ := howner
  obtain ⟨y, hy, hgains⟩ := hs.gains h x hx
  exact ⟨y, hy, hgains.owners owner hmem⟩

section Owners

variable {h : GenericHandle} {index : UInt32}
  (hheld : s.registry.get? (setup.keyAt p index) = some h)
include hheld

/-- The parameter is there from the start, and has the owner unless the owner is to be recorded. -/
theorem safe_lacksOwner : (liftM (Build.lacksOwner h owner) : Thread Bool).Safe (setup.quietSide p)
    (fun lacks s' => lacks = false → IsOwner owner h s') (fun _ _ => False) s := by
  refine .idle (fun s₁ => ?_) (fun s₁ lacks s₂ hs₁ hsourced hrun s' hs' _ hlacks => ?_)
    fun s₁ e s₂ hrun => absurd hrun (yields_lacksOwner h owner s₁).not_fails
  · rw [(yields_lacksOwner h owner s₁).outcome_snd]
    exact .refl s₁
  · obtain ⟨x, hx⟩ := hsourced.closed _ h (hs₁.toExtends.registry _ _ hheld)
    obtain ⟨hfound, rfl⟩ := (yields_lacksOwner h owner s₁).unique hrun
    rw [hlacks, hx] at hfound
    exact IsOwner.mono ⟨x, hx, by simpa [GenericParam.isOwnedBy] using hfound⟩ hs'.later

/-- An owner that the parameter may have is recorded. -/
theorem safe_recordOwner (hp : p ∈ setup.types) (howner : p.Contains owner) :
    (liftM (Build.modifyGeneric h fun param => { param with owners := param.owners.push owner }) :
      Thread Unit).Safe (setup.quietSide p) (fun _ => IsOwner owner h) (fun _ _ => False) s := by
  refine .quiet (fun s₁ hs₁ hsourced => ?_) ?_ (fun s₁ _ s₂ hs₁ hsourced hrun s' hs' _ => ?_)
    fun _ _ _ hrun => (Build.fails_modify.mp hrun).elim
  · refine hsourced.modifyGeneric h (fun _ => ⟨rfl, rfl, rfl, rfl, rfl⟩) fun x _ hx => ?_
    obtain ⟨k, hk, hmade, howners⟩ := hx.key
    refine ⟨⟨k, hk, hmade, fun o ho => ?_⟩, hx.constraints⟩
    rcases Array.mem_push.mp ho with ho | rfl
    · exact howners o ho
    · exact ⟨p, hp, howner, index,
        hsourced.injective k _ h hk (hs₁.toExtends.registry _ _ hheld)⟩
  · exact keeps_modifyGeneric_advances h fun x =>
      ⟨⟨rfl, rfl, rfl, rfl, rfl⟩, fun _ hmem => Array.mem_push_of_mem owner hmem⟩
  · obtain rfl := Build.yields_modify.mp hrun
    obtain ⟨x, hx⟩ := hsourced.closed _ h (hs₁.toExtends.registry _ _ hheld)
    refine IsOwner.mono ⟨{ x with owners := x.owners.push owner }, ?_, Array.mem_push_self⟩
      hs'.later
    show (s₁.store.generics.modify h _).get? h = _
    rw [Arena.get?_modify, if_pos rfl, hx]
    rfl

/-- Recording an owner that a parameter may have. -/
theorem safe_addOwner (hp : p ∈ setup.types) (howner : p.Contains owner) :
    (addOwner h owner).Safe (setup.quietSide p) (fun _ => IsOwner owner h) (fun _ _ => False)
      s := by
  unfold addOwner
  refine (safe_lacksOwner hheld).bind fun lacks s₁ hs₁ _ hlacks => ?_
  cases lacks with
  | false => exact Safe.pure fun s' hs' _ => (hlacks rfl).mono hs'.later
  | true =>
    have hheld₁ := (Setup.later_of_passes hs₁).toExtends.registry _ _ hheld
    -- others may have recorded owners in between, and those stay
    refine (safe_recordOwner hheld₁ hp howner).bind fun _ s₂ _ _ howner => ?_
    have hkeeps : Build.Keeps Idles (Build.noticeSharing h owner) :=
      keeps_noticeSharing (fun n => (keeps_notice n).mono fun _ _ => .of_allocates) h owner
    refine .idle hkeeps (fun s₃ _ s₄ hs₃ _ hrun s' hs' _ => ?_)
      fun s₃ e s₄ hrun => ?_
    · have hidles := hkeeps.of_yields hrun
      exact howner.mono (hs₃.later.trans (hidles.later.trans hs'.later))
    · obtain ⟨_, _, hyields⟩ := succeeds_noticeSharing h owner s₃
      exact absurd hrun hyields.not_fails

end Owners

/-- The parameter is what the plan's index stands for; if it is new, it was made for the owner. -/
structure Obtained (setup : Setup) (p : TypePlan) (owner : GenericOwner) (index : UInt32)
    (made : GenericHandle × Bool) (s : BuildState) : Prop where
  held : s.registry.get? (setup.keyAt p index) = some made.1
  new : made.2 = true → ∃ x, s.store.generics.get? made.1 = some x ∧ x.declaredBy = owner

theorem Obtained.mono {index : UInt32} {made : GenericHandle × Bool} {s s' : BuildState}
    (h : Obtained setup p owner index made s) (hs : s.Extends s') :
    Obtained setup p owner index made s' where
  held := hs.registry _ _ h.held
  new hnew := by
    obtain ⟨x, hx, hdeclared⟩ := h.new hnew
    obtain ⟨y, hy, halike⟩ := hs.generics _ x hx
    exact ⟨y, hy, halike.declaredBy.trans hdeclared⟩

theorem yields_lookUpGeneric (index : UInt32) (topLevel : Token) (s : BuildState) :
    (Build.lookUpGeneric index topLevel).Yields s (s.registry.key index topLevel,
      s.registry.get? (s.registry.key index topLevel)) s := rfl

/-- Only the parameter that has been obtained may be without its owner then. -/
theorem safe_obtainGeneric (hp : p ∈ setup.types) (howner : p.Contains owner) (g : GenericPlan)
    (hmakers : MakersOwn setup p none s) :
    (obtainGeneric owner (setup.blueprint.topLevel p) g).Safe (setup.side p)
      (fun made s => Obtained setup p owner g.index made s ∧
        MakersOwn setup p (some (made.1, owner)) s) (fun _ => MakersOwn setup p none) s := by
  have hlook : (liftM (Build.lookUpGeneric g.index (setup.blueprint.topLevel p)) :
      Thread (GenericKey × Option GenericHandle)).Safe (setup.quietSide p)
        (fun entry s => entry.1 = setup.keyAt p g.index ∧
          ∀ h, entry.2 = some h → s.registry.get? (setup.keyAt p g.index) = some h)
        (fun _ _ => True) s := by
    refine .idle (fun s => .refl s) (fun s₁ entry s₂ _ hsourced hrun s' hs' _ => ?_)
      fun _ _ _ _ _ => trivial
    obtain ⟨rfl, rfl⟩ := (yields_lookUpGeneric _ _ s₁).unique hrun
    rw [hsourced.key_eq]
    exact ⟨rfl, fun h hh => hs'.toExtends.registry _ _ hh⟩
  unfold obtainGeneric
  refine (hlook.leavesMakers hmakers).bind ?_
  rintro ⟨key, found⟩ s₁ - - ⟨⟨rfl, hfound⟩, hmakers₁⟩
  cases found with
  | some h =>
    refine Safe.pure fun s' hs' _ => ⟨⟨hs'.toExtends.registry _ _ (hfound h rfl), nofun⟩, ?_⟩
    exact (hmakers₁.mono hs' fun _ => id).but _
  | none =>
    -- others may have registered one in between; then that is what the plan gets
    refine Safe.lift_of_yields fun s₂ hs₂ hsourced => ?_
    obtain ⟨h, isNew, s₃, hrun, hregisters⟩ :=
      registerGeneric_registers (fun g => setup.keyAt p g.index) owner g s₂
    have hmakers₃ := (hmakers₁.mono hs₂ fun _ => id).registerGeneric g hrun
    have hinv := hsourced.registerGeneric ⟨p, hp, howner, g.index, rfl⟩ g
    have hguarantee := keeps_registerGeneric_advances howner (setup.keyAt p g.index) g s₂
    rw [hrun.outcome_snd] at hinv hguarantee
    refine ⟨_, s₃, hrun, hinv, hguarantee, fun s' hs' _ => ?_⟩
    refine ⟨Obtained.mono ⟨?_, fun hnew => ?_⟩ hs'.toExtends, hmakers₃.mono hs' fun _ => id⟩
    · obtain - | ⟨hheld, -⟩ := hregisters.objects_eq
      exact hheld
    · obtain rfl : isNew = true := hnew
      obtain ⟨g', hfind, -, hfree, hheld⟩ := hregisters.pends ⟨h, g.constraints⟩ (by simp)
      obtain ⟨_, -, -, x, hx, hmade⟩ := hregisters.made _ h hfree hheld
      exact ⟨x, hx, hmade.declaredBy⟩

/-- A parameter is pending for the container that made it, with the constraints of a plan. -/
def Pends (owner : GenericOwner) (params : List GenericPlan) (item : PendingGeneric)
    (s : BuildState) : Prop :=
  ∃ g ∈ params, item.constraints = g.constraints ∧
    ∃ x, s.store.generics.get? item.param = some x ∧ x.declaredBy = owner

theorem Pends.mono {params : List GenericPlan} {item : PendingGeneric} {s s' : BuildState}
    (h : Pends owner params item s) (hs : s.Extends s') : Pends owner params item s' := by
  obtain ⟨g, hg, hconstraints, x, hx, hdeclared⟩ := h
  obtain ⟨y, hy, halike⟩ := hs.generics _ x hx
  exact ⟨g, hg, hconstraints, y, hy, halike.declaredBy.trans hdeclared⟩

/-- One parameter of a container: its object is listed, and pending if it is new. -/
theorem safe_declareGeneric (hp : p ∈ setup.types) (howner : p.Contains owner)
    (acc : Array GenericHandle × Array PendingGeneric) (g : GenericPlan)
    (hmakers : MakersOwn setup p none s) :
    (declareGeneric owner (setup.blueprint.topLevel p) acc g).Safe (setup.side p)
      (fun acc' s => (∃ h, s.registry.get? (setup.keyAt p g.index) = some h ∧
          acc'.1 = listOnce acc.1 h) ∧
        (∀ item ∈ acc'.2, item ∈ acc.2 ∨ Pends owner [g] item s) ∧ MakersOwn setup p none s)
      (fun _ => MakersOwn setup p none) s := by
  unfold declareGeneric
  refine (safe_obtainGeneric hp howner g hmakers).bind ?_
  rintro ⟨h, isNew⟩ s₁ - - ⟨hobtained, hmakers₁⟩
  obtain ⟨listed, pending⟩ := acc
  have hrecord : (addOwner h owner).Safe (setup.side p) (fun _ s => IsOwner owner h s ∧
      MakersOwn setup p (some (h, owner)) s) (fun _ => MakersOwn setup p none) s₁ :=
    ((safe_addOwner hobtained.held hp howner).keepsMakers hmakers₁).imp (fun _ _ _ _ h => h)
      fun _ _ _ _ h => h.1.elim
  refine hrecord.bind fun _ s₂ hs₂ _ ⟨⟨x, hx, hmem⟩, hexcept⟩ => ?_
  have hobtained₂ := hobtained.mono (Setup.later_of_passes hs₂).toExtends
  have hmakers₂ : MakersOwn setup p none s₂ :=
    hexcept.record fun y hy => Option.some.inj (hx.symm.trans hy) ▸ hmem
  cases isNew with
  | false =>
    exact Safe.pure fun s' hs' _ => ⟨⟨h, hs'.toExtends.registry _ _ hobtained₂.held, rfl⟩,
      fun _ => .inl, hmakers₂.mono hs' fun _ => id⟩
  | true =>
    refine (safe_notice _ hmakers₂).bind fun _ s₃ hs₃ _ hmakers₃ => ?_
    have hobtained₃ := hobtained₂.mono (Setup.later_of_passes hs₃).toExtends
    refine Safe.pure fun s' hs' _ => ⟨⟨h, hs'.toExtends.registry _ _ hobtained₃.held, rfl⟩,
      fun item hitem => ?_, hmakers₃.mono hs' fun _ => id⟩
    rcases Array.mem_push.mp hitem with hitem | rfl
    · exact .inl hitem
    · exact .inr (Pends.mono ⟨g, by simp, rfl, hobtained₃.new rfl⟩ hs'.toExtends)

/-- The parameters of a container are listed in order, each where it comes first. -/
theorem safe_declareGenerics (hp : p ∈ setup.types) (howner : p.Contains owner)
    (listed : Array GenericHandle) (params : Array GenericPlan)
    (hmakers : MakersOwn setup p none s) :
    (declareGenerics owner (setup.blueprint.topLevel p) listed params).Safe (setup.side p)
      (fun acc s => (∃ objects, List.Forall₂ (fun g h =>
            s.registry.get? (setup.keyAt p g.index) = some h) params.toList objects ∧
          acc.1 = objects.foldl listOnce listed) ∧
        (∀ item ∈ acc.2, Pends owner params.toList item s) ∧ MakersOwn setup p none s)
      (fun _ => MakersOwn setup p none) s := by
  unfold declareGenerics
  refine Safe.foldlM (fun done acc s => (∃ objects, List.Forall₂ (fun g h =>
        s.registry.get? (setup.keyAt p g.index) = some h) done objects ∧
      acc.1 = objects.foldl listOnce listed) ∧
    (∀ item ∈ acc.2, Pends owner params.toList item s) ∧ MakersOwn setup p none s)
    ?stable ⟨⟨[], .nil, rfl⟩, by simp, hmakers⟩ ?step fun _ _ _ h => h
  case stable =>
    rintro done acc s s' hs ⟨⟨objects, hobjects, hlisted⟩, hpends, hmakers⟩
    exact ⟨⟨objects, hobjects.imp fun g h hh => hs.toExtends.registry _ _ hh, hlisted⟩,
      fun item hitem => (hpends item hitem).mono hs.toExtends, hmakers.mono hs fun _ => id⟩
  case step =>
    rintro done g todo acc s₁ hsplit - hsourced ⟨⟨objects, hobjects, hlisted⟩, hpends, hmakers₁⟩
    refine (safe_declareGeneric hp howner acc g hmakers₁).imp ?_ fun _ _ _ _ h => h
    rintro acc' s' hs' - ⟨⟨h, hheld, hlisted'⟩, hpends', hmakers'⟩
    have hgrown := (Setup.later_of_passes hs').toExtends
    refine ⟨⟨objects ++ [h], ?_, ?_⟩, fun item hitem => ?_, hmakers'⟩
    · exact List.rel_append (hobjects.imp fun g h hh => hgrown.registry _ _ hh)
        (.cons hheld .nil)
    · rw [List.foldl_append, ← hlisted]
      exact hlisted'
    · rcases hpends' item hitem with hold | ⟨g', hg', hrest⟩
      · exact (hpends item hold).mono hgrown
      · obtain rfl := List.mem_singleton.mp hg'
        exact ⟨g', by simp [hsplit], hrest⟩

/-- A pending parameter gets constraints of the container that made it. -/
theorem safe_constrainGeneric (hresolver : setup.resolver = Resolver.default) (hp : p ∈ setup.types)
    {params : List GenericPlan}
    (hmentions : ∀ g ∈ params, ∀ r ∈ g.constraints, p.Mentions owner r) {item : PendingGeneric}
    (hpends : Pends owner params item s) :
    (constrainGeneric setup (setup.blueprint.topLevel p) item).Safe (setup.quietSide p)
      (fun _ _ => True) (fun _ _ => True) s := by
  obtain ⟨g, hg, hconstraints, x, hx, hdeclared⟩ := hpends
  unfold constrainGeneric
  refine Safe.bind (P := fun _ _ => True) (Safe.forM_each fun r hr s₁ hs₁ _ => ?_)
    fun _ s₁ _ _ _ => ?_
  · refine (safe_resolve hresolver _ r).bind fun sig s₂ hs₂ _ hresolve => ?_
    refine .quiet (fun s₃ hs₃ hsourced => ?_) ?_ (fun _ _ _ _ _ _ _ _ _ => trivial)
      fun _ _ _ _ _ => trivial
    · -- the parameter is still the one that this container has made
      have hgrown := (Setup.later_of_passes (hs₁.trans hs₂)).toExtends.trans hs₃.toExtends
      obtain ⟨y, hy, halike⟩ := hgrown.generics _ x hx
      refine hsourced.modifyGeneric _ (fun _ => ⟨rfl, rfl, rfl, rfl, rfl⟩) fun z hz hsourced => ?_
      obtain rfl := Option.some.inj (hy.symm.trans hz)
      refine ⟨hsourced.key, fun sig' hsig' => ?_⟩
      rcases Array.mem_push.mp hsig' with hold | rfl
      · exact hsourced.constraints sig' hold
      · have hr : r ∈ g.constraints := hconstraints ▸ Array.mem_toList_iff.mp hr
        have hmention : p.Mentions y.declaredBy r :=
          (halike.declaredBy.trans hdeclared) ▸ hmentions g hg r hr
        exact ⟨p, hp, r, hmention, Scope.resolve_extends (hs₃.toExtends.scope _) hresolve⟩
    · exact keeps_modifyGeneric_advances _ fun _ => ⟨⟨rfl, rfl, rfl, rfl, rfl⟩, fun _ => id⟩
  · refine .quiet (fun s₂ _ hsourced => ?_) ?_ (fun _ _ _ _ _ _ _ _ _ => trivial)
      fun _ _ _ _ _ => trivial
    · exact hsourced.modifyGeneric _ (fun _ => ⟨rfl, rfl, rfl, rfl, rfl⟩) fun _ _ hsourced =>
        ⟨hsourced.key, hsourced.constraints⟩
    · exact keeps_modifyGeneric_advances _ fun _ => ⟨⟨rfl, rfl, rfl, rfl, rfl⟩, fun _ => id⟩

theorem safe_constrainGenerics (hresolver : setup.resolver = Resolver.default)
    (hp : p ∈ setup.types) {params : List GenericPlan}
    (hmentions : ∀ g ∈ params, ∀ r ∈ g.constraints, p.Mentions owner r)
    {pending : Array PendingGeneric} (hpends : ∀ item ∈ pending, Pends owner params item s) :
    (constrainGenerics setup (setup.blueprint.topLevel p) pending).Safe (setup.quietSide p)
      (fun _ _ => True) (fun _ _ => True) s := by
  unfold constrainGenerics
  refine Safe.forM_each fun item hitem s₁ hs₁ _ => ?_
  exact safe_constrainGeneric hresolver hp hmentions <|
    (hpends item (Array.mem_toList_iff.mp hitem)).mono (Setup.later_of_passes hs₁).toExtends

end Generics

/-! ## The hierarchy of a type -/

/-- The thread for a type may change the hierarchy of the type, if what it adds comes from the
plan. -/
theorem safe_modifyHierarchy (hp : p ∈ setup.types) {h : TypeHandle}
    (hlink : s.links.types.get? p.token = some h) {f : TypeDef → TypeDef}
    (hplace : ∀ t, TypeDef.SamePlace t (f t))
    (hmembers : ∀ (m : MemberSort) t, m.places.handles (f t) = m.places.handles t)
    (hf : ∀ s', s.Extends s' → Sourced setup s' →
      ∀ t, TypeSourced (s'.scope (setup.blueprint.topLevel p)) p t →
        TypeSourced (s'.scope (setup.blueprint.topLevel p)) p (f t)) :
    (liftM (Build.modifyType h f) : Thread Unit).Safe (setup.quietSide p) (fun _ _ => True)
      (fun _ _ => True) s := by
  refine .quiet (fun s₁ hs₁ hsourced => ?_) (keeps_modifyType_advances h hplace)
    (fun _ _ _ _ _ _ _ _ _ => trivial) fun _ _ _ _ _ => trivial
  refine hsourced.modifyType hplace (hmembers .method) fun q hq hqlink t _ ht => ?_
  obtain rfl := hsourced.plan_unique hp hq (hs₁.toExtends.links.types _ _ hlink) hqlink
  exact hf s₁ hs₁.toExtends hsourced t ht

/-- The parameters of a type are those that its plan's indices stand for. -/
theorem safe_declareTypeGenerics (hp : p ∈ setup.types) (hmakers : MakersOwn setup p none s) :
    (declareTypeGenerics setup p).Safe (setup.side p)
      (fun pending s => (∀ item ∈ pending, Pends (.type p.token) p.genericPlans item s) ∧
        MakersOwn setup p none s) (fun _ => MakersOwn setup p none) s := by
  unfold declareTypeGenerics
  refine ((safe_managedType hp).leavesMakers hmakers).bind ?_
  rintro ⟨h, t⟩ s₁ - - ⟨⟨hlink, hlisted⟩, hmakers₁⟩
  -- nothing pends where nothing is declared
  have hnothing : (pure #[] : Thread (Array PendingGeneric)).Safe (setup.side p)
      (fun pending s => (∀ item ∈ pending, Pends (.type p.token) p.genericPlans item s) ∧
        MakersOwn setup p none s) (fun _ => MakersOwn setup p none) s₁ :=
    Safe.pure fun s' hs' _ => ⟨by simp, hmakers₁.mono hs' fun _ => id⟩
  cases hgenerics : p.generics with
  | none => exact hnothing
  | some params =>
    have hplans : p.genericPlans = params.toList := by simp [TypePlan.genericPlans, hgenerics]
    rw [hplans]
    dsimp only
    split
    · exact hplans ▸ hnothing
    · refine (safe_declareGenerics hp .type t.generics params hmakers₁).bind ?_
      rintro ⟨listed, pending⟩ s₂ hs₂ - ⟨⟨objects, hobjects, rfl⟩, hpends, hmakers₂⟩
      have hgrown := (Setup.later_of_passes hs₂).toExtends
      have hmodify : (liftM (Build.modifyType h fun t' =>
          { t' with generics := objects.foldl listOnce t.generics }) : Thread Unit).Safe
            (setup.quietSide p) (fun _ _ => True) (fun _ _ => True) s₂ := by
        refine safe_modifyHierarchy hp (hgrown.links.types _ _ hlink)
          (fun _ => ⟨⟨rfl, rfl, rfl, rfl, rfl, rfl⟩, rfl⟩) (fun m _ => by cases m <;> rfl)
          fun s₃ hs₃ hsourced t' ht' => ?_
        refine ⟨ht'.token, ht'.base, ht'.interfaces, fun g hg => ?_, fun m => ?_⟩
        · -- it was listed before, or stands for one of the plans
          obtain ⟨index, hheld⟩ : ∃ index, s₂.registry.get? (setup.keyAt p index) = some g := by
            rcases mem_foldl_listOnce.mp hg with hold | hnew
            · obtain ⟨index, hheld⟩ := hlisted g hold
              exact ⟨index, hgrown.registry _ _ hheld⟩
            · obtain ⟨plan, -, hheld⟩ := exists_of_forall₂ hobjects.flip hnew
              exact ⟨plan.index, hheld⟩
          exact ⟨index, hsourced.key_eq p index ▸ hs₃.registry _ _ hheld⟩
        · cases m <;> exact ht'.members _
      refine (hmodify.leavesMakers hmakers₂).bind fun _ s₃ hs₃ _ ⟨_, hmakers₃⟩ => ?_
      refine Safe.pure fun s' hs' _ => ⟨fun item hitem => ?_, hmakers₃.mono hs' fun _ => id⟩
      exact (hpends item hitem).mono
        ((Setup.later_of_passes hs₃).toExtends.trans hs'.toExtends)

theorem keeps_noticeConfigured (h : TypeHandle) :
    Build.Keeps Allocates (Setup.noticeConfigured h) := by
  unfold Setup.noticeConfigured
  refine Build.Keeps.bind Build.Keeps.get fun s => ?_
  split
  · exact Build.Keeps.pure ()
  · exact keeps_notice _

/-- A type gets the base of its plan, unless it has one. -/
theorem safe_configureBase (hresolver : setup.resolver = Resolver.default) (hp : p ∈ setup.types)
    {h : TypeHandle} (hlink : s.links.types.get? p.token = some h) {base : TypeRef}
    (hbase : p.base = some base) :
    (configureBase setup (setup.blueprint.topLevel p) h base).Safe (setup.quietSide p)
      (fun _ _ => True) (fun _ _ => True) s := by
  unfold configureBase
  refine (safe_resolve hresolver _ base).bind fun sig s₁ hs₁ _ hresolve => ?_
  have hgrown := (Setup.later_of_passes hs₁).toExtends
  refine .quiet (fun s₂ hs₂ hsourced => ?_) (fun s₂ => ?_) (fun _ _ _ _ _ _ _ _ _ => trivial)
    fun _ _ _ _ _ => trivial
  -- the step is refused, or changes the type
  · rcases outcome_setBase h sig s₂ with hsame | hset
    · rwa [hsame]
    · rw [hset]
      refine hsourced.modifyType (fun _ => ⟨⟨rfl, rfl, rfl, rfl, rfl, rfl⟩, rfl⟩) (fun _ => rfl)
        fun q hq hqlink t _ ht => ?_
      obtain rfl := hsourced.plan_unique hp hq
        (hs₂.toExtends.links.types _ _ (hgrown.links.types _ _ hlink)) hqlink
      refine ⟨ht.token, fun sig' hsig' => ?_, ht.interfaces, ht.generics, fun m => ?_⟩
      · obtain rfl := Option.some.inj hsig'
        exact ⟨base, hbase, Scope.resolve_extends (hs₂.toExtends.scope _) hresolve⟩
      · cases m <;> exact ht.members _
  · rcases outcome_setBase h sig s₂ with hsame | hset
    · rw [hsame]
      exact .refl s₂
    · rw [hset]
      exact keeps_modifyType_advances h (f := fun t => { t with base := some sig })
        (fun _ => ⟨⟨rfl, rfl, rfl, rfl, rfl, rfl⟩, rfl⟩) s₂

/-- A type gets an interface of its plan. -/
theorem safe_configureInterface (hresolver : setup.resolver = Resolver.default)
    (hp : p ∈ setup.types) {h : TypeHandle} (hlink : s.links.types.get? p.token = some h)
    {interface : TypeRef} (hinterface : interface ∈ p.interfaces) :
    (configureInterface setup (setup.blueprint.topLevel p) h interface).Safe (setup.quietSide p)
      (fun _ _ => True) (fun _ _ => True) s := by
  unfold configureInterface
  refine (safe_resolve hresolver _ interface).bind fun sig s₁ hs₁ _ hresolve => ?_
  have hgrown := (Setup.later_of_passes hs₁).toExtends
  refine safe_modifyHierarchy hp (hgrown.links.types _ _ hlink)
    (fun _ => ⟨⟨rfl, rfl, rfl, rfl, rfl, rfl⟩, rfl⟩) (fun m _ => by cases m <;> rfl)
    fun s₂ hs₂ _ t ht => ?_
  refine ⟨ht.token, ht.base, fun sig' hsig' => ?_, ht.generics, fun m => ?_⟩
  · rcases Array.mem_push.mp hsig' with hold | rfl
    · exact ht.interfaces sig' hold
    · exact ⟨interface, hinterface, Scope.resolve_extends (hs₂.scope _) hresolve⟩
  · cases m <;> exact ht.members _

/-- A type gets the constraints, the base and the interfaces of its plan. -/
theorem safe_configure (hresolver : setup.resolver = Resolver.default) (hp : p ∈ setup.types)
    {pending : Array PendingGeneric}
    (hpends : ∀ item ∈ pending, Pends (.type p.token) p.genericPlans item s) :
    (configure setup p pending).Safe (setup.quietSide p) (fun _ _ => True) (fun _ _ => True) s := by
  unfold configure
  refine (safe_managedType hp).bind ?_
  -- the type stays linked all the while
  rintro ⟨h, t⟩ s₁ hs₁ - ⟨hlink, -⟩
  dsimp only at hlink ⊢
  split
  · exact quiet_notice _ _
  have hlink {s' : BuildState} (hs' : (setup.quietSide p).Passes s₁ s') :
      s'.links.types.get? p.token = some h :=
    (Setup.later_of_passes hs').toExtends.links.types _ _ hlink
  have hmentions : ∀ g ∈ p.genericPlans, ∀ r ∈ g.constraints, p.Mentions (.type p.token) r :=
    fun g hg r hr => .typeConstraint hg hr
  have hpends₁ := fun item hitem =>
    (hpends item hitem).mono (Setup.later_of_passes hs₁).toExtends
  refine (safe_constrainGenerics hresolver hp hmentions hpends₁).bind fun _ s₂ hs₂ _ _ => ?_
  have hbase : (p.base.forM (configureBase setup (setup.blueprint.topLevel p) h)).Safe
      (setup.quietSide p) (fun _ _ => True) (fun _ _ => True) s₂ := by
    cases hbase : p.base with
    | none => exact Safe.pure fun _ _ _ => trivial
    | some base => exact safe_configureBase hresolver hp (hlink hs₂) hbase
  refine hbase.bind fun _ s₃ hs₃ _ _ => ?_
  have hs₃ := hs₂.trans hs₃
  refine Safe.bind (P := fun _ _ => True) (Safe.forM_each fun interface hinterface s' hs' _ => ?_)
    fun _ s₄ hs₄ _ _ => ?_
  · exact safe_configureInterface hresolver hp (hlink (hs₃.trans hs'))
      (Array.mem_toList_iff.mp hinterface)
  have hmark : (liftM (Build.modifyType h fun t => { t with isConfigured := true }) :
      Thread Unit).Safe (setup.quietSide p) (fun _ _ => True) (fun _ _ => True) s₄ := by
    refine safe_modifyHierarchy hp (hlink (hs₃.trans hs₄))
      (fun _ => ⟨⟨rfl, rfl, rfl, rfl, rfl, rfl⟩, rfl⟩) (fun m _ => by cases m <;> rfl)
      fun _ _ _ t ht => ⟨ht.token, ht.base, ht.interfaces, ht.generics, fun m => ?_⟩
    cases m <;> exact ht.members _
  refine hmark.bind fun _ s₅ _ _ _ => ?_
  exact .idle ((keeps_noticeConfigured h).mono fun _ _ => .of_allocates)
    (fun _ _ _ _ _ _ _ _ _ => trivial) fun _ _ _ _ _ => trivial

/-! ## The members of a type -/

section Members

variable {site : MemberSite}

/-- A method lists what its plan's indices stand for. -/
theorem safe_makeMethodGenerics (hresolver : setup.resolver = Resolver.default)
    (hsite : site.topLevel = setup.blueprint.topLevel p) (hp : p ∈ setup.types) {m : MethodPlan}
    (hm : m ∈ p.methods) (hmakers : MakersOwn setup p none s) :
    (makeMethodGenerics setup site m).Safe (setup.side p)
      (fun listed s => (s.scope site.topLevel).Lists (m.generics.getD #[]).toList listed ∧
        MakersOwn setup p none s) (fun _ => MakersOwn setup p none) s := by
  unfold makeMethodGenerics
  split
  next hnone =>
    refine Safe.pure fun s' hs' _ => ⟨?_, hmakers.mono hs' fun _ => id⟩
    rw [hnone]
    exact ⟨[], .nil, rfl⟩
  next params hsome =>
    rw [hsite, hsome]
    refine (safe_declareGenerics hp (.method hm) #[] params hmakers).bind ?_
    rintro ⟨listed, pending⟩ s₁ - hsourced ⟨⟨objects, hobjects, rfl⟩, hpends, hmakers₁⟩
    have hlists : (s₁.scope (setup.blueprint.topLevel p)).Lists params.toList
        (objects.foldl listOnce #[]) := by
      refine ⟨objects, hobjects.imp fun g h hheld => ?_, foldl_listOnce objects⟩
      exact hsourced.key_eq p g.index ▸ hheld
    have hmentions : ∀ g ∈ params.toList, ∀ r ∈ g.constraints, p.Mentions (.method m.token) r :=
      fun g hg r hr => .methodConstraint hm (by rw [hsome]; exact hg) hr
    have hconstrain := safe_constrainGenerics hresolver hp hmentions hpends
    refine (hconstrain.leavesMakers hmakers₁).bind fun _ s₂ hs₂ _ ⟨_, hmakers₂⟩ => ?_
    have hgrown := (Setup.later_of_passes hs₂).toExtends
    exact Safe.pure fun s' hs' _ => ⟨hlists.mono ((hgrown.trans hs'.toExtends).scope _),
      hmakers₂.mono hs' fun _ => id⟩

/-- A parameter is made as planned, and stays so. -/
theorem safe_makeParam (method : String) (position : Nat) (q : ParamPlan) :
    (liftM (setup.makeParam site method position q) : Thread ParamHandle).Safe (setup.quietSide p)
      (fun h s => ∃ x, s.store.params.get? h = some x ∧ ParamMirrored q position x)
      (fun _ _ => True) s := by
  refine .idle ((keeps_makeParam site method position q).mono fun _ _ => .of_allocates)
    (fun s₁ h s₂ _ _ hrun s' hs' _ => ?_) fun _ _ _ _ _ => trivial
  obtain ⟨x, hx, hmirrored⟩ := yields_makeParam hrun
  exact ⟨x, hs'.toExtends.params.get?_eq hx, hmirrored⟩

/-- The types of parameters are resolved. -/
theorem safe_resolveParams (hresolver : setup.resolver = Resolver.default) (topLevel : Token)
    (params : List ParamPlan) :
    (params.mapM fun q => (liftM (setup.resolve topLevel q.type) : Thread Signature)).Safe
      (setup.quietSide p) (fun sigs s => List.Forall₂
        (fun q sig => (s.scope topLevel).resolve q.type = .ok sig) params sigs)
      (fun _ _ => True) s := by
  refine Safe.mapM_each (fun q sig s s' hs _ hsig => ?_) fun q _ s' => safe_resolve hresolver _ _
  exact Scope.resolve_extends ((Setup.later_of_passes hs).toExtends.scope _) hsig

/-- Parameters are made as planned. -/
theorem safe_makeParams (method : String) (params : List (ParamPlan × Nat)) :
    (params.mapM fun entry =>
      (liftM (setup.makeParam site method entry.2 entry.1) : Thread ParamHandle)).Safe
      (setup.quietSide p) (fun handles s => List.Forall₂ (fun entry h =>
        ∃ x, s.store.params.get? h = some x ∧ ParamMirrored entry.1 entry.2 x) params handles)
      (fun _ _ => True) s := by
  refine Safe.mapM_each (fun entry h s s' hs _ hmade => ?_) fun entry _ s' => safe_makeParam _ _ _
  obtain ⟨x, hx, hmirrored⟩ := hmade
  exact ⟨x, (Setup.later_of_passes hs).toExtends.params.get?_eq hx, hmirrored⟩

/-- The last step makes the method of what has been made before, and its stub. -/
theorem safe_finishMethod {m : MethodPlan} (hm : m ∈ p.methods) {generics : Array GenericHandle}
    {returnType : Signature} {paramTypes : List Signature} {params : List ParamHandle}
    (hgenerics : (s.scope site.topLevel).Lists m.genericPlans generics)
    (hreturn : (s.scope site.topLevel).resolve m.returnType = .ok returnType)
    (hparamTypes : List.Forall₂ (fun q sig => (s.scope site.topLevel).resolve q.type = .ok sig)
      m.params.toList paramTypes)
    (hparams : List.Forall₂ (fun entry h =>
      ∃ x, s.store.params.get? h = some x ∧ ParamMirrored entry.1 entry.2 x)
      m.params.toList.zipIdx params) :
    (liftM (Build.finishMethod
      { token := m.token, name := m.name, flags := m.flags, implFlags := m.implFlags
        signature :=
          { hasThis := !m.isStatic, genericCount := generics.size, returnType
            params := paramTypes }
        generics, params := params.toArray }) : Thread MethodHandle).Safe (setup.quietSide p)
      (fun h s => MemberSort.method.Sourced (s.scope site.topLevel) p m.token h)
      (fun _ _ => True) s := by
  refine .idle ?keeps (fun s₁ h s₂ hs₁ hsourced hrun s' hs' _ => ?_) fun _ _ _ _ _ => trivial
  case keeps => exact Build.Keeps.bind Build.Keeps.get fun _ => Idles.keeps_allocMethod _
  unfold Build.finishMethod at hrun
  rw [Build.yields_get_bind] at hrun
  have hlast := ((Idles.keeps_allocMethod _).of_yields hrun).toExtends.trans hs'.toExtends
  have hgrown := hs₁.toExtends.trans hlast
  have hreturn₁ := Scope.resolve_extends (hs₁.toExtends.scope _) hreturn
  refine ⟨m, hm, rfl, _, hs'.toExtends.methods.get?_eq (yields_allocMethod hrun), {
    token := rfl, name := rfl, flags := rfl, implFlags := rfl, hasThis := rfl
    genericCount := rfl
    returnType := Scope.resolve_extends (hlast.scope _) hreturn₁
    paramTypes := ?paramTypes
    params := ?params
    generics := hgenerics.mono (hgrown.scope _)
    body := ?body }⟩
  case paramTypes =>
    refine List.forall₂_map_left_iff.mpr (hparamTypes.imp fun q sig hsig => ?_)
    exact Scope.resolve_extends (hgrown.scope _) hsig
  case params =>
    refine hparams.imp fun entry h hx => ?_
    obtain ⟨x, hx, hmirrored⟩ := hx
    exact ⟨x, hgrown.params.get?_eq hx, hmirrored⟩
  case body =>
    -- the stub was made before the method, and looks the same behind it
    have hstub := stub_extends hlast hsourced.closed hreturn₁
    show _ = if _ then some (stub s'.store returnType) else none
    rw [hstub]
    rfl

/-- A method is made from its plan. -/
theorem safe_makeMethod (hresolver : setup.resolver = Resolver.default)
    (hsite : site.topLevel = setup.blueprint.topLevel p) (hp : p ∈ setup.types) {m : MethodPlan}
    (hm : m ∈ p.methods) (hmakers : MakersOwn setup p none s) :
    (makeMethod setup site m).Safe (setup.side p)
      (fun h s => MemberSort.method.Sourced (s.scope site.topLevel) p m.token h ∧
        MakersOwn setup p none s) (fun _ => MakersOwn setup p none) s := by
  unfold makeMethod
  refine (safe_makeMethodGenerics hresolver hsite hp hm hmakers).bind
    fun generics s₁ _ _ ⟨hgenerics, hmakers₁⟩ => ?_
  refine ((safe_resolve hresolver _ _).leavesMakers hmakers₁).bind
    fun returnType s₂ hs₂ _ ⟨hreturn, hmakers₂⟩ => ?_
  refine ((safe_resolveParams hresolver _ _).leavesMakers hmakers₂).bind
    fun paramTypes s₃ hs₃ _ ⟨hparamTypes, hmakers₃⟩ => ?_
  refine ((safe_makeParams _ _).leavesMakers hmakers₃).bind
    fun params s₄ hs₄ _ ⟨hparams, hmakers₄⟩ => ?_
  have hgrown₃ := (Setup.later_of_passes hs₄).toExtends
  have hgrown₂ := (Setup.later_of_passes hs₃).toExtends.trans hgrown₃
  have hgrown₁ := (Setup.later_of_passes hs₂).toExtends.trans hgrown₂
  refine (safe_finishMethod hm (hgenerics.mono (hgrown₁.scope _))
    (Scope.resolve_extends (hgrown₂.scope _) hreturn)
    (hparamTypes.imp fun q sig hsig => ?_) hparams).leavesMakers hmakers₄
  exact Scope.resolve_extends (hgrown₃.scope _) hsig

/-- A field is made from its plan. -/
theorem safe_makeField (hresolver : setup.resolver = Resolver.default) {f : FieldPlan}
    (hf : f ∈ p.fields) : (liftM (setup.makeField site f) : Thread FieldHandle).Safe
      (setup.quietSide p) (fun h s => MemberSort.field.Sourced (s.scope site.topLevel) p f.token h)
      (fun _ _ => True) s := by
  refine .idle ((keeps_makeField site f).mono fun _ _ => .of_allocates)
    (fun s₁ h s₂ _ _ hrun s' hs' _ => ?_) fun _ _ _ _ _ => trivial
  obtain ⟨d, hd, hmirrored⟩ := yields_makeField hresolver hrun
  exact ⟨f, hf, rfl, d, hs'.toExtends.fields.get?_eq hd,
    Scope.resolve_extends (hs'.toExtends.scope _) hmirrored.type⟩

/-- Wiring an accessor changes nothing. -/
theorem safe_wireAccessor (staged : Staged) (owner : String) (accessor : Accessor)
    (m : Option MethodPlan) :
    (liftM (Setup.wireAccessor staged owner accessor m) : Thread (Array Semantics)).Safe
      (setup.quietSide p) (fun _ _ => True) (fun _ _ => True) s :=
  .idle (keeps_wireAccessor staged owner accessor m) (fun _ _ _ _ _ _ _ _ _ => trivial)
    fun _ _ _ _ _ => trivial

/-- A property is made from its plan. -/
theorem safe_makeProperty (hresolver : setup.resolver = Resolver.default) (staged : Staged)
    {q : PropertyPlan} (hq : q ∈ p.properties) :
    (makeProperty setup site staged q).Safe (setup.quietSide p)
      (fun h s => MemberSort.property.Sourced (s.scope site.topLevel) p q.token h)
      (fun _ _ => True) s := by
  unfold makeProperty
  refine (safe_resolve hresolver _ _).bind fun type s₁ _ _ hresolve => ?_
  refine (safe_wireAccessor staged _ _ _).bind fun _ s₂ hs₂ _ _ => ?_
  refine (safe_wireAccessor staged _ _ _).bind fun _ s₃ hs₃ _ _ => ?_
  refine .idle ((keeps_allocProperty _).mono fun _ _ => .of_allocates)
    (fun s₄ h s₅ hs₄ _ hrun s' hs' _ => ?_) fun _ _ _ _ _ => trivial
  have hgrown := (((Setup.later_of_passes (hs₂.trans hs₃)).toExtends.trans hs₄.toExtends).trans
    ((keeps_allocProperty _).of_yields hrun).toExtends).trans hs'.toExtends
  exact ⟨q, hq, rfl, _, hs'.toExtends.properties.get?_eq (yields_allocProperty hrun),
    Scope.resolve_extends (hgrown.scope _) hresolve⟩

/-- An event is made from its plan. -/
theorem safe_makeEvent (hresolver : setup.resolver = Resolver.default) (staged : Staged)
    {e : EventPlan} (he : e ∈ p.events) :
    (makeEvent setup site staged e).Safe (setup.quietSide p)
      (fun h s => MemberSort.event.Sourced (s.scope site.topLevel) p e.token h)
      (fun _ _ => True) s := by
  unfold makeEvent
  refine (safe_resolve hresolver _ _).bind fun type s₁ _ _ hresolve => ?_
  refine (safe_wireAccessor staged _ _ _).bind fun _ s₂ hs₂ _ _ => ?_
  refine (safe_wireAccessor staged _ _ _).bind fun _ s₃ hs₃ _ _ => ?_
  refine (safe_wireAccessor staged _ _ _).bind fun _ s₄ hs₄ _ _ => ?_
  refine .idle ((keeps_allocEvent _).mono fun _ _ => .of_allocates)
    (fun s₅ h s₆ hs₅ _ hrun s' hs' _ => ?_) fun _ _ _ _ _ => trivial
  have hgrown := (((Setup.later_of_passes ((hs₂.trans hs₃).trans hs₄)).toExtends.trans
    hs₅.toExtends).trans ((keeps_allocEvent _).of_yields hrun).toExtends).trans hs'.toExtends
  exact ⟨e, he, rfl, _, hs'.toExtends.events.get?_eq (yields_allocEvent hrun),
    Scope.resolve_extends (hgrown.scope _) hresolve⟩

/-- All members of one sort, with their tokens, are made from their plans. -/
theorem safe_makeAll (topLevel : Token) {m : MemberSort} {β : Type} {plans : List β}
    {tokenOf : β → Token} {make : β → Thread (Handle m.kind)}
    (hmake : ∀ q ∈ plans, ∀ s', MakersOwn setup p none s' → (make q).Safe (setup.side p)
      (fun h s => m.Sourced (s.scope topLevel) p (tokenOf q) h ∧ MakersOwn setup p none s)
      (fun _ => MakersOwn setup p none) s') (hmakers : MakersOwn setup p none s) :
    (plans.mapM fun q => do pure (tokenOf q, ← make q)).Safe (setup.side p)
      (fun (es : List (Token × Handle m.kind)) s =>
        (∀ e ∈ es, m.Sourced (s.scope topLevel) p e.1 e.2) ∧ MakersOwn setup p none s)
      (fun _ => MakersOwn setup p none) s := by
  refine Safe.imp (Safe.mapM
    (P := fun _ (e : Token × Handle m.kind) s => m.Sourced (s.scope topLevel) p e.1 e.2)
    (J := MakersOwn setup p none) (fun q e s s' hs hsourced he => ?_) (fun s s' hs h => ?_) hmakers
    fun q hq s' _ _ hmakers' => ?_) (fun es s' _ _ ⟨hes, hmakers'⟩ => ?_) fun _ _ _ _ => id
  · exact he.mono (Setup.later_of_passes hs).toExtends hsourced.closed
  · exact h.mono hs fun _ => id
  · refine (hmake q hq s' hmakers').bind fun h s₁ _ hsourced ⟨hh, hmakers₁⟩ => ?_
    exact Safe.pure fun s₂ hs₂ _ => ⟨hh.mono hs₂.toExtends hsourced.closed,
      hmakers₁.mono hs₂ fun _ => id⟩
  · refine ⟨fun e he => ?_, hmakers'⟩
    obtain ⟨_, -, hsourced⟩ := exists_of_forall₂ hes.flip he
    exact hsourced

/-- All members of a type are made from its plan. -/
theorem safe_stage (hresolver : setup.resolver = Resolver.default)
    (hsite : site.topLevel = setup.blueprint.topLevel p) (hp : p ∈ setup.types)
    (hmakers : MakersOwn setup p none s) :
    (stage setup site p).Safe (setup.side p)
      (fun staged s => (∀ (m : MemberSort), ∀ e ∈ m.staged staged,
        m.Sourced (s.scope site.topLevel) p e.1 e.2) ∧ MakersOwn setup p none s)
      (fun _ => MakersOwn setup p none) s := by
  unfold stage
  refine (safe_makeAll site.topLevel (m := .field) (fun f hf s' hmakers' => ?_) hmakers).bind
    fun fields s₁ _ hsourced₁ ⟨hfields, hmakers₁⟩ => ?_
  · exact (safe_makeField hresolver (Array.mem_toList_iff.mp hf)).leavesMakers hmakers'
  refine (safe_makeAll site.topLevel (m := .method) (fun m hm s' hmakers' => ?_) hmakers₁).bind
    fun methods s₂ hs₂ hsourced₂ ⟨hmethods, hmakers₂⟩ => ?_
  · exact safe_makeMethod hresolver hsite hp (Array.mem_toList_iff.mp hm) hmakers'
  refine (safe_makeAll site.topLevel (m := .property) (fun q hq s' hmakers' => ?_) hmakers₂).bind
    fun properties s₃ hs₃ hsourced₃ ⟨hproperties, hmakers₃⟩ => ?_
  · exact (safe_makeProperty hresolver _ (Array.mem_toList_iff.mp hq)).leavesMakers
      hmakers'
  refine (safe_makeAll site.topLevel (m := .event) (fun e he s' hmakers' => ?_) hmakers₃).bind
    fun events s₄ hs₄ hsourced₄ ⟨hevents, hmakers₄⟩ => ?_
  · exact (safe_makeEvent hresolver _ (Array.mem_toList_iff.mp he)).leavesMakers hmakers'
  refine Safe.pure fun s' hs' _ => ⟨fun m e he => ?_, hmakers₄.mono hs' fun _ => id⟩
  have hgrown₄ := hs'.toExtends
  have hgrown₃ := (Setup.later_of_passes hs₄).toExtends.trans hgrown₄
  have hgrown₂ := (Setup.later_of_passes hs₃).toExtends.trans hgrown₃
  have hgrown₁ := (Setup.later_of_passes hs₂).toExtends.trans hgrown₂
  cases m with
  | field => exact (hfields e he).mono hgrown₁ hsourced₁.closed
  | method => exact (hmethods e he).mono hgrown₂ hsourced₂.closed
  | property => exact (hproperties e he).mono hgrown₃ hsourced₃.closed
  | event => exact (hevents e he).mono hgrown₄ hsourced₄.closed

end Members

/-! ## Publication -/

/-- Members of one sort that were made from a plan are published in the type of the plan, as far as
their tokens are free. -/
theorem safe_publishAll (hp : p ∈ setup.types) {m : MemberSort} {h : TypeHandle}
    (hlink : s.links.types.get? p.token = some h) (hclosed : s.RegistryClosed)
    {members : List (Token × Handle m.kind)}
    (hmembers : ∀ e ∈ members, m.Sourced (s.scope (setup.blueprint.topLevel p)) p e.1 e.2) :
    (members.forM fun e => (liftM (m.places.publish h e) : Thread Unit)).Safe (setup.quietSide p)
      (fun _ _ => True) (fun _ _ => True) s := by
  -- the token may have been taken in between; then nothing is published
  refine Safe.forM_each fun e he s₁ hs₁ _ => ?_
  have hgrown := (Setup.later_of_passes hs₁).toExtends
  refine .quiet (fun s₂ hs₂ hsourced => ?_) (fun s₂ => ?_) (fun _ _ _ _ _ _ _ _ _ => trivial)
    fun _ _ _ _ _ => trivial
  · have hgrown := hgrown.trans hs₂.toExtends
    obtain ⟨_, s₃, hrun⟩ | ⟨_, s₃, hrun⟩ := Build.yields_or_fails (m.places.publish h e) s₂
    · rw [hrun.outcome_snd]
      exact hsourced.publishOne hp (hgrown.links.types _ _ hlink)
        ((hmembers e he).mono hgrown hclosed) (yields_publishOne hrun)
    · rw [hrun.outcome_snd, fails_publishOne hrun]
      exact hsourced
  · obtain ⟨_, s₃, hrun⟩ | ⟨_, s₃, hrun⟩ := Build.yields_or_fails (m.places.publish h e) s₂
    · rw [hrun.outcome_snd]
      exact .of_publishes (yields_publishOne hrun)
    · rw [hrun.outcome_snd, fails_publishOne hrun]
      exact .refl s₂

/-- All staged members are published, as far as their tokens are free. -/
theorem safe_publish (hp : p ∈ setup.types) {h : TypeHandle}
    (hlink : s.links.types.get? p.token = some h) (hclosed : s.RegistryClosed) {staged : Staged}
    (hstaged : ∀ (m : MemberSort), ∀ e ∈ m.staged staged,
      m.Sourced (s.scope (setup.blueprint.topLevel p)) p e.1 e.2) :
    (publish h staged).Safe (setup.quietSide p) (fun _ _ => True) (fun _ _ => True) s := by
  unfold publish
  have htests : (staged.tests.findM? fun test =>
      (liftM (Build.lookUpTaken test.2) : Thread Bool)).Safe (setup.quietSide p)
        (fun _ _ => True) (fun _ _ => True) s := by
    refine Safe.findM? fun test _ s' _ _ => ?_
    exact .idle (Build.Keeps.bind Build.Keeps.get fun _ => Build.Keeps.pure _)
      (fun _ _ _ _ _ _ _ _ _ => trivial) fun _ _ _ _ _ => trivial
  refine htests.bind fun found s₁ hs₁ hsourced₁ _ => ?_
  cases found with
  | some test => exact Safe.throw fun _ _ _ => trivial
  | none =>
    have hgrown₁ := (Setup.later_of_passes hs₁).toExtends
    have hpublish (m : MemberSort) {s' : BuildState} (hs' : (setup.quietSide p).Passes s₁ s')
        (hclosed' : s'.RegistryClosed) : ((m.staged staged).forM fun e =>
          (liftM (m.places.publish h e) : Thread Unit)).Safe (setup.quietSide p)
            (fun _ _ => True) (fun _ _ => True) s' := by
      have hgrown := hgrown₁.trans (Setup.later_of_passes hs').toExtends
      exact safe_publishAll hp (hgrown.links.types _ _ hlink) hclosed'
        fun e he => (hstaged m e he).mono hgrown hclosed
    refine Safe.bind (hpublish .field .refl hsourced₁.closed) fun _ s₂ hs₂ hsourced₂ _ => ?_
    refine Safe.bind (hpublish .method hs₂ hsourced₂.closed) fun _ s₃ hs₃ hsourced₃ _ => ?_
    refine Safe.bind (hpublish .property (hs₂.trans hs₃) hsourced₃.closed)
      fun _ s₄ hs₄ hsourced₄ _ => ?_
    exact hpublish .event ((hs₂.trans hs₃).trans hs₄) hsourced₄.closed

/-- The members of a type are made and published. -/
theorem safe_populate (hresolver : setup.resolver = Resolver.default) (hp : p ∈ setup.types)
    (hmakers : MakersOwn setup p none s) :
    (populate setup p).Safe (setup.side p) (fun _ => MakersOwn setup p none)
      (fun _ => MakersOwn setup p none) s := by
  unfold populate
  refine ((safe_managedType hp).leavesMakers hmakers).bind ?_
  rintro ⟨h, t⟩ s₁ - - ⟨⟨hlink, -⟩, hmakers₁⟩
  have hname : (liftM (Build.lookUpFullName t) : Thread String).Safe (setup.quietSide p)
      (fun _ _ => True) (fun _ _ => True) s₁ :=
    .idle (Build.Keeps.bind Build.Keeps.get fun _ => Build.Keeps.pure _)
      (fun _ _ _ _ _ _ _ _ _ => trivial) fun _ _ _ _ _ => trivial
  refine (hname.leavesMakers hmakers₁).bind fun name s₂ hs₂ _ ⟨_, hmakers₂⟩ => ?_
  refine (safe_stage hresolver rfl hp hmakers₂).bind
    fun staged s₃ hs₃ hsourced₃ ⟨hstaged, hmakers₃⟩ => ?_
  have hlink₃ := (Setup.later_of_passes (hs₂.trans hs₃)).toExtends.links.types _ _ hlink
  have hpublish := safe_publish hp hlink₃ hsourced₃.closed hstaged
  refine (hpublish.leavesMakers hmakers₃).bind fun _ s₄ _ _ ⟨_, hmakers₄⟩ => ?_
  have htold : (liftM (Build.noticePopulated h) : Thread Unit).Safe (setup.quietSide p)
      (fun _ _ => True) (fun _ _ => True) s₄ :=
    .idle ((keeps_noticePopulated h).mono fun _ _ => .of_allocates)
      (fun _ _ _ _ _ _ _ _ _ => trivial) fun _ _ _ _ _ => trivial
  exact (htold.leavesMakers hmakers₄).imp (fun _ _ _ _ h => h.2) fun _ _ _ _ => id

theorem safe_populateType (hresolver : setup.resolver = Resolver.default) (hp : p ∈ setup.types)
    (hmakers : MakersOwn setup p none s) :
    (populateType setup p).Safe (setup.side p) (fun _ => MakersOwn setup p none)
      (fun _ => MakersOwn setup p none) s := by
  unfold populateType
  split
  · exact safe_notice _ hmakers
  · exact safe_inContext (safe_populate hresolver hp hmakers)

/-- The population of a type keeps to its terms also where its failure is recorded. -/
theorem safe_populateOrRecord (hresolver : setup.resolver = Resolver.default) (hp : p ∈ setup.types)
    (hmakers : MakersOwn setup p none s) :
    (populateOrRecord setup p).Safe (setup.side p) (fun _ => MakersOwn setup p none)
      (fun _ => MakersOwn setup p none) s := by
  unfold populateOrRecord
  split
  · refine (safe_populateType hresolver hp hmakers).tryCatch fun e s₁ _ _ hmakers₁ => ?_
    have hrecord : (liftM (Build.record e) : Thread Unit).Safe (setup.quietSide p)
        (fun _ _ => True) (fun _ _ => True) s₁ :=
      .quiet (fun s₂ _ hsourced => hsourced.of_failures _) (keeps_record_advances e)
        (fun _ _ _ _ _ _ _ _ _ => trivial) fun _ _ _ _ _ => trivial
    exact (hrecord.leavesMakers hmakers₁).imp (fun _ _ _ _ h => h.2) fun _ _ _ _ => id
  · exact safe_populateType hresolver hp hmakers

end Stepwise

end ClrImage
