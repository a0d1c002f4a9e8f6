import ClrImage.Proofs.Interference
import ClrImage.Proofs.Sources

/-!
# Types side by side

The terms on which types are processed side by side. The build goes on, and all that it holds comes
from plans; that much every thread relies on and guarantees. Moreover the thread for a type is the
only one to make parameters for the containers that stand in the plan of this type alone. So it
knows that those have owners, except for one that it has just made.

- `Advances`: what a step may change.
- `Setup.side`: the terms for the thread of a type, and `Setup.side_agree`: all types agree.
- `MakersOwn`: the parameters of a type have their makers as owners.
- `Thread.Safe.idle`, `Thread.Safe.keepsMakers`: steps and parts of threads that make no parameters.
-/

namespace ClrImage

/-! ## Terms -/

/-- The build has gone on, and the parameters that it has made were made for containers for which
`allowed` holds. -/
structure Advances (allowed : GenericOwner → Prop) (s s' : BuildState) : Prop where
  later : Later s s'
  nesting : SameNesting s s'
  made : ∀ h y, s.store.generics.get? h = none → s'.store.generics.get? h = some y →
    allowed y.declaredBy

namespace Advances

variable {allowed allowed' : GenericOwner → Prop} {s s₁ s' : BuildState}

theorem refl (s : BuildState) : Advances allowed s s :=
  ⟨.refl s, .refl s, fun _ _ hnone hy => by cases hnone.symm.trans hy⟩

theorem trans (h₁ : Advances allowed s s₁) (h₂ : Advances allowed s₁ s') :
    Advances allowed s s' where
  later := h₁.later.trans h₂.later
  nesting := h₁.nesting.trans h₂.nesting
  made h y hnone hy := by
    cases hx : s₁.store.generics.get? h with
    | none => exact h₂.made h y hx hy
    | some x =>
      obtain ⟨y', hy', halike⟩ := h₂.later.generics h x hx
      obtain rfl := Option.some.inj (hy.symm.trans hy')
      exact halike.declaredBy ▸ h₁.made h x hnone hx

instance : IsPreorder BuildState (Advances allowed) where
  refl := refl
  trans _ _ _ := trans

theorem mono (h : Advances allowed s s') (hallowed : ∀ o, allowed o → allowed' o) :
    Advances allowed' s s' :=
  ⟨h.later, h.nesting, fun g y hnone hy => hallowed _ (h.made g y hnone hy)⟩

theorem toExtends (h : Advances allowed s s') : s.Extends s' := h.later.toExtends

/-- Steps that make no parameter at all. -/
theorem of_nothingNew (hlater : Later s s') (hnesting : SameNesting s s')
    (hnew : ∀ h, s.store.generics.get? h = none → s'.store.generics.get? h = none) :
    Advances allowed s s' :=
  ⟨hlater, hnesting, fun h y hnone hy => by cases (hnew h hnone).symm.trans hy⟩

theorem of_idles (h : Idles s s') : Advances allowed s s' :=
  .of_nothingNew h.later (.stages h.toStages) fun _ hg => h.generics_eq ▸ hg

end Advances

/-- The container stands in the plan of this type, and of no other. -/
def Setup.OnlyIn (setup : Setup) (p : TypePlan) (owner : GenericOwner) : Prop :=
  p.Contains owner ∧ ∀ q ∈ setup.types, q.Contains owner → q = p

/-- The terms for the thread of a type, or for a part of it that makes parameters only for those
containers for which `makes` holds. -/
def Setup.sideMaking (setup : Setup) (p : TypePlan) (makes : GenericOwner → Prop) : Terms where
  invariant := Sourced setup
  rely := Advances fun owner => ¬ setup.OnlyIn p owner
  guarantee := Advances makes
  refl := .refl
  trans := .trans

/-- The terms for the thread of a type. -/
abbrev Setup.side (setup : Setup) (p : TypePlan) : Terms := setup.sideMaking p p.Contains

/-- The terms for a part of the thread that makes no parameters. -/
abbrev Setup.quietSide (setup : Setup) (p : TypePlan) : Terms := setup.sideMaking p fun _ => False

/-- Whatever has been done in between, the build has gone on. -/
theorem Setup.later_of_passes {setup : Setup} {p : TypePlan} {makes : GenericOwner → Prop}
    {s s' : BuildState} (h : (setup.sideMaking p makes).Passes s s') : Later s s' :=
  h.related (fun _ _ (h : Advances _ _ _) => h.later) fun _ _ (h : Advances _ _ _) => h.later

/-- All types agree on their terms. -/
theorem Setup.side_agree {setup : Setup} (hnodup : setup.types.Nodup) :
    Terms.Agree setup.side (Sourced setup) setup.types where
  invariant _ := rfl
  pairwise := by
    have hne : ∀ p ∈ setup.types, ∀ q ∈ setup.types, p ≠ q → ∀ s s',
        Advances p.Contains s s' → Advances (fun owner => ¬ setup.OnlyIn q owner) s s' :=
      fun p hp q _ hne s s' h => h.mono fun o ho honly => hne (honly.2 p hp ho)
    exact hnodup.pairwise_of_forall_ne fun p hp q hq hpq s s' _ =>
      ⟨hne p hp q hq hpq s s', hne q hq p hp (Ne.symm hpq) s s'⟩

/-! ## Owners -/

/-- A parameter that was made for a container in the plan of this type alone has this container as
an owner, except perhaps for one parameter and the container that it was made for. -/
def MakersOwn (setup : Setup) (p : TypePlan) (except : Option (GenericHandle × GenericOwner))
    (s : BuildState) : Prop :=
  ∀ h x, s.store.generics.get? h = some x → setup.OnlyIn p x.declaredBy →
    x.declaredBy ∈ x.owners ∨ except = some (h, x.declaredBy)

namespace MakersOwn

variable {setup : Setup} {p : TypePlan} {except : Option (GenericHandle × GenericOwner)}
  {allowed : GenericOwner → Prop} {s s' : BuildState} {h : GenericHandle} {owner : GenericOwner}

/-- Owners stay, and nobody else makes parameters for these containers. -/
theorem mono (hs : MakersOwn setup p except s) (hadvances : Advances allowed s s')
    (hallowed : ∀ o, allowed o → ¬ setup.OnlyIn p o) : MakersOwn setup p except s' := by
  intro g y hy honly
  cases hx : s.store.generics.get? g with
  -- a parameter that is new was made for another container
  | none => exact absurd honly (hallowed _ (hadvances.made g y hx hy))
  | some x =>
    obtain ⟨y', hy', hgains⟩ := hadvances.later.gains g x hx
    obtain rfl := Option.some.inj (hy.symm.trans hy')
    rw [hgains.declaredBy] at honly ⊢
    exact (hs g x hx honly).imp_left (hgains.owners _)

theorem but (hs : MakersOwn setup p none s) (except : Option (GenericHandle × GenericOwner)) :
    MakersOwn setup p except s := fun g x hx honly =>
  .inl ((hs g x hx honly).resolve_right nofun)

/-- When the owner has been recorded no parameter is excepted any more. -/
theorem record (hs : MakersOwn setup p (some (h, owner)) s)
    (howner : ∀ x, s.store.generics.get? h = some x → owner ∈ x.owners) :
    MakersOwn setup p none s := by
  intro g x hx honly
  rcases hs g x hx honly with hmem | hexcept
  · exact .inl hmem
  · obtain ⟨rfl, hdeclared⟩ := Prod.mk.inj (Option.some.inj hexcept)
    exact .inl (hdeclared ▸ howner x hx)

/-- The parameter that has just been made for a container is excepted. -/
theorem registerGeneric (hs : MakersOwn setup p none s) {key : GenericKey} (g : GenericPlan)
    {outcome : GenericHandle × Bool}
    (hrun : (Build.registerGeneric key owner g).Yields s outcome s') :
    MakersOwn setup p (some (outcome.1, owner)) s' := by
  cases hheld : s.registry.get? key with
  | some held =>
    obtain ⟨-, rfl⟩ := (registerGeneric_of_some hheld owner g).unique hrun
    exact hs.but _
  | none =>
    obtain ⟨rfl, rfl⟩ := (registerGeneric_of_none hheld owner g).unique hrun
    intro h x hx honly
    have hx : (s.store.generics.alloc _).get? h = some x := hx
    rw [Arena.get?_alloc] at hx
    split at hx
    next heq =>
      -- the parameter that has just been made
      obtain rfl := Option.some.inj hx
      exact .inr (heq ▸ rfl)
    next => exact hs.but _ h x hx honly

end MakersOwn

/-! ## Single steps -/

section Steps

variable {allowed : GenericOwner → Prop}

theorem keeps_registerGeneric_advances {owner : GenericOwner} (hallowed : allowed owner)
    (key : GenericKey) (g : GenericPlan) :
    Build.Keeps (Advances allowed) (Build.registerGeneric key owner g) := by
  refine fun s => ⟨AllowsCalls.registerGeneric key owner g s,
    AllowsCalls.registerGeneric key owner g s, fun h y hnone hy => ?_⟩
  obtain ⟨o, isNew, s', hrun, -⟩ := registerGeneric_registers (fun _ => key) owner g s
  rw [hrun.outcome_snd] at hy
  cases hheld : s.registry.get? key with
  | some held =>
    obtain ⟨-, rfl⟩ := (registerGeneric_of_some hheld owner g).unique hrun
    cases hnone.symm.trans hy
  | none =>
    obtain ⟨-, rfl⟩ := (registerGeneric_of_none hheld owner g).unique hrun
    have hy : (s.store.generics.alloc _).get? h = some y := hy
    rw [Arena.get?_alloc] at hy
    split at hy
    next =>
      obtain rfl := Option.some.inj hy
      exact hallowed
    next => cases hnone.symm.trans hy

theorem keeps_modifyGeneric_advances (h : GenericHandle) {f : GenericParam → GenericParam}
    (hf : ∀ x, GenericParam.Gains x (f x)) :
    Build.Keeps (Advances allowed) (Build.modifyGeneric h f) := fun s =>
  .of_nothingNew (AllowsCalls.modifyGeneric h f hf s) (AllowsCalls.modifyGeneric h f hf s)
    fun g hg => by
      show (s.store.generics.modify h f).get? g = none
      rw [Arena.get?_modify, hg, Option.map_none, ite_self]

theorem keeps_modifyType_advances (h : TypeHandle) {f : TypeDef → TypeDef}
    (hf : ∀ t, TypeDef.SamePlace t (f t)) :
    Build.Keeps (Advances allowed) (Build.modifyType h f) := fun s =>
  .of_nothingNew (AllowsCalls.modifyType h f hf s) (AllowsCalls.modifyType h f hf s) fun _ => id

theorem Advances.of_publishes {m : MemberSort} {type : TypeHandle} {e : Token × Handle m.kind}
    {s s' : BuildState} (h : Publishes m.places type [e] s s') : Advances allowed s s' :=
  .of_nothingNew (AllowsCalls.publishes m type e s s' h) (AllowsCalls.publishes m type e s s' h)
    fun g hg => by
      rw [h.store]
      exact hg

theorem keeps_record_advances (e : Failure) : Build.Keeps (Advances allowed) (Build.record e) :=
  fun s => .of_nothingNew (AllowsCalls.record e s) (AllowsCalls.record e s) fun _ => id

/-- Setting a base is changing a type, unless it is refused. -/
theorem outcome_setBase (h : TypeHandle) (base : Signature) (s : BuildState) :
    ((Build.setBase h base).outcome s).2 = s ∨ ((Build.setBase h base).outcome s).2 =
      ((Build.modifyType h fun t => { t with base := some base }).outcome s).2 := by
  unfold Build.setBase
  rw [Build.outcome_bind, Build.outcome_get]
  dsimp only
  rw [Build.outcome_bind, Build.outcome_liftExcept]
  rcases hset : s.store.setBase h base with e | store
  · exact .inl rfl
  unfold Store.setBase at hset
  split at hset
  next =>
    obtain rfl := Except.ok.inj hset
    exact .inl rfl
  next =>
    split at hset
    next => cases hset
    next =>
      obtain rfl := Except.ok.inj hset
      exact .inr rfl

end Steps

namespace Thread.Safe

variable {setup : Setup} {p : TypePlan} {α : Type} {P : α → BuildState → Prop}
  {E : Failure → BuildState → Prop} {t : Thread α} {s : BuildState}

/-- A step that makes no parameters. -/
theorem quiet {action : Build α}
    (hsourced : ∀ s₁, (setup.side p).rely s s₁ → Sourced setup s₁ →
      Sourced setup (action.outcome s₁).2)
    (hkeeps : Build.Keeps (Advances fun _ => False) action)
    (hP : ∀ s₁ a s₂, (setup.side p).rely s s₁ → Sourced setup s₁ → action.Yields s₁ a s₂ →
      ∀ s', (setup.side p).rely s₂ s' → Sourced setup s' → P a s')
    (hE : ∀ s₁ e s₂, action.Fails s₁ e s₂ → ∀ s', E e s') :
    (liftM action : Thread α).Safe (setup.quietSide p) P E s := by
  refine Safe.lift fun s₁ hs₁ hinv => ⟨hsourced s₁ hs₁ hinv, hkeeps s₁, ?_⟩
  exact fun s' hs' hinv' =>
    ⟨fun a ha => hP s₁ a _ hs₁ hinv (Prod.ext ha rfl) s' hs' hinv',
      fun e he => hE s₁ e _ (Prod.ext he rfl) s'⟩

/-- A step that only makes objects to which nothing leads. -/
theorem idle {action : Build α} (hkeeps : Build.Keeps Idles action)
    (hP : ∀ s₁ a s₂, (setup.side p).rely s s₁ → Sourced setup s₁ → action.Yields s₁ a s₂ →
      ∀ s', (setup.side p).rely s₂ s' → Sourced setup s' → P a s')
    (hE : ∀ s₁ e s₂, action.Fails s₁ e s₂ → ∀ s', E e s') :
    (liftM action : Thread α).Safe (setup.quietSide p) P E s :=
  .quiet (fun s₁ _ hinv => hinv.idles (hkeeps s₁)) (hkeeps.mono fun _ _ => .of_idles) hP hE

/-- A part of a thread that makes no parameters keeps the owners that makers are. -/
theorem keepsMakers {except : Option (GenericHandle × GenericOwner)}
    (h : t.Safe (setup.quietSide p) P E s) (hs : MakersOwn setup p except s) :
    t.Safe (setup.side p) (fun a s => P a s ∧ MakersOwn setup p except s)
      (fun e s => E e s ∧ MakersOwn setup p except s) s :=
  h.preserving hs (fun _ _ h => h.mono nofun) (fun _ _ h hs => hs.mono h fun _ => id)
    fun _ _ h hs => hs.mono h nofun

/-- In particular none is left without its maker, whatever the outcome. -/
theorem leavesMakers (h : t.Safe (setup.quietSide p) P (fun _ _ => True) s)
    (hs : MakersOwn setup p none s) :
    t.Safe (setup.side p) (fun a s => P a s ∧ MakersOwn setup p none s)
      (fun _ => MakersOwn setup p none) s :=
  (h.keepsMakers hs).imp (fun _ _ _ _ h => h) fun _ _ _ _ h => h.2

end Thread.Safe

end ClrImage
