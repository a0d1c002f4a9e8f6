import ClrImage.Proofs.Interference
import ClrImage.Proofs.Piecemeal

/-!
# Types apart

Where no two types plan a parameter with the same key, the second pass leaves everything alone for
one type that belongs to another: the object of the type, what its keys hold, and the parameters
that were made for it. So each thread relies on finding what belongs to its type as it has left it.

- `SparesType`: nothing that belongs to a type has changed.
- `StepsFor`: a step for a type, which spares all others.
- `Amid`: what holds at all times of the second pass, however far the types have come.
- `Setup.apart`: the terms for the thread of a type, and `Setup.apart_agree`: all types agree.
- `OnlyTells`, `Thread.Safe.tells`: steps that look something up and tell of it.
- `Stands.spared`: a type stays as far as it has come while others take steps.
-/

namespace ClrImage

/-! ## What belongs to a type -/

/-- Nothing that belongs to the type has changed. -/
structure SparesType (setup : Setup) (p : TypePlan) (s s' : BuildState) : Prop where
  grows : s.Extends s'
  type : ∀ h, s.links.types.get? p.token = some h →
    s'.store.types.get? h = s.store.types.get? h
  keys : ∀ g ∈ p.genericPlans,
    s'.registry.get? (setup.genericKey p g) = s.registry.get? (setup.genericKey p g)
  params : ∀ h x, s.store.generics.get? h = some x → x.declaredBy = .type p.token →
    s'.store.generics.get? h = some x

namespace SparesType

variable {setup : Setup} {p : TypePlan} {s s₁ s' : BuildState}

theorem refl (s : BuildState) : SparesType setup p s s :=
  ⟨.refl s, fun _ _ => rfl, fun _ _ => rfl, fun _ _ h _ => h⟩

theorem trans (h₁ : SparesType setup p s s₁) (h₂ : SparesType setup p s₁ s') :
    SparesType setup p s s' where
  grows := h₁.grows.trans h₂.grows
  type h hlink := (h₂.type h (h₁.grows.links.types _ _ hlink)).trans (h₁.type h hlink)
  keys g hg := (h₂.keys g hg).trans (h₁.keys g hg)
  params h x hx hdeclared := h₂.params h x (h₁.params h x hx hdeclared) hdeclared

end SparesType

/-- A step for a type, which spares all others. -/
structure StepsFor (setup : Setup) (p : TypePlan) (s s' : BuildState) : Prop where
  grows : s.Extends s'
  spares : ∀ q ∈ setup.types, q.token ≠ p.token → SparesType setup q s s'

/-- The terms for the thread of a type, where all threads keep the invariant `I`. -/
def Setup.apart (setup : Setup) (I : BuildState → Prop) (p : TypePlan) : Terms where
  invariant := I
  rely := SparesType setup p
  guarantee := StepsFor setup p
  refl := .refl
  trans := .trans

/-- All types agree on their terms. -/
theorem Setup.apart_agree {setup : Setup} (hnodup : (setup.types.map TypePlan.token).Nodup)
    (I : BuildState → Prop) : Terms.Agree (setup.apart I) I setup.types where
  invariant _ := rfl
  pairwise := by
    have htypes : setup.types.Nodup := hnodup.of_map TypePlan.token
    refine htypes.pairwise_of_forall_ne fun p hp q hq hne s s' _ => ?_
    have htoken : p.token ≠ q.token := fun heq => hne (List.inj_on_of_nodup_map hnodup hp hq heq)
    exact ⟨fun h => h.spares q hq htoken.symm, fun h => h.spares p hp htoken⟩

theorem Setup.extends_of_passes {setup : Setup} {I : BuildState → Prop} {p : TypePlan}
    {s s' : BuildState} (h : (setup.apart I p).Passes s s') : s.Extends s' := by
  induction h with
  | refl => exact .refl _
  | tail _ hstep ih => exact ih.trans (hstep.elim SparesType.grows StepsFor.grows)

/-! ## At all times -/

/-- What holds at all times of the second pass: types are as they were declared, and a key is held
only if a type plans a parameter with it. -/
structure Amid (setup : Setup) (s₀ s : BuildState) : Prop extends SinceDeclaration setup s₀ s where
  nesting : SameNesting s₀ s
  keys : ∀ key h, s.registry.get? key = some h →
    ∃ p ∈ setup.types, ∃ g, p.Describes g ∧ setup.genericKey p g = key

/-! ## Single steps -/

section Steps

variable {setup : Setup} {s₀ s : BuildState} {p : TypePlan}

theorem Amid.of_notices (h : Amid setup s₀ s) (notices : Array Notice) :
    Amid setup s₀ { s with notices } where
  toSinceDeclaration := h.toSinceDeclaration.onlyGenerics ⟨rfl, rfl, rfl, rfl⟩ rfl
  nesting := h.nesting.trans (.of_eq rfl rfl rfl)
  keys := h.keys

/-- Telling something is a step for any type. -/
theorem StepsFor.of_notices (s : BuildState) (notices : Array Notice) :
    StepsFor setup p s { s with notices } := by
  have hgrows : s.Extends { s with notices } := { BuildState.Extends.refl s with }
  exact ⟨hgrows, fun q _ _ => ⟨hgrows, fun _ _ => rfl, fun _ _ => rfl, fun _ _ h _ => h⟩⟩

/-- A parameter may be registered under a key that the type plans. -/
theorem Amid.registerGeneric (h : Amid setup s₀ s) (hp : p ∈ setup.types) {g : GenericPlan}
    (hg : g ∈ p.genericPlans) (owner : GenericOwner) :
    Amid setup s₀ ((Build.registerGeneric (setup.genericKey p g) owner g).outcome s).2 := by
  cases hheld : s.registry.get? (setup.genericKey p g) with
  | some held =>
    rw [(registerGeneric_of_some hheld owner g).outcome_snd]
    exact h
  | none =>
    have hnew := GenericRegistry.get?_offer_of_none hheld s.store.generics.next
    rw [(registerGeneric_of_none hheld owner g).outcome_snd]
    refine ⟨h.toSinceDeclaration.onlyGenerics ⟨rfl, rfl, rfl, rfl⟩ rfl,
      h.nesting.trans (.of_eq rfl rfl rfl), fun key o ho => ?_⟩
    have ho := (hnew key).symm.trans ho
    split at ho
    next heq =>
      obtain ⟨g', hdescribes, hindex⟩ := TypePlan.exists_describes hg
      exact ⟨p, hp, g', hdescribes, (Setup.genericKey_eq_iff.mpr hindex).trans heq.symm⟩
    next => exact h.keys key o ho

theorem StepsFor.registerGeneric (hseparate : setup.SeparateKeys) (hp : p ∈ setup.types)
    {g : GenericPlan} (hg : g ∈ p.genericPlans) (owner : GenericOwner) (s : BuildState) :
    StepsFor setup p s
      ((Build.registerGeneric (setup.genericKey p g) owner g).outcome s).2 := by
  cases hheld : s.registry.get? (setup.genericKey p g) with
  | some held =>
    rw [(registerGeneric_of_some hheld owner g).outcome_snd]
    exact ⟨.refl s, fun _ _ _ => .refl s⟩
  | none =>
    have hnew := GenericRegistry.get?_offer_of_none hheld s.store.generics.next
    have hgrows := (AllowsCalls.registerGeneric (R := Later) (setup.genericKey p g) owner g
      s).toExtends
    rw [(registerGeneric_of_none hheld owner g).outcome_snd] at hgrows ⊢
    refine ⟨hgrows, fun q hq hne => ⟨hgrows, fun _ _ => rfl, fun d hd => ?_, fun o x hx _ => ?_⟩⟩
    · refine (hnew _).trans (if_neg fun heq => hne ?_)
      exact hseparate (q, d) (Setup.mem_declarations.mpr ⟨hq, hd⟩) (p, g)
        (Setup.mem_declarations.mpr ⟨hp, hg⟩) heq
    · exact Arena.get?_alloc_of_some _ hx

/-- A parameter may be changed at any time. -/
theorem Amid.modifyGeneric (h : Amid setup s₀ s) (o : GenericHandle)
    (f : GenericParam → GenericParam) :
    Amid setup s₀ ((Build.modifyGeneric o f).outcome s).2 where
  toSinceDeclaration := h.toSinceDeclaration.onlyGenerics ⟨rfl, rfl, rfl, rfl⟩ rfl
  nesting := h.nesting.trans (.of_eq rfl rfl rfl)
  keys := h.keys

theorem StepsFor.modifyGeneric {o : GenericHandle} {f : GenericParam → GenericParam}
    (hmade : ∀ x, s.store.generics.get? o = some x → x.declaredBy = .type p.token)
    (halike : ∀ x, GenericParam.Alike x (f x)) :
    StepsFor setup p s ((Build.modifyGeneric o f).outcome s).2 := by
  have hgrows := (keeps_modifyGeneric o halike s).toExtends
  refine ⟨hgrows, fun q _ hne =>
    ⟨hgrows, fun _ _ => rfl, fun _ _ => rfl, fun h x hx hdeclared => ?_⟩⟩
  show (s.store.generics.modify o f).get? h = some x
  rw [Arena.get?_modify, if_neg, hx]
  rintro rfl
  exact hne (GenericOwner.type.inj (hdeclared.symm.trans (hmade x hx)))

/-- A type may be changed in its place at any time. -/
theorem Amid.modifyType (h : Amid setup s₀ s) (o : TypeHandle) {f : TypeDef → TypeDef}
    (hplace : ∀ t, TypeDef.SamePlace t (f t)) :
    Amid setup s₀ ((Build.modifyType o f).outcome s).2 where
  toSinceDeclaration :=
    h.toSinceDeclaration.changesType (.modifyType o f s) fun t => (hplace t).declaring
  nesting := h.nesting.trans (SameNesting.keeps_modifyType o hplace s)
  keys := h.keys

theorem StepsFor.modifyType (hs₀ : Declared setup s₀) (h : Amid setup s₀ s) (hp : p ∈ setup.types)
    {o : TypeHandle} (hlink : s.links.types.get? p.token = some o) {f : TypeDef → TypeDef}
    (hplace : ∀ t, TypeDef.SamePlace t (f t)) :
    StepsFor setup p s ((Build.modifyType o f).outcome s).2 := by
  have hgrows := (AllowsCalls.modifyType (R := Later) o f hplace s).toExtends
  refine ⟨hgrows, fun q hq hne => ⟨hgrows, fun g hg => ?_, fun _ _ => rfl, fun _ _ hx _ => hx⟩⟩
  show (s.store.types.modify o f).get? g = s.store.types.get? g
  rw [Arena.get?_modify, if_neg]
  rintro rfl
  rw [h.links] at hlink hg
  exact hne (hs₀.token_injective hq hp hg hlink)

end Steps

/-! ## Steps that only tell -/

/-- Nothing has changed but what has been told. -/
def OnlyTells (s s' : BuildState) : Prop := ∃ notices, s' = { s with notices }

instance : IsPreorder BuildState OnlyTells where
  refl s := ⟨s.notices, rfl⟩
  trans := by
    rintro s _ _ ⟨_, rfl⟩ ⟨notices, rfl⟩
    exact ⟨notices, rfl⟩

theorem OnlyTells.of_notices {s s' : BuildState} (h : OnlyTells s s') (notices : Array Notice) :
    OnlyTells s { s' with notices } := by
  obtain ⟨_, rfl⟩ := h
  exact ⟨notices, rfl⟩

theorem keeps_notice_onlyTells (n : Notice) : Build.Keeps OnlyTells (Build.notice n) :=
  fun _ => ⟨_, rfl⟩

theorem SparesType.of_notices {setup : Setup} {p : TypePlan} (s : BuildState)
    (notices : Array Notice) : SparesType setup p s { s with notices } :=
  ⟨{ BuildState.Extends.refl s with }, fun _ _ => rfl, fun _ _ => rfl, fun _ _ h _ => h⟩

namespace Thread.Safe

variable {setup : Setup} {p : TypePlan} {I : BuildState → Prop} {s : BuildState}

/-- A step that looks something up and tells of it. It counts among the steps that spare its own
type. -/
theorem tells {α : Type} {action : Build α} {P : α → BuildState → Prop}
    {E : Failure → BuildState → Prop} (hI : ∀ s notices, I s → I { s with notices })
    (hkeeps : Build.Keeps OnlyTells action)
    (hP : ∀ s₁ a s₂, SparesType setup p s s₁ → I s₁ → action.Yields s₁ a s₂ →
      ∀ s', SparesType setup p s s' → SparesType setup p s₁ s' → I s' → P a s')
    (hE : ∀ s₁ e s₂, SparesType setup p s s₁ → I s₁ → action.Fails s₁ e s₂ →
      ∀ s', SparesType setup p s s' → I s' → E e s') :
    (liftM action : Thread α).Safe (setup.apart I p) P E s := by
  refine Safe.lift fun s₁ hs₁ hinv => ?_
  obtain ⟨notices, htold⟩ := hkeeps s₁
  have hown : SparesType setup p s₁ (action.outcome s₁).2 := by
    rw [htold]
    exact .of_notices s₁ notices
  refine ⟨htold ▸ hI s₁ notices hinv, htold ▸ .of_notices s₁ notices, fun s' hs' hinv' => ?_⟩
  have hspared := hown.trans hs'
  exact ⟨fun a ha => hP s₁ a _ hs₁ hinv (Prod.ext ha rfl) s' (hs₁.trans hspared) hspared hinv',
    fun e he => hE s₁ e _ hs₁ hinv (Prod.ext he rfl) s' (hs₁.trans hspared) hinv'⟩

/-- The type of a plan is found as it is. -/
theorem managedType (hI : ∀ s notices, I s → I { s with notices })
    {h : TypeHandle} {t : TypeDef}
    (hlink : s.links.types.get? p.token = some h) (ht : s.store.types.get? h = some t) :
    (liftM (Build.managedType p) : Thread (TypeHandle × TypeDef)).Safe (setup.apart I p)
      (fun entry s' => entry = (h, t) ∧ SparesType setup p s s') (fun _ _ => False) s := by
  have hyields {s₁ : BuildState} (hs₁ : SparesType setup p s s₁) :
      (Build.managedType p).Yields s₁ (h, t) s₁ :=
    Build.yields_managedType.mpr
      ⟨hs₁.grows.links.types _ _ hlink, (hs₁.type h hlink).trans ht, rfl⟩
  refine .tells hI keeps_managedType (fun s₁ entry s₂ hs₁ _ hrun s' hs' _ _ => ?_)
    fun s₁ e s₂ hs₁ _ hrun => absurd hrun (hyields hs₁).not_fails
  obtain ⟨rfl, -⟩ := (hyields hs₁).unique hrun
  exact ⟨rfl, hs'⟩

/-- Telling something never fails. -/
theorem notice (hI : ∀ s notices, I s → I { s with notices })
    (n : Notice) :
    (liftM (Build.notice n) : Thread Unit).Safe (setup.apart I p)
      (fun _ s' => SparesType setup p s s') (fun _ _ => False) s :=
  .tells hI (keeps_notice_onlyTells n) (fun _ _ _ _ _ _ _ hs' _ _ => hs')
    fun _ _ _ _ _ hrun => (Build.fails_modify.mp hrun).elim

/-- A failure is told, and gets the context of the type. -/
theorem inContext {α : Type} {t : Thread α} {P : α → BuildState → Prop} {E : Failure → Prop}
    {phase : Phase} (hI : ∀ s notices, I s → I { s with notices })
    (h : t.Safe (setup.apart I p) P (fun e _ => E e) s) :
    (Stepwise.inContext setup phase p t).Safe (setup.apart I p) P
      (fun e _ => ∃ source, E source ∧ e = setup.failureIn phase p source) s := by
  refine h.tryCatch fun source s₁ _ _ hsource => ?_
  have hfail : (liftM (setup.fail phase p source) : Thread Failure).Safe (setup.apart I p)
      (fun e _ => ∃ source, E source ∧ e = setup.failureIn phase p source)
      (fun e _ => ∃ source, E source ∧ e = setup.failureIn phase p source) s₁ := by
    refine .tells hI (Build.Keeps.bind (keeps_notice_onlyTells _) fun _ => .pure _)
      (fun s₂ e s₃ _ _ hrun _ _ _ _ => ⟨source, hsource, ?_⟩) fun s₂ e s₃ _ _ hrun => nomatch hrun
    exact (Except.ok.inj (Prod.mk.inj hrun).1).symm
  exact hfail.bind fun e s₂ _ _ he => Safe.throw fun _ _ _ => he

/-- A thread that does not fail needs no context. -/
theorem inContext_of_succeeds {α : Type} {t : Thread α} {P : α → BuildState → Prop} {phase : Phase}
    (hI : ∀ s notices, I s → I { s with notices })
    (h : t.Safe (setup.apart I p) P (fun _ _ => False) s) :
    (Stepwise.inContext setup phase p t).Safe (setup.apart I p) P (fun _ _ => False) s := by
  refine (inContext (E := fun _ => False) hI h).imp (fun _ _ _ _ => id) ?_
  rintro _ _ - - ⟨_, hfalse, -⟩
  exact hfalse

end Thread.Safe

/-! ## How far a type has come -/

namespace Stands

variable {setup : Setup} {p : TypePlan} {progress : Progress} {s s' : BuildState}

/-- It stays so while others take steps. -/
theorem spared (h : Stands setup p progress s) (hs : SparesType setup p s s') :
    Stands setup p progress s' where
  type := by
    obtain ⟨o, t, hlink, ht, hof⟩ := h.type
    exact ⟨o, t, hs.grows.links.types _ _ hlink, (hs.type o hlink).trans ht, hof.mono hs.grows⟩
  params g hg := by
    have hparam := h.params g hg
    refine hparam.mono hs.grows (hs.keys g (List.mem_of_find?_eq_some hg)) fun o ho x hx => ?_
    refine hs.params o x hx ?_
    -- a key that is held belongs to a type that has come further than its declaration
    have hfurther : progress ≠ .declared := by
      rintro rfl
      cases ho.symm.trans hparam
    obtain ⟨o', x', ho', hx', hmade, -⟩ := hparam.exists hfurther
    obtain rfl := Option.some.inj (ho.symm.trans ho')
    obtain rfl := Option.some.inj (hx.symm.trans hx')
    exact hmade.declaredBy

end Stands

/-- Types that have come so far each are all there is, at all times. -/
theorem Amid.piecemeal {setup : Setup} {s₀ s : BuildState} (h : Amid setup s₀ s)
    {progress : Token → Progress} (hfurther : ∀ p ∈ setup.types, progress p.token ≠ .declared)
    (hstands : ∀ p ∈ setup.types, Stands setup p (progress p.token) s) :
    Piecemeal setup s₀ progress s where
  toSinceDeclaration := h.toSinceDeclaration
  nesting := h.nesting
  types p hp := (hstands p hp).type
  params p hp := (hstands p hp).params
  keys key o ho := by
    obtain ⟨p, hp, hrest⟩ := h.keys key o ho
    exact ⟨p, hp, hfurther p hp, hrest⟩

namespace Piecemeal

variable {setup : Setup} {s₀ s : BuildState} {progress : Token → Progress} {p : TypePlan}

theorem amid (h : Piecemeal setup s₀ progress s) : Amid setup s₀ s where
  toSinceDeclaration := h.toSinceDeclaration
  nesting := h.nesting
  keys key o ho := by
    obtain ⟨p, hp, -, hrest⟩ := h.keys key o ho
    exact ⟨p, hp, hrest⟩

end Piecemeal

end ClrImage
